import LineScript.Proofs.Machine.Failure

namespace LineScript

-- The operations that need their target to be there already. A READ needs the variable of its
-- file, which it clears at the end.
def Operation.updates : Operation → Bool
  | .add | .subtract | .multiply | .divide | .power | .modulus | .logarithm
  | .bitwiseAnd | .bitwiseOr | .bitwiseXor | .bitwiseNegate | .round | .append
  | .close | .read => true
  | _ => false

-- The failure to index a variable that is not there.
def RuntimeError.isOfIndexing : RuntimeError → Bool
  | .notIndexable _ | .invalidIndex _ => true
  | _ => false

-- The variable a name begins with was never assigned.
def Memory.Unbound (memory : Memory) (name : String) : Prop :=
  memory.current.get? (Memory.key (Name.ofText name).base) = none

namespace Memory

variable {memory : Memory} {token : Token}

theorem evaluate_of_plain (hkind : token.kind = .name)
    (hplain : (Name.ofText token.text).accessors = []) :
    memory.evaluate token = .ok (memory.plain token.text) := by
  rw [evaluate_name hkind, read_of_plain hplain]

theorem evaluate_of_itemless (hkind : token.kind = .name)
    (hindexed : (Name.ofText token.text).accessors ≠ [])
    (h : ∀ index indexed, (memory.plain (Name.ofText token.text).base).element index indexed =
      .error (.notIndexable indexed)) :
    ∃ e, memory.evaluate token = .error e ∧ e.isOfIndexing = true := by
  rw [evaluate_name hkind]
  rcases read_of_itemless hindexed h with ⟨indexed, he⟩ | ⟨index, he⟩
  · exact ⟨_, he, rfl⟩
  · exact ⟨_, he, rfl⟩

theorem Unbound.plain_eq_null {name : String} (h : memory.Unbound name) :
    memory.plain (Name.ofText name).base = .null := by
  rw [plain, h, Option.getD_none]

end Memory

theorem Operation.computed_of_updates {operation : Operation} (h : operation.updates = true)
    (hclose : operation ≠ .close) (hread : operation ≠ .read) (opened : Handle → Bool)
    (room : Nat) (a b : Value) :
    ∃ result, operation.computed? opened room a b = some (false, result) := by
  cases operation <;> simp_all [Operation.updates, Operation.computed?]

namespace Machine

variable {m : Machine} {s : Statement} {line : String}

-- An update does nothing with a null but fail.
theorem perform_null (h : s.operation.updates = true) (target : Token) (b : Value) :
    ∃ e, (m.perform s target .null b).2 = .error (.error e) ∧ e.isOfNull = true := by
  by_cases hclose : s.operation = .close
  · refine ⟨.wrongType .file .null, ?_, rfl⟩
    rw [perform_close hclose]
    rfl
  · by_cases hread : s.operation = .read
    · refine ⟨.wrongType .reader .null, ?_, rfl⟩
      rw [perform_read hread]
      rfl
    · obtain ⟨result, hresult⟩ :=
        Operation.computed_of_updates h hclose hread m.world.opened m.world.room .null b
      obtain ⟨e, rfl, he⟩ := Operation.computed_null hresult
      refine ⟨e, ?_, he⟩
      rw [perform_computed hresult]
      rfl

theorem execute_of_unbound_update (hline : Statement.read line = .ok s) {target : Token}
    (hupdates : s.operation.updates = true) (hprimary : s.primary = some target)
    (hplain : (Name.ofText target.text).accessors = [])
    (hunbound : m.memory.Unbound target.text) :
    ∃ e, (m.execute s).2 = .error (.error e) ∧
      (m.memory.evaluateOperand s.secondary = .error e ∨
        (∃ b, m.memory.evaluateOperand s.secondary = .ok b) ∧ e.isOfNull = true) := by
  have hslot : Slot.primary [.name] ∈ s.operation.form := by
    revert hupdates
    generalize s.operation = operation
    cases operation <;> decide
  obtain ⟨token, htoken, hkind⟩ := Statement.primary_of_read hline hslot
  rw [hprimary] at htoken
  cases htoken
  have hnull : m.memory.evaluate (s.primary.getD .null) = .ok .null := by
    have hvalue := hunbound.plain_eq_null
    rw [Name.base_of_plain hplain] at hvalue
    rw [hprimary, Option.getD_some, Memory.evaluate_of_plain hkind hplain, hvalue]
  cases hb : m.memory.evaluateOperand s.secondary with
  | error e =>
      rw [m.execute_of_secondary_error s hnull hb]
      exact ⟨e, rfl, .inl rfl⟩
  | ok b =>
      rw [m.execute_of_operands s hnull hb]
      obtain ⟨e, houtcome, he⟩ := perform_null (m := m) hupdates (s.primary.getD .null) b
      exact ⟨e, houtcome, .inr ⟨⟨b, rfl⟩, he⟩⟩

theorem evaluate_of_unbound {target : Token} (hkind : target.kind = .name)
    (hindexed : (Name.ofText target.text).accessors ≠ [])
    (hunbound : m.memory.Unbound target.text) :
    ∃ e, m.memory.evaluate target = .error e ∧ e.isOfIndexing = true := by
  refine Memory.evaluate_of_itemless hkind hindexed fun index indexed => ?_
  rw [hunbound.plain_eq_null]
  rfl

-- No statement fails because a variable is not there. An update of a variable that is not there
-- fails on the null it reads as, unless the other operand cannot be looked up; and an indexed
-- target that begins with such a variable cannot be looked up itself.
theorem execute_never_misses_variable (m : Machine) {line : String} {s : Statement}
    (hline : Statement.read line = .ok s) :
    (∀ name, (m.execute s).2 ≠ .error (.error (.unboundVariable name))) ∧
    (∀ target, s.operation.updates = true → s.primary = some target →
      (Name.ofText target.text).accessors = [] → m.memory.Unbound target.text →
      ∃ e, (m.execute s).2 = .error (.error e) ∧
        (m.memory.evaluateOperand s.secondary = .error e ∨
          (∃ b, m.memory.evaluateOperand s.secondary = .ok b) ∧ e.isOfNull = true)) ∧
    (∀ target, s.primary = some target → target.kind = .name →
      (Name.ofText target.text).accessors ≠ [] → m.memory.Unbound target.text →
      ∃ e, (m.execute s).2 = .error (.error e) ∧ e.isOfIndexing = true) ∧
    (∀ target, s.operation = .read → s.secondary = some target →
      (Name.ofText target.text).accessors ≠ [] → m.memory.Unbound target.text →
      ∃ e, (m.execute s).2 = .error (.error e) ∧
        (m.memory.evaluate (s.primary.getD .null) = .error e ∨
          (∃ a, m.memory.evaluate (s.primary.getD .null) = .ok a) ∧ e.isOfIndexing = true)) := by
  refine ⟨?_, ?_, ?_, ?_⟩
  · intro name h
    rcases execute_error hline h with hoperational | htext
    · cases hoperational
    · cases htext
  · intro target hupdates hprimary hplain hunbound
    exact execute_of_unbound_update hline hupdates hprimary hplain hunbound
  · intro target hprimary hkind hindexed hunbound
    obtain ⟨e, he, hindexing⟩ := evaluate_of_unbound hkind hindexed hunbound
    refine ⟨e, ?_, hindexing⟩
    rw [m.execute_of_primary_error s (by rw [hprimary]; exact he)]
    rfl
  · intro target hs hsecondary hindexed hunbound
    obtain ⟨token, htoken, hkind⟩ := Statement.secondary_of_read hline (by rw [hs]; decide)
    rw [hsecondary] at htoken
    cases htoken
    obtain ⟨e, he, hindexing⟩ := evaluate_of_unbound hkind hindexed hunbound
    have hoperand : m.memory.evaluateOperand s.secondary = .error e := by
      rw [hsecondary]
      exact he
    cases ha : m.memory.evaluate (s.primary.getD .null) with
    | error e' =>
        rw [m.execute_of_primary_error s ha]
        exact ⟨e', rfl, .inl rfl⟩
    | ok a =>
        rw [m.execute_of_secondary_error s ha hoperand]
        exact ⟨e, rfl, .inr ⟨⟨a, rfl⟩, hindexing⟩⟩

theorem addition_fails_on_null :
    ∃ s, Statement.read "ADD 1 TO y" = .ok s ∧
      (∀ name, ((Machine.start .blank).execute s).2 ≠ .error (.error (.unboundVariable name))) ∧
      ∃ e, ((Machine.start .blank).execute s).2 = .error (.error e) ∧ e.isOfNull = true := by
  have hline : Statement.read "ADD 1 TO y" =
      .ok ⟨.add, some ⟨.name, "y"⟩, some ⟨.number, "1"⟩, "ADD 1 TO y"⟩ := by
    decide +kernel
  obtain ⟨hnever, hupdate, _⟩ := (Machine.start .blank).execute_never_misses_variable hline
  obtain ⟨e, he, hnull⟩ := hupdate ⟨.name, "y"⟩ rfl rfl (by decide) rfl
  refine ⟨_, hline, hnever, e, he, (hnull.resolve_left fun hoperand => ?_).2⟩
  change Memory.evaluate _ ⟨.number, "1"⟩ = _ at hoperand
  rw [Memory.evaluate] at hoperand
  cases hoperand

-- A machine that has taken in one text.
def textHolder : Machine :=
  { Machine.start .blank with memory := Memory.fresh.store "s" (.string "ab"), ip := 1 }

-- Another operand that cannot be looked up is what the failure is about, where the target of an
-- addition or of a READ is not there.
theorem other_operand_fails_first :
    (∃ s, Statement.read "SET s TO \"ab\"" = .ok s ∧
      (Machine.start .blank).step s = textHolder.done) ∧
    (∃ s, Statement.read "ADD x@0 TO y" = .ok s ∧ s.operation.updates = true ∧
      s.primary = some ⟨.name, "y"⟩ ∧ (Name.ofText "y").accessors = [] ∧
      textHolder.memory.Unbound "y" ∧
      ∃ e, (textHolder.execute s).2 = .error (.error e) ∧ e.isOfNull = false) ∧
    ∃ s, Statement.read "READ y@0 FROM s@9" = .ok s ∧ s.secondary = some ⟨.name, "y@0"⟩ ∧
      (Name.ofText "y@0").accessors ≠ [] ∧ textHolder.memory.Unbound "y@0" ∧
      ∃ e, (textHolder.execute s).2 = .error (.error e) ∧ e.isOfIndexing = false := by
  have hset : Statement.read "SET s TO \"ab\"" =
      .ok ⟨.set, some ⟨.name, "s"⟩, some ⟨.string, "\"ab\""⟩, "SET s TO \"ab\""⟩ := by
    decide +kernel
  have hadd : Statement.read "ADD x@0 TO y" =
      .ok ⟨.add, some ⟨.name, "y"⟩, some ⟨.name, "x@0"⟩, "ADD x@0 TO y"⟩ := by
    decide +kernel
  have hread : Statement.read "READ y@0 FROM s@9" =
      .ok ⟨.read, some ⟨.name, "y@0"⟩, some ⟨.name, "s@9"⟩, "READ y@0 FROM s@9"⟩ := by
    decide +kernel
  have hnew : (Machine.start .blank).memory.evaluate ⟨.name, "s"⟩ = .ok .null := by
    rw [Memory.evaluate_name rfl]
    rfl
  have hletters : (Machine.start .blank).memory.evaluate ⟨.string, "\"ab\""⟩ =
      .ok (.string "ab") := by
    rw [Memory.evaluate]
    rfl
  have hrelease (leaving : List Handle) :
      { textHolder with ip := 0 }.release leaving = { textHolder with ip := 0 } :=
    if_neg (by decide +kernel)
  have hexecute : (Machine.start .blank).execute
      ⟨.set, some ⟨.name, "s"⟩, some ⟨.string, "\"ab\""⟩, "SET s TO \"ab\""⟩ =
        done { textHolder with ip := 0 } := by
    refine (execute_of_operands (Machine.start .blank)
      ⟨.set, some ⟨.name, "s"⟩, some ⟨.string, "\"ab\""⟩, _⟩ hnew hletters).trans ?_
    exact congrArg done (hrelease _)
  have htarget : textHolder.memory.evaluate ⟨.name, "y"⟩ = .ok .null := by
    rw [Memory.evaluate_name rfl]
    rfl
  have hoperand : textHolder.memory.evaluate ⟨.name, "x@0"⟩ = .error (.notIndexable "x") := by
    rw [Memory.evaluate_name rfl]
    rfl
  have hfile : textHolder.memory.evaluate ⟨.name, "s@9"⟩ =
      .error (.outOfRange (.integer 9) .index) := by
    rw [Memory.evaluate_name rfl]
    rfl
  refine ⟨⟨_, hset, ?_⟩, ⟨_, hadd, rfl, rfl, by decide, rfl, .notIndexable "x", ?_, rfl⟩,
    ⟨_, hread, rfl, by decide, rfl, .outOfRange (.integer 9) .index, ?_, rfl⟩⟩
  · rw [step, hexecute]
    rfl
  · exact congrArg Prod.snd (execute_of_secondary_error textHolder
      ⟨.add, some ⟨.name, "y"⟩, some ⟨.name, "x@0"⟩, "ADD x@0 TO y"⟩ htarget hoperand)
  · exact congrArg Prod.snd (execute_of_primary_error textHolder
      ⟨.read, some ⟨.name, "y@0"⟩, some ⟨.name, "s@9"⟩, "READ y@0 FROM s@9"⟩ hfile)

end Machine

end LineScript
