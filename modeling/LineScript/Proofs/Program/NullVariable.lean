import LineScript.Proofs.Program.Labels
import LineScript.Proofs.Program.MemoryInvariant
import LineScript.Proofs.Program.Steps

namespace LineScript

-- The variables that a statement may assign. A READ assigns that of its file too, at the end.
def Statement.targets (s : Statement) : List Token :=
  match s.operation with
  | .null | .label | .write | .print | .scopeOpen | .scopeClose | .wait | .goto | .exit
  | .error => []
  | .testGreaterThan | .testLessThan | .testEqual | .testNotEqual => [⟨.name, Scope.result⟩]
  | .read => [s.primary.getD .null, s.secondary.getD .null]
  | _ => [s.primary.getD .null]

-- The name of the null value is a variable like any other.
def Scope.nothing : String := "null"

namespace Memory

variable {memory next : Memory}

def NullIsNull (memory : Memory) : Prop :=
  ∀ scope ∈ memory.scopes, scope.get? Scope.nothing = some .null

namespace NullIsNull

theorem plain_eq (h : memory.NullIsNull) : memory.plain Scope.nothing = .null := by
  have hkey : key Scope.nothing = Scope.nothing := by decide +kernel
  have hcurrent := h memory.current List.mem_cons_self
  simp [plain, hkey, hcurrent]

theorem store (h : memory.NullIsNull) {name : String} (hname : key name ≠ Scope.nothing)
    (value : Value) : (memory.store name value).NullIsNull := by
  obtain ⟨hcurrent, hparents⟩ := List.forall_mem_cons.mp h
  have hinsert : (memory.current.insert (key name) value).get? Scope.nothing = some .null := by
    rw [Scope.get?_insert, if_neg (Ne.symm hname), hcurrent]
  exact List.forall_mem_cons.mpr ⟨hinsert, hparents⟩

-- An item of `null` cannot be assigned, as there is none.
theorem write (h : memory.NullIsNull) {text : String} {value : Value} {create : Bool}
    (htext : key text ≠ Scope.nothing) (hwrite : memory.write text value create = .ok next) :
    next.NullIsNull := by
  obtain ⟨path, stored, hpath, hassign, rfl⟩ := write_eq_ok hwrite
  refine h.store ?_ stored
  intro hkey
  have hnull : memory.plain (Name.ofText text).base = .null := by
    rw [plain, hkey, h memory.current List.mem_cons_self, Option.getD_some]
  rw [hnull] at hassign
  cases path with
  | nil =>
      have hplain := List.length_eq_zero_iff.mp (length_resolve hpath).symm
      rw [Name.base_of_plain hplain] at hkey
      exact htext hkey
  | cons place rest => cases hassign

theorem deliver (h : memory.NullIsNull) {deliveries : List Delivery}
    (htargets : ∀ delivery ∈ deliveries, key delivery.target.text ≠ Scope.nothing) :
    (memory.deliver deliveries).1.NullIsNull := by
  apply deliver_preserves NullIsNull _ h
  intro delivery hmem memory next hmemory hwrite
  exact hmemory.write (htargets delivery hmem) hwrite

theorem openScope (h : memory.NullIsNull) : memory.openScope.NullIsNull := by
  refine List.forall_mem_cons.mpr ⟨?_, h⟩
  have hargument : Scope.nothing ≠ Scope.argument := by decide
  change (Scope.insert Scope.fresh Scope.argument _).get? Scope.nothing = some .null
  rw [Scope.get?_insert, if_neg hargument]
  rfl

theorem closeScope (h : memory.NullIsNull) (hclose : memory.closeScope = .ok next) :
    next.NullIsNull := by
  obtain ⟨parent, others, hparents, rfl⟩ := closeScope_eq_ok hclose
  have hall := (List.forall_mem_cons.mp h).2
  rw [hparents] at hall
  obtain ⟨hparent, hothers⟩ := List.forall_mem_cons.mp hall
  have hreturned : Scope.nothing ≠ Scope.returned := by decide
  refine List.forall_mem_cons.mpr ⟨?_, hothers⟩
  rw [Scope.get?_insert, if_neg hreturned, hparent]

end NullIsNull

end Memory

namespace Machine

variable {m : Machine} {s : Statement} {a b : Value}

-- What an operation writes goes to the variables that its statement names.
theorem Delivers.target_mem {deliveries : List Delivery}
    (h : m.Delivers s (s.primary.getD .null) a b deliveries) :
    ∀ delivery ∈ deliveries, delivery.target ∈ s.targets := by
  unfold Statement.targets
  cases h with
  | computed hcomputed =>
      cases hs : s.operation <;> simp [hs, Operation.computed?] at hcomputed ⊢
  | tested htested => cases hs : s.operation <;> simp [hs, Operation.tested?] at htested ⊢
  | opened hs => rcases hs with hs | hs <;> simp [hs]
  | drawn hs | closed hs | line hs | ended hs | replied hs => simp [hs]

theorem Deed.nullIsNull {after : Own} {outcome : Except Fault Unit} (hmemory : m.memory.NullIsNull)
    (htargets : ∀ target ∈ s.targets, Memory.key target.text ≠ Scope.nothing)
    (h : m.Deed s (s.primary.getD .null) a b after outcome) : after.memory.NullIsNull := by
  cases h with
  | opened => exact hmemory.openScope
  | closed _ hclose => exact hmemory.closeScope hclose
  | delivered hdelivers =>
      exact hmemory.deliver fun delivery hmem =>
        htargets delivery.target (hdelivers.target_mem delivery hmem)
  | _ => exact hmemory

theorem nullIsNull_step (hmemory : m.memory.NullIsNull)
    (htargets : ∀ target ∈ s.targets, Memory.key target.text ≠ Scope.nothing) :
    (m.step s).1.memory.NullIsNull := by
  rw [memory_step]
  rcases m.execute_cases s with ⟨e, _, hfail⟩ | ⟨a, b, _, _, hdeed⟩
  · rw [hfail]
    exact hmemory
  · exact hdeed.nullIsNull hmemory htargets

end Machine

namespace Program

variable {program : Program}

theorem nullIsNull_load (world : World)
    (hlabels : ∀ label ∈ program.labels, Memory.key label.1 ≠ Scope.nothing) :
    (program.load world).memory.NullIsNull := by
  have hbound (labels : List (String × Nat)) (memory : Memory) (h : memory.NullIsNull)
      (hroot : memory.parents = [])
      (hlabels : ∀ label ∈ labels, Memory.key label.1 ≠ Scope.nothing) :
      (labels.foldl (fun memory label => memory.bindLabel label.1 label.2) memory).NullIsNull := by
    induction labels generalizing memory with
    | nil => exact h
    | cons label rest ih =>
        obtain ⟨hlabel, hrest⟩ := List.forall_mem_cons.mp hlabels
        rw [List.foldl_cons, Memory.bindLabel_of_root hroot]
        exact ih _ (h.store hlabel _) hroot hrest
  have hfresh : Memory.fresh.NullIsNull := by
    refine List.forall_mem_cons.mpr ⟨rfl, ?_⟩
    simp [Memory.fresh]
  exact hbound program.labels .fresh hfresh rfl hlabels

-- `null` stays null in every scope as long as no label is called so and no statement that was
-- executed assigns it. Nothing forbids that: with a label of that name it is an integer from the
-- beginning, and a SET gives it any value.
theorem null_is_null_until_assigned (program : Program) (world : World) :
    (∀ n, (∀ label ∈ program.labels, Memory.key label.1 ≠ "null") →
      (∀ step ∈ program.steps n (program.load world), ∀ target ∈ step.2.targets,
        Memory.key target.text ≠ "null") →
      let memory := (program.drive n (program.load world)).1.memory
      memory.read "null" = .ok .null ∧
        ∀ scope ∈ memory.current :: memory.parents, scope.get? "null" = some .null) ∧
    ((∃ label ∈ program.labels, Memory.key label.1 = "null") →
      ∃ n, (program.load world).memory.read "null" = .ok (.integer n)) ∧
    ∀ (m : Machine) (s : Statement) (target : Token) (value : Value), s.operation = .set →
      s.primary = some target → target.kind = .name → (Name.ofText target.text).accessors = [] →
      Memory.key target.text = "null" → m.memory.evaluateOperand s.secondary = .ok value →
      (m.step s).1.memory.read "null" = .ok value := by
  have hkey : Memory.key "null" = "null" := by decide +kernel
  refine ⟨?_, ?_, ?_⟩
  · intro n hlabels hsteps memory
    have hnull : memory.NullIsNull := by
      apply steps_preserve (fun m => m.memory.NullIsNull)
      · intro m s hm
        rwa [m.memory_announce s]
      · intro step hstep hm
        exact Machine.nullIsNull_step hm (hsteps step hstep)
      · exact nullIsNull_load world hlabels
    exact ⟨congrArg Except.ok hnull.plain_eq, hnull⟩
  · rintro ⟨label, hlabel, hname⟩
    rcases Memory.plain_bindLabels .fresh program.labels rfl "null" with
      ⟨bound, _, _, hvalue⟩ | ⟨hnone, _⟩
    · exact ⟨_, congrArg Except.ok hvalue⟩
    · exact absurd (hname.trans hkey.symm) (hnone label hlabel)
  · intro m s target value hs hprimary hkind hplain hname hvalue
    have hbase : (Name.ofText target.text).base = target.text := Name.base_of_plain hplain
    have htarget : m.memory.evaluate (s.primary.getD .null) = .ok (m.memory.plain target.text) := by
      rw [hprimary]
      exact Memory.evaluate_of_plain hkind hplain
    have hperform : m.perform s target (m.memory.plain target.text) value =
        Machine.done { m with memory := m.memory.store target.text value } := by
      rw [Machine.perform_set hs, Machine.store, Memory.write, if_pos hplain, hbase]
      rfl
    have hmemory : (m.step s).1.memory = m.memory.store target.text value := by
      rw [Machine.step_eq_settle, m.execute_of_operands s htarget hvalue, hprimary,
        Option.getD_some, hperform]
      exact Machine.memory_release _ _
    have hread : (m.memory.store target.text value).plain "null" = value := by
      rw [Memory.plain_store, if_pos (hkey.trans hname.symm)]
    rw [hmemory]
    exact congrArg Except.ok hread

-- A program that reads `null` and opens a scope, one with a label of that name, and a SET of it.
theorem null_is_null_in_both_scopes :
    (∃ program, compile "SET x TO (null, 1)\nSCOPE OPEN\nSET y TO null" = .ok program ∧
      let memory := (program.drive 4 (program.load .blank)).1.memory
      memory.read "null" = .ok .null ∧ memory.depth = 2 ∧
        ∀ scope ∈ memory.current :: memory.parents, scope.get? "null" = some .null) ∧
    (∃ program n, compile "^Null:" = .ok program ∧
      (program.load .blank).memory.read "null" = .ok (.integer n)) ∧
    ((Machine.start .blank).step
        ⟨.set, some ⟨.name, "NULL"⟩, some ⟨.string, "\"x\""⟩, "SET NULL TO \"x\""⟩).1.memory.read
      "null" = .ok (.string "x") := by
  refine ⟨?_, ?_, ?_⟩
  · have hrun : (compile "SET x TO (null, 1)\nSCOPE OPEN\nSET y TO null").toOption.any
        (fun program => program.labels.isEmpty &&
          (program.steps 4 (program.load .blank)).all (fun step =>
            step.2.targets.all fun target => Memory.key target.text ≠ "null") &&
          (program.drive 4 (program.load .blank)).1.memory.depth = 2) = true := by
      decide +kernel
    obtain ⟨program, hprogram, hchecked⟩ := (Option.any_eq_true _ _).mp hrun
    simp only [Bool.and_eq_true, List.isEmpty_iff, List.all_eq_true, decide_eq_true_eq] at hchecked
    obtain ⟨⟨hlabels, hsteps⟩, hdepth⟩ := hchecked
    obtain ⟨hread, hscopes⟩ :=
      (null_is_null_until_assigned program .blank).1 4 (by simp [hlabels]) hsteps
    exact ⟨program, toOption_eq_some.mp hprogram, hread, hdepth, hscopes⟩
  · have hlabel : (compile "^Null:").toOption.any (fun program =>
        program.labels.any fun label => Memory.key label.1 = "null") = true := by
      decide +kernel
    obtain ⟨program, hprogram, hany⟩ := (Option.any_eq_true _ _).mp hlabel
    simp only [List.any_eq_true, decide_eq_true_eq] at hany
    obtain ⟨n, hn⟩ := (null_is_null_until_assigned program .blank).2.1 hany
    exact ⟨program, n, toOption_eq_some.mp hprogram, hn⟩
  · refine (null_is_null_until_assigned endlessLoop .blank).2.2 _ _ ⟨.name, "NULL"⟩ _ rfl rfl rfl
      (by decide +kernel) (by decide +kernel) ?_
    change Memory.evaluate _ ⟨.string, "\"x\""⟩ = _
    rw [Memory.evaluate]
    rfl

-- After an assignment the name stands for another value, in a list too.
theorem assigned_null_is_another_value :
    ∃ program value, compile "SET null TO 5\nPRINT (null, 1)" = .ok program ∧
      (program.drive 2 (program.load .blank)).1.memory.read "null" = .ok value ∧
      value.type = .integer ∧
      (program.run 4 .blank).1.console.output = Text.encode "( 5, 1 )\n" := by
  have hrun : (compile "SET null TO 5\nPRINT (null, 1)").toOption.any (fun program =>
      ((program.drive 2 (program.load .blank)).1.memory.read "null").toOption.any (fun value =>
        value.type = .integer) &&
      (program.run 4 .blank).1.console.output = Text.encode "( 5, 1 )\n") = true := by
    decide +kernel
  obtain ⟨program, hprogram, hchecked⟩ := (Option.any_eq_true _ _).mp hrun
  simp only [Bool.and_eq_true, decide_eq_true_eq] at hchecked
  obtain ⟨hread, houtput⟩ := hchecked
  obtain ⟨value, hvalue, htype⟩ := (Option.any_eq_true _ _).mp hread
  exact ⟨program, value, toOption_eq_some.mp hprogram, toOption_eq_some.mp hvalue,
    of_decide_eq_true htype, houtput⟩

end Program

end LineScript
