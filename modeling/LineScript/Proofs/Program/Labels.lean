import LineScript.Proofs.Machine.Unbound
import LineScript.Proofs.Program.Compilation
import LineScript.Proofs.Program.ControlFlow
import LineScript.Proofs.Statement.Jump
import LineScript.Proofs.Token.Case
import LineScript.Proofs.Text.Lowercase

namespace LineScript

namespace Memory

-- A key is a name too, and its own key.
theorem key_key (name : String) : key (key name) = key name := Text.lowercase_lowercase name

-- In the root scope a name has the number of a label that is called so, or if there is none, the
-- value it had before the labels were bound.
theorem plain_bindLabels (memory : Memory) (labels : List (String × Nat))
    (hroot : memory.parents = []) (name : String) :
    let bound := labels.foldl (fun memory label => memory.bindLabel label.1 label.2) memory
    (∃ label ∈ labels, key label.1 = key name ∧
        bound.plain name = .integer (Number.saturate label.2)) ∨
      (∀ label ∈ labels, key label.1 ≠ key name) ∧ bound.plain name = memory.plain name := by
  induction labels generalizing memory with
  | nil => exact .inr ⟨List.forall_mem_nil _, rfl⟩
  | cons label rest ih =>
      have hlater := ih (memory.store label.1 (.integer (Number.saturate label.2))) hroot
      rw [List.foldl_cons, bindLabel_of_root hroot]
      dsimp only at hlater ⊢
      rcases hlater with ⟨later, hmem, hkey, hvalue⟩ | ⟨hnone, hvalue⟩
      · exact .inl ⟨later, List.mem_cons_of_mem _ hmem, hkey, hvalue⟩
      · rw [plain_store] at hvalue
        split_ifs at hvalue with hkey
        · exact .inl ⟨label, List.mem_cons_self, hkey.symm, hvalue⟩
        · exact .inr ⟨List.forall_mem_cons.mpr ⟨fun h => hkey h.symm, hnone⟩, hvalue⟩

theorem itemless_fresh (name : String) (index : Value) (indexed : String) :
    (fresh.plain name).element index indexed = .error (.notIndexable indexed) := by
  unfold plain fresh Scope.fresh
  simp only [Scope.get?_cons]
  split_ifs
  all_goals rfl

end Memory

-- The name of a label is all there is to look up.
theorem Statement.label_of_read {line : String} {s : Statement}
    (h : Statement.read line = .ok s) (hs : s.operation = .label) :
    ∃ tokens token, Token.readAll line = .ok tokens ∧ token ∈ tokens ∧ token.kind = .name ∧
      s.operand1 = some token ∧ s.primary = some token ∧ s.secondary = none := by
  have hslot : Slot.primary [.name] ∈ s.operation.form := by
    rw [hs]
    decide
  obtain ⟨token, hprimary, hkind⟩ := Statement.primary_of_read h hslot
  obtain ⟨tokens, htokens, hmem, _⟩ := Statement.slot_of_read h (.inl hprimary)
  obtain ⟨_, hfilled⟩ := Statement.filled_of_read h hslot
  rw [hs] at hfilled
  have hoperand : s.operand1 = s.primary := by rw [Statement.primary, hs]
  refine ⟨tokens, token, htokens, hmem, hkind, hoperand.trans hprimary, hprimary, ?_⟩
  exact hfilled.secondary_eq_none (by simp [Operation.form, Slot.mark])

namespace Program

variable {program : Program} {k : Nat} {s : Statement}

-- No variable of a program that has not begun has items.
theorem itemless_load (program : Program) (world : World) (name : String) (index : Value)
    (indexed : String) :
    ((program.load world).memory.plain name).element index indexed =
      .error (.notIndexable indexed) := by
  rcases Memory.plain_bindLabels .fresh program.labels rfl name with
    ⟨label, _, _, hvalue⟩ | ⟨_, hvalue⟩
  · exact congrArg (Value.element · index indexed) hvalue
  · exact (congrArg (Value.element · index indexed) hvalue).trans (Memory.itemless_fresh _ _ _)

-- The name of a label has the number of its line. The table is already in lower case, and the
-- labels are put into memory by names that are lower-cased again.
theorem Holds.plain_load {lines : List String} {name : String}
    (h : Holds lines lines.length program) (hname : Declares lines k name) (world : World) :
    (program.load world).memory.plain name = .integer (Number.saturate k) := by
  rcases Memory.plain_bindLabels .fresh program.labels rfl name with
    ⟨label, hlabel, hkey, hvalue⟩ | ⟨hnone, _⟩
  · obtain ⟨_, other, hother, hsame⟩ := (h.label label.1 label.2).mp hlabel
    rw [← hsame, Memory.key_key] at hkey
    rw [h.declared_once hname.lt_length hother.lt_length hname hother hkey.symm]
    exact hvalue
  · have hmem := (h.label (Memory.key name) k).mpr ⟨hname.lt_length, name, hname, rfl⟩
    exact (hnone _ hmem (Memory.key_key name)).elim

-- A label can be jumped to from the beginning of its program, and does nothing itself, unless its
-- name has accessors. With these it reads as an item of another variable, which has none yet, so
-- that it can neither be jumped to nor passed.
theorem label_is_target_unless_indexed {source : String} (world : World)
    (h : compile source = .ok program) (hs : program.statements[k]? = some s)
    (hlabel : s.operation = .label) :
    let start := program.load world
    ∃ token jump, s.operand1 = some token ∧ token.kind = .name ∧
      Statement.read ("GOTO " ++ token.text ++ " IF 1") = .ok jump ∧
      ((Name.ofText token.text).accessors = [] →
        ((k : Int) ≤ Int64.maxValue.toInt →
          ∃ n : Int64, start.memory.evaluate token = .ok (.integer n) ∧ n.toInt = k) ∧
        ((k : Int) ≤ Int32.maxValue.toInt → start.step jump = Machine.done { start with ip := k }) ∧
        ∀ m : Machine, m.Reachable → m.step s = Machine.done { m with ip := m.ip + 1 }) ∧
      ((Name.ofText token.text).accessors ≠ [] →
        ∃ e, e.isOfIndexing = true ∧ start.memory.evaluate token = .error e ∧
          start.step jump = start.fail e ∧ start.step s = start.fail e) := by
  intro start
  have hholds := holds_of_compile h
  obtain ⟨line, hline, hread⟩ := hholds.statement_iff.mp hs
  obtain ⟨tokens, token, htokens, hmem, hkind, hoperand, hprimary, hsecondary⟩ :=
    Statement.label_of_read hread hlabel
  obtain ⟨jump, hjump, hgoto, htarget, hcondition⟩ := Statement.read_jumpLine htokens hmem hkind
  refine ⟨token, jump, hoperand, hkind, hjump, ?_, ?_⟩
  · intro hplain
    have hdeclares : Declares (sourceLines source) k token.text :=
      ⟨line, s, hline, hread, hlabel, token, hoperand, rfl⟩
    have hnumber : start.memory.evaluate token = .ok (.integer (Number.saturate k)) := by
      rw [Memory.evaluate_of_plain hkind hplain, hholds.plain_load hdeclares world]
    refine ⟨?_, ?_, ?_⟩
    · intro hk
      exact ⟨_, hnumber, Number.toInt_saturate hk⟩
    · intro hk
      have hfits : Int32.maxValue.toInt ≤ Int64.maxValue.toInt := by decide
      have hlast := Machine.lastTarget_eq
      have hvalue : start.memory.evaluate (jump.primary.getD .null) =
          .ok (.integer (Number.saturate k)) := by
        rw [htarget]
        exact hnumber
      have hone : start.memory.evaluateOperand jump.secondary = .ok (.integer 1) := by
        rw [hcondition, Memory.evaluateOperand, Memory.evaluate]
        rfl
      have hnat := Number.toInt_saturate (Int.le_trans hk hfits)
      exact Machine.step_goto hgoto rfl hvalue hnat (by omega) hone (by decide)
    · intro m hm
      have hvalue : m.memory.evaluate (s.primary.getD .null) = .ok (m.memory.plain token.text) := by
        rw [hprimary]
        exact Memory.evaluate_of_plain hkind hplain
      exact Machine.step_label hlabel hm.jump_eq_none hvalue hsecondary
  · intro hindexed
    obtain ⟨e, he, hindexing⟩ :=
      Memory.evaluate_of_itemless hkind hindexed (program.itemless_load world _)
    refine ⟨e, hindexing, he, ?_, ?_⟩
    · exact Machine.step_of_primary_error (by rw [htarget]; exact he)
    · exact Machine.step_of_primary_error (by rw [hprimary]; exact he)

theorem second_label_is_target :
    ∃ program jump, compile "^a:\n ^Loop : # here\n^a@0:" = .ok program ∧
      Statement.read "GOTO Loop IF 1" = .ok jump ∧
      (program.load .blank).step jump = Machine.done { program.load .blank with ip := 2 } := by
  have hstatements : (compile "^a:\n ^Loop : # here\n^a@0:").toOption.bind (·.statements[2]?) =
      some ⟨.label, some ⟨.name, "Loop"⟩, none, " ^Loop : # here"⟩ := by
    decide +kernel
  obtain ⟨program, hprogram, hs⟩ := Option.bind_eq_some_iff.mp hstatements
  have hcompile := toOption_eq_some.mp hprogram
  obtain ⟨token, jump, htoken, _, hjump, htarget, _⟩ :=
    label_is_target_unless_indexed .blank hcompile hs rfl
  cases htoken
  exact ⟨program, jump, hcompile, hjump, (htarget (by decide)).2.1 (by decide)⟩

-- A label with an accessor on its first line is as far as a program gets.
theorem indexed_label_fails :
    ∃ program s e, compile "^a@0:\nPRINT 1" = .ok program ∧ program.statements[1]? = some s ∧
      s.operation = .label ∧ s.operand1 = some ⟨.name, "a@0"⟩ ∧
      (program.load .blank).memory.evaluate ⟨.name, "a@0"⟩ = .error e ∧
      (program.load .blank).step s = (program.load .blank).fail e := by
  have hstatements : (compile "^a@0:\nPRINT 1").toOption.bind (·.statements[1]?) =
      some ⟨.label, some ⟨.name, "a@0"⟩, none, "^a@0:"⟩ := by
    decide +kernel
  obtain ⟨program, hprogram, hs⟩ := Option.bind_eq_some_iff.mp hstatements
  have hname : ∃ e, (program.load .blank).memory.evaluate ⟨.name, "a@0"⟩ = .error e ∧
      e.isOfIndexing = true :=
    Memory.evaluate_of_itemless rfl (by decide) (program.itemless_load .blank _)
  obtain ⟨e, he, _⟩ := hname
  exact ⟨program, _, e, toOption_eq_some.mp hprogram, hs, rfl, rfl, he,
    Machine.step_of_primary_error he⟩

end Program

end LineScript
