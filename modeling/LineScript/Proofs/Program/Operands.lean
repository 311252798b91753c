import LineScript.Program
import LineScript.Proofs.Outcome
import LineScript.Proofs.Statement.Acceptance

namespace LineScript

def Slot.kinds : Slot → List TokenKind
  | .fixed _ => []
  | .primary kinds | .secondary kinds => kinds

theorem Operation.kinds_of_form (operation : Operation) :
    ∀ slot ∈ operation.form, ∀ kind ∈ slot.kinds, kind ∈ Grammar.anyValue := by
  cases operation <;> decide

-- What stands in a role was written, in a slot for its kind.
theorem Filled.mem_of_role {slots : List Slot} {tokens : List Token} {first second : Option Token}
    {token : Token} (h : Filled slots tokens first second)
    (hrole : first = some token ∨ second = some token) :
    token ∈ tokens ∧ ∃ slot ∈ slots, token.kind ∈ slot.kinds := by
  induction h with
  | done => simp at hrole
  | fixed _ _ ih =>
      obtain ⟨hmem, slot, hslot, hkind⟩ := ih hrole
      exact ⟨List.mem_cons_of_mem _ hmem, slot, List.mem_cons_of_mem _ hslot, hkind⟩
  | primary hkind _ ih =>
      rcases hrole with hrole | hrole
      · cases hrole
        exact ⟨List.mem_cons_self, _, List.mem_cons_self, hkind⟩
      · obtain ⟨hmem, slot, hslot, hkind⟩ := ih (.inr hrole)
        exact ⟨List.mem_cons_of_mem _ hmem, slot, List.mem_cons_of_mem _ hslot, hkind⟩
  | secondary hkind _ ih =>
      rcases hrole with hrole | hrole
      · obtain ⟨hmem, slot, hslot, hkind⟩ := ih (.inl hrole)
        exact ⟨List.mem_cons_of_mem _ hmem, slot, List.mem_cons_of_mem _ hslot, hkind⟩
      · cases hrole
        exact ⟨List.mem_cons_self, _, List.mem_cons_self, hkind⟩

-- A slot for a role is filled.
theorem Filled.exists_primary {slots : List Slot} {tokens : List Token}
    {first second : Option Token} {kinds : List TokenKind} (h : Filled slots tokens first second)
    (hslot : Slot.primary kinds ∈ slots) : ∃ token, first = some token ∧ token.kind ∈ kinds := by
  induction h with
  | done => cases hslot
  | fixed _ _ ih => exact ih (List.mem_of_ne_of_mem (by simp) hslot)
  | secondary _ _ ih => exact ih (List.mem_of_ne_of_mem (by simp) hslot)
  | primary hkind _ ih =>
      rcases List.mem_cons.mp hslot with hsame | hlater
      · cases hsame
        exact ⟨_, rfl, hkind⟩
      · obtain ⟨_, hnone, _⟩ := ih hlater
        cases hnone

theorem Filled.exists_secondary {slots : List Slot} {tokens : List Token}
    {first second : Option Token} {kinds : List TokenKind} (h : Filled slots tokens first second)
    (hslot : Slot.secondary kinds ∈ slots) : ∃ token, second = some token ∧ token.kind ∈ kinds := by
  induction h with
  | done => cases hslot
  | fixed _ _ ih => exact ih (List.mem_of_ne_of_mem (by simp) hslot)
  | primary _ _ ih => exact ih (List.mem_of_ne_of_mem (by simp) hslot)
  | secondary hkind _ ih =>
      rcases List.mem_cons.mp hslot with hsame | hlater
      · cases hsame
        exact ⟨_, rfl, hkind⟩
      · obtain ⟨_, hnone, _⟩ := ih hlater
        cases hnone

theorem Sentence.filled {tokens : List Token} {operation : Operation} {first second : Option Token}
    (h : Sentence tokens operation first second) (hoperation : operation ≠ .null) :
    ∃ body, Filled operation.form body first second := by
  cases h with
  | empty | comment => exact absurd rfl hoperation
  | plain _ hfilled | commented _ hfilled _ => exact ⟨_, hfilled⟩

theorem Sentence.mem_of_role {tokens : List Token} {operation : Operation}
    {first second : Option Token} {token : Token} (h : Sentence tokens operation first second)
    (hrole : first = some token ∨ second = some token) :
    token ∈ tokens ∧ ∃ slot ∈ operation.form, token.kind ∈ slot.kinds := by
  cases h with
  | empty => simp at hrole
  | comment => simp at hrole
  | plain _ hfilled => exact hfilled.mem_of_role hrole
  | commented _ hfilled _ =>
      obtain ⟨hmem, hslot⟩ := hfilled.mem_of_role hrole
      exact ⟨List.mem_append_left _ hmem, hslot⟩

theorem Statement.sentence_of_read {line : String} {s : Statement}
    (h : Statement.read line = .ok s) :
    ∃ tokens, Token.readAll line = .ok tokens ∧
      Sentence tokens s.operation s.primary s.secondary := by
  obtain ⟨tokens, htokens, hs⟩ := bind_eq_ok.mp h
  exact ⟨tokens, htokens, Statement.sentence_of_ofTokens hs⟩

-- The operands of a line are among its tokens, and the form of the operation has a slot for each.
theorem Statement.slot_of_read {line : String} {s : Statement} {token : Token}
    (h : Statement.read line = .ok s) (hrole : s.primary = some token ∨ s.secondary = some token) :
    ∃ tokens, Token.readAll line = .ok tokens ∧ token ∈ tokens ∧
      ∃ slot ∈ s.operation.form, token.kind ∈ slot.kinds := by
  obtain ⟨tokens, htokens, hsentence⟩ := Statement.sentence_of_read h
  exact ⟨tokens, htokens, hsentence.mem_of_role hrole⟩

theorem Statement.operand_of_read {line : String} {s : Statement} {token : Token}
    (h : Statement.read line = .ok s) (hrole : s.primary = some token ∨ s.secondary = some token) :
    ∃ tokens, Token.readAll line = .ok tokens ∧ token ∈ tokens ∧
      token.kind ∈ Grammar.anyValue := by
  obtain ⟨tokens, htokens, hmem, slot, hslot, hkind⟩ := Statement.slot_of_read h hrole
  exact ⟨tokens, htokens, hmem, s.operation.kinds_of_form slot hslot _ hkind⟩

theorem Statement.filled_of_read {line : String} {s : Statement}
    (h : Statement.read line = .ok s) {slot : Slot} (hslot : slot ∈ s.operation.form) :
    ∃ body, Filled s.operation.form body s.primary s.secondary := by
  obtain ⟨tokens, _, hsentence⟩ := Statement.sentence_of_read h
  refine hsentence.filled fun hnull => ?_
  rw [hnull] at hslot
  cases hslot

-- What an operation writes to is a name.
theorem Statement.primary_of_read {line : String} {s : Statement} (h : Statement.read line = .ok s)
    (hslot : Slot.primary [.name] ∈ s.operation.form) :
    ∃ token, s.primary = some token ∧ token.kind = .name := by
  obtain ⟨_, hfilled⟩ := Statement.filled_of_read h hslot
  simpa using hfilled.exists_primary hslot

theorem Statement.secondary_of_read {line : String} {s : Statement}
    (h : Statement.read line = .ok s) (hslot : Slot.secondary [.name] ∈ s.operation.form) :
    ∃ token, s.secondary = some token ∧ token.kind = .name := by
  obtain ⟨_, hfilled⟩ := Statement.filled_of_read h hslot
  simpa using hfilled.exists_secondary hslot

-- A form of fixed words and marks leaves nothing to evaluate.
theorem Statement.no_operands_of_read {line : String} {s : Statement}
    (h : Statement.read line = .ok s) (hform : ∀ slot ∈ s.operation.form, slot.kinds = []) :
    s.primary = none ∧ s.secondary = none := by
  have hnone (token : Token) : ¬(s.primary = some token ∨ s.secondary = some token) := by
    intro hrole
    obtain ⟨_, _, _, slot, hslot, hkind⟩ := Statement.slot_of_read h hrole
    rw [hform slot hslot] at hkind
    cases hkind
  constructor
  · exact Option.eq_none_iff_forall_ne_some.mpr fun token hsome => hnone token (.inl hsome)
  · exact Option.eq_none_iff_forall_ne_some.mpr fun token hsome => hnone token (.inr hsome)

namespace Program

theorem statements_of_addLine {program extended : Program} {line : String}
    (h : program.addLine line = .ok extended) :
    ∃ s, Statement.read line = .ok s ∧ extended.statements = program.statements.push s := by
  obtain ⟨s, hread, h⟩ := bind_eq_ok.mp h
  refine ⟨s, hread, ?_⟩
  unfold addStatement at h
  split at h
  · cases h
    rfl
  · split at h
    · cases h
    · cases h
      rfl

theorem mem_statements_of_addLines {program last : Program} {lines : List String} {s : Statement}
    (h : program.addLines lines = .ok last) (hs : s ∈ last.statements) :
    s ∈ program.statements ∨ ∃ line ∈ lines, Statement.read line = .ok s := by
  induction lines generalizing program with
  | nil =>
      cases h
      exact .inl hs
  | cons line rest ih =>
      unfold addLines at h
      split at h
      · rename_i extended hline
        obtain ⟨read, hread, hpush⟩ := statements_of_addLine hline
        rcases ih h with hmem | ⟨later, hlater, hs⟩
        · rw [hpush, Array.mem_push] at hmem
          rcases hmem with hmem | rfl
          · exact .inl hmem
          · exact .inr ⟨line, List.mem_cons_self, hread⟩
        · exact .inr ⟨later, List.mem_cons_of_mem _ hlater, hs⟩
      · cases h

-- Every statement of a program is that of one of its lines.
theorem read_of_mem_compile {source : String} {program : Program} {s : Statement}
    (h : compile source = .ok program) (hs : s ∈ program.statements) :
    ∃ line ∈ sourceLines source, Statement.read line = .ok s := by
  rcases mem_statements_of_addLines h hs with hmem | hline
  · simp [empty] at hmem
  · exact hline

theorem no_operands_of_compile {source : String} {program : Program} {s : Statement}
    (h : compile source = .ok program) (hs : s ∈ program.statements)
    (hscope : s.operation = .scopeOpen ∨ s.operation = .scopeClose) :
    s.primary = none ∧ s.secondary = none := by
  obtain ⟨line, _, hread⟩ := read_of_mem_compile h hs
  refine Statement.no_operands_of_read hread ?_
  rcases hscope with hscope | hscope <;> rw [hscope] <;> decide

end Program

end LineScript
