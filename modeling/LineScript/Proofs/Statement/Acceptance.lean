import LineScript.Proofs.Statement.Productions

namespace LineScript

theorem Part.accepts_slot (part : Part) (operation : Operation) (token : Token) :
    (part.slot operation).accepts token = part.expectations.any (·.accepts token) := by
  rw [Bool.eq_iff_iff]
  cases part with
  | fixed expectation => simp [Part.slot, Slot.accepts, Part.expectations]
  | operand1 kinds | operand2 kinds =>
      cases hsecond : operation.actsOnSecond <;>
        simp [Part.slot, Slot.accepts, Part.expectations, Expectation.accepts, hsecond]

-- Parts for different operands have different roles.
theorem Part.primary?_slot_eq_none {a b : Part} {operation : Operation} {token : Token}
    (h : a.fillsSameOperand b = false) (ha : (a.slot operation).primary? token ≠ none)
    (kinds : List TokenKind) : b.slot operation ≠ .primary kinds := by
  cases a <;> cases b <;> cases hsecond : operation.actsOnSecond <;>
    simp_all [Part.slot, Slot.primary?, Part.fillsSameOperand]

theorem Part.secondary?_slot_eq_none {a b : Part} {operation : Operation} {token : Token}
    (h : a.fillsSameOperand b = false) (ha : (a.slot operation).secondary? token ≠ none)
    (kinds : List TokenKind) : b.slot operation ≠ .secondary kinds := by
  cases a <;> cases b <;> cases hsecond : operation.actsOnSecond <;>
    simp_all [Part.slot, Slot.secondary?, Part.fillsSameOperand]

namespace Progress

-- The operands met so far, by role.
def acted (progress : Progress) : Option Token :=
  if progress.operation.actsOnSecond then progress.operand2 else progress.operand1

def given (progress : Progress) : Option Token :=
  if progress.operation.actsOnSecond then progress.operand1 else progress.operand2

def slots (progress : Progress) : List Slot :=
  progress.remaining.map (Part.slot progress.operation)

theorem advance?_of_accepts {progress : Progress} {part : Part} {rest : List Part} {token : Token}
    (hremaining : progress.remaining = part :: rest)
    (haccepts : part.expectations.any (·.accepts token) = true) :
    ∃ next, progress.advance? token = some next ∧ next.remaining = rest ∧
      next.operation = progress.operation ∧
      next.acted = ((part.slot progress.operation).primary? token).or progress.acted ∧
      next.given = ((part.slot progress.operation).secondary? token).or progress.given := by
  unfold advance?
  rw [hremaining]
  simp only [haccepts, if_true]
  refine ⟨_, rfl, ?_⟩
  cases part <;> cases hsecond : progress.operation.actsOnSecond <;>
    simp [acted, given, Part.slot, Slot.primary?, Slot.secondary?, hsecond]

-- The same seen from a step that was made.
theorem advance?_roles {progress next : Progress} {token : Token}
    (h : progress.advance? token = some next) :
    ∃ part, progress.remaining = part :: next.remaining ∧
      part.expectations.any (·.accepts token) = true ∧ next.operation = progress.operation ∧
      next.acted = ((part.slot progress.operation).primary? token).or progress.acted ∧
      next.given = ((part.slot progress.operation).secondary? token).or progress.given := by
  obtain ⟨part, hremaining, haccepts⟩ := advance?_eq_some h
  obtain ⟨other, hother, hrest, hoperation, hacted, hgiven⟩ :=
    advance?_of_accepts hremaining haccepts
  rw [h, Option.some.injEq] at hother
  subst hother
  exact ⟨part, hremaining, haccepts, hoperation, hacted, hgiven⟩

theorem or_or_of_once {a b c : Option Token} (h : a = none ∨ b = none) :
    b.or (a.or c) = (a.or b).or c := by
  rcases h with rfl | rfl <;> simp

-- The tokens of a form lead a production to its end, and the operands stand in their roles.
theorem taken_of_filled {progress : Progress} {tokens : List Token} {first second : Option Token}
    (h : Filled progress.slots tokens first second) :
    ∃ last, Taken progress tokens last ∧ last.operation = progress.operation ∧
      last.acted = first.or progress.acted ∧ last.given = second.or progress.given := by
  induction hparts : progress.remaining generalizing progress tokens first second with
  | nil =>
      rw [slots, hparts, List.map_nil] at h
      cases h
      exact ⟨progress, .done hparts, rfl, rfl, rfl⟩
  | cons part rest ih =>
      rw [slots, hparts, List.map_cons] at h
      obtain ⟨token, others, first', second', rfl, haccepts, hfirst, hsecond, hrest, rfl, rfl⟩ :=
        h.of_cons
      rw [Part.accepts_slot] at haccepts
      obtain ⟨next, hadvance, hremaining, hoperation, hacted, hgiven⟩ :=
        advance?_of_accepts hparts haccepts
      have hslots : Filled next.slots others first' second' := by
        rw [slots, hremaining, hoperation]
        exact hrest
      obtain ⟨last, htaken, hop, hact, hgive⟩ := ih hslots hremaining
      refine ⟨last, .step hadvance htaken, hop.trans hoperation, ?_, ?_⟩
      · rw [hact, hacted, or_or_of_once hfirst]
      · rw [hgive, hgiven, or_or_of_once hsecond]

theorem filled_of_taken {progress last : Progress} {tokens : List Token}
    (h : Taken progress tokens last)
    (honce : progress.remaining.Pairwise fun a b => a.fillsSameOperand b = false) :
    ∃ first second, Filled progress.slots tokens first second ∧
      last.operation = progress.operation ∧
      last.acted = first.or progress.acted ∧ last.given = second.or progress.given := by
  induction h with
  | @done progress hremaining =>
      refine ⟨none, none, ?_, rfl, rfl, rfl⟩
      rw [slots, hremaining]
      exact .done
  | @step progress next last token tokens hadvance _ ih =>
      obtain ⟨part, hremaining, haccepts, hoperation, hacted, hgiven⟩ := advance?_roles hadvance
      rw [hremaining, List.pairwise_cons] at honce
      obtain ⟨first, second, hfilled, hop, hact, hgive⟩ := ih honce.2
      rw [slots, hoperation] at hfilled
      have hfirst : (part.slot progress.operation).primary? token = none ∨ first = none := by
        by_cases hrole : (part.slot progress.operation).primary? token = none
        · exact .inl hrole
        · refine .inr (hfilled.primary_eq_none fun kinds hmem => ?_)
          obtain ⟨other, hother, hslot⟩ := List.mem_map.mp hmem
          exact Part.primary?_slot_eq_none (honce.1 other hother) hrole kinds hslot
      have hsecond : (part.slot progress.operation).secondary? token = none ∨ second = none := by
        by_cases hrole : (part.slot progress.operation).secondary? token = none
        · exact .inl hrole
        · refine .inr (hfilled.secondary_eq_none fun kinds hmem => ?_)
          obtain ⟨other, hother, hslot⟩ := List.mem_map.mp hmem
          exact Part.secondary?_slot_eq_none (honce.1 other hother) hrole kinds hslot
      rw [← Part.accepts_slot part progress.operation] at haccepts
      refine ⟨((part.slot progress.operation).primary? token).or first,
        ((part.slot progress.operation).secondary? token).or second, ?_, hop.trans hoperation,
        ?_, ?_⟩
      · rw [slots, hremaining, List.map_cons]
        exact hfilled.cons haccepts hfirst hsecond
      · rw [hact, hacted, or_or_of_once hfirst]
      · rw [hgive, hgiven, or_or_of_once hsecond]

end Progress

theorem Operation.no_secondary_slot {operation : Operation}
    (h : operation ∈ [.print, .wait, .error, .round, .close, .bitwiseNegate])
    (kinds : List TokenKind) : Slot.secondary kinds ∉ operation.form := by
  simp only [List.mem_cons, List.not_mem_nil, or_false] at h
  rcases h with rfl | rfl | rfl | rfl | rfl | rfl <;> simp [Operation.form, Slot.word]

theorem Progress.primary_statement (progress : Progress) (line : String) :
    (progress.statement line).primary = progress.acted := by
  obtain ⟨_, operation, _, _⟩ := progress
  cases operation <;> rfl

-- An argument that the operation does not look at could only come from a form that has one.
theorem Progress.secondary_statement {progress : Progress} {tokens : List Token}
    {first : Option Token} (line : String)
    (hfilled : Filled progress.operation.form tokens first progress.given) :
    (progress.statement line).secondary = progress.given := by
  by_cases hlone : progress.operation ∈ [.print, .wait, .error, .round, .close, .bitwiseNegate]
  · rw [hfilled.secondary_eq_none (Operation.no_secondary_slot hlone)]
    unfold Statement.secondary Progress.statement
    simp only [List.mem_cons, List.not_mem_nil, or_false] at hlone
    rcases hlone with h | h | h | h | h | h <;> simp [h]
  · obtain ⟨_, operation, _, _⟩ := progress
    cases operation <;> first | rfl | simp at hlone

theorem Progress.apart_start {first : Token} :
    Progress.Apart ((Grammar.productions.filter (·.start.accepts first)).map Progress.start) := by
  rw [Progress.Apart, List.pairwise_map, List.pairwise_filter]
  refine Grammar.productions_part.imp ?_
  intro p q hpart hp hq
  refine hpart.resolve_left ?_
  intro hdisjoint
  rw [Expectation.not_accepts_of_disjoint hdisjoint hp] at hq
  cases hq

theorem Statement.ofTokens_cons {first : Token} {rest : List Token} {line : String}
    {s : Statement} (hfirst : first.kind ≠ .comment) :
    Statement.ofTokens (first :: rest) line = .ok s ↔
      Followed line ((Grammar.productions.filter (·.start.accepts first)).map Progress.start) rest
        s := by
  rw [← follow_eq_ok_iff Progress.apart_start, Statement.ofTokens, if_neg hfirst]
  split
  · rename_i hnone
    rw [hnone, List.map_nil]
    cases rest with
    | nil => simp [follow_nil (show Progress.complete? [] = none from rfl)]
    | cons next others =>
        rw [follow, show Progress.complete? [] = none from rfl]
        simp
  · rfl

theorem Grammar.form_eq_cons {production : Production} (h : production ∈ Grammar.productions) :
    production.operation.form =
      .fixed production.start :: (Progress.start production).slots := by
  rw [← Grammar.form_of_mem_productions production h]
  rfl

theorem Progress.roles_start (production : Production) :
    (Progress.start production).acted = none ∧ (Progress.start production).given = none := by
  cases hsecond : production.operation.actsOnSecond <;>
    simp [Progress.start, Progress.acted, Progress.given, hsecond]

-- A line that is read is a sentence with its operation and its operands.
theorem Statement.sentence_of_ofTokens {tokens : List Token} {line : String} {s : Statement}
    (h : Statement.ofTokens tokens line = .ok s) :
    Sentence tokens s.operation s.primary s.secondary := by
  cases tokens with
  | nil =>
      cases h
      exact .empty
  | cons first rest =>
      by_cases hfirst : first.kind = .comment
      · rw [Statement.ofTokens, if_pos hfirst] at h
        cases h
        exact .comment hfirst
      · rw [Statement.ofTokens_cons hfirst] at h
        obtain ⟨p, hp, body, behind, last, rfl, htaken, hend, rfl⟩ := h
        obtain ⟨production, hproduction, rfl⟩ := List.mem_map.mp hp
        obtain ⟨hmem, haccepts⟩ := List.mem_filter.mp hproduction
        obtain ⟨one, two, hfilled, hoperation, hacted, hgiven⟩ :=
          Progress.filled_of_taken htaken (Grammar.operands_once production hmem)
        obtain ⟨hnone, hnothing⟩ := Progress.roles_start production
        rw [hnone, Option.or_none] at hacted
        rw [hnothing, Option.or_none] at hgiven
        have hform : Filled last.operation.form (first :: body) last.acted last.given := by
          rw [hoperation, hacted, hgiven]
          change Filled production.operation.form _ _ _
          rw [Grammar.form_eq_cons hmem]
          exact .fixed haccepts hfilled
        have hnull : last.operation ≠ .null := by
          rw [hoperation]
          exact Grammar.operation_ne_null production hmem
        rw [Progress.primary_statement, Progress.secondary_statement line hform]
        rcases checkEnd_eq_ok_iff.mp hend with rfl | ⟨comment, hcomment, rfl⟩
        · rw [List.append_nil]
          exact .plain hnull hform
        · rw [← List.cons_append]
          exact .commented hnull hform hcomment

theorem Statement.line_of_ofTokens {tokens : List Token} {line : String} {s : Statement}
    (h : Statement.ofTokens tokens line = .ok s) : s.line = line := by
  cases tokens with
  | nil =>
      cases h
      rfl
  | cons first rest =>
      by_cases hfirst : first.kind = .comment
      · rw [Statement.ofTokens, if_pos hfirst] at h
        cases h
        rfl
      · rw [Statement.ofTokens_cons hfirst] at h
        obtain ⟨_, _, _, _, last, _, _, _, rfl⟩ := h
        rfl

theorem Statement.ofTokens_of_filled {operation : Operation} {body behind : List Token}
    {one two : Option Token} (line : String) (hnull : operation ≠ .null)
    (hfilled : Filled operation.form body one two) (hend : checkEnd behind = .ok ()) :
    ∃ s, Statement.ofTokens (body ++ behind) line = .ok s ∧ s.operation = operation ∧
      s.primary = one ∧ s.secondary = two := by
  obtain ⟨production, hmem, rfl⟩ := Grammar.exists_production hnull
  have hform := hfilled
  rw [Grammar.form_eq_cons hmem] at hform
  cases hform with
  | @fixed _ first _ rest _ _ haccepts hrest =>
      have hfirst : first.kind ≠ .comment := by
        have hno := Expectation.not_accepts_of_disjoint
          (Grammar.start_is_no_comment production hmem) haccepts
        simpa [Expectation.accepts] using hno
      obtain ⟨last, htaken, hoperation, hacted, hgiven⟩ := Progress.taken_of_filled hrest
      obtain ⟨hnone, hnothing⟩ := Progress.roles_start production
      rw [hnone, Option.or_none] at hacted
      rw [hnothing, Option.or_none] at hgiven
      change last.operation = production.operation at hoperation
      rw [← hoperation, ← hgiven] at hfilled
      refine ⟨last.statement line, ?_, hoperation, ?_, ?_⟩
      · rw [List.cons_append, Statement.ofTokens_cons hfirst]
        have hstart : Progress.start production ∈
            (Grammar.productions.filter (·.start.accepts first)).map Progress.start :=
          List.mem_map.mpr ⟨production, List.mem_filter.mpr ⟨hmem, haccepts⟩, rfl⟩
        exact ⟨_, hstart, rest, behind, last, rfl, htaken, hend, rfl⟩
      · rw [Progress.primary_statement, hacted]
      · rw [Progress.secondary_statement line hfilled, hgiven]

-- Every sentence is read, as what it says.
theorem Statement.ofTokens_of_sentence {tokens : List Token} {operation : Operation}
    {one two : Option Token} (line : String) (h : Sentence tokens operation one two) :
    ∃ s, Statement.ofTokens tokens line = .ok s ∧ s.operation = operation ∧ s.primary = one ∧
      s.secondary = two := by
  cases h with
  | empty => exact ⟨.null line, rfl, rfl, rfl, rfl⟩
  | comment hcomment =>
      refine ⟨.null line, ?_, rfl, rfl, rfl⟩
      rw [Statement.ofTokens, if_pos hcomment]
  | plain hoperation hfilled =>
      obtain ⟨s, hs, hroles⟩ := Statement.ofTokens_of_filled line hoperation hfilled
        (checkEnd_eq_ok_iff.mpr (.inl rfl))
      rw [List.append_nil] at hs
      exact ⟨s, hs, hroles⟩
  | commented hoperation hfilled hcomment =>
      exact Statement.ofTokens_of_filled line hoperation hfilled
        (checkEnd_eq_ok_iff.mpr (.inr ⟨_, hcomment, rfl⟩))

theorem Sentence.secondary_of_label {tokens : List Token} {one two : Option Token}
    (h : Sentence tokens .label one two) : two = none := by
  cases h with
  | plain _ hfilled | commented _ hfilled _ =>
      exact hfilled.secondary_eq_none (by simp [Operation.form, Slot.mark])

-- Exactly the sentences are read. The statement has the operation of the sentence, keeps the line,
-- and has its operands in the roles they are written for; a label's name stays in the first slot.
theorem Statement.ofTokens_accepts_sentences (tokens : List Token) (line : String) :
    ((∃ s, Statement.ofTokens tokens line = .ok s) ↔
      ∃ operation one two, Sentence tokens operation one two) ∧
    ∀ s operation one two, Statement.ofTokens tokens line = .ok s →
      Sentence tokens operation one two →
        s.operation = operation ∧ s.line = line ∧
          (operation ≠ .label → s.primary = one ∧ s.secondary = two) ∧
          (operation = .label → s.operand1 = one ∧ s.operand2 = none) := by
  refine ⟨⟨?_, ?_⟩, ?_⟩
  · rintro ⟨s, hs⟩
    exact ⟨_, _, _, Statement.sentence_of_ofTokens hs⟩
  · rintro ⟨operation, one, two, hsentence⟩
    obtain ⟨s, hs, _⟩ := Statement.ofTokens_of_sentence line hsentence
    exact ⟨s, hs⟩
  · intro s operation one two hs hsentence
    obtain ⟨other, hother, hoperation, hprimary, hsecondary⟩ :=
      Statement.ofTokens_of_sentence line hsentence
    rw [hs, Except.ok.injEq] at hother
    subst hother
    refine ⟨hoperation, Statement.line_of_ofTokens hs, fun _ => ⟨hprimary, hsecondary⟩, ?_⟩
    rintro rfl
    rw [hsentence.secondary_of_label] at hsecondary
    simp only [Statement.primary, Statement.secondary, hoperation] at hprimary hsecondary
    exact ⟨hprimary, hsecondary⟩

-- `add 5 TO total` with a comment behind it, the first word written small.
theorem Statement.ofTokens_accepts_addition :
    ∃ s, Statement.ofTokens
        [⟨.keyword, "add"⟩, ⟨.number, "5"⟩, ⟨.keyword, "TO"⟩, ⟨.name, "total"⟩, ⟨.comment, "#"⟩]
        "add 5 TO total #" = .ok s ∧
      s.operation = .add ∧ s.line = "add 5 TO total #" ∧ s.primary = some ⟨.name, "total"⟩ ∧
      s.secondary = some ⟨.number, "5"⟩ := by
  have hfilled : Filled Operation.add.form
      [⟨.keyword, "add"⟩, ⟨.number, "5"⟩, ⟨.keyword, "TO"⟩, ⟨.name, "total"⟩]
      (some ⟨.name, "total"⟩) (some ⟨.number, "5"⟩) :=
    .fixed (by decide) (.secondary (by decide) (.fixed (by decide) (.primary (by decide) .done)))
  have hsentence := @Sentence.commented .add _ ⟨.comment, "#"⟩ _ _ (by decide) hfilled rfl
  have haccepts := Statement.ofTokens_accepts_sentences
    [⟨.keyword, "add"⟩, ⟨.number, "5"⟩, ⟨.keyword, "TO"⟩, ⟨.name, "total"⟩, ⟨.comment, "#"⟩]
    "add 5 TO total #"
  obtain ⟨s, hs⟩ := haccepts.1.mpr ⟨_, _, _, hsentence⟩
  obtain ⟨hoperation, hline, hroles, _⟩ := haccepts.2 s _ _ _ hs hsentence
  exact ⟨s, hs, hoperation, hline, hroles (by decide)⟩

end LineScript
