import LineScript.Proofs.Statement.Form

namespace LineScript

namespace Expectation

-- No token meets both.
def disjoint : Expectation → Expectation → Bool
  | kind k, kind l => k ≠ l
  | kind k, keyword _ | keyword _, kind k => k ≠ .keyword
  | kind k, symbol _ | symbol _, kind k => k ≠ .symbol
  | keyword k, keyword l => k ≠ l
  | symbol c, symbol d => c ≠ d
  | keyword _, symbol _ | symbol _, keyword _ => true

theorem kind_of_accepts_keyword {k : Keyword} {token : Token}
    (h : (keyword k).accepts token = true) : token.kind = .keyword := by
  by_contra hne
  simp [accepts, Token.keyword?, hne] at h

theorem kind_of_accepts_symbol {c : Char} {token : Token}
    (h : (symbol c).accepts token = true) : token.kind = .symbol := by
  simp only [accepts, Token.isSymbol, decide_eq_true_eq] at h
  exact h.1

theorem not_accepts_of_disjoint {e f : Expectation} {token : Token} (h : e.disjoint f = true)
    (he : e.accepts token = true) : f.accepts token = false := by
  by_contra hf
  rw [Bool.not_eq_false] at hf
  cases e with
  | kind k =>
      have hk : token.kind = k := by simpa [accepts] using he
      cases f with
      | kind l => simp_all [disjoint, accepts]
      | keyword l => simp_all [disjoint, kind_of_accepts_keyword hf]
      | symbol c => simp_all [disjoint, kind_of_accepts_symbol hf]
  | keyword k =>
      cases f with
      | kind l => simp_all [disjoint, accepts, kind_of_accepts_keyword he]
      | keyword l => simp_all [disjoint, accepts]
      | symbol c =>
          have hsymbol := kind_of_accepts_symbol hf
          simp [kind_of_accepts_keyword he] at hsymbol
  | symbol c =>
      cases f with
      | kind l => simp_all [disjoint, accepts, kind_of_accepts_symbol he]
      | keyword l =>
          have hkeyword := kind_of_accepts_keyword hf
          simp [kind_of_accepts_symbol he] at hkeyword
      | symbol d => simp_all [disjoint, accepts, Token.isSymbol]

end Expectation

namespace Part

def disjoint (a b : Part) : Bool :=
  a.expectations.all fun e => b.expectations.all fun f => e.disjoint f

def fillsSameOperand : Part → Part → Bool
  | operand1 _, operand1 _ | operand2 _, operand2 _ => true
  | _, _ => false

-- Two ways to go on that are equally long and part at some position.
def clash (as bs : List Part) : Bool :=
  as.length = bs.length && (as.zip bs).any fun pair => pair.1.disjoint pair.2

theorem not_disjoint_of_accepts {a b : Part} {token : Token}
    (ha : a.expectations.any (·.accepts token) = true)
    (hb : b.expectations.any (·.accepts token) = true) : a.disjoint b = false := by
  obtain ⟨e, he, hae⟩ := List.any_eq_true.mp ha
  obtain ⟨f, hf, hbf⟩ := List.any_eq_true.mp hb
  by_contra h
  rw [Bool.not_eq_false] at h
  have hef : e.disjoint f = true := List.all_eq_true.mp (List.all_eq_true.mp h e he) f hf
  have hnot := Expectation.not_accepts_of_disjoint hef hae
  simp [hnot] at hbf

theorem clash_tail {a b : Part} {as bs : List Part} {token : Token}
    (h : clash (a :: as) (b :: bs) = true) (ha : a.expectations.any (·.accepts token) = true)
    (hb : b.expectations.any (·.accepts token) = true) : clash as bs = true := by
  have hhead := not_disjoint_of_accepts ha hb
  simpa [clash, hhead] using h

theorem clash_nil_left {bs : List Part} : clash [] bs = false := by
  simp [clash]

theorem clash_nil_right {as : List Part} : clash as [] = false := by
  simp [clash]

end Part

namespace Progress

-- Following one production to its end.
inductive Taken : Progress → List Token → Progress → Prop where
  | done {progress : Progress} (hremaining : progress.remaining = []) : Taken progress [] progress
  | step {progress next last : Progress} {token : Token} {tokens : List Token}
      (hadvance : progress.advance? token = some next) (hrest : Taken next tokens last) :
      Taken progress (token :: tokens) last

def statement (progress : Progress) (line : String) : Statement :=
  ⟨progress.operation, progress.operand1, progress.operand2, line⟩

theorem advance?_eq_some {progress next : Progress} {token : Token}
    (h : progress.advance? token = some next) :
    ∃ part, progress.remaining = part :: next.remaining ∧
      part.expectations.any (·.accepts token) = true := by
  unfold advance? at h
  split at h
  · simp at h
  · rename_i part rest hremaining
    split_ifs at h with haccepts
    refine ⟨part, ?_, haccepts⟩
    cases part <;> · cases h; rw [hremaining]

theorem clash_advance {p q p' q' : Progress} {token : Token}
    (h : Part.clash p.remaining q.remaining = true) (hp : p.advance? token = some p')
    (hq : q.advance? token = some q') : Part.clash p'.remaining q'.remaining = true := by
  obtain ⟨a, hpr, ha⟩ := advance?_eq_some hp
  obtain ⟨b, hqr, hb⟩ := advance?_eq_some hq
  rw [hpr, hqr] at h
  exact Part.clash_tail h ha hb

-- Progresses that part from each other later on. Only a lone one can be complete.
def Apart (active : List Progress) : Prop :=
  active.Pairwise fun p q => Part.clash p.remaining q.remaining = true

theorem Apart.advance {active : List Progress} (h : Apart active) (token : Token) :
    Apart (active.filterMap (·.advance? token)) := by
  rw [Apart, List.pairwise_filterMap]
  refine h.imp ?_
  intro p q hclash p' hp q' hq
  exact clash_advance hclash hp hq

theorem Apart.eq_of_complete {active : List Progress} (h : Apart active) {p q : Progress}
    (hp : p ∈ active) (hq : q ∈ active) (hcomplete : q.remaining = []) : p = q := by
  induction active with
  | nil => simp at hp
  | cons first rest ih =>
      obtain ⟨hfirst, hrest⟩ := List.pairwise_cons.mp h
      rcases List.mem_cons.mp hp with hp | hp <;> rcases List.mem_cons.mp hq with hq | hq
      · rw [hp, hq]
      · have hclash := hfirst q hq
        rw [hcomplete, Part.clash_nil_right] at hclash
        cases hclash
      · have hclash := hfirst p hp
        rw [← hq, hcomplete, Part.clash_nil_left] at hclash
        cases hclash
      · exact ih hrest hp hq

theorem Taken.of_complete {p last : Progress} {tokens : List Token} (h : Taken p tokens last)
    (hcomplete : p.remaining = []) : tokens = [] ∧ last = p := by
  cases h with
  | done => exact ⟨rfl, rfl⟩
  | step hadvance _ =>
      obtain ⟨part, hremaining, _⟩ := advance?_eq_some hadvance
      rw [hcomplete] at hremaining
      cases hremaining

theorem complete?_eq_some {active : List Progress} {p : Progress}
    (h : complete? active = some p) : p ∈ active ∧ p.remaining = [] := by
  refine ⟨List.mem_of_find?_eq_some h, ?_⟩
  simpa using List.find?_some h

theorem remaining_ne_nil_of_complete? {active : List Progress} (h : complete? active = none)
    {p : Progress} (hp : p ∈ active) : p.remaining ≠ [] := by
  have hnot := List.find?_eq_none.mp h p hp
  simpa using hnot

end Progress

theorem checkEnd_eq_ok_iff {tokens : List Token} :
    checkEnd tokens = .ok () ↔ tokens = [] ∨ ∃ last, last.kind = .comment ∧ tokens = [last] := by
  cases tokens with
  | nil => simp [checkEnd]
  | cons token rest =>
      cases rest with
      | nil =>
          by_cases hkind : token.kind = .comment <;> simp [checkEnd, hkind]
      | cons extra others => simp [checkEnd]

theorem follow_complete {line : String} {active : List Progress} {tokens : List Token}
    {done : Progress} (h : Progress.complete? active = some done) :
    follow line active tokens = (checkEnd tokens).map fun _ => done.statement line := by
  unfold follow
  rw [h]
  rfl

theorem follow_nil {line : String} {active : List Progress}
    (h : Progress.complete? active = none) :
    follow line active [] = .error (.missingToken (Progress.expected active)) := by
  rw [follow, h]

theorem follow_cons {line : String} {active : List Progress} {token : Token} {rest : List Token}
    {s : Statement} (h : Progress.complete? active = none) :
    follow line active (token :: rest) = .ok s ↔
      follow line (active.filterMap (·.advance? token)) rest = .ok s := by
  rw [follow, h]
  dsimp only
  split
  · rename_i hnone
    rw [hnone]
    cases rest with
    | nil => simp [follow_nil (show Progress.complete? [] = none from rfl)]
    | cons next others =>
        rw [follow, show Progress.complete? [] = none from rfl]
        simp
  · rfl

-- What following productions side by side has to find: one of them that the tokens fill, with a
-- proper end behind it.
def Followed (line : String) (active : List Progress) (tokens : List Token) (s : Statement) :
    Prop :=
  ∃ p ∈ active, ∃ body behind last, tokens = body ++ behind ∧
    Progress.Taken p body last ∧ checkEnd behind = .ok () ∧ s = last.statement line

theorem followed_iff_of_complete {line : String} {active : List Progress} {tokens : List Token}
    {s : Statement} {done : Progress} (hapart : Progress.Apart active)
    (hcomplete : Progress.complete? active = some done) :
    Followed line active tokens s ↔ checkEnd tokens = .ok () ∧ s = done.statement line := by
  obtain ⟨hmem, hremaining⟩ := Progress.complete?_eq_some hcomplete
  constructor
  · rintro ⟨p, hp, body, behind, last, rfl, htaken, hend, rfl⟩
    have hdone := hapart.eq_of_complete hp hmem hremaining
    subst hdone
    obtain ⟨rfl, rfl⟩ := htaken.of_complete hremaining
    exact ⟨hend, rfl⟩
  · rintro ⟨hend, rfl⟩
    exact ⟨done, hmem, [], tokens, done, rfl, .done hremaining, hend, rfl⟩

theorem followed_cons_iff {line : String} {active : List Progress} {token : Token}
    {rest : List Token} {s : Statement} (hcomplete : Progress.complete? active = none) :
    Followed line active (token :: rest) s ↔
      Followed line (active.filterMap (·.advance? token)) rest s := by
  constructor
  · rintro ⟨p, hp, body, behind, last, htokens, htaken, hend, hs⟩
    cases htaken with
    | done hremaining =>
        exact absurd hremaining (Progress.remaining_ne_nil_of_complete? hcomplete hp)
    | @step _ next _ first body hadvance htaken =>
        rw [List.cons_append, List.cons.injEq] at htokens
        obtain ⟨rfl, rfl⟩ := htokens
        exact ⟨next, List.mem_filterMap.mpr ⟨p, hp, hadvance⟩, body, behind, last, rfl, htaken,
          hend, hs⟩
  · rintro ⟨next, hnext, body, behind, last, rfl, htaken, hend, hs⟩
    obtain ⟨p, hp, hadvance⟩ := List.mem_filterMap.mp hnext
    exact ⟨p, hp, token :: body, behind, last, rfl, .step hadvance htaken, hend, hs⟩

theorem follow_eq_ok_iff {line : String} {active : List Progress} {tokens : List Token}
    {s : Statement} (hapart : Progress.Apart active) :
    follow line active tokens = .ok s ↔ Followed line active tokens s := by
  induction tokens generalizing active with
  | nil =>
      cases hcomplete : Progress.complete? active with
      | some done =>
          rw [follow_complete hcomplete, followed_iff_of_complete hapart hcomplete]
          simp [checkEnd, Except.map, eq_comm]
      | none =>
          rw [follow_nil hcomplete]
          constructor
          · intro h
            cases h
          · rintro ⟨p, hp, body, behind, last, htokens, htaken, _, _⟩
            obtain ⟨rfl, _⟩ := List.append_eq_nil_iff.mp htokens.symm
            cases htaken with
            | done hremaining =>
                exact absurd hremaining (Progress.remaining_ne_nil_of_complete? hcomplete hp)
  | cons token rest ih =>
      cases hcomplete : Progress.complete? active with
      | some done =>
          rw [follow_complete hcomplete, followed_iff_of_complete hapart hcomplete]
          cases checkEnd (token :: rest) <;> simp [Except.map, eq_comm]
      | none =>
          rw [follow_cons hcomplete, followed_cons_iff hcomplete, ih (hapart.advance token)]

-- The operations that act on their second slot.
def Operation.actsOnSecond : Operation → Bool
  | .read | .print | .wait | .error => true
  | _ => false

-- The role a part of a production has for an operation.
def Part.slot (operation : Operation) : Part → Slot
  | .fixed expectation => .fixed expectation
  | .operand1 kinds => if operation.actsOnSecond then .secondary kinds else .primary kinds
  | .operand2 kinds => if operation.actsOnSecond then .primary kinds else .secondary kinds

def Production.form (production : Production) : List Slot :=
  .fixed production.start :: production.parts.map (Part.slot production.operation)

namespace Grammar

-- The slots of the productions and the roles of the operations make the forms together.
theorem form_of_mem_productions :
    ∀ production ∈ productions, production.form = production.operation.form := by
  decide

theorem exists_production {operation : Operation} (h : operation ≠ .null) :
    ∃ production ∈ productions, production.operation = operation := by
  revert h
  cases operation <;> decide

theorem productions_part :
    productions.Pairwise fun p q =>
      p.start.disjoint q.start = true ∨ Part.clash p.parts q.parts = true := by
  decide

theorem operands_once :
    ∀ production ∈ productions,
      production.parts.Pairwise fun a b => a.fillsSameOperand b = false := by
  decide

theorem start_is_no_comment :
    ∀ production ∈ productions, production.start.disjoint (.kind .comment) = true := by
  decide

theorem operation_ne_null : ∀ production ∈ productions, production.operation ≠ .null := by
  decide

end Grammar

end LineScript
