import LineScript.Proofs.Statement.Following
import Mathlib.Data.List.Induction
import Mathlib.Data.List.Nodup

namespace LineScript

-- The tokens of a statement with nothing behind it.
def Formed (tokens : List Token) : Prop :=
  ∃ (operation : Operation) (one two : Option Token),
    operation ≠ .null ∧ Filled operation.form tokens one two

-- A beginning of a statement, which may be all of it.
def Begun (front : List Token) : Prop := ∃ rest, Formed (front ++ rest)

-- A beginning of a statement that lacks something.
def Unfinished (front : List Token) : Prop := ∃ rest, rest ≠ [] ∧ Formed (front ++ rest)

-- Alternatives that are met by just the tokens a beginning can go on with. None of them is empty,
-- and no two are described alike.
structure Offers (alternatives : List Expectation) (front : List Token) : Prop where
  continues : ∀ token, (∃ e ∈ alternatives, e.accepts token = true) ↔ Begun (front ++ [token])
  possible : ∀ e ∈ alternatives, ∃ token, e.accepts token = true
  distinct : (alternatives.map Expectation.text).Nodup

theorem begun_iff {front : List Token} : Begun front ↔ Formed front ∨ Unfinished front := by
  constructor
  · rintro ⟨rest, hformed⟩
    by_cases hrest : rest = []
    · subst hrest
      exact .inl (by rwa [List.append_nil] at hformed)
    · exact .inr ⟨rest, hrest, hformed⟩
  · rintro (hformed | ⟨rest, _, hformed⟩)
    · exact ⟨[], by rwa [List.append_nil]⟩
    · exact ⟨rest, hformed⟩

namespace Grammar

-- The productions that go on behind a first token.
def started (first : Token) : List Progress :=
  (productions.filter (·.start.accepts first)).map Progress.start

theorem started_open (first : Token) : ∀ p ∈ started first, p.Open := by
  intro p hp
  obtain ⟨production, hproduction, rfl⟩ := List.mem_map.mp hp
  exact productions_open production (List.mem_filter.mp hproduction).1

end Grammar

open Grammar (started started_open)
open Progress (after Ends)

variable {first token : Token} {front rest : List Token} {line : String}

theorem formed_cons_iff : Formed (first :: rest) ↔ Ends (started first) rest := by
  constructor
  · rintro ⟨operation, one, two, hnull, hfilled⟩
    obtain ⟨production, hmem, rfl⟩ := Grammar.exists_production hnull
    rw [Grammar.form_eq_cons hmem] at hfilled
    cases hfilled with
    | fixed haccepts hrest =>
        obtain ⟨last, htaken, _⟩ := Progress.taken_of_filled hrest
        exact ⟨_, List.mem_map.mpr ⟨production, List.mem_filter.mpr ⟨hmem, haccepts⟩, rfl⟩, last,
          htaken⟩
  · rintro ⟨p, hp, last, htaken⟩
    obtain ⟨production, hproduction, rfl⟩ := List.mem_map.mp hp
    obtain ⟨hmem, haccepts⟩ := List.mem_filter.mp hproduction
    obtain ⟨one, two, hfilled, _⟩ :=
      Progress.filled_of_taken htaken (Grammar.operands_once production hmem)
    refine ⟨production.operation, one, two, Grammar.operation_ne_null production hmem, ?_⟩
    rw [Grammar.form_eq_cons hmem]
    exact .fixed haccepts hfilled

theorem not_formed_nil : ¬Formed [] := by
  rintro ⟨operation, one, two, hnull, hfilled⟩
  obtain ⟨production, hmem, rfl⟩ := Grammar.exists_production hnull
  rw [Grammar.form_eq_cons hmem] at hfilled
  cases hfilled

theorem begun_cons_iff : Begun (first :: front) ↔ after (started first) front ≠ [] := by
  rw [← Progress.exists_ends (Progress.open_after (started_open first) front)]
  exact exists_congr fun rest => formed_cons_iff.trans Progress.ends_append

theorem unfinished_cons_iff : Unfinished (first :: front) ↔
    after (started first) front ≠ [] ∧
      Progress.complete? (after (started first) front) = none := by
  rw [← Progress.exists_ends_of_incomplete (Progress.open_after (started_open first) front)
    (Progress.apart_start.after front)]
  exact exists_congr fun rest =>
    and_congr_right fun _ => formed_cons_iff.trans Progress.ends_append

-- Following the productions behind the first token is all of the reading.
theorem Statement.ofTokens_of_started (hfirst : first.kind ≠ .comment)
    (hstarted : started first ≠ []) (rest : List Token) (line : String) :
    Statement.ofTokens (first :: rest) line = follow line (started first) rest := by
  rw [Statement.ofTokens, if_neg hfirst]
  split
  · rename_i hnone
    exact absurd (congrArg (List.map Progress.start) hnone) hstarted
  · rfl

theorem Statement.ofTokens_of_begun (hfirst : first.kind ≠ .comment)
    (hbegun : Begun (first :: front)) (rest : List Token) (line : String) :
    Statement.ofTokens (first :: (front ++ rest)) line =
      follow line (after (started first) front) rest := by
  have hafter := begun_cons_iff.mp hbegun
  have hstarted : started first ≠ [] := fun hnone => hafter (by rw [hnone, Progress.after_nil])
  rw [Statement.ofTokens_of_started hfirst hstarted]
  exact follow_append Progress.apart_start hafter rest

theorem offers_expected (first : Token) (front : List Token) :
    Offers (Progress.expected (after (started first) front)) (first :: front) where
  continues token := by
    rw [Progress.exists_accepts_expected, ← Progress.after_append]
    exact begun_cons_iff.symm
  possible e _ := e.exists_accepts
  distinct := List.Nodup.map Expectation.text_injective (nodup_eraseDups _)

theorem Statement.ofTokens_of_no_start (hfirst : first.kind ≠ .comment)
    (h : ¬Begun [first]) (rest : List Token) (line : String) :
    Statement.ofTokens (first :: rest) line = .error (.invalidStart first.text) := by
  have hnone : started first = [] := by
    by_contra hstarted
    exact h (begun_cons_iff.mpr hstarted)
  rw [Statement.ofTokens, if_neg hfirst, List.map_eq_nil_iff.mp hnone]

theorem Statement.ofTokens_of_unfinished (hfirst : first.kind ≠ .comment)
    (h : Unfinished (first :: front)) (line : String) :
    ∃ expected, Offers expected (first :: front) ∧
      Statement.ofTokens (first :: front) line = .error (.missingToken expected) := by
  have hread := Statement.ofTokens_of_begun hfirst (begun_iff.mpr (.inr h)) [] line
  rw [List.append_nil, follow_nil (unfinished_cons_iff.mp h).2] at hread
  exact ⟨_, offers_expected first front, hread⟩

theorem Statement.ofTokens_of_unexpected (hfirst : first.kind ≠ .comment)
    (h : Unfinished (first :: front)) (htoken : ¬Begun (first :: front ++ [token]))
    (rest : List Token) (line : String) :
    ∃ expected, Offers expected (first :: front) ∧
      Statement.ofTokens (first :: (front ++ token :: rest)) line =
        .error (.unexpectedToken token.text expected) := by
  have hgone : after (after (started first) front) [token] = [] := by
    rw [← Progress.after_append]
    by_contra hleft
    exact htoken (begun_cons_iff.mpr hleft)
  have hread := Statement.ofTokens_of_begun hfirst (begun_iff.mpr (.inr h)) (token :: rest) line
  rw [follow_unexpected (unfinished_cons_iff.mp h).2 hgone] at hread
  exact ⟨_, offers_expected first front, hread⟩

theorem Statement.ofTokens_of_formed (hfirst : first.kind ≠ .comment)
    (h : Formed (first :: front)) (rest : List Token) (line : String) :
    ∃ s, Statement.ofTokens (first :: (front ++ rest)) line =
      (checkEnd rest).map fun _ => s := by
  have hread := Statement.ofTokens_of_begun hfirst (begun_iff.mpr (.inl h)) rest line
  cases hcomplete : Progress.complete? (after (started first) front) with
  | none =>
      obtain ⟨p, hp, hdone⟩ := Progress.ends_nil.mp
        (Progress.ends_append.mp (by rw [List.append_nil]; exact formed_cons_iff.mp h))
      exact absurd hdone (Progress.complete?_eq_none_iff.mp hcomplete p hp)
  | some done =>
      rw [follow_complete hcomplete] at hread
      exact ⟨_, hread⟩

-- Where a property of beginnings is lost.
theorem exists_first_failure {α : Type} {P : List α → Prop} (hnil : P []) {items : List α}
    (h : ¬P items) :
    ∃ front item back, items = front ++ item :: back ∧ P front ∧ ¬P (front ++ [item]) := by
  induction items using List.reverseRecOn with
  | nil => exact absurd hnil h
  | append_singleton items last ih =>
      by_cases hitems : P items
      · exact ⟨items, last, [], rfl, hitems, h⟩
      · obtain ⟨front, item, back, rfl, hfront, hitem⟩ := ih hitems
        exact ⟨front, item, back ++ [last], by simp, hfront, hitem⟩

-- The first token that no statement has behind those in front of it.
structure FirstOffence (tokens front : List Token) (token : Token) : Prop where
  place : ∃ behind, tokens = front ++ token :: behind
  later : front ≠ []
  lacks : Unfinished front
  offends : ¬Begun (front ++ [token])

-- What is named behind a whole statement, unless a single comment or nothing at all stands there.
def Named (behind : List Token) (text : String) : Prop :=
  ∃ token rest, behind = token :: rest ∧
    (token.kind ≠ .comment ∧ text = token.text ∨
      token.kind = .comment ∧ ∃ second others, rest = second :: others ∧ text = second.text)

theorem checkEnd_eq_error_iff {tokens : List Token} {e : CompileError} :
    checkEnd tokens = .error e ↔ ∃ text, e = .statementNotEnded text ∧ Named tokens text := by
  cases tokens with
  | nil => simp [checkEnd, Named]
  | cons token rest =>
      cases rest with
      | nil =>
          by_cases hkind : token.kind = .comment <;>
            simp [checkEnd, Named, hkind, @eq_comm _ e]
      | cons second others =>
          by_cases hkind : token.kind = .comment <;>
            simp [checkEnd, Named, hkind, @eq_comm _ e]

-- What is wrong with the tokens of a line, by the error it is refused with.
inductive Diagnosis (tokens : List Token) : CompileError → Prop where
  | noStart {first : Token} {rest : List Token} (htokens : tokens = first :: rest)
      (hstart : ¬Begun [first]) : Diagnosis tokens (.invalidStart first.text)
  | missing {expected : List Expectation} (hlacks : Unfinished tokens)
      (hoffers : Offers expected tokens) : Diagnosis tokens (.missingToken expected)
  | unexpected {front : List Token} {token : Token} {expected : List Expectation}
      (hoffence : FirstOffence tokens front token) (hoffers : Offers expected front) :
      Diagnosis tokens (.unexpectedToken token.text expected)
  | notEnded {body behind : List Token} {extra : String} (htokens : tokens = body ++ behind)
      (hbody : Formed body) (hextra : Named behind extra) :
      Diagnosis tokens (.statementNotEnded extra)

-- Behind a whole statement only what stands there can still be wrong.
theorem Diagnosis.of_formed (hfirst : first.kind ≠ .comment) (hformed : Formed (first :: front))
    {e : CompileError} (h : Statement.ofTokens (first :: (front ++ rest)) line = .error e) :
    Diagnosis (first :: (front ++ rest)) e := by
  obtain ⟨s, hread⟩ := Statement.ofTokens_of_formed hfirst hformed rest line
  rw [h] at hread
  cases hend : checkEnd rest with
  | ok _ =>
      rw [hend] at hread
      cases hread
  | error e' =>
      rw [hend] at hread
      cases hread
      obtain ⟨text, rfl, hnamed⟩ := checkEnd_eq_error_iff.mp hend
      exact .notEnded (List.cons_append ..).symm hformed hnamed

-- The cases go by the longest beginning of the line that is one of a statement.
theorem Statement.diagnosis_of_error (hfirst : first.kind ≠ .comment) {e : CompileError}
    (h : Statement.ofTokens (first :: rest) line = .error e) : Diagnosis (first :: rest) e := by
  by_cases hall : Begun (first :: rest)
  · rcases begun_iff.mp hall with hformed | hlacks
    · rw [← List.append_nil rest] at h ⊢
      exact .of_formed hfirst hformed h
    · obtain ⟨expected, hoffers, hread⟩ := Statement.ofTokens_of_unfinished hfirst hlacks line
      rw [h] at hread
      cases hread
      exact .missing hlacks hoffers
  · by_cases hstart : Begun [first]
    · obtain ⟨front, token, behind, rfl, hfront, htoken⟩ :=
        exists_first_failure (P := fun front => Begun (first :: front)) hstart hall
      rcases begun_iff.mp hfront with hformed | hlacks
      · exact .of_formed hfirst hformed h
      · obtain ⟨expected, hoffers, hread⟩ :=
          Statement.ofTokens_of_unexpected hfirst hlacks htoken behind line
        rw [h] at hread
        cases hread
        exact .unexpected ⟨⟨behind, rfl⟩, List.cons_ne_nil _ _, hlacks, htoken⟩ hoffers
    · rw [Statement.ofTokens_of_no_start hfirst hstart] at h
      cases h
      exact .noStart rfl hstart

section Errors

variable (hfirst : first.kind ≠ .comment)

include hfirst

theorem Statement.error_invalidStart_iff {text : String} :
    Statement.ofTokens (first :: rest) line = .error (.invalidStart text) ↔
      ¬Begun [first] ∧ text = first.text := by
  constructor
  · intro h
    cases Statement.diagnosis_of_error hfirst h with
    | noStart htokens hstart =>
        obtain ⟨rfl, rfl⟩ := List.cons_eq_cons.mp htokens
        exact ⟨hstart, rfl⟩
  · rintro ⟨hstart, rfl⟩
    exact Statement.ofTokens_of_no_start hfirst hstart rest line

theorem Statement.error_missingToken_iff :
    (∃ expected, Statement.ofTokens (first :: rest) line = .error (.missingToken expected)) ↔
      Unfinished (first :: rest) := by
  constructor
  · rintro ⟨expected, h⟩
    cases Statement.diagnosis_of_error hfirst h with
    | missing hlacks _ => exact hlacks
  · intro hlacks
    obtain ⟨expected, _, hread⟩ := Statement.ofTokens_of_unfinished hfirst hlacks line
    exact ⟨expected, hread⟩

theorem Statement.offers_of_missingToken {expected : List Expectation}
    (h : Statement.ofTokens (first :: rest) line = .error (.missingToken expected)) :
    Offers expected (first :: rest) := by
  cases Statement.diagnosis_of_error hfirst h with
  | missing _ hoffers => exact hoffers

theorem FirstOffence.error (h : FirstOffence (first :: rest) front token) (line : String) :
    ∃ expected, Offers expected front ∧ Statement.ofTokens (first :: rest) line =
      .error (.unexpectedToken token.text expected) := by
  obtain ⟨⟨behind, htokens⟩, hlater, hlacks, htoken⟩ := h
  obtain ⟨start, front, rfl⟩ := List.exists_cons_of_ne_nil hlater
  obtain ⟨rfl, rfl⟩ := List.cons_eq_cons.mp htokens
  exact Statement.ofTokens_of_unexpected hfirst hlacks htoken behind line

theorem Statement.error_unexpectedToken_iff {found : String} :
    (∃ expected, Statement.ofTokens (first :: rest) line =
        .error (.unexpectedToken found expected)) ↔
      ∃ front token, FirstOffence (first :: rest) front token ∧ found = token.text := by
  constructor
  · rintro ⟨expected, h⟩
    cases Statement.diagnosis_of_error hfirst h with
    | unexpected hoffence _ => exact ⟨_, _, hoffence, rfl⟩
  · rintro ⟨front, token, hoffence, rfl⟩
    obtain ⟨expected, _, hread⟩ := hoffence.error hfirst line
    exact ⟨expected, hread⟩

theorem Statement.offers_of_unexpectedToken {found : String} {expected : List Expectation}
    (h : Statement.ofTokens (first :: rest) line = .error (.unexpectedToken found expected))
    (hoffence : FirstOffence (first :: rest) front token) : Offers expected front := by
  obtain ⟨others, hoffers, hread⟩ := hoffence.error hfirst line
  rw [h] at hread
  cases hread
  exact hoffers

theorem Statement.error_statementNotEnded_iff {extra : String} :
    Statement.ofTokens (first :: rest) line = .error (.statementNotEnded extra) ↔
      ∃ body behind, first :: rest = body ++ behind ∧ Formed body ∧ Named behind extra := by
  constructor
  · intro h
    cases Statement.diagnosis_of_error hfirst h with
    | notEnded htokens hbody hextra => exact ⟨_, _, htokens, hbody, hextra⟩
  · rintro ⟨body, behind, htokens, hbody, hnamed⟩
    cases body with
    | nil => exact absurd hbody not_formed_nil
    | cons start body =>
        obtain ⟨rfl, rfl⟩ := List.cons_eq_cons.mp htokens
        obtain ⟨s, hread⟩ := Statement.ofTokens_of_formed hfirst hbody behind line
        exact hread.trans (by rw [checkEnd_eq_error_iff.mpr ⟨extra, rfl, hnamed⟩]; rfl)

end Errors

-- A line is refused at the first token that is wrong in it. Its first token begins no statement, or
-- it ends before a statement does, or no statement has the named token behind the tokens in front
-- of it, or a whole statement is followed by more than a comment. What is said to be expected is
-- all that the tokens in front of that place can be followed by.
theorem Statement.refused_at_first_offence (first : Token) (rest : List Token) (line : String)
    (hfirst : first.kind ≠ .comment) :
    let tokens := first :: rest
    let result := Statement.ofTokens tokens line
    (∀ text, result = .error (.invalidStart text) ↔ ¬Begun [first] ∧ text = first.text) ∧
    ((∃ expected, result = .error (.missingToken expected)) ↔ Unfinished tokens) ∧
    (∀ expected, result = .error (.missingToken expected) → Offers expected tokens ∧
      (CompileError.missingToken expected).message =
        "Statement ended too early: expected " ++ Expectation.describe expected ++ ".") ∧
    (∀ found, (∃ expected, result = .error (.unexpectedToken found expected)) ↔
      ∃ front token, FirstOffence tokens front token ∧ found = token.text) ∧
    (∀ found expected, result = .error (.unexpectedToken found expected) →
      (∀ front token, FirstOffence tokens front token → Offers expected front) ∧
      (CompileError.unexpectedToken found expected).message =
        "Unexpected token: found '" ++ found ++ "', expected " ++ Expectation.describe expected ++
          ".") ∧
    (∀ extra, result = .error (.statementNotEnded extra) ↔
      ∃ body behind, tokens = body ++ behind ∧ Formed body ∧ Named behind extra) ∧
    ∀ e, result = .error e →
      (∃ text, e = .invalidStart text) ∨ (∃ expected, e = .missingToken expected) ∨
        (∃ found expected, e = .unexpectedToken found expected) ∨
          ∃ extra, e = .statementNotEnded extra := by
  intro tokens result
  refine ⟨fun _ => Statement.error_invalidStart_iff hfirst,
    Statement.error_missingToken_iff hfirst,
    fun _ h => ⟨Statement.offers_of_missingToken hfirst h, rfl⟩,
    fun _ => Statement.error_unexpectedToken_iff hfirst,
    fun _ _ h => ⟨fun _ _ => Statement.offers_of_unexpectedToken hfirst h, rfl⟩,
    fun _ => Statement.error_statementNotEnded_iff hfirst, fun e h => ?_⟩
  cases Statement.diagnosis_of_error hfirst h with
  | noStart => exact .inl ⟨_, rfl⟩
  | missing => exact .inr (.inl ⟨_, rfl⟩)
  | unexpected => exact .inr (.inr (.inl ⟨_, _, rfl⟩))
  | notEnded => exact .inr (.inr (.inr ⟨_, rfl⟩))

-- An ordering takes no list, and a comment ends a statement once.
theorem Statement.ordering_refuses_list :
    let tokens : List Token :=
      [⟨.keyword, "TEST"⟩, ⟨.name, "x"⟩, ⟨.symbol, ">"⟩, ⟨.list, "(1)"⟩, ⟨.comment, "#"⟩]
    let kinds : List Expectation := [.kind .name, .kind .number, .kind .string]
    (∃ front token, FirstOffence tokens front token ∧ token.text = "(1)" ∧ Offers kinds front) ∧
    ∃ body behind, [⟨.keyword, "exit"⟩, ⟨.comment, "#"⟩, ⟨.comment, "##"⟩] = body ++ behind ∧
      Formed body ∧ Named behind "##" := by
  intro tokens kinds
  have hread : Statement.ofTokens tokens "TEST x > (1) #" =
      .error (.unexpectedToken "(1)" kinds) := by
    decide +kernel
  have hexit : Statement.ofTokens [⟨.keyword, "exit"⟩, ⟨.comment, "#"⟩, ⟨.comment, "##"⟩]
      "exit # ##" = .error (.statementNotEnded "##") := by
    decide +kernel
  obtain ⟨_, _, _, hfound, hoffers, _⟩ :=
    Statement.refused_at_first_offence ⟨.keyword, "TEST"⟩ _ "TEST x > (1) #" (by decide)
  obtain ⟨_, _, _, _, _, hended, _⟩ :=
    Statement.refused_at_first_offence ⟨.keyword, "exit"⟩ _ "exit # ##" (by decide)
  obtain ⟨front, token, hoffence, htext⟩ := (hfound "(1)").mp ⟨_, hread⟩
  exact ⟨⟨front, token, hoffence, htext.symm, (hoffers _ _ hread).1 _ _ hoffence⟩,
    (hended "##").mp hexit⟩

end LineScript
