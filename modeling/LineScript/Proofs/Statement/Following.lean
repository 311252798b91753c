import LineScript.Proofs.Statement.Acceptance

namespace LineScript

theorem nodup_eraseDups {α : Type} [BEq α] [LawfulBEq α] (items : List α) :
    items.eraseDups.Nodup := by
  induction hlength : items.length using Nat.strongRecOn generalizing items with
  | ind n ih =>
      cases items with
      | nil => simp
      | cons item rest =>
          rw [List.eraseDups_cons, List.nodup_cons]
          have hshorter : (rest.filter fun other => !other == item).length < n := by
            have := List.length_filter_le (fun other => !other == item) rest
            rw [List.length_cons] at hlength
            omega
          refine ⟨?_, ih _ hshorter _ rfl⟩
          simp [List.mem_eraseDups]

theorem Keyword.ofText?_text (keyword : Keyword) : ofText? keyword.text = some keyword := by
  cases keyword <;> decide

-- A mark has one character.
theorem Keyword.length_text (keyword : Keyword) : keyword.text.toList.length ≠ 1 := by
  cases keyword <;> decide

theorem TokenKind.label_injective {k l : TokenKind} (h : k.label = l.label) : k = l := by
  cases k <;> cases l <;> first | rfl | exact absurd h (by decide)

theorem TokenKind.head?_label (kind : TokenKind) : kind.label.toList.head? ≠ some '\'' := by
  cases kind <;> decide

namespace Expectation

-- There is a token for every alternative.
theorem exists_accepts (e : Expectation) : ∃ token, e.accepts token = true := by
  cases e with
  | kind k => exact ⟨⟨k, ""⟩, by simp [accepts]⟩
  | keyword k =>
      exact ⟨.ofKeyword k, by simp [accepts, Token.keyword?, Token.ofKeyword, k.ofText?_text]⟩
  | symbol c => exact ⟨⟨.symbol, String.singleton c⟩, by simp [accepts, Token.isSymbol]⟩

theorem toList_text_keyword (k : Keyword) :
    (keyword k).text.toList = '\'' :: (k.text.toList ++ ['\'']) := by
  change ("'" ++ k.text ++ "'").toList = _
  simp

theorem toList_text_symbol (c : Char) : (symbol c).text.toList = '\'' :: ([c] ++ ['\'']) := by
  change ("'" ++ String.singleton c ++ "'").toList = _
  simp

-- Words and marks stand in quotes and kinds do not, and no word is as short as a mark.
theorem text_injective : Function.Injective text := by
  have hkind {k : TokenKind} {cs : List Char} : k.label.toList ≠ '\'' :: cs := by
    intro h
    exact k.head?_label (by rw [h]; rfl)
  have hword {k : Keyword} {c : Char} : k.text.toList ≠ [c] := by
    intro h
    exact k.length_text (by rw [h]; rfl)
  intro e f h
  have hchars := congrArg String.toList h
  cases e with
  | kind k =>
      cases f with
      | kind l => exact congrArg kind (TokenKind.label_injective h)
      | keyword l => exact absurd (hchars.trans (toList_text_keyword l)) hkind
      | symbol d => exact absurd (hchars.trans (toList_text_symbol d)) hkind
  | keyword k =>
      rw [toList_text_keyword] at hchars
      cases f with
      | kind l => exact absurd hchars.symm hkind
      | keyword l =>
          rw [toList_text_keyword, List.cons.injEq, List.append_cancel_right_eq,
            String.toList_inj] at hchars
          have hsame := k.ofText?_text
          rw [hchars.2, l.ofText?_text, Option.some.injEq] at hsame
          rw [hsame]
      | symbol d =>
          rw [toList_text_symbol, List.cons.injEq, List.append_cancel_right_eq] at hchars
          exact absurd hchars.2 hword
  | symbol c =>
      rw [toList_text_symbol] at hchars
      cases f with
      | kind l => exact absurd hchars.symm hkind
      | keyword l =>
          rw [toList_text_keyword, List.cons.injEq, List.append_cancel_right_eq] at hchars
          exact absurd hchars.2.symm hword
      | symbol d =>
          rw [toList_text_symbol, List.cons.injEq, List.append_cancel_right_eq,
            List.singleton_inj] at hchars
          rw [hchars.2]

end Expectation

namespace Progress

-- A token moves on every production that it fits, and the others are given up.
def after (active : List Progress) (front : List Token) : List Progress :=
  front.foldl (fun active token => active.filterMap (·.advance? token)) active

-- Whether tokens lead one of the productions to its end.
def Ends (active : List Progress) (tokens : List Token) : Prop :=
  ∃ p ∈ active, ∃ last, Taken p tokens last

variable {active : List Progress} {front rest : List Token}

theorem after_nil (front : List Token) : after [] front = [] := by
  induction front with
  | nil => rfl
  | cons token front ih => exact ih

theorem after_append (active : List Progress) (front rest : List Token) :
    after active (front ++ rest) = after (after active front) rest :=
  List.foldl_append

theorem Apart.after (h : Apart active) (front : List Token) : Apart (after active front) := by
  induction front generalizing active with
  | nil => exact h
  | cons token front ih => exact ih (h.advance token)

theorem ends_nil : Ends active [] ↔ ∃ p ∈ active, p.remaining = [] := by
  constructor
  · rintro ⟨p, hp, last, htaken⟩
    cases htaken with
    | done hremaining => exact ⟨p, hp, hremaining⟩
  · rintro ⟨p, hp, hremaining⟩
    exact ⟨p, hp, p, .done hremaining⟩

theorem ends_cons {token : Token} :
    Ends active (token :: rest) ↔ Ends (active.filterMap (·.advance? token)) rest := by
  constructor
  · rintro ⟨p, hp, last, htaken⟩
    cases htaken with
    | step hadvance htaken => exact ⟨_, List.mem_filterMap.mpr ⟨p, hp, hadvance⟩, last, htaken⟩
  · rintro ⟨next, hnext, last, htaken⟩
    obtain ⟨p, hp, hadvance⟩ := List.mem_filterMap.mp hnext
    exact ⟨p, hp, last, .step hadvance htaken⟩

theorem ends_append : Ends active (front ++ rest) ↔ Ends (after active front) rest := by
  induction front generalizing active with
  | nil => rfl
  | cons token front ih => exact ends_cons.trans ih

-- A production that can be filled to its end.
def Open (progress : Progress) : Prop :=
  ∀ part ∈ progress.remaining, part.expectations ≠ []

theorem Open.advance {p next : Progress} {token : Token} (h : p.Open)
    (hadvance : p.advance? token = some next) : next.Open := by
  obtain ⟨part, hremaining, _⟩ := advance?_eq_some hadvance
  intro other hother
  exact h other (hremaining ▸ List.mem_cons_of_mem part hother)

theorem open_after (h : ∀ p ∈ active, p.Open) (front : List Token) :
    ∀ p ∈ after active front, p.Open := by
  induction front generalizing active with
  | nil => exact h
  | cons token front ih =>
      refine ih fun next hnext => ?_
      obtain ⟨p, hp, hadvance⟩ := List.mem_filterMap.mp hnext
      exact (h p hp).advance hadvance

theorem Open.exists_taken {p : Progress} (h : p.Open) : ∃ tokens last, Taken p tokens last := by
  induction hparts : p.remaining generalizing p with
  | nil => exact ⟨[], p, .done hparts⟩
  | cons part rest ih =>
      obtain ⟨e, he⟩ := List.exists_mem_of_ne_nil _ (h part (hparts ▸ List.mem_cons_self))
      obtain ⟨token, haccepts⟩ := e.exists_accepts
      obtain ⟨next, hadvance, hremaining, _⟩ :=
        advance?_of_accepts hparts (List.any_eq_true.mpr ⟨e, he, haccepts⟩)
      obtain ⟨tokens, last, htaken⟩ := ih (h.advance hadvance) hremaining
      exact ⟨token :: tokens, last, .step hadvance htaken⟩

-- What is left after a beginning can be ended, unless nothing is left.
theorem exists_ends (h : ∀ p ∈ active, p.Open) : (∃ rest, Ends active rest) ↔ active ≠ [] := by
  constructor
  · rintro ⟨rest, p, hp, _⟩
    exact List.ne_nil_of_mem hp
  · intro hne
    obtain ⟨p, hp⟩ := List.exists_mem_of_ne_nil _ hne
    obtain ⟨tokens, last, htaken⟩ := (h p hp).exists_taken
    exact ⟨tokens, p, hp, last, htaken⟩

theorem complete?_eq_none_iff :
    complete? active = none ↔ ∀ p ∈ active, p.remaining ≠ [] := by
  simp [complete?]

-- One that is complete is the only one left, so nothing more can follow.
theorem Apart.after_cons_of_complete (h : Apart active) {p : Progress} (hp : p ∈ active)
    (hcomplete : p.remaining = []) (token : Token) (front : List Token) :
    Progress.after active (token :: front) = [] := by
  have hnone : active.filterMap (·.advance? token) = [] := by
    refine List.filterMap_eq_nil_iff.mpr fun q hq => ?_
    rw [h.eq_of_complete hq hp hcomplete, advance?, hcomplete]
  change Progress.after (active.filterMap (·.advance? token)) front = []
  rw [hnone, after_nil]

theorem exists_ends_of_incomplete (hopen : ∀ p ∈ active, p.Open) (hapart : Apart active) :
    (∃ rest, rest ≠ [] ∧ Ends active rest) ↔ active ≠ [] ∧ complete? active = none := by
  constructor
  · rintro ⟨rest, hrest, hends⟩
    refine ⟨(exists_ends hopen).mp ⟨rest, hends⟩, complete?_eq_none_iff.mpr ?_⟩
    intro p hp hcomplete
    obtain ⟨token, later, rfl⟩ := List.exists_cons_of_ne_nil hrest
    have hends' : Ends (Progress.after active (token :: later)) [] :=
      ends_append.mp (by rwa [List.append_nil])
    rw [hapart.after_cons_of_complete hp hcomplete] at hends'
    obtain ⟨q, hq, _⟩ := hends'
    cases hq
  · rintro ⟨hne, hnone⟩
    obtain ⟨rest, hends⟩ := (exists_ends hopen).mpr hne
    refine ⟨rest, ?_, hends⟩
    rintro rfl
    obtain ⟨p, hp, hcomplete⟩ := ends_nil.mp hends
    exact complete?_eq_none_iff.mp hnone p hp hcomplete

theorem advance?_isSome_iff {p : Progress} {token : Token} :
    (p.advance? token).isSome = true ↔ ∃ e ∈ p.expectations, e.accepts token = true := by
  unfold advance? expectations
  cases p.remaining with
  | nil => simp
  | cons part rest =>
      dsimp only
      rw [← List.any_eq_true]
      split_ifs with haccepts
      · simp [haccepts]
      · simp [haccepts]

-- What is expected is what moves one of the productions on.
theorem exists_accepts_expected (active : List Progress) (token : Token) :
    (∃ e ∈ expected active, e.accepts token = true) ↔ after active [token] ≠ [] := by
  have hmoved : after active [token] ≠ [] ↔ ∃ p ∈ active, (p.advance? token).isSome = true := by
    change active.filterMap (·.advance? token) ≠ [] ↔ _
    rw [Ne, List.filterMap_eq_nil_iff]
    simp [Option.isSome_iff_ne_none]
  rw [hmoved]
  simp only [expected, List.mem_eraseDups, List.mem_flatMap, advance?_isSome_iff]
  constructor
  · rintro ⟨e, ⟨p, hp, he⟩, haccepts⟩
    exact ⟨p, hp, e, he, haccepts⟩
  · rintro ⟨p, hp, e, he, haccepts⟩
    exact ⟨e, ⟨p, hp, he⟩, haccepts⟩

end Progress

section

variable {line : String} {active : List Progress}

-- Reading goes on behind a beginning as long as something is left of the productions.
theorem follow_append {front : List Token} (hapart : Progress.Apart active)
    (h : Progress.after active front ≠ []) (rest : List Token) :
    follow line active (front ++ rest) = follow line (Progress.after active front) rest := by
  induction front generalizing active with
  | nil => rfl
  | cons token front ih =>
      have hnone : Progress.complete? active = none := by
        refine Progress.complete?_eq_none_iff.mpr fun p hp hcomplete => h ?_
        exact hapart.after_cons_of_complete hp hcomplete token front
      have hmoved : active.filterMap (·.advance? token) ≠ [] := by
        intro hgone
        refine h ?_
        change Progress.after (active.filterMap (·.advance? token)) front = []
        rw [hgone, Progress.after_nil]
      rw [List.cons_append, follow, hnone]
      dsimp only
      split
      · rename_i hgone
        exact absurd hgone hmoved
      · exact ih (hapart.advance token) h

theorem follow_unexpected {token : Token} (hnone : Progress.complete? active = none)
    (hgone : Progress.after active [token] = []) (rest : List Token) :
    follow line active (token :: rest) =
      .error (.unexpectedToken token.text (Progress.expected active)) := by
  have hgone : active.filterMap (·.advance? token) = [] := hgone
  rw [follow, hnone, hgone]

end

-- No production has a place for which there is no token.
theorem Grammar.productions_open :
    ∀ production ∈ productions, (Progress.start production).Open := by
  have hparts : ∀ production ∈ productions, ∀ part ∈ production.parts,
      part.expectations ≠ [] := by
    decide
  exact hparts

end LineScript
