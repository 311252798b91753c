import LineScript.Lexeme
import LineScript.Number.Literal
import Mathlib.Data.List.TakeDrop
import Mathlib.Data.List.TakeWhile

namespace LineScript.Number

open Lexeme (continuesNumber startsNumber)

theorem splitSign_cases (cs : List Char) :
    (∃ rest, cs = '-' :: rest ∧ splitSign cs = (true, rest)) ∨
    (∃ rest, cs = '+' :: rest ∧ splitSign cs = (false, rest)) ∨ splitSign cs = (false, cs) := by
  unfold splitSign
  split
  · exact .inl ⟨_, rfl, rfl⟩
  · exact .inr (.inl ⟨_, rfl, rfl⟩)
  · exact .inr (.inr rfl)

theorem continuesNumber_of_isDigit {c : Char} (h : c.isDigit = true) :
    continuesNumber c = true := by
  simp [continuesNumber, Char.isAlphanum, h]

theorem continuesNumber_of_startsNumber {c : Char} (h : startsNumber c = true) :
    continuesNumber c = true := by
  simp only [startsNumber, Bool.or_eq_true, beq_iff_eq] at h
  rcases h with (hdigit | rfl) | rfl
  · exact continuesNumber_of_isDigit hdigit
  · decide
  · decide

theorem continuesNumber_of_dropWhile {cs : List Char}
    (h : ∀ c ∈ cs.dropWhile Char.isDigit, continuesNumber c = true) :
    ∀ c ∈ cs, continuesNumber c = true := by
  intro c hc
  rw [← List.takeWhile_append_dropWhile (p := Char.isDigit) (l := cs), List.mem_append] at hc
  rcases hc with hdigit | hrest
  · exact continuesNumber_of_isDigit (List.mem_takeWhile_imp hdigit)
  · exact h c hrest

-- A sign in front of a number that the scanner goes on with does not stop it.
theorem continuesNumber_of_splitSign {cs : List Char}
    (h : ∀ c ∈ (splitSign cs).2, continuesNumber c = true) :
    ∀ c ∈ cs, continuesNumber c = true := by
  rcases splitSign_cases cs with ⟨rest, rfl, hsplit⟩ | ⟨rest, rfl, hsplit⟩ | hsplit
  · rw [hsplit] at h
    exact List.forall_mem_cons.mpr ⟨by decide, h⟩
  · rw [hsplit] at h
    exact List.forall_mem_cons.mpr ⟨by decide, h⟩
  · rwa [hsplit] at h

-- What a number is behind its sign, as far as the scanner is concerned.
structure Unsigned (cs : List Char) : Prop where
  begins : ∃ c ∈ cs.head?, c.isDigit = true ∨ c = '.'
  all : ∀ c ∈ cs, continuesNumber c = true

theorem Unsigned.of_digits {digits rest : List Char} (hdigits : ∀ c ∈ digits, c.isDigit = true)
    (hbegins : digits ≠ [] ∨ rest.head? = some '.')
    (hall : ∀ c ∈ digits ++ rest, continuesNumber c = true) : Unsigned (digits ++ rest) where
  begins := by
    cases digits with
    | nil =>
        obtain hnone | hpoint := hbegins
        · exact absurd rfl hnone
        · exact ⟨'.', hpoint, .inr rfl⟩
    | cons c digits => exact ⟨c, rfl, .inl (hdigits c List.mem_cons_self)⟩
  all := hall

theorem digits_of_readDigits? {cs : List Char} (h : (readDigits? cs).isSome = true) :
    cs ≠ [] ∧ ∀ c ∈ cs, c.isDigit = true := by
  unfold readDigits? at h
  split_ifs at h with hdigits
  · exact ⟨hdigits.1, List.all_eq_true.mp hdigits.2⟩
  · cases h

theorem unsigned_of_readInteger? {cs : List Char} (h : (readInteger? cs).isSome = true) :
    Unsigned (splitSign cs).2 := by
  have hread : (readDigits? (splitSign cs).2).isSome = true := by
    rw [readInteger?] at h
    exact Option.isSome_of_isSome_bind h
  obtain ⟨hne, hdigits⟩ := digits_of_readDigits? hread
  have hall : ∀ c ∈ (splitSign cs).2 ++ [], continuesNumber c = true := fun c hc =>
    continuesNumber_of_isDigit (hdigits c (by simpa using hc))
  simpa using Unsigned.of_digits hdigits (.inl hne) hall

theorem continuesNumber_of_readExponent? {cs : List Char}
    (h : (readExponent? cs).isSome = true) : ∀ c ∈ cs, continuesNumber c = true := by
  cases cs with
  | nil => simp
  | cons mark rest =>
      rw [readExponent?] at h
      have hmark : mark = 'e' ∨ mark = 'E' := by
        by_contra hother
        simp [hother] at h
      have hread : (readDigits? (splitSign rest).2).isSome = true := by
        cases hdigits : readDigits? (splitSign rest).2 with
        | none => simp [hmark, hdigits] at h
        | some n => rfl
      refine List.forall_mem_cons.mpr ⟨?_, continuesNumber_of_splitSign fun c hc => ?_⟩
      · rcases hmark with rfl | rfl <;> decide
      · exact continuesNumber_of_isDigit ((digits_of_readDigits? hread).2 c hc)

theorem readFraction_cases (cs : List Char) :
    (∃ rest, cs = '.' :: rest ∧
      readFraction cs = (rest.takeWhile Char.isDigit, rest.dropWhile Char.isDigit)) ∨
    readFraction cs = ([], cs) := by
  unfold readFraction
  split
  · exact .inl ⟨_, rfl, List.span_eq_takeWhile_dropWhile _ _⟩
  · exact .inr rfl

theorem unsigned_of_readScientific? {cs : List Char} (h : (readScientific? cs).isSome = true) :
    Unsigned (splitSign cs).2 := by
  rw [readScientific?] at h
  generalize (splitSign cs).2 = body at h ⊢
  simp only [List.span_eq_takeWhile_dropWhile] at h
  split_ifs at h with hnone
  · cases h
  · have hexponent : ∀ c ∈ (readFraction (body.dropWhile Char.isDigit)).2,
        continuesNumber c = true :=
      continuesNumber_of_readExponent? (by simpa using h)
    have hdigits : ∀ c ∈ body.takeWhile Char.isDigit, c.isDigit = true := fun c hc =>
      List.mem_takeWhile_imp hc
    rw [← List.takeWhile_append_dropWhile (p := Char.isDigit) (l := body)]
    rcases readFraction_cases (body.dropWhile Char.isDigit) with ⟨rest, hpoint, hread⟩ | hread
    · rw [hread] at hexponent
      have hrest := continuesNumber_of_dropWhile hexponent
      refine .of_digits hdigits (.inr (by rw [hpoint]; rfl)) ?_
      rw [List.takeWhile_append_dropWhile]
      refine continuesNumber_of_dropWhile ?_
      rw [hpoint]
      exact List.forall_mem_cons.mpr ⟨by decide, hrest⟩
    · rw [hread] at hexponent hnone
      refine .of_digits hdigits (.inl fun hempty => hnone ⟨hempty, rfl⟩) ?_
      rw [List.takeWhile_append_dropWhile]
      exact continuesNumber_of_dropWhile hexponent

-- The grammar of numbers is within what the scanner takes for one.
theorem unsigned_of_read? {cs : List Char} (h : (Literal.read? cs).isSome = true) :
    Unsigned (splitSign cs).2 := by
  unfold Literal.read? at h
  split at h
  · rename_i n hn
    exact unsigned_of_readInteger? (by rw [hn]; rfl)
  · exact unsigned_of_readScientific? (by simpa using h)

-- A number without a plus in front is one run of the scanner.
theorem run_of_read? {cs : List Char} (h : (Literal.read? cs).isSome = true)
    (hplus : cs.head? ≠ some '+') :
    ∃ c rest, cs = c :: rest ∧ startsNumber c = true ∧ ∀ d ∈ rest, continuesNumber d = true := by
  obtain ⟨⟨first, hfirst, hbegins⟩, hall⟩ := unsigned_of_read? h
  rcases splitSign_cases cs with ⟨rest, rfl, hsplit⟩ | ⟨rest, rfl, _⟩ | hsplit
  · rw [hsplit] at hall
    exact ⟨'-', rest, rfl, by decide, hall⟩
  · exact absurd rfl hplus
  · rw [hsplit] at hfirst hall
    obtain ⟨rest, rfl⟩ := List.head?_eq_some_iff.mp hfirst
    refine ⟨first, rest, rfl, ?_, (List.forall_mem_cons.mp hall).2⟩
    rcases hbegins with hdigit | rfl
    · simp [startsNumber, hdigit]
    · decide

-- Of the sign only what it says counts.
theorem read?_congr {cs others : List Char} (h : splitSign cs = splitSign others) :
    Literal.read? cs = Literal.read? others := by
  simp only [Literal.read?, readInteger?, readScientific?, h]

theorem head?_ne_plus {cs : List Char} (h : ∃ c ∈ cs.head?, c.isDigit = true ∨ c = '.') :
    cs.head? ≠ some '+' := by
  obtain ⟨c, hc, hbegins⟩ := h
  intro hplus
  obtain rfl : '+' = c := by simpa [hplus] using hc
  simp at hbegins

theorem splitSign_of_begins {cs : List Char}
    (h : ∃ c ∈ cs.head?, c.isDigit = true ∨ c = '.') : splitSign cs = (false, cs) := by
  rcases splitSign_cases cs with ⟨rest, rfl, _⟩ | ⟨rest, rfl, _⟩ | hsplit
  · obtain ⟨c, hc, hbegins⟩ := h
    obtain rfl : '-' = c := by simpa using hc
    simp at hbegins
  · exact absurd rfl (head?_ne_plus h)
  · exact hsplit

-- A plus in front of a number changes nothing.
theorem read?_plus {cs : List Char} (h : ∃ c ∈ cs.head?, c.isDigit = true ∨ c = '.') :
    Literal.read? ('+' :: cs) = Literal.read? cs :=
  read?_congr (splitSign_of_begins h).symm

end LineScript.Number
