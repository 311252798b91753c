import LineScript.Keyword
import LineScript.Text.Line
import LineScript.Text.Lowercase
import Mathlib.Data.List.Basic

namespace LineScript.Text

theorem toUpper_cases (c : Char) :
    c.toUpper = c ∨ ∃ i < 26, c = Char.ofNat (97 + i) ∧ c.toUpper = Char.ofNat (65 + i) := by
  by_cases hlow : 97 ≤ c.toNat ∧ c.toNat ≤ 122
  · have hletters : ∀ i < 26, (Char.ofNat (97 + i)).toUpper = Char.ofNat (65 + i) := by decide
    have hc : c = Char.ofNat (97 + (c.toNat - 97)) := by
      rw [show 97 + (c.toNat - 97) = c.toNat by omega, Char.ofNat_toNat]
    refine .inr ⟨c.toNat - 97, by omega, hc, ?_⟩
    rw [← hletters _ (by omega), ← hc]
  · refine .inl ?_
    unfold Char.toUpper
    rw [dif_neg]
    intro h
    exact hlow ⟨h.1, h.2⟩

-- What holds of the letters A to Z in both cases holds for every character.
theorem apply_toUpper {α : Type} (f : Char → α)
    (h : ∀ i < 26, f (Char.ofNat (65 + i)) = f (Char.ofNat (97 + i))) (c : Char) :
    f c.toUpper = f c := by
  rcases toUpper_cases c with hsame | ⟨i, hi, hc, hupper⟩
  · rw [hsame]
  · rw [hupper, hc, h i hi]

theorem toUpper_eq_iff {c d : Char}
    (h : ∀ i < 26, Char.ofNat (65 + i) ≠ d ∧ Char.ofNat (97 + i) ≠ d) : c.toUpper = d ↔ c = d := by
  rcases toUpper_cases c with hsame | ⟨i, hi, hc, hupper⟩
  · rw [hsame]
  · rw [hupper, hc]
    simp [h i hi]

@[simp]
theorem toUpper_toUpper (c : Char) : c.toUpper.toUpper = c.toUpper :=
  apply_toUpper Char.toUpper (by decide) c

@[simp]
theorem isDigit_toUpper (c : Char) : c.toUpper.isDigit = c.isDigit :=
  apply_toUpper Char.isDigit (by decide) c

theorem reachesCased_toUpper (cs : List Char) :
    reachesCased (cs.map Char.toUpper) = reachesCased cs := by
  induction cs with
  | nil => rfl
  | cons c rest ih =>
      rw [List.map_cons, reachesCased, reachesCased, ih,
        apply_toUpper isCaseIgnorable (by decide), apply_toUpper isCased (by decide)]

-- Lower-casing looks at the characters around a sigma, of which it only asks what case does not
-- change.
theorem lowerFrom_toUpper (before cs : List Char) :
    lowerFrom (before.map Char.toUpper) (cs.map Char.toUpper) = lowerFrom before cs := by
  fun_induction lowerFrom before cs with
  | case1 before => rfl
  | case2 before rest ih =>
      rw [List.map_cons, show 'Σ'.toUpper = 'Σ' by decide, lowerFrom]
      rw [List.map_cons, show 'Σ'.toUpper = 'Σ' by decide] at ih
      rw [ih, lowerSigma, lowerSigma, reachesCased_toUpper, reachesCased_toUpper]
  | case3 before rest ih =>
      rw [List.map_cons, show 'İ'.toUpper = 'İ' by decide] at ih ⊢
      rw [lowerFrom, ih]
  | case4 before c rest hsigma hdotted ih =>
      have hsigma' : c.toUpper ≠ 'Σ' := fun h => hsigma ((toUpper_eq_iff (by decide)).mp h)
      have hdotted' : c.toUpper ≠ 'İ' := fun h => hdotted ((toUpper_eq_iff (by decide)).mp h)
      rw [List.map_cons, lowerFrom, apply_toUpper lowerChar (by decide)]
      · exact congrArg (lowerChar c :: ·) ih
      · exact hsigma'
      · exact hdotted'

-- The pieces of a text are cut at the same places in either case.
theorem splitOn_toUpper {mark : Char}
    (hmark : ∀ i < 26, Char.ofNat (65 + i) ≠ mark ∧ Char.ofNat (97 + i) ≠ mark) (cs : List Char) :
    splitOn mark (cs.map Char.toUpper) =
      ((splitOn mark cs).1.map Char.toUpper, (splitOn mark cs).2.map (·.map Char.toUpper)) := by
  induction cs with
  | nil => rfl
  | cons c rest ih =>
      rw [List.map_cons, splitOn, ih, splitOn]
      by_cases hc : c = mark
      · simp [hc, (toUpper_eq_iff hmark).mpr]
      · have hc' : c.toUpper ≠ mark := fun h => hc ((toUpper_eq_iff hmark).mp h)
        simp [hc, hc']

-- Where a character of a line stands. A backslash in a string literal takes the next character
-- along, except the end of a line.
inductive Place where
  | code
  | string
  | escaped
  | comment
deriving DecidableEq, Repr

namespace Place

def next : Place → Char → Place
  | code, c => if c = '"' then string else if c = '#' then comment else code
  | string, c => if c = '"' then code else if c = '\\' then escaped else string
  | escaped, c => if c = '\n' then code else string
  | comment, c => if c = '\n' then code else comment

-- The letters A to Z become capital outside of string literals.
def capital : Place → Char → Char
  | code, c | comment, c => c.toUpper
  | string, c | escaped, c => c

theorem toUpper_capital (place : Place) (c : Char) : (place.capital c).toUpper = c.toUpper := by
  cases place <;> simp [capital]

theorem capital_eq_iff {place : Place} {c d : Char}
    (h : ∀ i < 26, Char.ofNat (65 + i) ≠ d ∧ Char.ofNat (97 + i) ≠ d) :
    place.capital c = d ↔ c = d := by
  cases place with
  | code | comment => exact toUpper_eq_iff h
  | string | escaped => exact Iff.rfl

end Place

def capitals (place : Place) : List Char → List Char
  | [] => []
  | c :: rest => place.capital c :: capitals (place.next c) rest

-- In a source every line begins outside of string literals.
def sourceCapitals (place : Place) : List Char → List Char
  | [] => []
  | c :: rest =>
      place.capital c :: sourceCapitals (if c = '\n' then .code else place.next c) rest

-- Two sources that differ only in the case of letters A to Z outside of string literals.
def SameButCase (p q : String) : Prop :=
  sourceCapitals .code p.toList = sourceCapitals .code q.toList

instance (p q : String) : Decidable (SameButCase p q) :=
  inferInstanceAs (Decidable (sourceCapitals .code p.toList = sourceCapitals .code q.toList))

example : ¬SameButCase "print \"a\"" "print \"A\"" := by decide

def Place.after (place : Place) (cs : List Char) : Place := cs.foldl Place.next place

theorem toUpper_capitals (place : Place) (cs : List Char) :
    (capitals place cs).map Char.toUpper = cs.map Char.toUpper := by
  induction cs generalizing place with
  | nil => rfl
  | cons c rest ih => rw [capitals, List.map_cons, List.map_cons, ih, place.toUpper_capital]

theorem capitals_append (place : Place) (front back : List Char) :
    capitals place (front ++ back) = capitals place front ++ capitals (place.after front) back := by
  induction front generalizing place with
  | nil => rfl
  | cons c rest ih =>
      rw [List.cons_append, capitals, ih, capitals]
      rfl

theorem length_capitals (place : Place) (cs : List Char) :
    (capitals place cs).length = cs.length := by
  induction cs generalizing place with
  | nil => rfl
  | cons c rest ih => rw [capitals, List.length_cons, List.length_cons, ih]

theorem sourceCapitals_eq_end {place : Place} {cs later : List Char}
    (h : sourceCapitals place cs = '\n' :: later) : ∃ rest, cs = '\n' :: rest := by
  cases cs with
  | nil => cases h
  | cons c rest =>
      have hc : c = '\n' := (Place.capital_eq_iff (by decide)).mp (List.cons.inj h).1
      exact ⟨rest, by rw [hc]⟩

theorem splitLines_cons {c : Char} {rest : List Char} (hend : c ≠ '\n')
    (hreturn : ∀ later, c = '\r' → rest ≠ '\n' :: later) :
    splitLines (c :: rest) =
      match splitLines rest with
      | [] => [[c]]
      | line :: others => (c :: line) :: others :=
  splitLines.eq_4 c rest hend hreturn

-- A source falls into the same lines.
theorem splitLines_sourceCapitals (place : Place) (cs : List Char) :
    splitLines (sourceCapitals place cs) =
      match splitLines cs with
      | [] => []
      | line :: others => capitals place line :: others.map (capitals .code) := by
  have hfirst {place : Place} {c : Char} (hend : c = '\n' → False) : place.capital c ≠ '\n' :=
    fun h => hend ((Place.capital_eq_iff (by decide)).mp h)
  have hsecond {place next : Place} {c : Char} {rest : List Char}
      (hreturn : ∀ later, c = '\r' → rest = '\n' :: later → False) :
      ∀ later, place.capital c = '\r' → sourceCapitals next rest ≠ '\n' :: later := by
    intro later hc hrest
    obtain ⟨others, hothers⟩ := sourceCapitals_eq_end hrest
    exact hreturn others ((Place.capital_eq_iff (by decide)).mp hc) hothers
  fun_induction splitLines cs generalizing place with
  | case1 => rfl
  | case2 rest ih =>
      have hend : place.capital '\n' = '\n' := (Place.capital_eq_iff (by decide)).mpr rfl
      rw [sourceCapitals, hend, if_pos rfl, splitLines, ih]
      cases splitLines rest <;> rfl
  | case3 rest ih =>
      have hreturn : place.capital '\r' = '\r' := (Place.capital_eq_iff (by decide)).mpr rfl
      have hend : (place.next '\r').capital '\n' = '\n' :=
        (Place.capital_eq_iff (by decide)).mpr rfl
      rw [sourceCapitals, hreturn, if_neg (by decide), sourceCapitals, hend, if_pos rfl,
        splitLines, ih]
      cases splitLines rest <;> rfl
  | case4 c rest hend hreturn hrest ih =>
      rw [sourceCapitals, if_neg hend, splitLines_cons (hfirst hend) (hsecond hreturn), ih, hrest]
      rfl
  | case5 c rest hend hreturn line others hrest ih =>
      rw [sourceCapitals, if_neg hend, splitLines_cons (hfirst hend) (hsecond hreturn), ih, hrest]
      rfl

-- All letters A to Z of a text made capital.
def upper (text : String) : String := String.ofList (text.toList.map Char.toUpper)

-- The letters A to Z of a line made capital outside of string literals.
def capitalized (line : String) : String := String.ofList (capitals .code line.toList)

@[simp]
theorem toList_upper (text : String) : (upper text).toList = text.toList.map Char.toUpper := by
  simp [upper]

@[simp]
theorem toList_capitalized (line : String) :
    (capitalized line).toList = capitals .code line.toList := by
  simp [capitalized]

@[simp]
theorem upper_capitalized (line : String) : upper (capitalized line) = upper line := by
  rw [upper, toList_capitalized, toUpper_capitals, upper]

@[simp]
theorem lowercase_upper (text : String) : lowercase (upper text) = lowercase text := by
  rw [lowercase, toList_upper, lowercase]
  exact congrArg String.ofList (lowerFrom_toUpper [] text.toList)

theorem lines_of_sameButCase {p q : String} (h : SameButCase p q) :
    (lines p).map capitalized = (lines q).map capitalized := by
  have hlines (text : String) : (lines text).map capitalized =
      (splitLines (sourceCapitals .code text.toList)).map String.ofList := by
    rw [splitLines_sourceCapitals, lines]
    cases splitLines text.toList <;> simp [capitalized]
  rw [hlines, hlines, h]

end LineScript.Text

namespace LineScript.Keyword

theorem ofText?_upper (text : String) : ofText? (Text.upper text) = ofText? text := by
  unfold ofText? Text.sameIgnoringCase
  rw [Text.toList_upper, List.map_map]
  congr 2
  funext keyword
  congr 1
  exact List.map_congr_left fun c _ => Text.toUpper_toUpper c

theorem ofText?_capitalized (text : String) : ofText? (Text.capitalized text) = ofText? text := by
  rw [← ofText?_upper, Text.upper_capitalized, ofText?_upper]

end LineScript.Keyword
