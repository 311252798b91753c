import LineScript.Proofs.Outcome
import LineScript.Value.Collection
import Mathlib.Algebra.Group.Nat.Defs

namespace LineScript.Value

variable {value index found : Value} {elements : List Value} {name : String} {n : Int64}

section Index

theorem checkedIndex_integer (k : Int64) (length : Nat) :
    checkedIndex (integer k) length =
      if 0 ≤ k.toInt ∧ k.toInt < length then .ok k.toInt.toNat
      else .error (.outOfRange (integer k) .index) := by
  by_cases hk : 0 ≤ k.toInt
  · have hless : k.toInt.toNat < length ↔ 0 ≤ k.toInt ∧ k.toInt < length := by omega
    simp only [checkedIndex, Number.toIndex?, if_pos hk, hless]
  · have hless : ¬(0 ≤ k.toInt ∧ k.toInt < length) := fun h => hk h.1
    simp only [checkedIndex, Number.toIndex?, if_neg hk, if_neg hless]

theorem checkedIndex_of_other (h : index.type ≠ .integer) (length : Nat) :
    checkedIndex index length = .error (.invalidIndex index) := by
  cases index with
  | integer k => exact absurd rfl h
  | _ => rfl

theorem checkedIndex_eq_ok_iff {length i : Nat} :
    checkedIndex index length = .ok i ↔ ∃ k, index = integer k ∧ k.toInt = i ∧ i < length := by
  by_cases hinteger : index.type = .integer
  · obtain ⟨k, rfl⟩ : ∃ k, index = integer k := by
      cases index with
      | integer k => exact ⟨k, rfl⟩
      | _ => cases hinteger
    rw [checkedIndex_integer]
    simp only [integer.injEq, exists_eq_left']
    split_ifs with hrange
    · rw [Except.ok.injEq]
      omega
    · refine iff_of_false (by nofun) ?_
      omega
  · rw [checkedIndex_of_other hinteger]
    constructor
    · nofun
    · rintro ⟨k, rfl, -⟩
      exact absurd rfl hinteger

end Index

section View

def characters (text : String) : List String := text.toList.map String.singleton

@[simp]
theorem length_characters (text : String) : (characters text).length = text.length := by
  simp [characters, String.length_toList]

@[simp]
theorem characters_append (one other : String) :
    characters (one ++ other) = characters one ++ characters other := by
  simp [characters]

theorem join_characters (text : String) : String.join (characters text) = text := by
  rw [← String.toList_inj, String.toList_join, characters, List.flatMap_map]
  simp

-- What can be indexed: the characters of a text, each of them as a text, or the items of a list.
def elements? : Value → Option (List Value)
  | string text => some ((characters text).map string)
  | list items => some items
  | _ => none

theorem size_of_elements (h : value.elements? = some elements) :
    value.size = .ok (integer (Number.saturate elements.length)) := by
  cases value with
  | string text | list items =>
      cases h
      simp [size]
  | _ => cases h

theorem element_of_elements (h : value.elements? = some elements) (index : Value) (name : String) :
    value.element index name =
      (checkedIndex index elements.length).map fun i => elements.getD i null := by
  cases value with
  | string text =>
      cases h
      simp only [element, List.length_map, length_characters]
      congr 1
      funext i
      simp only [characters, List.getD_eq_getElem?_getD, List.getElem?_map]
      cases text.toList[i]? <;> rfl
  | list items =>
      cases h
      rfl
  | _ => cases h

theorem exists_elements_of_size (h : value.size = .ok (integer n)) :
    ∃ elements, value.elements? = some elements ∧ n = Number.saturate elements.length := by
  cases value with
  | string text =>
      cases h
      exact ⟨_, rfl, by simp⟩
  | list items =>
      cases h
      exact ⟨items, rfl, rfl⟩
  | _ => cases h

theorem element_eq_ok_iff (h : value.elements? = some elements) :
    value.element index name = .ok found ↔
      ∃ k, index = integer k ∧ 0 ≤ k.toInt ∧ elements[k.toInt.toNat]? = some found := by
  rw [element_of_elements h, map_eq_ok]
  constructor
  · rintro ⟨i, hi, rfl⟩
    obtain ⟨k, rfl, hk, hlt⟩ := checkedIndex_eq_ok_iff.mp hi
    refine ⟨k, rfl, by omega, ?_⟩
    simp [hk, hlt]
  · rintro ⟨k, rfl, hk, hfound⟩
    obtain ⟨hlt, -⟩ := List.getElem?_eq_some_iff.mp hfound
    refine ⟨k.toInt.toNat, checkedIndex_eq_ok_iff.mpr ⟨k, rfl, by omega, hlt⟩, ?_⟩
    rw [List.getD_eq_getElem?_getD, hfound, Option.getD_some]

theorem modifyElement_of_error {items : List Value} {e : RuntimeError}
    (h : (list items).element index name = .error e) (change : Value → Except RuntimeError Value) :
    (list items).modifyElement index name change = .error e := by
  rw [element_of_elements rfl] at h
  rw [modifyElement]
  cases hindex : checkedIndex index items.length with
  | ok i =>
      rw [hindex] at h
      cases h
  | error e' =>
      rw [hindex] at h
      exact h

-- The item that an index reads is the one that a change through the index goes to.
theorem modifyElement_of_element {items : List Value} {k : Int64} {old : Value}
    (h : (list items).element (integer k) name = .ok old)
    (change : Value → Except RuntimeError Value) :
    items[k.toInt.toNat]? = some old ∧
      (list items).modifyElement (integer k) name change =
        (change old).map fun new => list (items.set k.toInt.toNat new) := by
  obtain ⟨_, hk, hnonneg, hold⟩ := (element_eq_ok_iff rfl).mp h
  cases hk
  obtain ⟨hlt, -⟩ := List.getElem?_eq_some_iff.mp hold
  have hindex : checkedIndex (integer k) items.length = .ok k.toInt.toNat :=
    checkedIndex_eq_ok_iff.mpr ⟨k, rfl, by omega, hlt⟩
  have hget : items.getD k.toInt.toNat null = old := by
    rw [List.getD_eq_getElem?_getD, hold, Option.getD_some]
  refine ⟨hold, ?_⟩
  rw [modifyElement, hindex, Except.bind, hget]

end View

section Append

variable {opened : Handle → Bool}

-- What a value adds to another one it is appended to.
def addition (opened : Handle → Bool) (value added : Value) : List Value :=
  match value with
  | string _ => (characters (added.display opened)).map string
  | _ => [added]

theorem append_of_elements (h : value.elements? = some elements) (opened : Handle → Bool)
    (added : Value) :
    ∃ longer, value.append opened added = .ok longer ∧
      longer.elements? = some (elements ++ value.addition opened added) := by
  cases value with
  | string text =>
      cases h
      exact ⟨_, rfl, by simp [elements?, addition]⟩
  | list items =>
      cases h
      exact ⟨_, rfl, rfl⟩
  | _ => cases h

end Append

section Positions

-- No text and no list is so long that a word cannot hold its length.
def Fits (value : Value) : Prop :=
  ∀ elements, value.elements? = some elements → elements.length < 2 ^ 63

-- The elements at some positions, if there is one at each of them.
def elementsAt (value : Value) (name : String) (positions : List Nat) :
    Except RuntimeError (List Value) :=
  positions.mapM fun i => value.element (integer (.ofNat i)) name

-- One character each, and put together the text.
def SpelledBy (text : String) (pieces : List String) : Prop :=
  (∀ piece ∈ pieces, piece.length = 1) ∧ String.join pieces = text

theorem spelledBy_characters (text : String) : SpelledBy text (characters text) := by
  refine ⟨fun piece hpiece => ?_, join_characters text⟩
  obtain ⟨c, -, rfl⟩ := List.mem_map.mp hpiece
  exact String.length_singleton

theorem size_of_fits (h : value.elements? = some elements) (hfits : value.Fits) :
    ∃ n, value.size = .ok (integer n) ∧ n.toInt = elements.length := by
  have hlength := hfits elements h
  have hmax : Int64.maxValue.toInt = 9223372036854775807 := by decide
  exact ⟨_, size_of_elements h, Number.toInt_saturate (by omega)⟩

-- A stretch of the elements is found at its positions.
theorem elementsAt_of_elements {before during after : List Value}
    (h : value.elements? = some (before ++ (during ++ after))) (hfits : value.Fits) :
    value.elementsAt name (List.range' before.length during.length) = .ok during := by
  induction during generalizing before with
  | nil => rfl
  | cons item rest ih =>
      have hassoc : before ++ (item :: rest ++ after) = before ++ [item] ++ (rest ++ after) := by
        simp
      have hlength := hfits _ h
      have hnat : (Int64.ofNat before.length).toInt = before.length := by
        apply Int64.toInt_ofNat_of_lt
        rw [List.length_append] at hlength
        omega
      have hitem : value.element (integer (.ofNat before.length)) name = .ok item :=
        (element_eq_ok_iff h).mpr ⟨_, rfl, by omega, by simp [hnat]⟩
      have hrest := @ih (before ++ [item]) (hassoc ▸ h)
      rw [List.length_append, List.length_singleton] at hrest
      rw [elementsAt] at hrest ⊢
      rw [List.length_cons, List.range'_succ, List.mapM_cons, hitem, hrest]
      rfl

theorem elementsAt_start {rest : List Value} (h : value.elements? = some (elements ++ rest))
    (hfits : value.Fits) :
    value.elementsAt name (List.range elements.length) = .ok elements := by
  rw [List.range_eq_range']
  have hsplit : value.elements? = some ([] ++ (elements ++ rest)) := h
  exact elementsAt_of_elements hsplit hfits

end Positions

section Agreement

theorem exists_element_iff (h : value.elements? = some elements) (hn : n.toInt = elements.length) :
    (∃ found, value.element index name = .ok found) ↔
      ∃ k, index = integer k ∧ 0 ≤ k.toInt ∧ k.toInt < n.toInt := by
  simp only [element_eq_ok_iff h]
  constructor
  · rintro ⟨found, k, rfl, hk, hfound⟩
    obtain ⟨hlt, -⟩ := List.getElem?_eq_some_iff.mp hfound
    exact ⟨k, rfl, hk, by omega⟩
  · rintro ⟨k, rfl, hk, hlt⟩
    have hin : k.toInt.toNat < elements.length := by omega
    exact ⟨_, k, rfl, hk, List.getElem?_eq_getElem hin⟩

theorem element_of_other (h : value.elements? = some elements) (hindex : index.type ≠ .integer) :
    value.element index name = .error (.invalidIndex index) := by
  rw [element_of_elements h, checkedIndex_of_other hindex]
  rfl

theorem element_out_of_range (h : value.elements? = some elements)
    (hn : n.toInt = elements.length) {k : Int64} (hk : ¬(0 ≤ k.toInt ∧ k.toInt < n.toInt)) :
    value.element (integer k) name = .error (.outOfRange (integer k) .index) := by
  rw [element_of_elements h, checkedIndex_integer, ← hn, if_neg hk]
  rfl

-- Size, indices and appending go together. An index is good exactly from zero to below the size, and
-- of a list it is good for reading and changing the same item. The characters read one after the
-- other are the text again. What is appended comes behind what was there: to a text its display,
-- character by character, and to a list the value itself.
theorem size_index_and_append_agree (hsize : value.size = .ok (integer n)) (hfits : value.Fits)
    (name : String) (opened : Handle → Bool) (added : Value) :
    (∀ index,
      ((∃ found, value.element index name = .ok found) ↔
        ∃ k, index = integer k ∧ 0 ≤ k.toInt ∧ k.toInt < n.toInt) ∧
      (index.type ≠ .integer → value.element index name = .error (.invalidIndex index))) ∧
    (∀ k, ¬(0 ≤ k.toInt ∧ k.toInt < n.toInt) →
      value.element (integer k) name = .error (.outOfRange (integer k) .index)) ∧
    (∀ items, value = list items →
      (∀ index e change, value.element index name = .error e →
        value.modifyElement index name change = .error e) ∧
      ∀ k old change, value.element (integer k) name = .ok old →
        items[k.toInt.toNat]? = some old ∧
          value.modifyElement (integer k) name change =
            (change old).map fun new => list (items.set k.toInt.toNat new)) ∧
    (∀ text, value = string text → ∃ pieces, SpelledBy text pieces ∧
      value.elementsAt name (List.range n.toInt.toNat) = .ok (pieces.map string)) ∧
    ∃ longer, value.append opened added = .ok longer ∧ (longer.Fits →
      longer.elementsAt name (List.range n.toInt.toNat) =
        value.elementsAt name (List.range n.toInt.toNat) ∧
      (∀ items, value = list items → ∃ m, longer.size = .ok (integer m) ∧
        m.toInt = n.toInt + 1 ∧ longer.element (integer n) name = .ok added) ∧
      (∀ text, value = string text → ∃ m, longer.size = .ok (integer m) ∧
        m.toInt = n.toInt + (added.display opened).length ∧
        ∃ pieces, SpelledBy (added.display opened) pieces ∧
          longer.elementsAt name (List.range' n.toInt.toNat (added.display opened).length) =
            .ok (pieces.map string))) := by
  obtain ⟨elements, helements, -⟩ := exists_elements_of_size hsize
  obtain ⟨_, hsame, hn⟩ := size_of_fits helements hfits
  cases hsize.symm.trans hsame
  have hnat : n.toInt.toNat = elements.length := by omega
  obtain ⟨longer, happend, hlonger⟩ := append_of_elements helements opened added
  have hwhole : value.elements? = some (elements ++ []) := by
    rw [List.append_nil, helements]
  have hown : value.elementsAt name (List.range elements.length) = .ok elements :=
    elementsAt_start hwhole hfits
  rw [hnat]
  refine ⟨?_, ?_, ?_, ?_, longer, happend, fun hlongerFits => ⟨?_, ?_, ?_⟩⟩
  · intro index
    exact ⟨exists_element_iff helements hn, element_of_other helements⟩
  · intro k hk
    exact element_out_of_range helements hn hk
  · rintro items rfl
    exact ⟨fun index e change h => modifyElement_of_error h change,
      fun k old change h => modifyElement_of_element h change⟩
  · rintro text rfl
    cases helements
    exact ⟨characters text, spelledBy_characters text, hown⟩
  · rw [hown]
    exact elementsAt_start hlonger hlongerFits
  · rintro items rfl
    cases helements
    obtain ⟨m, hm, hlength⟩ := size_of_fits hlonger hlongerFits
    refine ⟨m, hm, ?_, (element_eq_ok_iff hlonger).mpr ⟨n, rfl, by omega, ?_⟩⟩
    · rw [hlength, hn]
      simp [addition]
    · simp [hnat, addition]
  · rintro text rfl
    cases helements
    obtain ⟨m, hm, hlength⟩ := size_of_fits hlonger hlongerFits
    refine ⟨m, hm, ?_, characters (added.display opened), spelledBy_characters _, ?_⟩
    · rw [hlength, hn]
      simp [addition]
    · have hview : longer.elements? = some ((characters text).map string ++
          ((characters (added.display opened)).map string ++ [])) := by
        rw [List.append_nil]
        exact hlonger
      simpa using elementsAt_of_elements hview hlongerFits

-- A letter of two bytes is one element, and so is each character of the list behind it.
theorem two_byte_letter_is_one_element :
    (string "né").size = .ok (integer 2) ∧
    (string "né").element (integer (-1)) "s" = .error (.outOfRange (integer (-1)) .index) ∧
    (string "né").element (integer 2) "s" = .error (.outOfRange (integer 2) .index) ∧
    ∃ longer, (string "né").append (fun _ => true) (list [integer 7]) = .ok longer ∧
      longer.elementsAt "s" (List.range 2) = (string "né").elementsAt "s" (List.range 2) ∧
      ∃ m, longer.size = .ok (integer m) ∧ m.toInt = 2 + ("( 7 )".length : Int) := by
  have hsize : (string "né").size = .ok (integer 2) := by rfl
  have hfits : (string "né").Fits := by
    rintro elements ⟨⟩
    decide
  obtain ⟨-, hrange, -, -, longer, happend, hlonger⟩ :=
    size_index_and_append_agree hsize hfits "s" (fun _ => true) (list [integer 7])
  have hlongerFits : longer.Fits := by
    cases happend
    rintro elements ⟨⟩
    decide
  obtain ⟨hkept, -, htext⟩ := hlonger hlongerFits
  obtain ⟨m, hm, hlength, -⟩ := htext "né" rfl
  exact ⟨hsize, hrange (-1) (by decide), hrange 2 (by decide), longer, happend, hkept, m, hm,
    hlength⟩

end Agreement

end LineScript.Value
