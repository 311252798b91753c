import LineScript.Value.Collection
import Mathlib.Data.List.TakeWhile

namespace LineScript

namespace Text

theorem isBlank_of_isDigit {c : Char} (h : c.isDigit = true) : isBlank c = false := by
  have hcodes : ∀ k < 58, 48 ≤ k → CodeRange.search blankRanges k = false := by decide
  simp only [Char.isDigit, ge_iff_le, Bool.and_eq_true, decide_eq_true_eq] at h
  have hlow : 48 ≤ c.toNat := h.1
  have hhigh : c.toNat ≤ 57 := h.2
  exact hcodes c.toNat (by omega) hlow

theorem dropWhile_isBlank_of_none {cs : List Char} (h : ∀ c ∈ cs, isBlank c = false) :
    cs.dropWhile isBlank = cs := by
  cases cs with
  | nil => rfl
  | cons c rest => rw [List.dropWhile_cons_of_neg (by simp [h c])]

-- The blanks around a text without any are what is taken away.
theorem trimBlanks_padded {front cs behind : List Char} (hfront : ∀ c ∈ front, isBlank c = true)
    (hcs : ∀ c ∈ cs, isBlank c = false) (hbehind : ∀ c ∈ behind, isBlank c = true) :
    trimBlanks (front ++ (cs ++ behind)) = cs := by
  have hreversed : ∀ c ∈ cs.reverse, isBlank c = false := by simpa using hcs
  have hkept : dropTrailing isBlank (cs ++ behind) = cs := by
    rw [dropTrailing, List.reverse_append, List.dropWhile_append_of_pos (by simpa using hbehind),
      dropWhile_isBlank_of_none hreversed, List.reverse_reverse]
  rw [trimBlanks, List.dropWhile_append_of_pos hfront]
  cases cs with
  | nil => rw [List.nil_append, List.dropWhile_eq_nil_iff.mpr hbehind]; rfl
  | cons c rest =>
      rw [List.cons_append, List.dropWhile_cons_of_neg (by simp [hcs c]), ← List.cons_append, hkept]

theorem trimBlanks_of_none {cs : List Char} (h : ∀ c ∈ cs, isBlank c = false) :
    trimBlanks cs = cs := by
  simpa using trimBlanks_padded (List.forall_mem_nil _) h (List.forall_mem_nil _)

end Text

namespace Number

theorem isDigit_of_mem_toDigits {k : Nat} {c : Char} (h : c ∈ Nat.toDigits 10 k) :
    c.isDigit = true :=
  Nat.isDigit_of_mem_toDigits (by omega) (by omega) h

theorem readDigits?_toDigits (k : Nat) : readDigits? (Nat.toDigits 10 k) = some k := by
  have hall : (Nat.toDigits 10 k).all Char.isDigit = true :=
    List.all_eq_true.mpr fun c hc => isDigit_of_mem_toDigits hc
  rw [readDigits?, if_pos ⟨Nat.toDigits_ne_nil, hall⟩,
    Nat.ofDigitChars_toDigits (by omega) (by omega)]

theorem splitSign_of_digits {cs : List Char} (h : ∀ c ∈ cs, c.isDigit = true) :
    splitSign cs = (false, cs) := by
  unfold splitSign
  split
  · exact absurd (h '-' List.mem_cons_self) (by decide)
  · exact absurd (h '+' List.mem_cons_self) (by decide)
  · rfl

-- Every word is in range.
theorem ofSigned?_toInt {n : Int64} {negative : Bool} {absolute : Nat}
    (h : n.toInt = if negative then -(absolute : Int) else absolute) :
    ofSigned? negative absolute = some n := by
  have hlow := n.minValue_le_toInt
  have hhigh := n.toInt_le
  rw [ofSigned?, ← h, if_pos ⟨hlow, hhigh⟩, Int64.ofInt_toInt]

-- The text of an integer is read as that integer.
theorem readInteger?_integerText (n : Int64) :
    readInteger? (integerText n).toList = some n := by
  unfold integerText
  split
  · rename_i k hk
    rw [String.toList_ofList, readInteger?,
      splitSign_of_digits fun c hc => isDigit_of_mem_toDigits hc]
    dsimp only
    rw [readDigits?_toDigits, Option.bind_some]
    exact ofSigned?_toInt (by simpa using hk)
  · rename_i k hk
    rw [String.toList_ofList, readInteger?, splitSign]
    dsimp only
    rw [readDigits?_toDigits, Option.bind_some]
    exact ofSigned?_toInt (by rw [hk]; rfl)

theorem read?_integerText (n : Int64) :
    Literal.read? (integerText n).toList = some (.integer n) := by
  rw [Literal.read?, readInteger?_integerText]

theorem not_blank_integerText (n : Int64) :
    ∀ c ∈ (integerText n).toList, Text.isBlank c = false := by
  unfold integerText
  split
  · intro c hc
    rw [String.toList_ofList] at hc
    exact Text.isBlank_of_isDigit (isDigit_of_mem_toDigits hc)
  · intro c hc
    rw [String.toList_ofList, List.mem_cons] at hc
    rcases hc with rfl | hc
    · decide
    · exact Text.isBlank_of_isDigit (isDigit_of_mem_toDigits hc)

end Number

namespace Value

-- An integer that was written as a line comes back.
theorem ofLine_integer (opened : Handle → Bool) (n : Int64) :
    ofLine ((integer n).display opened) = .integer n := by
  have htrim := Text.trimBlanks_of_none (Number.not_blank_integerText n)
  simp only [display, ofLine, htrim, Number.read?_integerText]
  rfl

-- A text comes back unless it is that of a number, with blanks around it or not.
theorem ofLine_eq_string_iff (text : String) :
    ofLine text = .string text ↔
      readNumber? (String.ofList (Text.trimBlanks text.toList)) = none := by
  rw [ofLine, readNumber?, String.toList_ofList, Option.map_eq_none_iff]
  cases Number.Literal.read? (Text.trimBlanks text.toList) with
  | none => simp
  | some literal => cases literal <;> simp [ofLiteral]

end Value

end LineScript
