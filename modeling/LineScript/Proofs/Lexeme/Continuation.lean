import LineScript.Proofs.Lexeme.Boundary

namespace LineScript.Lexeme

-- Whether a lexeme that ends a text still ends there once the text goes on with `c`.
def stopsBefore (c : Char) (lexeme : Lexeme) : Bool :=
  match lexeme.kind with
  | .blank => !isBlankChar c
  | .number => !continuesNumber c
  | .word => !continuesWord c
  | .string closed => closed
  | .comment => c == '\n'
  | _ => true

theorem toNat_lt_of_isAlphanum {c : Char} (h : c.isAlphanum = true) : c.toNat < 128 := by
  change ((decide ('A'.val ≤ c.val ∧ c.val ≤ 'Z'.val) ||
      decide ('a'.val ≤ c.val) && decide (c.val ≤ 'z'.val)) ||
    decide ('0'.val ≤ c.val) && decide (c.val ≤ '9'.val)) = true at h
  simp only [Bool.or_eq_true, Bool.and_eq_true, decide_eq_true_eq, UInt32.le_iff_toNat_le,
    Char.toNat_val, Char.reduceToNat] at h
  omega

theorem continuesWord_of_isAlphanum {c : Char} (h : c.isAlphanum = true) :
    continuesWord c = true := by
  have hall : ∀ n < 128, (Char.ofNat n).isAlphanum = true →
      continuesWord (Char.ofNat n) = true := by
    decide +kernel
  have hc := hall c.toNat (toNat_lt_of_isAlphanum h)
  rw [Char.ofNat_toNat] at hc
  exact hc h

-- No letter or digit that a number may have is missing among those of words.
theorem continuesNumber_eq_false {c : Char} (hword : continuesWord c = false) (hdot : c ≠ '.')
    (hplus : c ≠ '+') (hminus : c ≠ '-') : continuesNumber c = false := by
  have halphanum : c.isAlphanum = false := by
    by_contra hc
    rw [continuesWord_of_isAlphanum (by simpa using hc)] at hword
    cases hword
  simp [continuesNumber, halphanum, hdot, hplus, hminus]

-- A run that ended within the text, or that the continuation does not go on with.
theorem span_append {p : Char → Bool} {cs t : List Char}
    (h : cs.dropWhile p ≠ [] ∨ ∀ c ∈ t.head?, p c = false) :
    (cs ++ t).takeWhile p = cs.takeWhile p ∧ (cs ++ t).dropWhile p = cs.dropWhile p ++ t := by
  induction cs with
  | nil =>
      cases t with
      | nil => simp
      | cons c t =>
          have hc : p c = false := by simpa using h
          simp [hc]
  | cons c cs ih =>
      cases hc : p c with
      | false => simp [hc]
      | true =>
          rw [List.dropWhile_cons_of_pos hc] at h
          simp [hc, ih h]

theorem scanString_append {cs t : List Char}
    (h : (scanString cs).2.2 ≠ [] ∨ (scanString cs).2.1 = true ∨ t = []) :
    scanString (cs ++ t) = ((scanString cs).1, (scanString cs).2.1, (scanString cs).2.2 ++ t) := by
  induction cs using scanString_induction with
  | nil => simp_all [scanString]
  | quote rest => simp [scanString]
  | slash => simp_all [scanString]
  | newline rest => simp [scanString]
  | pair c rest hend ih =>
      rw [scanString_pair hend] at h ⊢
      rw [List.cons_append, List.cons_append, scanString_pair hend, ih h]
  | plain c rest hquote hslash ih =>
      rw [scanString_plain hquote hslash] at h ⊢
      rw [List.cons_append, scanString_plain hquote hslash, ih h]

-- What a text goes on with counts only for a lexeme that reaches its end.
theorem next_append {c : Char} {rest t : List Char}
    (h : (next c rest).2 ≠ [] ∨ ∀ d ∈ t.head?, (next c rest).1.stopsBefore d = true) :
    next c (rest ++ t) = ((next c rest).1, (next c rest).2 ++ t) := by
  revert h
  fun_cases next c rest with
  | case1 hblank =>
      intro h
      obtain ⟨htake, hdrop⟩ := span_append (p := isBlankChar) (by simpa [stopsBefore] using h)
      simp [next, hblank, htake, hdrop]
  | case2 hblank hnumber =>
      intro h
      obtain ⟨htake, hdrop⟩ := span_append (p := continuesNumber) (by simpa [stopsBefore] using h)
      simp [next, hblank, hnumber, htake, hdrop]
  | case3 hblank hnumber hword =>
      intro h
      obtain ⟨htake, hdrop⟩ := span_append (p := continuesWord) (by simpa [stopsBefore] using h)
      simp [next, hblank, hnumber, hword, htake, hdrop]
  | case4 hblank hnumber hword hquote literal =>
      intro h
      have hend : (scanString rest).2.2 ≠ [] ∨ (scanString rest).2.1 = true ∨ t = [] := by
        cases t with
        | nil => simp
        | cons d t => simpa [stopsBefore] using h
      have hliteral := scanString_append hend
      simp only [next]
      simp [hblank, hnumber, hword, hquote, hliteral, literal]
  | case5 hblank hnumber hword hquote hcomment =>
      intro h
      obtain ⟨htake, hdrop⟩ := span_append (p := (· != '\n')) (by simpa [stopsBefore] using h)
      simp only [next]
      simp [hblank, hnumber, hword, hquote, hcomment, htake, hdrop]
  | _ => simp [next, *]

theorem kind_next_eq_blank {c : Char} {rest : List Char} :
    (next c rest).1.kind = .blank ↔ isBlankChar c = true := by
  fun_cases next c rest <;> simp_all

-- A text that is cut between two lexemes is scanned in two parts.
theorem scan_append_of_stops {cs t : List Char}
    (h : ∀ lexeme ∈ scan cs, ∀ c ∈ t.head?, lexeme.stopsBefore c = true) :
    scan (cs ++ t) = scan cs ++ scan t := by
  fun_induction scan cs with
  | case1 => rfl
  | case2 c rest ih =>
      obtain ⟨hfirst, hrest⟩ := List.forall_mem_cons.mp h
      rw [List.cons_append, scan, next_append (.inr hfirst), ih hrest, List.cons_append]

-- The lexemes of a continued text are those of the text and of its continuation, except that
-- blanks which meet become one.
theorem scan_append {cs t : List Char}
    (h : ∀ lexeme ∈ scan cs, lexeme.kind = .blank ∨
      ∀ c ∈ t.head?, lexeme.stopsBefore c = true) :
    scan (cs ++ t) = scan cs ++ scan t ∨
      ∃ before blank wider, scan cs = before ++ [blank] ∧ blank.kind = .blank ∧
        wider.kind = .blank ∧
        scan (cs ++ t) = before ++ wider :: scan (t.dropWhile isBlankChar) := by
  fun_induction scan cs with
  | case1 => exact .inl rfl
  | case2 c rest ih =>
      obtain ⟨hfirst, hrest⟩ := List.forall_mem_cons.mp h
      by_cases hends : (next c rest).2 = []
      · by_cases hblank : isBlankChar c = true
        · -- The text ends in blanks, which the continuation may go on with.
          have hrun : rest.dropWhile isBlankChar = [] := by simpa [next, hblank] using hends
          have hall : ∀ d ∈ rest, isBlankChar d = true := by simpa using hrun
          refine .inr ⟨[], (next c rest).1, (next c (rest ++ t)).1, ?_, ?_, ?_, ?_⟩
          · rw [hends, scan, List.nil_append]
          · exact kind_next_eq_blank.mpr hblank
          · exact kind_next_eq_blank.mpr hblank
          · have hnext : (next c (rest ++ t)).2 = t.dropWhile isBlankChar := by
              simp [next, hblank, List.dropWhile_append_of_pos hall]
            rw [List.cons_append, scan, hnext, List.nil_append]
        · have hstops := hfirst.resolve_left (mt kind_next_eq_blank.mp hblank)
          rw [List.cons_append, scan, next_append (.inr hstops), hends]
          exact .inl (by simp [scan])
      · rw [List.cons_append, scan, next_append (.inl hends)]
        rcases ih hrest with hscan | ⟨before, blank, wider, hcs, hblank, hwider, hscan⟩
        · exact .inl (by rw [hscan, List.cons_append])
        · exact .inr ⟨(next c rest).1 :: before, blank, wider, by rw [hcs, List.cons_append],
            hblank, hwider, by rw [hscan, List.cons_append]⟩

end LineScript.Lexeme
