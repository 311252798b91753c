import LineScript.Lexeme
import Mathlib.Data.List.TakeWhile

namespace LineScript.Lexeme

theorem span_cut {p : Char → Bool} {cs t : List Char} (h : t <+: cs.dropWhile p) :
    (cs.takeWhile p ++ t).takeWhile p = cs.takeWhile p ∧
      (cs.takeWhile p ++ t).dropWhile p = t := by
  have hall : ∀ a ∈ cs.takeWhile p, p a := fun a ha => List.mem_takeWhile_imp ha
  rw [List.takeWhile_append_of_pos hall, List.dropWhile_append_of_pos hall]
  cases t with
  | nil => simp
  | cons a t =>
      obtain ⟨u, hu⟩ := h
      have hne : cs.dropWhile p ≠ [] := by simp [← hu]
      have hstop := List.head_dropWhile_not p hne
      have ha : p a = false := by simpa [← hu] using hstop
      simp [ha]

-- A literal that is cut off behind its end is the same literal.
theorem scanString_cut {cs t : List Char} (h : t <+: (scanString cs).2.2) :
    scanString ((scanString cs).1 ++ t) = ((scanString cs).1, (scanString cs).2.1, t) := by
  induction cs using scanString_induction with
  | nil => simp_all [scanString]
  | quote rest => simp [scanString]
  | slash => simp_all [scanString]
  | newline rest =>
      cases t with
      | nil => simp [scanString]
      | cons a t =>
          obtain ⟨u, hu⟩ := h
          simp only [scanString, List.cons_append, List.cons.injEq] at hu
          simp [scanString, hu.1]
  | pair c rest hend ih =>
      rw [scanString_pair hend] at h ⊢
      rw [List.cons_append, List.cons_append, scanString_pair hend, ih h]
  | plain c rest hquote hslash ih =>
      rw [scanString_plain hquote hslash] at h ⊢
      rw [List.cons_append, scanString_plain hquote hslash, ih h]

-- What follows a lexeme matters only up to the point where the lexeme stops.
theorem next_cut {c : Char} {rest t : List Char} (h : t <+: (next c rest).2) :
    next c ((next c rest).1.chars.tail ++ t) = ((next c rest).1, t) := by
  revert h
  fun_cases next c rest with
  | case1 hblank =>
      intro h
      obtain ⟨htake, hdrop⟩ := span_cut h
      simp only [next, hblank, if_true, List.tail_cons, htake, hdrop]
  | case2 hblank hnumber =>
      intro h
      obtain ⟨htake, hdrop⟩ := span_cut h
      simp [next, hblank, hnumber, htake, hdrop]
  | case3 hblank hnumber hword =>
      intro h
      obtain ⟨htake, hdrop⟩ := span_cut h
      simp [next, hblank, hnumber, hword, htake, hdrop]
  | case4 hblank hnumber hword hquote literal =>
      intro h
      have hcut := scanString_cut h
      simp only [next]
      simp [hblank, hnumber, hword, hquote, hcut, literal]
  | case5 hblank hnumber hword hquote hcomment =>
      intro h
      obtain ⟨htake, hdrop⟩ := span_cut h
      simp only [next]
      simp [hblank, hnumber, hword, hquote, hcomment, htake, hdrop]
  | _ => simp [next, *]

theorem next_chars_eq_cons (c : Char) (rest : List Char) :
    (next c rest).1.chars = c :: (next c rest).1.chars.tail := by
  have hchars := next_chars c rest
  cases hl : (next c rest).1.chars with
  | nil => exact absurd hl (next_chars_ne_nil c rest)
  | cons a w =>
      rw [hl, List.cons_append, List.cons.injEq] at hchars
      rw [hchars.1, List.tail_cons]

-- A text cut between two of its lexemes has the lexemes before the cut.
theorem scan_flatMap_of_append {cs : List Char} {before after : List Lexeme}
    (h : scan cs = before ++ after) : scan (before.flatMap chars) = before := by
  induction before generalizing cs with
  | nil => simp [scan]
  | cons lexeme before ih =>
      cases cs with
      | nil => simp [scan] at h
      | cons c rest =>
          rw [scan, List.cons_append, List.cons.injEq] at h
          obtain ⟨rfl, htail⟩ := h
          have hstart : before.flatMap chars <+: (next c rest).2 := by
            have hall := flatMap_chars_scan (next c rest).2
            rw [htail, List.flatMap_append] at hall
            exact ⟨after.flatMap chars, hall⟩
          rw [List.flatMap_cons, next_chars_eq_cons, List.cons_append, scan,
            next_cut hstart, ih htail]

theorem scan_flatMap_of_append_right {cs : List Char} {before after : List Lexeme}
    (h : scan cs = before ++ after) : scan (after.flatMap chars) = after := by
  induction before generalizing cs with
  | nil =>
      rw [List.nil_append] at h
      rw [← h, flatMap_chars_scan]
  | cons lexeme before ih =>
      cases cs with
      | nil => simp [scan] at h
      | cons c rest =>
          rw [scan, List.cons_append, List.cons.injEq] at h
          exact ih h.2

-- Any run of lexemes in a text is what its own characters scan to.
theorem scan_flatMap_of_run {cs : List Char} {lexemes : List Lexeme}
    (h : lexemes <:+: scan cs) : scan (lexemes.flatMap chars) = lexemes := by
  obtain ⟨before, after, hscan⟩ := h
  rw [List.append_assoc] at hscan
  exact scan_flatMap_of_append (scan_flatMap_of_append_right hscan.symm)

theorem exists_next_of_mem_scan {cs : List Char} {lexeme : Lexeme} (h : lexeme ∈ scan cs) :
    ∃ c rest, (next c rest).1 = lexeme := by
  fun_induction scan cs with
  | case1 => simp at h
  | case2 c rest ih =>
      rcases List.mem_cons.mp h with rfl | hmem
      · exact ⟨c, rest, rfl⟩
      · exact ih hmem

-- A bracket stands alone.
theorem length_chars_of_bracket {cs : List Char} {lexeme : Lexeme} (h : lexeme ∈ scan cs)
    (hkind : lexeme.kind = .opening ∨ lexeme.kind = .closing) : lexeme.chars.length = 1 := by
  obtain ⟨c, rest, rfl⟩ := exists_next_of_mem_scan h
  revert hkind
  fun_cases next c rest <;> simp

end LineScript.Lexeme
