import LineScript.Lexeme
import LineScript.Proofs.Text.Case
import Mathlib.Data.List.TakeWhile

namespace LineScript.Lexeme

open Text

def capital (lexeme : Lexeme) : Lexeme := ⟨lexeme.kind, capitals .code lexeme.chars⟩

-- What is known of a lexeme of a line: case only matters in words, numbers and comments, and
-- after it the line goes on outside of string literals, if it goes on.
structure Settled (lexeme : Lexeme) : Prop where
  fixed : lexeme.kind ≠ .number → lexeme.kind ≠ .word → lexeme.kind ≠ .comment →
    capitals .code lexeme.chars = lexeme.chars
  after : lexeme.kind ≠ .comment → lexeme.kind ≠ .string false →
    Place.code.after lexeme.chars = .code

-- A run of characters that are no quotes and no comment marks.
theorem run_capitals {p : Char → Bool} (hcase : ∀ c, p c.toUpper = p c)
    (hcode : ∀ c, p c = true → Place.code.next c = .code) (cs : List Char) :
    (capitals .code cs).takeWhile p = capitals .code (cs.takeWhile p) ∧
      (capitals .code cs).dropWhile p = capitals .code (cs.dropWhile p) ∧
      Place.code.after (cs.takeWhile p) = .code := by
  induction cs with
  | nil => exact ⟨rfl, rfl, rfl⟩
  | cons c rest ih =>
      obtain ⟨htake, hdrop, hafter⟩ := ih
      have hc : p (Place.code.capital c) = p c := hcase c
      cases hp : p c with
      | false => simp [capitals, hc, hp, Place.after]
      | true =>
          have hnext := hcode c hp
          simp only [capitals, List.takeWhile_cons, List.dropWhile_cons, hc, hp, if_true, hnext]
          refine ⟨congrArg _ htake, hdrop, ?_⟩
          rw [Place.after, List.foldl_cons, hnext]
          exact hafter

-- A comment ends with its line.
theorem comment_capitals (cs : List Char) :
    (capitals .comment cs).takeWhile (· != '\n') = capitals .comment (cs.takeWhile (· != '\n')) ∧
      (capitals .comment cs).dropWhile (· != '\n') =
        capitals .code (cs.dropWhile (· != '\n')) := by
  induction cs with
  | nil => exact ⟨rfl, rfl⟩
  | cons c rest ih =>
      have hc : Place.comment.capital c = '\n' ↔ c = '\n' := Place.capital_eq_iff (by decide)
      by_cases hend : c = '\n'
      · subst hend
        exact ⟨rfl, rfl⟩
      · have hend' := mt hc.mp hend
        simp [capitals, hend, hend', Place.next, ih]

-- Nothing changes in a string literal, and what follows it is outside again.
theorem scanString_capitals (cs : List Char) :
    scanString (capitals .string cs) =
        ((scanString cs).1, (scanString cs).2.1, capitals .code (scanString cs).2.2) ∧
      capitals .string (scanString cs).1 = (scanString cs).1 ∧
      ((scanString cs).2.1 = true → Place.string.after (scanString cs).1 = .code) := by
  induction cs using scanString_induction with
  | nil => exact ⟨rfl, rfl, by simp [scanString]⟩
  | quote rest => exact ⟨rfl, rfl, fun _ => rfl⟩
  | slash => exact ⟨rfl, rfl, by simp [scanString]⟩
  | newline rest => exact ⟨rfl, rfl, by simp [scanString]⟩
  | pair c rest hend ih =>
      obtain ⟨hscan, hfixed, hafter⟩ := ih
      have hnext : Place.escaped.next c = .string := if_neg hend
      have hcapitals (cs : List Char) :
          capitals .string ('\\' :: c :: cs) = '\\' :: c :: capitals .string cs := by
        rw [capitals, capitals, show Place.string.next '\\' = .escaped from rfl, hnext]
        rfl
      rw [hcapitals, scanString_pair hend, scanString_pair hend, hscan, hcapitals, hfixed]
      refine ⟨rfl, rfl, fun hclosed => ?_⟩
      rw [← hafter hclosed, Place.after, List.foldl_cons, List.foldl_cons,
        show Place.string.next '\\' = .escaped from rfl, hnext]
      rfl
  | plain c rest hquote hslash ih =>
      obtain ⟨hscan, hfixed, hafter⟩ := ih
      have hnext : Place.string.next c = .string := by
        rw [Place.next, if_neg hquote, if_neg hslash]
      have hcapitals (cs : List Char) : capitals .string (c :: cs) = c :: capitals .string cs := by
        rw [capitals, hnext]
        rfl
      rw [hcapitals, scanString_plain hquote hslash, scanString_plain hquote hslash, hscan,
        hcapitals, hfixed]
      refine ⟨rfl, rfl, fun hclosed => ?_⟩
      rw [← hafter hclosed, Place.after, List.foldl_cons, hnext]
      rfl

theorem isBlankChar_toUpper (c : Char) : isBlankChar c.toUpper = isBlankChar c :=
  apply_toUpper isBlankChar (by decide) c

theorem startsNumber_toUpper (c : Char) : startsNumber c.toUpper = startsNumber c :=
  apply_toUpper startsNumber (by decide) c

theorem startsWord_toUpper (c : Char) : startsWord c.toUpper = startsWord c :=
  apply_toUpper startsWord (by decide) c

theorem toUpper_of_startsWord {c : Char} (h : ¬startsWord c = true) : c.toUpper = c := by
  have hletters : ∀ i < 26, startsWord (Char.ofNat (97 + i)) = true := by decide
  rcases toUpper_cases c with hsame | ⟨i, hi, rfl, _⟩
  · exact hsame
  · exact absurd (hletters i hi) h

theorem next_code {p : Char → Bool} (hquote : p '"' = false) (hhash : p '#' = false) {c : Char}
    (h : p c = true) : Place.code.next c = .code := by
  have hc : c ≠ '"' ∧ c ≠ '#' := by
    constructor
    · rintro rfl
      rw [hquote] at h
      cases h
    · rintro rfl
      rw [hhash] at h
      cases h
  rw [Place.next, if_neg hc.1, if_neg hc.2]

theorem capitals_blank {cs : List Char} (h : ∀ c ∈ cs, isBlankChar c = true) :
    capitals .code cs = cs := by
  induction cs with
  | nil => rfl
  | cons c rest ih =>
      obtain ⟨hc, hrest⟩ := List.forall_mem_cons.mp h
      have hcase : c.toUpper = c := by
        refine toUpper_of_startsWord fun hword => ?_
        unfold isBlankChar at hc
        rcases Bool.or_eq_true_iff.mp hc with hc | hc
        · rw [eq_of_beq hc] at hword
          exact absurd hword (by decide)
        · rw [eq_of_beq hc] at hword
          exact absurd hword (by decide)
      rw [capitals, next_code (by decide) (by decide) hc, ih hrest]
      exact congrArg (· :: rest) hcase

-- A run that goes on from its first character.
theorem run_capital (kind : LexemeKind) {c : Char} (p : Char → Bool) (rest : List Char)
    (hc : Place.code.next c = .code) (hcase : ∀ c, p c.toUpper = p c)
    (hquote : p '"' = false) (hhash : p '#' = false) :
    (⟨kind, c.toUpper :: (capitals .code rest).takeWhile p⟩,
        (capitals .code rest).dropWhile p) =
      (capital ⟨kind, c :: rest.takeWhile p⟩, capitals .code (rest.dropWhile p)) ∧
      Place.code.after (c :: rest.takeWhile p) = .code := by
  obtain ⟨htake, hdrop, hafter⟩ :=
    run_capitals hcase (fun _ => next_code hquote hhash) rest
  refine ⟨?_, ?_⟩
  · rw [htake, hdrop, capital, capitals, hc]
    rfl
  · rw [Place.after, List.foldl_cons, hc]
    exact hafter

-- A lexeme of one character that is no letter.
theorem next_single {kind : LexemeKind} {c : Char} (hword : ¬startsWord c = true)
    (hquote : ¬(c == '"') = true) (hcomment : ¬(c == '#') = true)
    (hnext : ∀ rest, next c rest = (⟨kind, [c]⟩, rest)) (rest : List Char) :
    next c.toUpper (capitals (Place.code.next c) rest) =
        (capital ⟨kind, [c]⟩, capitals .code rest) ∧ Settled ⟨kind, [c]⟩ := by
  have hc := toUpper_of_startsWord hword
  have hcode : Place.code.next c = .code := by
    rw [Place.next, if_neg fun h => hquote (beq_iff_eq.mpr h),
      if_neg fun h => hcomment (beq_iff_eq.mpr h)]
  have hsettled : Settled ⟨kind, [c]⟩ :=
    ⟨fun _ _ _ => congrArg (· :: []) hc, fun _ _ => hcode⟩
  refine ⟨?_, hsettled⟩
  rw [hc, hcode, hnext, capital, capitals, capitals]
  exact congrArg (fun first => (Lexeme.mk kind [first], _)) hc.symm

-- The first lexeme of a line is found as it is in either case.
theorem next_capitals (c : Char) (rest : List Char) :
    next c.toUpper (capitals (Place.code.next c) rest) =
        ((next c rest).1.capital, capitals .code (next c rest).2) ∧
      (next c rest).1.Settled := by
  fun_cases next c rest with
  | case1 hblank =>
      have hc : Place.code.next c = .code := next_code (by decide) (by decide) hblank
      obtain ⟨hrun, hafter⟩ := run_capital .blank isBlankChar rest hc
        isBlankChar_toUpper (by decide) (by decide)
      rw [next, isBlankChar_toUpper, if_pos hblank, hc, hrun]
      refine ⟨rfl, fun _ _ _ => capitals_blank ?_, fun _ _ => hafter⟩
      exact List.forall_mem_cons.mpr ⟨hblank, fun _ => List.mem_takeWhile_imp⟩
  | case2 hblank hnumber =>
      have hc : Place.code.next c = .code := next_code (by decide) (by decide) hnumber
      obtain ⟨hrun, hafter⟩ := run_capital .number continuesNumber rest hc
        (apply_toUpper continuesNumber (by decide)) (by decide) (by decide)
      rw [next, isBlankChar_toUpper, if_neg hblank, startsNumber_toUpper, if_pos hnumber, hc, hrun]
      exact ⟨rfl, fun hkind => absurd rfl hkind, fun _ _ => hafter⟩
  | case3 hblank hnumber hword =>
      have hc : Place.code.next c = .code := next_code (by decide) (by decide) hword
      obtain ⟨hrun, hafter⟩ := run_capital .word continuesWord rest hc
        (apply_toUpper continuesWord (by decide)) (by decide) (by decide)
      rw [next, isBlankChar_toUpper, if_neg hblank, startsNumber_toUpper, if_neg hnumber,
        startsWord_toUpper, if_pos hword, hc, hrun]
      exact ⟨rfl, fun _ hkind => absurd rfl hkind, fun _ _ => hafter⟩
  | case4 hblank hnumber hword hquote literal =>
      obtain ⟨hscan, hfixed, hafter⟩ := scanString_capitals rest
      have hc := toUpper_of_startsWord hword
      have hstring : Place.code.next c = .string := if_pos (eq_of_beq hquote)
      have hchars : capitals .code (c :: (scanString rest).1) = c :: (scanString rest).1 := by
        rw [capitals, hstring, hfixed]
        exact congrArg (· :: _) hc
      rw [hc, hstring, next, if_neg hblank, if_neg hnumber, if_neg hword, if_pos hquote, hscan]
      refine ⟨?_, fun _ _ _ => hchars, fun _ hclosed => ?_⟩
      · simp only [capital, literal, hchars]
      · rw [Place.after, List.foldl_cons, hstring]
        refine hafter ?_
        cases hflag : (scanString rest).2.1 with
        | true => rfl
        | false => simp [literal, hflag] at hclosed
  | case5 hblank hnumber hword hquote hcomment =>
      obtain ⟨htake, hdrop⟩ := comment_capitals rest
      have hc := toUpper_of_startsWord hword
      have hhash : Place.code.next c = .comment := by
        rw [Place.next, if_neg (fun h => hquote (beq_iff_eq.mpr h)), if_pos (eq_of_beq hcomment)]
      rw [hc, hhash, next, if_neg hblank, if_neg hnumber, if_neg hword, if_neg hquote,
        if_pos hcomment, htake, hdrop]
      refine ⟨?_, fun _ _ hkind => absurd rfl hkind, fun hkind => absurd rfl hkind⟩
      rw [capital, capitals, hhash]
      exact congrArg (fun first => (Lexeme.mk _ (first :: _), _)) hc.symm
  | case6 hblank hnumber hword hquote hcomment hopening =>
      refine next_single hword hquote hcomment (fun rest => ?_) rest
      rw [next, if_neg hblank, if_neg hnumber, if_neg hword, if_neg hquote, if_neg hcomment,
        if_pos hopening]
  | case7 hblank hnumber hword hquote hcomment hopening hclosing =>
      refine next_single hword hquote hcomment (fun rest => ?_) rest
      rw [next, if_neg hblank, if_neg hnumber, if_neg hword, if_neg hquote, if_neg hcomment,
        if_neg hopening, if_pos hclosing]
  | case8 hblank hnumber hword hquote hcomment hopening hclosing hcomma =>
      refine next_single hword hquote hcomment (fun rest => ?_) rest
      rw [next, if_neg hblank, if_neg hnumber, if_neg hword, if_neg hquote, if_neg hcomment,
        if_neg hopening, if_neg hclosing, if_pos hcomma]
  | case9 hblank hnumber hword hquote hcomment hopening hclosing hcomma hsymbol =>
      refine next_single hword hquote hcomment (fun rest => ?_) rest
      rw [next, if_neg hblank, if_neg hnumber, if_neg hword, if_neg hquote, if_neg hcomment,
        if_neg hopening, if_neg hclosing, if_neg hcomma, if_pos hsymbol]
  | case10 hblank hnumber hword hquote hcomment hopening hclosing hcomma hsymbol =>
      refine next_single hword hquote hcomment (fun rest => ?_) rest
      rw [next, if_neg hblank, if_neg hnumber, if_neg hword, if_neg hquote, if_neg hcomment,
        if_neg hopening, if_neg hclosing, if_neg hcomma, if_neg hsymbol]

-- A line falls into the same lexemes in either case.
theorem scan_capitals (cs : List Char) :
    scan (capitals .code cs) = (scan cs).map capital ∧ ∀ lexeme ∈ scan cs, lexeme.Settled := by
  fun_induction scan cs with
  | case1 => exact ⟨by rw [capitals, scan]; rfl, by simp⟩
  | case2 c rest ih =>
      obtain ⟨hnext, hsettled⟩ := next_capitals c rest
      refine ⟨?_, List.forall_mem_cons.mpr ⟨hsettled, ih.2⟩⟩
      rw [capitals, scan, show Place.code.capital c = c.toUpper from rfl, hnext, ih.1,
        List.map_cons]

end LineScript.Lexeme
