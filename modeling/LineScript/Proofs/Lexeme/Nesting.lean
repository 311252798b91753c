import LineScript.Proofs.Lexeme.Boundary
import LineScript.Proofs.Lexeme.StringLiteral
import LineScript.Proofs.Text.Nesting
import Mathlib.Data.List.TakeWhile

namespace LineScript.Lexeme

open Text

theorem bracket_eq_zero {c : Char} (hopening : c ≠ '(') (hclosing : c ≠ ')') :
    Place.code.bracket c = 0 := by
  unfold Place.bracket
  split <;> simp_all

-- A class of characters without the four that change the place or the brackets.
theorem plain_of_class {p : Char → Bool} (hp : ['"', '#', '(', ')'].any p = false) {c : Char}
    (h : p c = true) : Place.code.next c = .code ∧ Place.code.bracket c = 0 := by
  have hne : ∀ d ∈ ['"', '#', '(', ')'], c ≠ d := by
    rintro d hd rfl
    exact List.any_eq_false.mp hp c hd h
  refine ⟨?_, bracket_eq_zero (hne _ (by simp)) (hne _ (by simp))⟩
  rw [Place.next, if_neg (hne _ (by simp)), if_neg (hne _ (by simp))]

-- A run that begins with a character of one class and goes on with those of another.
theorem balanced_of_run {p q : Char → Bool} (hp : ['"', '#', '(', ')'].any p = false)
    (hq : ['"', '#', '(', ')'].any q = false) {c : Char} (hc : p c = true) (rest : List Char) :
    Balanced (c :: rest.takeWhile q) :=
  .of_forall (List.forall_mem_cons.mpr
    ⟨plain_of_class hp hc, fun _ hd => plain_of_class hq (List.mem_takeWhile_imp hd)⟩)

-- Inside a string literal brackets do not count.
theorem nesting_literal {body : List Char} (hbody : LiteralBody body) :
    Place.string.after (body ++ ['"']) = .code ∧
      ∀ front, front <+: body ++ ['"'] → nesting .string front = 0 := by
  induction hbody with
  | nil =>
      refine ⟨rfl, fun front hfront => ?_⟩
      rcases List.prefix_cons_iff.mp hfront with rfl | ⟨rest, rfl, hrest⟩
      · rfl
      · rw [List.prefix_nil.mp hrest]
        rfl
  | @plain c rest hquote hslash _ ih =>
      have hnext : Place.string.next c = .string := by
        rw [Place.next, if_neg hquote, if_neg hslash]
      have hafter : Place.string.after (c :: (rest ++ ['"'])) =
          Place.string.after (rest ++ ['"']) :=
        congrArg (Place.after · (rest ++ ['"'])) hnext
      refine ⟨hafter.trans ih.1, fun front hfront => ?_⟩
      rcases List.prefix_cons_iff.mp hfront with rfl | ⟨later, rfl, hlater⟩
      · rfl
      · rw [nesting, hnext, ih.2 later hlater]
        rfl
  | @pair c rest hend _ ih =>
      have hnext : Place.escaped.next c = .string := if_neg hend
      have hafter : Place.string.after ('\\' :: c :: (rest ++ ['"'])) =
          Place.string.after (rest ++ ['"']) :=
        congrArg (Place.after · (rest ++ ['"'])) hnext
      refine ⟨hafter.trans ih.1, fun front hfront => ?_⟩
      rcases List.prefix_cons_iff.mp hfront with rfl | ⟨later, rfl, hlater⟩
      · rfl
      · rcases List.prefix_cons_iff.mp hlater with rfl | ⟨last, rfl, hlast⟩
        · rfl
        · rw [nesting, show Place.string.next '\\' = .escaped from rfl, nesting, hnext,
            ih.2 last hlast]
          rfl

theorem balanced_literal {body : List Char} (hbody : LiteralBody body) :
    Balanced ('"' :: (body ++ ['"'])) where
  after := (nesting_literal hbody).1
  total := (Int.zero_add _).trans ((nesting_literal hbody).2 _ (List.prefix_refl _))
  above := by
    intro front hfront
    rcases List.prefix_cons_iff.mp hfront with rfl | ⟨rest, rfl, hrest⟩
    · exact Int.le_refl 0
    · exact Int.le_of_eq ((Int.zero_add _).trans ((nesting_literal hbody).2 rest hrest)).symm

-- What the kind of a lexeme of a line tells about its characters.
structure Shaped (lexeme : Lexeme) : Prop where
  blank : lexeme.kind = .blank → ∀ c ∈ lexeme.chars, isBlankChar c = true
  opening : lexeme.kind = .opening → lexeme.chars = ['(']
  closing : lexeme.kind = .closing → lexeme.chars = [')']
  comma : lexeme.kind = .comma → lexeme.chars = [',']
  balanced : lexeme.kind ≠ .opening → lexeme.kind ≠ .closing → lexeme.kind ≠ .comment →
    lexeme.kind ≠ .string false → Balanced lexeme.chars

theorem Shaped.space_or_tab {lexeme : Lexeme} (h : lexeme.Shaped) (hkind : lexeme.kind = .blank) :
    ∀ c ∈ lexeme.chars, c = ' ' ∨ c = '\t' := by
  simpa [isBlankChar] using h.blank hkind

theorem balanced_single {c : Char} (hquote : ¬(c == '"') = true) (hcomment : ¬(c == '#') = true)
    (hopening : ¬(c == '(') = true) (hclosing : ¬(c == ')') = true) : Balanced [c] := by
  have hnext : Place.code.next c = .code := by
    rw [Place.next, if_neg (mt beq_iff_eq.mpr hquote), if_neg (mt beq_iff_eq.mpr hcomment)]
  exact .singleton hnext
    (bracket_eq_zero (mt beq_iff_eq.mpr hopening) (mt beq_iff_eq.mpr hclosing))

theorem shaped_next (c : Char) (rest : List Char) : (next c rest).1.Shaped := by
  fun_cases next c rest with
  | case1 hblank =>
      exact ⟨fun _ => List.forall_mem_cons.mpr ⟨hblank, fun _ => List.mem_takeWhile_imp⟩, by simp,
        by simp, by simp, fun _ _ _ _ => balanced_of_run (by decide) (by decide) hblank rest⟩
  | case2 _ hnumber =>
      exact ⟨by simp, by simp, by simp, by simp,
        fun _ _ _ _ => balanced_of_run (by decide) (by decide) hnumber rest⟩
  | case3 _ _ hword =>
      exact ⟨by simp, by simp, by simp, by simp,
        fun _ _ _ _ => balanced_of_run (by decide) (by decide) hword rest⟩
  | case4 hblank hnumber hword hquote literal =>
      refine ⟨by simp, by simp, by simp, by simp, fun _ _ _ hclosed => ?_⟩
      have hclosed : (scanString rest).2.1 = true := by simpa [literal] using hclosed
      obtain ⟨body, hbody, hrest⟩ := exists_body_of_closed hclosed
      have hchars : (scanString rest).1 = body ++ ['"'] := by
        rw [hrest, scanString_of_body hbody]
      simp only [literal, hchars, eq_of_beq hquote]
      exact balanced_literal hbody
  | case5 => exact ⟨by simp, by simp, by simp, by simp, fun _ _ hkind => absurd rfl hkind⟩
  | case6 _ _ _ _ _ hopening =>
      exact ⟨by simp, fun _ => by simp [eq_of_beq hopening], by simp, by simp,
        fun hkind => absurd rfl hkind⟩
  | case7 _ _ _ _ _ _ hclosing =>
      exact ⟨by simp, by simp, fun _ => by simp [eq_of_beq hclosing], by simp,
        fun _ hkind => absurd rfl hkind⟩
  | case8 _ _ _ hquote hcomment hopening hclosing hcomma =>
      exact ⟨by simp, by simp, by simp, fun _ => by simp [eq_of_beq hcomma],
        fun _ _ _ _ => balanced_single hquote hcomment hopening hclosing⟩
  | case9 _ _ _ hquote hcomment hopening hclosing =>
      exact ⟨by simp, by simp, by simp, by simp,
        fun _ _ _ _ => balanced_single hquote hcomment hopening hclosing⟩
  | case10 _ _ _ hquote hcomment hopening hclosing =>
      exact ⟨by simp, by simp, by simp, by simp,
        fun _ _ _ _ => balanced_single hquote hcomment hopening hclosing⟩

theorem shaped_of_mem_scan {cs : List Char} {lexeme : Lexeme} (h : lexeme ∈ scan cs) :
    lexeme.Shaped := by
  obtain ⟨c, rest, rfl⟩ := exists_next_of_mem_scan h
  exact shaped_next c rest

end LineScript.Lexeme
