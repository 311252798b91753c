import LineScript.Proofs.Lexeme.Nesting
import LineScript.Proofs.Token.Spelling

namespace LineScript

open Text (Balanced Enclosed)

section

variable {tokens : List Token}

theorem Reading.nil_inv (h : Reading [] tokens) : tokens = [] := by
  have hnone := h.tokensOf_eq
  rw [tokensOf, Except.ok.injEq] at hnone
  exact hnone.symm

theorem Reading.not_stray {lexeme : Lexeme} {rest : List Lexeme} {c : Char}
    (hkind : lexeme.kind = .stray c) : ¬Reading (lexeme :: rest) tokens := by
  intro h
  have hread := h.tokensOf_eq
  rw [tokensOf_single (by simp [hkind]) (by simp [hkind]), Lexeme.token, hkind] at hread
  cases hread

end

theorem Lexeme.scan_flatMap_scan (cs : List Char) :
    scan ((scan cs).flatMap chars) = scan cs := by
  rw [flatMap_chars_scan]

theorem Lexeme.kind_of_comment {lexeme : Lexeme} {token : Token} (h : lexeme.token = .ok token)
    (hkind : token.kind = .comment) : lexeme.kind = .comment := by
  cases token_eq_ok_iff.mp h with
  | comment hcomment => exact hcomment
  | _ => cases hkind

-- A comment goes up to the end of its line, and the newline there starts no token.
theorem Lexeme.after_comment {cs : List Char} {lexeme : Lexeme} {rest : List Lexeme}
    (hscan : scan cs = lexeme :: rest) (hkind : lexeme.kind = .comment) :
    rest = [] ∨ ∃ stray later, rest = stray :: later ∧ stray.kind = .stray '\n' := by
  cases cs with
  | nil => simp [scan] at hscan
  | cons c cs =>
      rw [scan, List.cons.injEq] at hscan
      obtain ⟨rfl, rfl⟩ := hscan
      have hrest : (next c cs).2 = cs.dropWhile (· != '\n') := by
        revert hkind
        fun_cases next c cs <;> simp
      cases hlater : cs.dropWhile (· != '\n') with
      | nil => exact .inl (by rw [hrest, hlater, scan])
      | cons d later =>
          have hd : d = '\n' := by
            have hne : cs.dropWhile (· != '\n') ≠ [] := by simp [hlater]
            simpa [hlater] using List.head_dropWhile_not _ hne
          refine .inr ⟨_, _, by rw [hrest, hlater, scan], ?_⟩
          subst hd
          rfl

-- Brackets that stand in the strings of a list do not count, and its inner lists close theirs.
theorem ListBody.balanced {position : ListPosition} {body : List Lexeme} {items : List Token}
    (hbody : ListBody position body items) (hshaped : ∀ lexeme ∈ body, lexeme.Shaped) :
    Balanced (body.flatMap Lexeme.chars) := by
  induction hbody with
  | done => exact .nil
  | blank hkind _ ih | comma hkind _ ih =>
      obtain ⟨hfirst, hrest⟩ := List.forall_mem_cons.mp hshaped
      exact (hfirst.balanced (by simp [hkind]) (by simp [hkind]) (by simp [hkind])
        (by simp [hkind])).append (ih hrest)
  | @scalar position lexeme token body tokens _ hscalar hitem _ ih =>
      obtain ⟨hfirst, hrest⟩ := List.forall_mem_cons.mp hshaped
      have htoken := (Lexeme.token_of_item hitem).1
      refine (hfirst.balanced ?_ ?_ ?_ ?_).append (ih hrest)
      · exact fun hkind => by simp [Lexeme.isScalar, hkind] at hscalar
      · exact fun hkind => by simp [Lexeme.isScalar, hkind] at hscalar
      · exact fun hkind => by simp [Lexeme.isScalar, hkind] at hscalar
      · exact fun hkind => by simp [Lexeme.token, hkind] at htoken
  | @list position opening closing inner body _ _ _ hopening _ hclosing _ ihinner ih =>
      have hfirst := (hshaped opening (by simp)).opening hopening
      have hlast := (hshaped closing (by simp)).closing hclosing
      have hinner := ihinner fun lexeme hmem => hshaped lexeme (by simp [hmem])
      have hrest := ih fun lexeme hmem => hshaped lexeme (by simp [hmem])
      simpa [hfirst, hlast] using hinner.pair.append hrest

theorem Spells.enclosed {own : List Lexeme} {token : Token} (h : Spells own token)
    (hshaped : ∀ lexeme ∈ own, lexeme.Shaped) (hlist : token.kind = .list) :
    Enclosed (own.flatMap Lexeme.chars) := by
  cases h with
  | single _ _ htoken => exact absurd hlist (Lexeme.token_kind_ne_list htoken)
  | @list opening closing body items hopening hbody hclosing =>
      have hfirst := (hshaped opening (by simp)).opening hopening
      have hlast := (hshaped closing (by simp)).closing hclosing
      have hinner := hbody.balanced fun lexeme hmem => hshaped lexeme (by simp [hmem])
      simpa [hfirst, hlast] using hinner.enclosed

-- What a token covers of its line, and the blanks between it and what comes next.
structure Slice where
  token : Token
  chars : List Char
  behind : List Char

-- The slice is the text of its token as it stands, for a keyword ignoring the case of letters. A
-- list goes from its opening bracket to the one that matches it.
structure Slice.Faithful (slice : Slice) : Prop where
  exact : slice.token.kind ≠ .keyword → slice.token.text.toList = slice.chars
  keyword : slice.token.kind = .keyword →
    Text.sameIgnoringCase slice.token.text (String.ofList slice.chars) = true
  enclosed : slice.token.kind = .list → Enclosed slice.chars
  blanks : ∀ c ∈ slice.behind, c = ' ' ∨ c = '\t'

theorem Spells.faithful {own : List Lexeme} {token : Token} (h : Spells own token)
    (hshaped : ∀ lexeme ∈ own, lexeme.Shaped) {behind : List Char}
    (hbehind : ∀ c ∈ behind, c = ' ' ∨ c = '\t') :
    Slice.Faithful ⟨token, own.flatMap Lexeme.chars, behind⟩ where
  exact := by
    intro hkind
    rcases h.text_eq with ⟨_, htoken⟩ | ⟨keyword, _, rfl⟩
    · rw [htoken]
      simp
    · exact absurd rfl hkind
  keyword := by
    intro hkind
    rcases h.text_eq with ⟨hother, _⟩ | ⟨keyword, hkeyword, rfl⟩
    · exact absurd hkind hother
    · exact Keyword.sameIgnoringCase_of_ofText? hkeyword
  enclosed := h.enclosed hshaped
  blanks := hbehind

-- Nothing comes behind a comment.
theorem Reading.nil_of_comment {cs : List Char} {own rest : List Lexeme} {token : Token}
    {tokens : List Token} (hscan : Lexeme.scan cs = own ++ rest) (hspells : Spells own token)
    (hrest : Reading rest tokens) (hkind : token.kind = .comment) : rest = [] := by
  cases hspells with
  | single _ _ htoken =>
      have hcomment := Lexeme.kind_of_comment htoken hkind
      rcases Lexeme.after_comment hscan hcomment with hnone | ⟨stray, later, rfl, hstray⟩
      · exact hnone
      · exact absurd hrest (Reading.not_stray hstray)
  | list => cases hkind

-- The slices of a line, one for each token. The induction goes along the lexemes, of which any that
-- are left are those of what is left of the line.
theorem Reading.exists_slices {lexemes : List Lexeme} {tokens : List Token}
    (h : Reading lexemes tokens)
    (hscan : Lexeme.scan (lexemes.flatMap Lexeme.chars) = lexemes) :
    ∃ (front : List Char) (slices : List Slice), lexemes.flatMap Lexeme.chars =
        front ++ slices.flatMap (fun slice => slice.chars ++ slice.behind) ∧
      (∀ c ∈ front, c = ' ' ∨ c = '\t') ∧ slices.map Slice.token = tokens ∧
      (∀ slice ∈ slices, slice.Faithful) ∧
      ∀ before slice after, slices = before ++ slice :: after → slice.token.kind = .comment →
        after = [] ∧ slice.behind = [] := by
  induction h with
  | done => exact ⟨[], [], rfl, by simp, rfl, by simp, by simp⟩
  | @blank lexeme rest tokens hkind _ ih =>
      have hlexeme : lexeme.Shaped := Lexeme.shaped_of_mem_scan (hscan ▸ List.mem_cons_self)
      have hlater := @Lexeme.scan_flatMap_of_append_right _ [lexeme] rest hscan
      obtain ⟨front, slices, hchars, hfront, hslices⟩ := ih hlater
      have hblank := hlexeme.space_or_tab hkind
      refine ⟨lexeme.chars ++ front, slices, ?_, ?_, hslices⟩
      · rw [List.flatMap_cons, hchars, List.append_assoc]
      · exact fun c hc => (List.mem_append.mp hc).elim (hblank c) (hfront c)
  | @token own rest token tokens hspells hrest ih =>
      have hown : ∀ lexeme ∈ own, lexeme.Shaped := fun lexeme hmem =>
        Lexeme.shaped_of_mem_scan (hscan ▸ List.mem_append_left _ hmem)
      have hlater := Lexeme.scan_flatMap_of_append_right hscan
      obtain ⟨front, slices, hchars, hfront, htokens, hslices, hcomment⟩ := ih hlater
      refine ⟨[], ⟨token, own.flatMap Lexeme.chars, front⟩ :: slices, ?_, by simp, ?_, ?_, ?_⟩
      · simp [hchars]
      · rw [List.map_cons, htokens]
      · exact List.forall_mem_cons.mpr ⟨hspells.faithful hown hfront, hslices⟩
      · intro before slice after hsplit hkind
        cases before with
        | nil =>
            cases hsplit
            obtain rfl := Reading.nil_of_comment hscan hspells hrest hkind
            obtain rfl := hrest.nil_inv
            obtain ⟨rfl, _⟩ := List.append_eq_nil_iff.mp hchars.symm
            exact ⟨List.map_eq_nil_iff.mp htokens, rfl⟩
        | cons first before =>
            cases hsplit
            exact hcomment before slice after rfl hkind

theorem Token.comment_is_last {line : String} {tokens before after : List Token} {token : Token}
    (h : Token.readAll line = .ok tokens) (hsplit : tokens = before ++ token :: after)
    (hkind : token.kind = .comment) : after = [] := by
  obtain ⟨_, slices, _, _, rfl, _, hlast⟩ :=
    (reading_of_tokensOf h).exists_slices (Lexeme.scan_flatMap_scan _)
  obtain ⟨front, back, rfl, _, hback⟩ := List.map_eq_append_iff.mp hsplit
  obtain ⟨slice, later, rfl, rfl, rfl⟩ := List.map_eq_cons_iff.mp hback
  rw [(hlast front slice later rfl hkind).1, List.map_nil]

-- Reading a line loses nothing of it. Between the blanks stand the texts of the tokens, in their
-- order, and a comment can only be the last of them, with no blank behind it.
theorem Token.reading_loses_nothing {line : String} {tokens : List Token}
    (h : Token.readAll line = .ok tokens) :
    ∃ (front : List Char) (slices : List Slice),
      line.toList = front ++ slices.flatMap (fun slice => slice.chars ++ slice.behind) ∧
      (∀ c ∈ front, c = ' ' ∨ c = '\t') ∧ slices.map Slice.token = tokens ∧
      (∀ slice ∈ slices, slice.Faithful) ∧
      ∀ before slice after, slices = before ++ slice :: after → slice.token.kind = .comment →
        after = [] ∧ slice.behind = [] := by
  have hslices := (reading_of_tokensOf h).exists_slices (Lexeme.scan_flatMap_scan _)
  rwa [Lexeme.flatMap_chars_scan] at hslices

-- Brackets and the mark of a comment in strings, and a list in a list.
def slicedLine : String := " set\tx TO (1,(\"a)\\\")#\" ) , b )  # (c "

theorem Token.nested_list_is_one_slice :
    ∃ (front : List Char) (slices : List Slice),
      slicedLine.toList = front ++ slices.flatMap (fun slice => slice.chars ++ slice.behind) ∧
      (∀ c ∈ front, c = ' ' ∨ c = '\t') ∧
      slices.map Slice.token = [.ofKeyword .SET, ⟨.name, "x"⟩, .ofKeyword .TO,
        ⟨.list, "(1,(\"a)\\\")#\" ) , b )"⟩, ⟨.comment, "# (c "⟩] ∧
      (∀ slice ∈ slices, slice.Faithful) ∧
      ∀ before slice after, slices = before ++ slice :: after → slice.token.kind = .comment →
        after = [] ∧ slice.behind = [] := by
  have hread : Token.readAll slicedLine = .ok [.ofKeyword .SET, ⟨.name, "x"⟩, .ofKeyword .TO,
      ⟨.list, "(1,(\"a)\\\")#\" ) , b )"⟩, ⟨.comment, "# (c "⟩] := by
    decide +kernel
  exact Token.reading_loses_nothing hread

end LineScript
