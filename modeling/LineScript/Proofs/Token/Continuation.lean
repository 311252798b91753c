import LineScript.Proofs.Lexeme.Continuation
import LineScript.Proofs.Token.Spelling

namespace LineScript

-- The lexemes that have an end of their own, so that more can be read behind them.
def Lexeme.Ended (lexeme : Lexeme) : Prop :=
  lexeme.kind ≠ .comment ∧ lexeme.kind ≠ .string false

theorem Lexeme.Ended.stopsBefore {lexeme : Lexeme} (h : lexeme.Ended) {c : Char}
    (hword : continuesWord c = false) (hnumber : continuesNumber c = false) :
    lexeme.kind = .blank ∨ lexeme.stopsBefore c = true := by
  obtain ⟨hcomment, hstring⟩ := h
  unfold Lexeme.stopsBefore
  split <;> simp_all

theorem Lexeme.ended_of_token {lexeme : Lexeme} {token : Token} (h : lexeme.token = .ok token)
    (hcomment : token.kind ≠ .comment) : lexeme.Ended := by
  cases token_eq_ok_iff.mp h with
  | comment => exact absurd rfl hcomment
  | symbol hkind =>
      constructor <;> intro hother <;> simp [hother] at hkind
  | number hkind | name hkind | keyword hkind | string hkind => simp [Ended, hkind]

section Lists

variable {state : ListState} {lexemes after : List Lexeme} {chars : List Char}

-- A list that is closed stays as it is, whatever follows.
theorem closeList_append (h : closeList state lexemes = .ok (chars, after))
    (more : List Lexeme) : closeList state (lexemes ++ more) = .ok (chars, after ++ more) := by
  induction lexemes generalizing state chars with
  | nil => cases h
  | cons lexeme rest ih =>
      rw [List.cons_append, closeList]
      rw [closeList] at h
      split at h
      · cases h
      · cases h
        rfl
      · rename_i following hnext
        obtain ⟨later, hlater, rfl⟩ := exists_of_map_read h
        rw [ih hlater]
        rfl

theorem closeList_concat_blank (state : ListState) (lexemes : List Lexeme) {blank : Lexeme}
    (hblank : blank.kind = .blank) :
    closeList state (lexemes ++ [blank]) =
      (closeList state lexemes).map fun read => (read.1, read.2 ++ [blank]) := by
  induction lexemes generalizing state with
  | nil => simp [closeList, ListState.next, hblank, Except.map]
  | cons lexeme rest ih =>
      rw [List.cons_append, closeList, closeList]
      cases state.next lexeme with
      | error e => rfl
      | ok following =>
          cases following with
          | none => rfl
          | some following =>
              dsimp only
              rw [ih]
              cases closeList following rest <;> rfl

end Lists

section

variable {lexemes : List Lexeme} {tokens : List Token}

theorem ListBody.ended {position : ListPosition} {body : List Lexeme} {items : List Token}
    (h : ListBody position body items) : ∀ lexeme ∈ body, lexeme.Ended := by
  induction h with
  | done => simp
  | blank hkind _ ih | comma hkind _ ih =>
      exact List.forall_mem_cons.mpr ⟨by simp [Lexeme.Ended, hkind], ih⟩
  | scalar _ hscalar hitem _ ih =>
      obtain ⟨htoken, hvalue⟩ := Lexeme.item_iff.mp ⟨hscalar, hitem⟩
      refine List.forall_mem_cons.mpr ⟨Lexeme.ended_of_token htoken ?_, ih⟩
      exact fun hkind => by simp [hkind, Grammar.anyValue] at hvalue
  | list _ hopening _ hclosing _ ihinner ih =>
      refine List.forall_mem_cons.mpr ⟨by simp [Lexeme.Ended, hopening], ?_⟩
      refine List.forall_mem_append.mpr ⟨ihinner, ?_⟩
      exact List.forall_mem_cons.mpr ⟨by simp [Lexeme.Ended, hclosing], ih⟩

theorem Spells.ended {own : List Lexeme} {token : Token} (h : Spells own token)
    (hcomment : token.kind ≠ .comment) : ∀ lexeme ∈ own, lexeme.Ended := by
  cases h with
  | single _ _ htoken => exact List.forall_mem_singleton.mpr (Lexeme.ended_of_token htoken hcomment)
  | list hopening hbody hclosing =>
      refine List.forall_mem_cons.mpr ⟨by simp [Lexeme.Ended, hopening], ?_⟩
      refine List.forall_mem_append.mpr ⟨hbody.ended, ?_⟩
      exact List.forall_mem_singleton.mpr (by simp [Lexeme.Ended, hclosing])

theorem Reading.ended (h : Reading lexemes tokens)
    (hcomment : ∀ token ∈ tokens, token.kind ≠ .comment) :
    ∀ lexeme ∈ lexemes, lexeme.Ended := by
  induction h with
  | done => simp
  | blank hkind _ ih =>
      exact List.forall_mem_cons.mpr ⟨by simp [Lexeme.Ended, hkind], ih hcomment⟩
  | token hspells _ ih =>
      obtain ⟨hfirst, hcomment⟩ := List.forall_mem_cons.mp hcomment
      exact List.forall_mem_append.mpr ⟨hspells.ended hfirst, ih hcomment⟩

theorem map_map_cons (read : Except CompileError (List Token)) (token : Token)
    (tokens : List Token) :
    (read.map (tokens ++ ·)).map (token :: ·) = read.map (token :: tokens ++ ·) := by
  cases read <;> rfl

-- Lexemes that make tokens of their own make them in front of any others.
theorem Reading.tokensOf_append (h : Reading lexemes tokens) (more : List Lexeme) :
    tokensOf (lexemes ++ more) = (tokensOf more).map (tokens ++ ·) := by
  induction h with
  | done =>
      rw [List.nil_append]
      cases tokensOf more <;> rfl
  | blank hkind _ ih => rw [List.cons_append, tokensOf_blank hkind, ih]
  | token hspells _ ih => rw [List.append_assoc, hspells.tokensOf_append, ih, map_map_cons]

theorem tokensOf_concat_blank (lexemes : List Lexeme) {blank : Lexeme}
    (hblank : blank.kind = .blank) : tokensOf (lexemes ++ [blank]) = tokensOf lexemes := by
  fun_induction tokensOf lexemes with
  | case1 => rw [List.nil_append, tokensOf_blank hblank, tokensOf]
  | case2 lexeme rest hkind ih => rw [List.cons_append, tokensOf_blank hkind, ih]
  | case3 lexeme rest hkind e hclose =>
      have hunclosed : closeList ⟨0, .start⟩ (rest ++ [blank]) = .error e := by
        rw [closeList_concat_blank _ _ hblank, hclose]
        rfl
      rw [List.cons_append, tokensOf_unclosed hkind hunclosed]
  | case4 lexeme rest hkind chars after hclose ih =>
      rw [List.cons_append, tokensOf_opening hkind (closeList_append hclose _), ih]
  | case5 lexeme rest hkind hopening ih =>
      rw [List.cons_append, tokensOf_single hkind hopening, ih]

end

namespace Token

variable {cs t : List Char} {tokens : List Token}

-- Blanks in front of a text make no tokens.
theorem readChars_dropWhile (cs : List Char) :
    readChars (cs.dropWhile Lexeme.isBlankChar) = readChars cs := by
  cases cs with
  | nil => rfl
  | cons c rest =>
      by_cases hblank : Lexeme.isBlankChar c = true
      · have hnext : (Lexeme.next c rest).2 = rest.dropWhile Lexeme.isBlankChar := by
          simp [Lexeme.next, hblank]
        rw [List.dropWhile_cons_of_pos hblank, readChars, readChars, Lexeme.scan,
          tokensOf_blank (Lexeme.kind_next_eq_blank.mpr hblank), hnext]
      · rw [List.dropWhile_cons_of_neg hblank]

-- A text that is read goes on to be read when it is continued with what no name and no number has.
theorem readChars_append (h : readChars cs = .ok tokens)
    (hcomment : ∀ token ∈ tokens, token.kind ≠ .comment)
    (hstop : ∀ c ∈ t.head?, Lexeme.continuesWord c = false ∧ Lexeme.continuesNumber c = false) :
    readChars (cs ++ t) = (readChars t).map (tokens ++ ·) := by
  have hstops : ∀ lexeme ∈ Lexeme.scan cs, lexeme.kind = .blank ∨
      ∀ c ∈ t.head?, lexeme.stopsBefore c = true := by
    intro lexeme hlexeme
    by_cases hblank : lexeme.kind = .blank
    · exact .inl hblank
    · have hended := (reading_of_tokensOf h).ended hcomment lexeme hlexeme
      refine .inr fun c hc => ?_
      obtain ⟨hword, hnumber⟩ := hstop c hc
      exact (hended.stopsBefore hword hnumber).resolve_left hblank
  rw [readChars] at h
  rcases Lexeme.scan_append hstops with hscan | ⟨before, blank, wider, hcs, hblank, hwider, hscan⟩
  · rw [readChars, hscan, (reading_of_tokensOf h).tokensOf_append, readChars]
  · rw [hcs, tokensOf_concat_blank _ hblank] at h
    rw [readChars, hscan, (reading_of_tokensOf h).tokensOf_append, tokensOf_blank hwider,
      ← readChars_dropWhile t, readChars]

theorem readChars_comment {text : List Char} (h : '\n' ∉ text) :
    readChars ('#' :: text) = .ok [⟨.comment, String.ofList ('#' :: text)⟩] := by
  have hall : ∀ c ∈ text, (c != '\n') = true := by
    intro c hc
    have hne : c ≠ '\n' := fun hnewline => h (hnewline ▸ hc)
    simpa using hne
  have hnext : Lexeme.next '#' text = (⟨.comment, '#' :: text⟩, []) := by
    have hother : Lexeme.isBlankChar '#' = false ∧ Lexeme.startsNumber '#' = false ∧
        Lexeme.startsWord '#' = false := by
      decide
    simp only [Lexeme.next]
    simp [hother, List.takeWhile_eq_self_iff.mpr hall, List.dropWhile_eq_nil_iff.mpr hall]
  rw [readChars, Lexeme.scan, hnext, tokensOf_single (by simp) (by simp), Lexeme.scan, tokensOf]
  rfl

end Token

end LineScript
