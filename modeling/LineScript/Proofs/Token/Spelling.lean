import LineScript.Grammar
import LineScript.Memory.Evaluation
import LineScript.Proofs.Token.ListLiteral

namespace LineScript

theorem tokensOf_blank {lexeme : Lexeme} {rest : List Lexeme} (hkind : lexeme.kind = .blank) :
    tokensOf (lexeme :: rest) = tokensOf rest := by
  rw [tokensOf, hkind]

theorem tokensOf_opening {lexeme : Lexeme} {rest after : List Lexeme} {chars : List Char}
    (hkind : lexeme.kind = .opening) (hclose : closeList ⟨0, .start⟩ rest = .ok (chars, after)) :
    tokensOf (lexeme :: rest) =
      (tokensOf after).map (⟨.list, String.ofList (lexeme.chars ++ chars)⟩ :: ·) := by
  rw [tokensOf, hkind]
  dsimp only
  split
  · rename_i e herror
    rw [hclose] at herror
    cases herror
  · rename_i other left hother
    rw [hclose] at hother
    cases hother
    rfl

theorem tokensOf_unclosed {lexeme : Lexeme} {rest : List Lexeme} {e : CompileError}
    (hkind : lexeme.kind = .opening) (hclose : closeList ⟨0, .start⟩ rest = .error e) :
    tokensOf (lexeme :: rest) = .error e := by
  rw [tokensOf, hkind]
  dsimp only
  split
  · rename_i e' herror
    rw [hclose] at herror
    cases herror
    rfl
  · rename_i hread
    rw [hclose] at hread
    cases hread

theorem tokensOf_single {lexeme : Lexeme} {rest : List Lexeme} (hblank : lexeme.kind ≠ .blank)
    (hopening : lexeme.kind ≠ .opening) :
    tokensOf (lexeme :: rest) =
      lexeme.token.bind fun token => (tokensOf rest).map (token :: ·) := by
  rw [tokensOf]
  split
  · rename_i hkind
    exact absurd hkind hblank
  · rename_i hkind
    exact absurd hkind hopening
  · rfl

theorem Lexeme.token_of_item {lexeme : Lexeme} {token : Token} (h : lexeme.item = .ok token) :
    lexeme.token = .ok token ∧ token.kind ≠ .keyword := by
  obtain ⟨read, hread, h⟩ := bind_eq_ok.mp h
  split_ifs at h with hkeyword
  cases h
  exact ⟨hread, hkeyword⟩

-- What a list takes in as one lexeme makes a value, and everything does that makes one.
theorem Lexeme.item_iff {lexeme : Lexeme} {token : Token} :
    lexeme.isScalar = true ∧ lexeme.item = .ok token ↔
      lexeme.token = .ok token ∧ token.kind ∈ Grammar.anyValue := by
  constructor
  · rintro ⟨hscalar, hitem⟩
    obtain ⟨htoken, hkeyword⟩ := token_of_item hitem
    refine ⟨htoken, ?_⟩
    cases token_eq_ok_iff.mp htoken with
    | keyword => exact absurd rfl hkeyword
    | comment hkind => simp [isScalar, hkind] at hscalar
    | symbol hkind =>
        unfold isScalar at hscalar
        split at hscalar <;> simp_all
    | _ => simp [Grammar.anyValue]
  · rintro ⟨htoken, hvalue⟩
    have hitem : token.kind ≠ .keyword → lexeme.item = .ok token := by
      intro hkeyword
      rw [item, htoken]
      exact if_neg hkeyword
    cases token_eq_ok_iff.mp htoken with
    | number hkind | name hkind | string hkind => exact ⟨by simp [isScalar, hkind], hitem (by simp)⟩
    | keyword | comment | symbol => simp [Grammar.anyValue, Token.ofKeyword] at hvalue

theorem Lexeme.kind_of_isScalar {lexeme : Lexeme} (h : lexeme.isScalar = true) :
    lexeme.kind ≠ .blank ∧ lexeme.kind ≠ .opening := by
  constructor <;> intro hkind <;> simp [isScalar, hkind] at h

-- Outside of lists a lexeme is never one.
theorem Lexeme.token_kind_ne_list {lexeme : Lexeme} {token : Token} (h : lexeme.token = .ok token) :
    token.kind ≠ .list := by
  cases token_eq_ok_iff.mp h <;> simp [Token.ofKeyword]

theorem Lexeme.text_of_token {lexeme : Lexeme} {token : Token} (h : lexeme.token = .ok token) :
    (token.kind ≠ .keyword ∧ token = ⟨token.kind, lexeme.text⟩) ∨
      ∃ keyword, Keyword.ofText? lexeme.text = some keyword ∧ token = .ofKeyword keyword := by
  cases token_eq_ok_iff.mp h with
  | keyword _ _ _ hkeyword => exact .inr ⟨_, hkeyword, rfl⟩
  | _ => exact .inl ⟨by simp, rfl⟩

-- The lexemes that a token is made of: one, or those of a list with its brackets.
inductive Spells : List Lexeme → Token → Prop where
  | single {lexeme : Lexeme} {token : Token} (hblank : lexeme.kind ≠ .blank)
      (hopening : lexeme.kind ≠ .opening) (htoken : lexeme.token = .ok token) :
      Spells [lexeme] token
  | list {opening closing : Lexeme} {body : List Lexeme} {items : List Token}
      (hopening : opening.kind = .opening) (hbody : ListBody .start body items)
      (hclosing : closing.kind = .closing) :
      Spells (opening :: (body ++ [closing]))
        ⟨.list, String.ofList
          (opening.chars ++ (body.flatMap Lexeme.chars ++ closing.chars))⟩

-- The lexemes of a text fall into those of its tokens and blanks.
inductive Reading : List Lexeme → List Token → Prop where
  | done : Reading [] []
  | blank {lexeme : Lexeme} {rest : List Lexeme} {tokens : List Token}
      (hkind : lexeme.kind = .blank) (hrest : Reading rest tokens) :
      Reading (lexeme :: rest) tokens
  | token {own rest : List Lexeme} {token : Token} {tokens : List Token}
      (hspells : Spells own token) (hrest : Reading rest tokens) :
      Reading (own ++ rest) (token :: tokens)

theorem Spells.tokensOf_append {own : List Lexeme} {token : Token} (h : Spells own token)
    (rest : List Lexeme) : tokensOf (own ++ rest) = (tokensOf rest).map (token :: ·) := by
  cases h with
  | single hblank hopening htoken =>
      rw [List.singleton_append, tokensOf_single hblank hopening, htoken]
      rfl
  | @list opening closing body items hopening hbody hclosing =>
      have hclose : closeList ⟨0, .start⟩ (body ++ closing :: rest) =
          .ok (body.flatMap Lexeme.chars ++ closing.chars, rest) := by
        rw [hbody.closeList_eq 0 hclosing]
        simp [closeOuter, Except.map]
      rw [List.cons_append, List.append_assoc, List.singleton_append,
        tokensOf_opening hopening hclose]

theorem Spells.tokensOf_eq {own : List Lexeme} {token : Token} (h : Spells own token) :
    tokensOf own = .ok [token] := by
  rw [← List.append_nil own, h.tokensOf_append, tokensOf]
  rfl

theorem Reading.tokensOf_eq {lexemes : List Lexeme} {tokens : List Token}
    (h : Reading lexemes tokens) : tokensOf lexemes = .ok tokens := by
  induction h with
  | done => rw [tokensOf]
  | blank hkind _ ih => rw [tokensOf_blank hkind, ih]
  | token hspells _ ih =>
      rw [hspells.tokensOf_append, ih]
      rfl

theorem reading_of_tokensOf {lexemes : List Lexeme} {tokens : List Token}
    (h : tokensOf lexemes = .ok tokens) : Reading lexemes tokens := by
  fun_induction tokensOf lexemes generalizing tokens with
  | case1 =>
      cases h
      exact .done
  | case2 lexeme rest hkind ih => exact .blank hkind (ih h)
  | case3 => cases h
  | case4 lexeme rest hkind chars after hclose ih =>
      obtain ⟨others, hothers, rfl⟩ := map_eq_ok.mp h
      obtain ⟨body, items, closing, left, outer, hbody, hclosing, rfl, hout, rfl⟩ :=
        exists_body_of_closeList hclose
      cases hout
      have hlist := Reading.token (.list hkind hbody hclosing) (ih hothers)
      simpa using hlist
  | case5 lexeme rest hblank hopening ih =>
      obtain ⟨token, htoken, hrest⟩ := bind_eq_ok.mp h
      obtain ⟨others, hothers, rfl⟩ := map_eq_ok.mp hrest
      exact .token (.single hblank hopening htoken) (ih hothers)

theorem Reading.exists_of_mem {lexemes : List Lexeme} {tokens : List Token}
    (h : Reading lexemes tokens) {token : Token} (hmem : token ∈ tokens) :
    ∃ own, own <:+: lexemes ∧ Spells own token := by
  induction h with
  | done => cases hmem
  | blank _ _ ih =>
      obtain ⟨own, hown, hspells⟩ := ih hmem
      exact ⟨own, hown.trans (List.suffix_cons _ _).isInfix, hspells⟩
  | @token own rest first tokens hspells _ ih =>
      rcases List.mem_cons.mp hmem with rfl | hmem
      · exact ⟨own, (List.prefix_append own rest).isInfix, hspells⟩
      · obtain ⟨later, hlater, hspells⟩ := ih hmem
        exact ⟨later, hlater.trans (List.suffix_append own rest).isInfix, hspells⟩

theorem Spells.text_eq {own : List Lexeme} {token : Token} (h : Spells own token) :
    (token.kind ≠ .keyword ∧ token = ⟨token.kind, String.ofList (own.flatMap Lexeme.chars)⟩) ∨
      ∃ keyword, Keyword.ofText? (String.ofList (own.flatMap Lexeme.chars)) = some keyword ∧
        token = .ofKeyword keyword := by
  cases h with
  | single _ _ htoken => simpa [Lexeme.text] using Lexeme.text_of_token htoken
  | list => exact .inl ⟨by simp, by simp⟩

-- The body of a list falls into tokens just as a line does.
theorem ListBody.reading {position : ListPosition} {body : List Lexeme} {tokens : List Token}
    (hbody : ListBody position body tokens) : Reading body tokens := by
  induction hbody with
  | done => exact .done
  | blank hkind _ ih => exact .blank hkind ih
  | @comma lexeme _ _ hkind _ ih =>
      have htoken : lexeme.token = .ok ⟨.symbol, lexeme.text⟩ := by simp [Lexeme.token, hkind]
      exact .token (.single (by simp [hkind]) (by simp [hkind]) htoken) ih
  | scalar _ hscalar hitem _ ih =>
      obtain ⟨hblank, hopening⟩ := Lexeme.kind_of_isScalar hscalar
      exact .token (.single hblank hopening (Lexeme.token_of_item hitem).1) ih
  | list _ hopening hinner hclosing _ _ ih =>
      have hlist := Reading.token (.list hopening hinner hclosing) ih
      simpa using hlist

theorem ListBody.kind_of_mem {position : ListPosition} {body : List Lexeme} {tokens : List Token}
    (hbody : ListBody position body tokens) {token : Token} (hmem : token ∈ tokens) :
    token.kind ∈ Grammar.anyValue ∨ token.kind = .symbol := by
  induction hbody with
  | done => cases hmem
  | blank _ _ ih => exact ih hmem
  | comma _ _ ih =>
      rcases List.mem_cons.mp hmem with rfl | hmem
      · exact .inr rfl
      · exact ih hmem
  | scalar _ hscalar hitem _ ih =>
      rcases List.mem_cons.mp hmem with rfl | hmem
      · exact .inl (Lexeme.item_iff.mp ⟨hscalar, hitem⟩).2
      · exact ih hmem
  | list _ _ _ _ _ _ ih =>
      rcases List.mem_cons.mp hmem with rfl | hmem
      · simp [Grammar.anyValue]
      · exact ih hmem

-- A list token, with the body it has between two of the lexemes.
def IsListLiteral (lexemes : List Lexeme) (token : Token) : Prop :=
  ∃ opening body bodyTokens closing, (opening :: (body ++ [closing])) <:+: lexemes ∧
    opening.kind = .opening ∧ ListBody .start body bodyTokens ∧ closing.kind = .closing ∧
    token = ⟨.list, String.ofList (opening.chars ++ (body.flatMap Lexeme.chars ++ closing.chars))⟩

-- A token is a lexeme of its own or a list literal.
theorem origin_of_mem_tokensOf {lexemes : List Lexeme} {tokens : List Token} {token : Token}
    (h : tokensOf lexemes = .ok tokens) (hmem : token ∈ tokens) :
    (∃ lexeme ∈ lexemes, lexeme.token = .ok token) ∨ IsListLiteral lexemes token := by
  obtain ⟨own, hrun, hspells⟩ := (reading_of_tokensOf h).exists_of_mem hmem
  cases hspells with
  | single _ _ htoken => exact .inl ⟨_, hrun.subset List.mem_cons_self, htoken⟩
  | list hopening hbody hclosing => exact .inr ⟨_, _, _, _, hrun, hopening, hbody, hclosing, rfl⟩

theorem inner_of_brackets {opening closing body : List Char} (hopening : opening.length = 1)
    (hclosing : closing.length = 1) : Text.inner (opening ++ (body ++ closing)) = body := by
  obtain ⟨a, rfl⟩ := List.length_eq_one_iff.mp hopening
  obtain ⟨b, rfl⟩ := List.length_eq_one_iff.mp hclosing
  simp [Text.inner]

-- The text of a list can be read again without its brackets, and holds nothing but values and
-- commas.
theorem Token.readChars_inner_of_list {cs : List Char} {tokens : List Token} {token : Token}
    (h : Token.readChars cs = .ok tokens) (hmem : token ∈ tokens) (hlist : token.kind = .list) :
    ∃ inner, Token.readChars token.innerChars = .ok inner ∧
      ∀ item ∈ inner, item.kind ∈ Grammar.anyValue ∨ item.kind = .symbol := by
  have hliteral : IsListLiteral (Lexeme.scan cs) token := by
    rcases origin_of_mem_tokensOf h hmem with ⟨lexeme, _, htoken⟩ | hliteral
    · exact absurd hlist (Lexeme.token_kind_ne_list htoken)
    · exact hliteral
  obtain ⟨opening, body, bodyTokens, closing, hrun, hopening, hbody, hclosing, rfl⟩ := hliteral
  have hlenOpening : opening.chars.length = 1 :=
    Lexeme.length_chars_of_bracket (hrun.subset (by simp)) (.inl hopening)
  have hlenClosing : closing.chars.length = 1 :=
    Lexeme.length_chars_of_bracket (hrun.subset (by simp)) (.inr hclosing)
  have hinner : Text.inner (opening.chars ++ (body.flatMap Lexeme.chars ++ closing.chars)) =
      body.flatMap Lexeme.chars := inner_of_brackets hlenOpening hlenClosing
  have hbodyRun : body <:+: Lexeme.scan cs := by
    have hwithin : body <:+: opening :: (body ++ [closing]) := ⟨[opening], [closing], by simp⟩
    exact hwithin.trans hrun
  refine ⟨bodyTokens, ?_, fun item hitem => hbody.kind_of_mem hitem⟩
  rw [Token.readChars, Token.innerChars, String.toList_ofList, hinner,
    Lexeme.scan_flatMap_of_run hbodyRun]
  exact hbody.reading.tokensOf_eq

theorem Token.readSingle_eq_ok_iff {text : String} {token : Token} :
    Token.readSingle text = .ok token ↔ Token.readAll text = .ok [token] := by
  unfold Token.readSingle
  split
  · simp_all
  · simp_all
  · rename_i tokens hother hread
    constructor
    · intro h
      cases h
    · intro h
      rw [h, Except.ok.injEq] at hread
      exact absurd hread.symm (hother token)

end LineScript
