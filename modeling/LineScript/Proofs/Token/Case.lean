import LineScript.Proofs.Lexeme.Case
import LineScript.Proofs.Token.Spelling
import Mathlib.Data.List.TakeDrop

namespace LineScript

open Text

namespace Number

theorem map_toUpper_of_digits {cs : List Char} (h : ∀ c ∈ cs, c.isDigit = true) :
    cs.map Char.toUpper = cs := by
  have hletters : ∀ i < 26, (Char.ofNat (97 + i)).isDigit = false := by decide
  refine (List.map_congr_left fun c hc => ?_).trans (List.map_id cs)
  rcases toUpper_cases c with hsame | ⟨i, hi, rfl, _⟩
  · exact hsame
  · have hdigit := h _ hc
    rw [hletters i hi] at hdigit
    cases hdigit

theorem readDigits?_toUpper (cs : List Char) :
    readDigits? (cs.map Char.toUpper) = readDigits? cs := by
  have hall : (cs.map Char.toUpper).all Char.isDigit = cs.all Char.isDigit := by
    rw [List.all_map]
    exact congrArg _ (funext isDigit_toUpper)
  unfold readDigits?
  rw [hall]
  by_cases hdigits : cs.all Char.isDigit = true
  · rw [map_toUpper_of_digits (List.all_eq_true.mp hdigits)]
  · simp [hdigits]

theorem splitSign_toUpper (cs : List Char) :
    splitSign (cs.map Char.toUpper) = ((splitSign cs).1, (splitSign cs).2.map Char.toUpper) := by
  fun_cases splitSign cs with
  | case1 rest => rfl
  | case2 rest => rfl
  | case3 cs hminus hplus =>
      cases cs with
      | nil => rfl
      | cons c rest =>
          rw [List.map_cons, splitSign]
          · intro later h
            exact hminus rest (by rw [(toUpper_eq_iff (by decide)).mp (List.cons.inj h).1])
          · intro later h
            exact hplus rest (by rw [(toUpper_eq_iff (by decide)).mp (List.cons.inj h).1])

theorem readInteger?_toUpper (cs : List Char) :
    readInteger? (cs.map Char.toUpper) = readInteger? cs := by
  rw [readInteger?, splitSign_toUpper, readDigits?_toUpper, readInteger?]

theorem readExponent?_toUpper (cs : List Char) :
    readExponent? (cs.map Char.toUpper) = readExponent? cs := by
  cases cs with
  | nil => rfl
  | cons mark rest =>
      have hmark : (mark.toUpper = 'e' ∨ mark.toUpper = 'E') = (mark = 'e' ∨ mark = 'E') :=
        apply_toUpper (fun c => (c = 'e' ∨ c = 'E')) (by decide) mark
      simp only [List.map_cons, readExponent?, hmark, splitSign_toUpper, readDigits?_toUpper]

theorem span_digits_toUpper (cs : List Char) :
    (cs.map Char.toUpper).span Char.isDigit =
      ((cs.span Char.isDigit).1, (cs.span Char.isDigit).2.map Char.toUpper) := by
  rw [List.span_eq_takeWhile_dropWhile, List.span_eq_takeWhile_dropWhile, List.takeWhile_map,
    List.dropWhile_map, show Char.isDigit ∘ Char.toUpper = Char.isDigit from funext isDigit_toUpper,
    map_toUpper_of_digits fun _ => List.mem_takeWhile_imp]

theorem readFraction_toUpper (cs : List Char) :
    readFraction (cs.map Char.toUpper) =
      ((readFraction cs).1, (readFraction cs).2.map Char.toUpper) := by
  fun_cases readFraction cs with
  | case1 rest => exact span_digits_toUpper rest
  | case2 cs hpoint =>
      cases cs with
      | nil => rfl
      | cons c rest =>
          rw [List.map_cons, readFraction]
          intro later h
          exact hpoint rest (by rw [(toUpper_eq_iff (by decide)).mp (List.cons.inj h).1])

theorem readScientific?_toUpper (cs : List Char) :
    readScientific? (cs.map Char.toUpper) = readScientific? cs := by
  simp only [readScientific?, splitSign_toUpper, span_digits_toUpper, readFraction_toUpper,
    readExponent?_toUpper]

theorem Literal.read?_toUpper (cs : List Char) :
    Literal.read? (cs.map Char.toUpper) = Literal.read? cs := by
  rw [Literal.read?, readInteger?_toUpper, readScientific?_toUpper, Literal.read?]

theorem Literal.read?_capitals (cs : List Char) :
    Literal.read? (capitals .code cs) = Literal.read? cs := by
  rw [← Literal.read?_toUpper, toUpper_capitals, Literal.read?_toUpper]

end Number

def Token.capital (token : Token) : Token := ⟨token.kind, capitalized token.text⟩

@[simp]
theorem Token.kind_capital (token : Token) : token.capital.kind = token.kind := rfl

theorem Token.capital_ofKeyword (keyword : Keyword) :
    (Token.ofKeyword keyword).capital = .ofKeyword keyword := by
  cases keyword <;> decide

theorem Lexeme.text_capital (lexeme : Lexeme) : lexeme.capital.text = capitalized lexeme.text := by
  simp [Lexeme.text, Lexeme.capital, capitalized]

theorem accessorsClosed_toUpper (cs : List Char) :
    accessorsClosed (cs.map Char.toUpper) = accessorsClosed cs := by
  fun_induction accessorsClosed cs with
  | case1 => rfl
  | case2 => rfl
  | case3 rest => rfl
  | case4 c rest hlast hnext ih =>
      rw [List.map_cons, accessorsClosed, ih]
      · intro hc hrest
        exact hlast ((toUpper_eq_iff (by decide)).mp hc) (List.map_eq_nil_iff.mp hrest)
      · intro later hc hrest
        obtain ⟨d, others, rfl, hd, _⟩ := List.map_eq_cons_iff.mp hrest
        exact hnext others ((toUpper_eq_iff (by decide)).mp hc)
          (by rw [(toUpper_eq_iff (by decide)).mp hd])

theorem mem_accessor_toUpper (cs : List Char) : '@' ∈ cs.map Char.toUpper ↔ '@' ∈ cs := by
  rw [List.mem_map]
  constructor
  · rintro ⟨c, hmem, hc⟩
    rwa [(toUpper_eq_iff (by decide)).mp hc] at hmem
  · intro hmem
    exact ⟨'@', hmem, by decide⟩

theorem accessorsClosed_capitals (cs : List Char) :
    accessorsClosed (capitals .code cs) = accessorsClosed cs := by
  rw [← accessorsClosed_toUpper, toUpper_capitals, accessorsClosed_toUpper]

theorem mem_accessor_capitals (cs : List Char) : '@' ∈ capitals .code cs ↔ '@' ∈ cs := by
  rw [← mem_accessor_toUpper, toUpper_capitals, mem_accessor_toUpper]

theorem readWord_capital (lexeme : Lexeme) :
    (readWord lexeme.capital).toOption = (readWord lexeme).toOption.map Token.capital := by
  unfold readWord
  rw [Lexeme.text_capital, Keyword.ofText?_capitalized, Lexeme.capital, accessorsClosed_capitals]
  simp only [mem_accessor_capitals]
  split_ifs
  · rfl
  · rfl
  · cases Keyword.ofText? lexeme.text with
    | none => rfl
    | some keyword => exact congrArg some (Token.capital_ofKeyword keyword).symm

-- A lexeme is the same kind of token in either case.
theorem Lexeme.token_capital (lexeme : Lexeme) :
    lexeme.capital.token.toOption = lexeme.token.toOption.map Token.capital := by
  have htext := lexeme.text_capital
  unfold Lexeme.token
  rw [htext]
  rw [show lexeme.capital.kind = lexeme.kind from rfl]
  split
  · rw [Lexeme.capital, Number.Literal.read?_capitals]
    split_ifs <;> rfl
  · exact readWord_capital lexeme
  · split_ifs <;> rfl
  · rfl
  · rfl
  all_goals rfl

theorem Lexeme.item_capital (lexeme : Lexeme) :
    lexeme.capital.item.toOption = lexeme.item.toOption.map Token.capital := by
  unfold Lexeme.item
  rw [toOption_bind, toOption_bind, Lexeme.token_capital]
  cases lexeme.token with
  | error e => rfl
  | ok token =>
      dsimp only [Except.toOption, Option.map_some, Option.bind_some]
      rw [Token.kind_capital]
      split_ifs <;> rfl

theorem ListState.next_capital (state : ListState) (lexeme : Lexeme) :
    (state.next lexeme.capital).toOption = (state.next lexeme).toOption := by
  unfold ListState.next
  rw [show lexeme.capital.kind = lexeme.kind from rfl]
  split
  · rfl
  · rfl
  · split_ifs <;> rfl
  · split_ifs <;> rfl
  · split_ifs <;> rfl
  case h_9 | h_10 => rfl
  all_goals
    split_ifs
    · rfl
    · rw [toOption_map, toOption_map, Lexeme.item_capital, Option.map_map]
      rfl

-- A list goes on only past what leaves it outside of string literals.
theorem ListState.settled_of_next {state : ListState} {lexeme : Lexeme}
    {following : Option ListState} (hsettled : lexeme.Settled)
    (h : state.next lexeme = .ok following) :
    Place.code.after lexeme.chars = .code := by
  obtain ⟨hcomment, hstring⟩ := ListState.kind_of_next h
  exact hsettled.after hcomment hstring

theorem closeList_capital {lexemes : List Lexeme} (h : ∀ lexeme ∈ lexemes, lexeme.Settled)
    (state : ListState) :
    (closeList state (lexemes.map Lexeme.capital)).toOption =
      (closeList state lexemes).toOption.map fun read =>
        (capitals .code read.1, read.2.map Lexeme.capital) := by
  induction lexemes generalizing state with
  | nil => rfl
  | cons lexeme rest ih =>
      obtain ⟨hlexeme, hrest⟩ := List.forall_mem_cons.mp h
      have hsame : (state.next lexeme.capital).toOption = (state.next lexeme).toOption.map id := by
        rw [state.next_capital, Option.map_id, id]
      rw [List.map_cons, closeList, closeList]
      rcases cases_of_toOption hsame with ⟨following, hnext, hother⟩ | ⟨e, e', hnext, hother⟩
      · rw [hnext, hother]
        cases following with
        | none => rfl
        | some following =>
            have hafter := ListState.settled_of_next hlexeme hnext
            dsimp only [id]
            rw [toOption_map, toOption_map, ih hrest, Option.map_map, Option.map_map]
            congr 1
            funext read
            simp [capitals_append, hafter, Lexeme.capital]
      · rw [hnext, hother]
        rfl

-- A line is read as the same tokens in either case.
theorem tokensOf_capital {lexemes : List Lexeme} (h : ∀ lexeme ∈ lexemes, lexeme.Settled) :
    (tokensOf (lexemes.map Lexeme.capital)).toOption =
      (tokensOf lexemes).toOption.map (List.map Token.capital) := by
  fun_induction tokensOf lexemes with
  | case1 =>
      rw [List.map_nil, tokensOf]
      rfl
  | case2 lexeme rest hkind ih =>
      have hblank : lexeme.capital.kind = .blank := hkind
      rw [List.map_cons, tokensOf_blank hblank]
      exact ih (List.forall_mem_cons.mp h).2
  | case3 lexeme rest hkind e hclose =>
      have hopening : lexeme.capital.kind = .opening := hkind
      rcases cases_of_toOption (closeList_capital (List.forall_mem_cons.mp h).2 ⟨0, .start⟩) with
        ⟨read, hread, _⟩ | ⟨_, e', _, hother⟩
      · rw [hclose] at hread
        cases hread
      · rw [List.map_cons, tokensOf_unclosed hopening hother]
        rfl
  | case4 lexeme rest hkind chars after hclose ih =>
      have hopening : lexeme.capital.kind = .opening := hkind
      obtain ⟨hlexeme, hrest⟩ := List.forall_mem_cons.mp h
      have hafter : Place.code.after lexeme.chars = .code :=
        hlexeme.after (by simp [hkind]) (by simp [hkind])
      have hother := closeList_capital hrest ⟨0, .start⟩
      rw [hclose] at hother
      rw [List.map_cons, tokensOf_opening hopening (toOption_eq_some.mp hother), toOption_map,
        toOption_map, ih fun other hmem => hrest other ((suffix_of_closeList hclose).subset hmem),
        Option.map_map, Option.map_map]
      congr 1
      funext tokens
      simp [Token.capital, Lexeme.capital, capitalized, capitals_append, hafter]
  | case5 lexeme rest hblank hopening ih =>
      obtain ⟨_, hrest⟩ := List.forall_mem_cons.mp h
      have hblank' : lexeme.capital.kind ≠ .blank := hblank
      have hopening' : lexeme.capital.kind ≠ .opening := hopening
      rw [List.map_cons, tokensOf_single hblank' hopening', toOption_bind, toOption_bind,
        Lexeme.token_capital]
      cases lexeme.token with
      | error e => rfl
      | ok token =>
          change ((tokensOf (rest.map Lexeme.capital)).map (token.capital :: ·)).toOption =
            ((tokensOf rest).map (token :: ·)).toOption.map (List.map Token.capital)
          rw [toOption_map, toOption_map, ih hrest, Option.map_map, Option.map_map]
          rfl

theorem Token.readChars_capitals (cs : List Char) :
    (Token.readChars (capitals .code cs)).toOption =
      (Token.readChars cs).toOption.map (List.map Token.capital) := by
  obtain ⟨hscan, hsettled⟩ := Lexeme.scan_capitals cs
  rw [Token.readChars, hscan, tokensOf_capital hsettled, Token.readChars]

-- A token of some line.
def Token.IsRead (token : Token) : Prop :=
  ∃ cs tokens, Token.readChars cs = .ok tokens ∧ token ∈ tokens

theorem Token.origin_of_isRead {token : Token} (h : token.IsRead) :
    ∃ lexemes, (∀ lexeme ∈ lexemes, lexeme.Settled) ∧
      (∀ lexeme ∈ lexemes, lexeme.kind = .opening ∨ lexeme.kind = .closing →
        lexeme.chars.length = 1) ∧
      ((∃ lexeme ∈ lexemes, lexeme.token = .ok token) ∨ IsListLiteral lexemes token) := by
  obtain ⟨cs, tokens, htokens, hmem⟩ := h
  exact ⟨Lexeme.scan cs, (Lexeme.scan_capitals cs).2,
    fun _ hlexeme hkind => Lexeme.length_chars_of_bracket hlexeme hkind,
    origin_of_mem_tokensOf htokens hmem⟩

-- What a token of a lexeme keeps as it is has no letters that case could change.
theorem Lexeme.capital_token {lexeme : Lexeme} {token : Token} (hsettled : lexeme.Settled)
    (htoken : lexeme.token = .ok token) (hkind : token.kind = .string ∨ token.kind = .symbol) :
    token.capital = token := by
  have hfixed (kind : TokenKind) (hnumber : lexeme.kind ≠ .number) (hword : lexeme.kind ≠ .word)
      (hcomment : lexeme.kind ≠ .comment) :
      (⟨kind, lexeme.text⟩ : Token).capital = ⟨kind, lexeme.text⟩ := by
    rw [Token.capital, ← Lexeme.text_capital, Lexeme.text, Lexeme.capital,
      hsettled.fixed hnumber hword hcomment, Lexeme.text]
  cases token_eq_ok_iff.mp htoken with
  | string hstring => exact hfixed _ (by simp [hstring]) (by simp [hstring]) (by simp [hstring])
  | symbol hsymbol =>
      refine hfixed _ ?_ ?_ ?_
      all_goals
        intro hother
        simp [hother] at hsymbol
  | _ => simp [Token.ofKeyword] at hkind

-- Case does not matter in a string literal, and a symbol is no letter.
theorem Token.capital_eq_self {token : Token} (hread : token.IsRead)
    (hkind : token.kind = .string ∨ token.kind = .symbol) : token.capital = token := by
  obtain ⟨lexemes, hsettled, _, ⟨lexeme, hlexeme, htoken⟩ | hlist⟩ := origin_of_isRead hread
  · exact Lexeme.capital_token (hsettled lexeme hlexeme) htoken hkind
  · obtain ⟨_, _, _, _, _, _, _, _, rfl⟩ := hlist
    simp at hkind

-- What stands between the brackets of a list begins outside of string literals.
theorem Token.innerChars_capital {token : Token} (hread : token.IsRead)
    (hkind : token.kind = .list) :
    token.capital.innerChars = capitals .code token.innerChars := by
  obtain ⟨lexemes, hsettled, hbracket, ⟨lexeme, _, htoken⟩ | hlist⟩ := origin_of_isRead hread
  · exact absurd hkind (Lexeme.token_kind_ne_list htoken)
  · obtain ⟨opening, body, _, closing, hrun, hopening, _, hclosing, rfl⟩ := hlist
    have hmemOpening : opening ∈ lexemes := hrun.subset (by simp)
    have hlenOpening := hbracket opening hmemOpening (.inl hopening)
    have hlenClosing := hbracket closing (hrun.subset (by simp)) (.inr hclosing)
    have hafter : Place.code.after opening.chars = .code :=
      (hsettled opening hmemOpening).after (by simp [hopening]) (by simp [hopening])
    rw [innerChars, innerChars, Token.capital, toList_capitalized, String.toList_ofList,
      capitals_append, hafter, capitals_append, inner_of_brackets hlenOpening hlenClosing,
      inner_of_brackets]
    · rwa [length_capitals]
    · rwa [length_capitals]

-- The items of a list are the same in either case.
theorem Token.items_capital {token : Token} (hread : token.IsRead) (hkind : token.kind = .list) :
    token.capital.items.toOption = token.items.toOption.map (List.map Token.capital) := by
  have hfilter (tokens : List Token) :
      (tokens.map Token.capital).filter (fun item => item.kind ≠ .symbol) =
        (tokens.filter fun item => item.kind ≠ .symbol).map Token.capital := by
    rw [List.filter_map]
    rfl
  rw [items, items, toOption_map, toOption_map, innerChars_capital hread hkind, readChars_capitals,
    Option.map_map, Option.map_map]
  exact congrArg (Option.map · _) (funext hfilter)

end LineScript
