import LineScript.Proofs.Token.Printing

namespace LineScript

-- Lexemes that make one value, which is what a list takes in between two commas.
def IsElement (lexemes : List Lexeme) (token : Token) : Prop :=
  Reading lexemes [token] ∧ token.kind ∈ Grammar.anyValue

section

variable {position : ListPosition} {lexemes rest : List Lexeme} {items : List Token}

theorem ListBody.after_blanks (hblanks : Reading lexemes [])
    (hrest : ListBody position rest items) : ListBody position (lexemes ++ rest) items := by
  generalize hnone : ([] : List Token) = tokens at hblanks
  induction hblanks with
  | done => exact hrest
  | blank hkind _ ih => exact .blank hkind (ih hnone)
  | token => cases hnone

-- An element can stand wherever a list takes one, in front of anything that goes on behind it.
theorem IsElement.listBody {token : Token} (h : IsElement lexemes token)
    (hposition : position ≠ .item) (hrest : ListBody .item rest items) :
    ListBody position (lexemes ++ rest) (token :: items) := by
  obtain ⟨hreading, hvalue⟩ := h
  generalize hsingle : [token] = tokens at hreading
  induction hreading with
  | done => cases hsingle
  | blank hkind _ ih => exact .blank hkind (ih hsingle)
  | @token own later token' tokens hspells hlater ih =>
      cases hsingle
      have hbehind := ListBody.after_blanks hlater hrest
      cases hspells with
      | single _ _ htoken =>
          obtain ⟨hscalar, hitem⟩ := Lexeme.item_iff.mpr ⟨htoken, hvalue⟩
          exact .scalar hposition hscalar hitem hbehind
      | list hopening hbody hclosing =>
          simpa using ListBody.list hposition hopening hbody hclosing hbehind

end

namespace Lexeme

theorem stopsBefore_of_ended {lexeme : Lexeme} (h : lexeme.Ended) {c : Char}
    (hc : c = ',' ∨ c = ')') : lexeme.stopsBefore c = true := by
  have hclasses : isBlankChar c = false ∧ continuesWord c = false ∧ continuesNumber c = false := by
    rcases hc with rfl | rfl <;> decide
  rcases h.stopsBefore hclasses.2.1 hclasses.2.2 with hblank | hstops
  · simp [stopsBefore, hblank, hclasses.1]
  · exact hstops

theorem scan_opening (rest : List Char) : scan ('(' :: rest) = ⟨.opening, ['(']⟩ :: scan rest := by
  rw [scan]
  rfl

theorem scan_closing (rest : List Char) : scan (')' :: rest) = ⟨.closing, [')']⟩ :: scan rest := by
  rw [scan]
  rfl

theorem scan_comma (rest : List Char) : scan (',' :: rest) = ⟨.comma, [',']⟩ :: scan rest := by
  rw [scan]
  rfl

end Lexeme

theorem IsElement.ended {lexemes : List Lexeme} {token : Token} (h : IsElement lexemes token) :
    ∀ lexeme ∈ lexemes, lexeme.Ended := by
  obtain ⟨hreading, hvalue⟩ := h
  refine hreading.ended (List.forall_mem_singleton.mpr fun hkind => ?_)
  simp [hkind, Grammar.anyValue] at hvalue

theorem isElement_of_readSingle {text : String} {token : Token}
    (h : Token.readSingle text = .ok token) (hvalue : token.kind ∈ Grammar.anyValue) :
    IsElement (Lexeme.scan text.toList) token :=
  ⟨reading_of_tokensOf (Token.readSingle_eq_ok_iff.mp h), hvalue⟩

-- Texts that hold one value each, with commas between them, make the body of a list.
theorem exists_body_of_parts {position : ListPosition} (hposition : position ≠ .item)
    {elements : List (List Char)} {tokens : List Token}
    (h : List.Forall₂ (fun element token => IsElement (Lexeme.scan element) token) elements tokens)
    (hne : elements ≠ []) :
    ∃ items, ListBody position (Lexeme.scan ([','].intercalate elements)) items ∧
      items.filter (fun item => item.kind ≠ .symbol) = tokens := by
  induction h generalizing position with
  | nil => exact absurd rfl hne
  | @cons element token elements tokens helement hrest ih =>
      have hsymbol : token.kind ≠ .symbol := by
        intro hkind
        have hvalue := helement.2
        simp [hkind, Grammar.anyValue] at hvalue
      cases hrest with
      | nil =>
          have hbody := helement.listBody hposition (.done (by simp))
          exact ⟨[token], by simpa using hbody, by simp [hsymbol]⟩
      | cons hsecond hlater =>
          obtain ⟨items, hbody, hitems⟩ := @ih .separator (by simp) (by simp)
          have hcomma := @ListBody.comma ⟨.comma, [',']⟩ _ _ rfl hbody
          refine ⟨token :: ⟨.symbol, ","⟩ :: items, ?_, by simpa [hsymbol] using hitems⟩
          rw [List.intercalate_cons_cons, List.append_assoc, List.singleton_append,
            Lexeme.scan_append_of_stops, Lexeme.scan_comma]
          · exact helement.listBody hposition hcomma
          · rintro lexeme hlexeme c ⟨⟩
            exact Lexeme.stopsBefore_of_ended (helement.ended lexeme hlexeme) (.inl rfl)

-- So do the texts of any number of elements, none included.
theorem exists_body_of_elements {elements : List String} {tokens : List Token}
    (h : List.Forall₂ (fun element token =>
      Token.readSingle element = .ok token ∧ token.kind ∈ Grammar.anyValue) elements tokens) :
    ∃ items, ListBody .start (Lexeme.scan (",".intercalate elements).toList) items ∧
      items.filter (fun item => item.kind ≠ .symbol) = tokens := by
  have hparts : List.Forall₂ (fun part token => IsElement (Lexeme.scan part) token)
      (elements.map String.toList) tokens :=
    List.forall₂_map_left_iff.mpr (h.imp fun _ _ h => isElement_of_readSingle h.1 h.2)
  rw [String.toList_intercalate]
  cases elements with
  | nil =>
      cases hparts
      exact ⟨[], by simpa [Lexeme.scan] using ListBody.done (by simp), rfl⟩
  | cons => exact exists_body_of_parts (by simp) hparts (by simp)

section

variable {cs : List Char} {items : List Token}

-- The brackets around a body make it a list, whose items are read from the body again.
theorem readChars_of_body (hbody : ListBody .start (Lexeme.scan cs) items) :
    Token.readChars ('(' :: (cs ++ [')'])) =
      .ok [⟨.list, String.ofList ('(' :: (cs ++ [')']))⟩] := by
  have hscan : Lexeme.scan ('(' :: (cs ++ [')'])) =
      ⟨.opening, ['(']⟩ :: (Lexeme.scan cs ++ [⟨.closing, [')']⟩]) := by
    rw [Lexeme.scan_opening, Lexeme.scan_append_of_stops, Lexeme.scan_closing, Lexeme.scan]
    rintro lexeme hlexeme c ⟨⟩
    exact Lexeme.stopsBefore_of_ended (hbody.ended lexeme hlexeme) (.inr rfl)
  have hspells := @Spells.list ⟨.opening, ['(']⟩ ⟨.closing, [')']⟩ _ _ rfl hbody rfl
  rw [Token.readChars, hscan, hspells.tokensOf_eq, Lexeme.flatMap_chars_scan]
  rfl

theorem items_of_body (hbody : ListBody .start (Lexeme.scan cs) items) :
    Token.items ⟨.list, String.ofList ('(' :: (cs ++ [')']))⟩ =
      .ok (items.filter fun item => item.kind ≠ .symbol) := by
  have hinner : Token.innerChars ⟨.list, String.ofList ('(' :: (cs ++ [')']))⟩ = cs := by
    simp [Token.innerChars, Text.inner]
  rw [Token.items, hinner, Token.readChars, hbody.reading.tokensOf_eq]
  rfl

end

-- What stands in front of the first comma of a list, or behind the last thing read in it.
def ListPosition.Opens (position : ListPosition) (first : List Lexeme)
    (others : List (Lexeme × List Lexeme)) : Prop :=
  match position with
  | .start => (∃ token, IsElement first token) ∨ Reading first [] ∧ others = []
  | .item => Reading first []
  | .separator => ∃ token, IsElement first token

theorem ListPosition.opens_of_element {position : ListPosition} {first : List Lexeme}
    {others : List (Lexeme × List Lexeme)} {token : Token} (hposition : position ≠ .item)
    (h : IsElement first token) : position.Opens first others := by
  cases position with
  | start => exact .inl ⟨token, h⟩
  | item => exact absurd rfl hposition
  | separator => exact ⟨token, h⟩

-- The body of a list falls into elements at the commas that stand in no inner list.
theorem ListBody.exists_elements {position : ListPosition} {body : List Lexeme} {items : List Token}
    (hbody : ListBody position body items) :
    ∃ first others, body = first ++ others.flatMap (fun part => part.1 :: part.2) ∧
      position.Opens first others ∧
      ∀ part ∈ others, part.1.kind = .comma ∧ ∃ token, IsElement part.2 token := by
  induction hbody with
  | @done position hposition =>
      refine ⟨[], [], rfl, ?_, by simp⟩
      cases position with
      | start => exact .inr ⟨.done, rfl⟩
      | item => exact .done
      | separator => exact absurd rfl hposition
  | @blank position lexeme body items hkind _ ih =>
      obtain ⟨first, others, rfl, hopens, hothers⟩ := ih
      refine ⟨lexeme :: first, others, rfl, ?_, hothers⟩
      cases position with
      | start =>
          rcases hopens with ⟨token, hreading, hvalue⟩ | ⟨hblanks, hnone⟩
          · exact .inl ⟨token, .blank hkind hreading, hvalue⟩
          · exact .inr ⟨.blank hkind hblanks, hnone⟩
      | item => exact .blank hkind hopens
      | separator =>
          obtain ⟨token, hreading, hvalue⟩ := hopens
          exact ⟨token, .blank hkind hreading, hvalue⟩
  | @comma lexeme body items hkind _ ih =>
      obtain ⟨first, others, rfl, helement, hothers⟩ := ih
      exact ⟨[], (lexeme, first) :: others, rfl, .done,
        List.forall_mem_cons.mpr ⟨⟨hkind, helement⟩, hothers⟩⟩
  | @scalar position lexeme token body items hposition hscalar hitem _ ih =>
      obtain ⟨first, others, rfl, hblanks, hothers⟩ := ih
      obtain ⟨hblank, hopening⟩ := Lexeme.kind_of_isScalar hscalar
      obtain ⟨htoken, hvalue⟩ := Lexeme.item_iff.mp ⟨hscalar, hitem⟩
      have helement : IsElement ([lexeme] ++ first) token :=
        ⟨.token (.single hblank hopening htoken) hblanks, hvalue⟩
      exact ⟨_, others, rfl, ListPosition.opens_of_element hposition helement, hothers⟩
  | @list position opening closing inner body innerItems items hposition hopening hinner hclosing
      _ _ ih =>
      obtain ⟨first, others, rfl, hblanks, hothers⟩ := ih
      have helement := And.intro (Reading.token (.list hopening hinner hclosing) hblanks)
        (show TokenKind.list ∈ Grammar.anyValue by simp [Grammar.anyValue])
      exact ⟨_, others, by simp, ListPosition.opens_of_element hposition helement, hothers⟩

theorem IsElement.readSingle {cs : List Char} {lexemes : List Lexeme} {token : Token}
    (h : IsElement lexemes token) (hrun : lexemes <:+: Lexeme.scan cs) :
    Token.readSingle (String.ofList (lexemes.flatMap Lexeme.chars)) = .ok token := by
  rw [Token.readSingle_eq_ok_iff, Token.readAll, String.toList_ofList, Token.readChars,
    Lexeme.scan_flatMap_of_run hrun, h.1.tokensOf_eq]

theorem intercalate_eq_flatMap {α : Type} (mark : α) (first : List α) (others : List (List α)) :
    [mark].intercalate (first :: others) = first ++ others.flatMap (mark :: ·) := by
  induction others generalizing first with
  | nil => simp
  | cons second later ih =>
      rw [List.intercalate_cons_cons, ih]
      simp

-- The characters of a body, cut at the commas between its elements.
theorem chars_of_parts {first : List Lexeme} {others : List (Lexeme × List Lexeme)}
    (hcomma : ∀ part ∈ others, part.1.chars = [',']) :
    (first ++ others.flatMap fun part => part.1 :: part.2).flatMap Lexeme.chars =
      [','].intercalate (first.flatMap Lexeme.chars ::
        others.map fun part => part.2.flatMap Lexeme.chars) := by
  rw [intercalate_eq_flatMap, List.flatMap_append, List.flatMap_map]
  congr 1
  induction others with
  | nil => rfl
  | cons part later ih =>
      obtain ⟨hpart, hlater⟩ := List.forall_mem_cons.mp hcomma
      rw [List.flatMap_cons, List.flatMap_append, ih hlater, List.flatMap_cons, List.flatMap_cons,
        hpart]
      rfl

theorem Reading.blank_chars {lexemes : List Lexeme} (h : Reading lexemes [])
    (hshaped : ∀ lexeme ∈ lexemes, lexeme.Shaped) :
    ∀ c ∈ lexemes.flatMap Lexeme.chars, c = ' ' ∨ c = '\t' := by
  generalize hnone : ([] : List Token) = tokens at h
  induction h with
  | done => simp
  | @blank lexeme rest tokens hkind _ ih =>
      obtain ⟨hfirst, hrest⟩ := List.forall_mem_cons.mp hshaped
      intro c hc
      rw [List.flatMap_cons] at hc
      exact (List.mem_append.mp hc).elim (hfirst.space_or_tab hkind c) (ih hrest hnone c)
  | token => cases hnone

-- Every list of a line is a pair of brackets with nothing but blanks or with elements in it.
theorem Spells.list_text {cs : List Char} {own : List Lexeme} {token : Token}
    (h : Spells own token) (hrun : own <:+: Lexeme.scan cs) (hlist : token.kind = .list) :
    (∃ blanks : List Char, (∀ c ∈ blanks, c = ' ' ∨ c = '\t') ∧
      token.text.toList = '(' :: (blanks ++ [')'])) ∨
    ∃ elements : List (List Char),
      (∀ element ∈ elements, ∃ item, Token.readSingle (String.ofList element) = .ok item ∧
        item.kind ∈ Grammar.anyValue) ∧
      token.text.toList = '(' :: ([','].intercalate elements ++ [')']) := by
  cases h with
  | single _ _ htoken => exact absurd hlist (Lexeme.token_kind_ne_list htoken)
  | @list opening closing body items hopening hbody hclosing =>
      have hshaped : ∀ lexeme ∈ opening :: (body ++ [closing]), lexeme.Shaped := fun lexeme hmem =>
        Lexeme.shaped_of_mem_scan (hrun.subset hmem)
      have hfirst := (hshaped opening (by simp)).opening hopening
      have hlast := (hshaped closing (by simp)).closing hclosing
      rw [hfirst, hlast, String.toList_ofList, List.singleton_append]
      obtain ⟨first, others, rfl, hopens, hothers⟩ := hbody.exists_elements
      have hparts : ∀ part ∈ others, part.1 :: part.2 <:+:
          others.flatMap fun part => part.1 :: part.2 := by
        intro part hpart
        rw [List.flatMap_def]
        exact List.infix_of_mem_flatten (List.mem_map_of_mem hpart)
      have hbehind : (others.flatMap fun part => part.1 :: part.2) <:+:
          opening :: ((first ++ others.flatMap fun part => part.1 :: part.2) ++ [closing]) :=
        ⟨opening :: first, [closing], by simp⟩
      have hfront : first <:+:
          opening :: ((first ++ others.flatMap fun part => part.1 :: part.2) ++ [closing]) :=
        ⟨[opening], (others.flatMap fun part => part.1 :: part.2) ++ [closing], by simp⟩
      rcases hopens with ⟨item, helement⟩ | ⟨hblanks, rfl⟩
      · refine .inr ⟨first.flatMap Lexeme.chars ::
          others.map fun part => part.2.flatMap Lexeme.chars, ?_, ?_⟩
        · refine List.forall_mem_cons.mpr
            ⟨⟨item, helement.readSingle (hfront.trans hrun), helement.2⟩, fun element hmem => ?_⟩
          obtain ⟨part, hpart, rfl⟩ := List.mem_map.mp hmem
          obtain ⟨_, item, hitem⟩ := hothers part hpart
          have hwithin := (List.suffix_cons part.1 part.2).isInfix.trans (hparts part hpart)
          exact ⟨item, hitem.readSingle ((hwithin.trans hbehind).trans hrun), hitem.2⟩
        · rw [chars_of_parts]
          intro part hpart
          have hmem := hbehind.subset ((hparts part hpart).subset List.mem_cons_self)
          exact (hshaped part.1 hmem).comma (hothers part hpart).1
      · refine .inl ⟨first.flatMap Lexeme.chars, hblanks.blank_chars ?_, by simp⟩
        exact fun lexeme hmem => hshaped lexeme (by simp [hmem])

-- A list literal is what its elements are between brackets and commas. It denotes the list of their
-- values, or fails as the first of them that fails, and there are no other list literals, but that
-- one without elements may have blanks in it.
theorem Token.list_literals_denote_lists :
    (∀ (elements : List String) (tokens : List Token),
      List.Forall₂ (fun element token =>
        Token.readSingle element = .ok token ∧ token.kind ∈ Grammar.anyValue) elements tokens →
      Token.readSingle ("(" ++ ",".intercalate elements ++ ")") =
        .ok ⟨.list, "(" ++ ",".intercalate elements ++ ")"⟩ ∧
      ∀ memory : Memory,
        (∀ values, List.Forall₂ (fun token value => memory.evaluate token = .ok value)
            tokens values →
          memory.evaluate ⟨.list, "(" ++ ",".intercalate elements ++ ")"⟩ =
            .ok (.list values)) ∧
        ∀ before token after e, tokens = before ++ token :: after →
          (∀ other ∈ before, ∃ value, memory.evaluate other = .ok value) →
          memory.evaluate token = .error e →
          memory.evaluate ⟨.list, "(" ++ ",".intercalate elements ++ ")"⟩ = .error e) ∧
    ∀ line tokens token, Token.readAll line = .ok tokens → token ∈ tokens → token.kind = .list →
      (∃ blanks : String, (∀ c ∈ blanks.toList, c = ' ' ∨ c = '\t') ∧
        token.text = "(" ++ blanks ++ ")") ∨
      ∃ elements : List String,
        (∀ element ∈ elements, ∃ item, Token.readSingle element = .ok item ∧
          item.kind ∈ Grammar.anyValue) ∧
        token.text = "(" ++ ",".intercalate elements ++ ")" := by
  constructor
  · intro elements tokens helements
    obtain ⟨items, hbody, rfl⟩ := exists_body_of_elements helements
    have htext : "(" ++ ",".intercalate elements ++ ")" =
        String.ofList ('(' :: ((",".intercalate elements).toList ++ [')'])) := by
      rw [← String.toList_inj]
      simp
    have hvalue (memory : Memory) :
        memory.evaluate ⟨.list, "(" ++ ",".intercalate elements ++ ")"⟩ =
          ((items.filter fun item => item.kind ≠ .symbol).mapM memory.evaluate).map .list := by
      rw [Memory.evaluate_list rfl, htext, items_of_body hbody]
    refine ⟨?_, fun memory => ⟨fun values hvalues => ?_, fun before token after e hsplit => ?_⟩⟩
    · rw [htext, Token.readSingle_eq_ok_iff, Token.readAll, String.toList_ofList,
        readChars_of_body hbody]
    · rw [hvalue, mapM_eq_ok_iff.mpr hvalues]
      rfl
    · intro hbefore htoken
      rw [hvalue, hsplit, mapM_of_first_error hbefore htoken]
      rfl
  · intro line tokens token hread hmem hlist
    obtain ⟨own, hrun, hspells⟩ := (reading_of_tokensOf hread).exists_of_mem hmem
    rcases hspells.list_text hrun hlist with ⟨blanks, hblanks, htext⟩ | ⟨elements, hitems, htext⟩
    · refine .inl ⟨String.ofList blanks, by simpa using hblanks, ?_⟩
      rw [← String.toList_inj, htext]
      simp
    · refine .inr ⟨elements.map String.ofList, by simpa using hitems, ?_⟩
      rw [← String.toList_inj, htext]
      simp [Function.comp_def]

-- The comma and the bracket in the string separate nothing.
def elementList : String := "( -1,\"a,)\",x@0\t,( ))"

def elementTexts : List String := [" -1", "\"a,)\"", "x@0\t", "( )"]

def elementTokens : List Token :=
  [⟨.number, "-1"⟩, ⟨.string, "\"a,)\""⟩, ⟨.name, "x@0"⟩, ⟨.list, "( )"⟩]

-- The third element fails as long as there is no list in `x`.
theorem Token.element_texts_make_list :
    Token.readSingle elementList = .ok ⟨.list, elementList⟩ ∧
    (Memory.fresh.store "x" (.list [.null])).evaluate ⟨.list, elementList⟩ =
      .ok (.list [.integer (-1), .string "a,)", .null, .list []]) ∧
    Memory.fresh.evaluate ⟨.list, elementList⟩ = .error (.notIndexable "x") ∧
    ((∃ blanks : String, (∀ c ∈ blanks.toList, c = ' ' ∨ c = '\t') ∧
        elementList = "(" ++ blanks ++ ")") ∨
      ∃ elements : List String,
        (∀ element ∈ elements, ∃ item, Token.readSingle element = .ok item ∧
          item.kind ∈ Grammar.anyValue) ∧
        elementList = "(" ++ ",".intercalate elements ++ ")") := by
  have helements : List.Forall₂ (fun element token =>
      Token.readSingle element = .ok token ∧ token.kind ∈ Grammar.anyValue)
      elementTexts elementTokens := by
    unfold elementTexts elementTokens
    repeat' constructor
    all_goals decide +kernel
  obtain ⟨hsingle, hvalue⟩ := Token.list_literals_denote_lists.1 _ _ helements
  have hread : Token.readAll elementList =
      .ok [⟨.list, elementList⟩] := by
    decide +kernel
  have hnumber (memory : Memory) :
      memory.evaluate ⟨.number, "-1"⟩ = .ok (.integer (-1)) := by
    rw [Memory.evaluate]
    rfl
  have hstring (memory : Memory) :
      memory.evaluate ⟨.string, "\"a,)\""⟩ = .ok (.string "a,)") := by
    rw [Memory.evaluate]
    rfl
  have hempty (memory : Memory) : memory.evaluate ⟨.list, "( )"⟩ = .ok (.list []) := by
    have hitems : Token.items ⟨.list, "( )"⟩ = .ok [] := by decide +kernel
    rw [Memory.evaluate_list rfl, hitems]
    rfl
  have hfound : (Memory.fresh.store "x" (.list [.null])).evaluate ⟨.name, "x@0"⟩ = .ok .null := by
    rw [Memory.evaluate]
    rfl
  have hmissing : Memory.fresh.evaluate ⟨.name, "x@0"⟩ = .error (.notIndexable "x") := by
    rw [Memory.evaluate]
    rfl
  refine ⟨hsingle, (hvalue _).1 _ ?_, ?_, ?_⟩
  · exact .cons (hnumber _) (.cons (hstring _) (.cons hfound (.cons (hempty _) .nil)))
  · refine (hvalue .fresh).2 [⟨.number, "-1"⟩, ⟨.string, "\"a,)\""⟩] ⟨.name, "x@0"⟩
      [⟨.list, "( )"⟩] _ rfl ?_ hmissing
    exact List.forall_mem_cons.mpr ⟨⟨_, hnumber _⟩, List.forall_mem_singleton.mpr ⟨_, hstring _⟩⟩
  · exact Token.list_literals_denote_lists.2 _ _ ⟨.list, elementList⟩ hread (by simp) rfl

end LineScript
