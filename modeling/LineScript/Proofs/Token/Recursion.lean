import LineScript.Proofs.Token.Spelling

namespace LineScript

-- A computation that may make only so many calls. It has no outcome if they do not suffice.
abbrev Bounded (ε α : Type) := ExceptT ε Option α

namespace Bounded

variable {ε ε' α β : Type}

def of (outcome : Except ε α) : Bounded ε α := ExceptT.mk (some outcome)

def spent : Bounded ε α := ExceptT.mk none

theorem bind_eq_of {x : Bounded ε α} {outcome : Except ε α} {f : α → Bounded ε β}
    {g : α → Except ε β} (hx : x = of outcome) (hf : ∀ a, outcome = .ok a → f a = of (g a)) :
    x >>= f = of (outcome.bind g) := by
  subst hx
  cases outcome with
  | error e => rfl
  | ok a => exact hf a rfl

theorem map_eq_of {x : Bounded ε α} {outcome : Except ε α} (hx : x = of outcome) (f : α → β) :
    f <$> x = of (outcome.map f) := by
  subst hx
  cases outcome <;> rfl

theorem adapt_eq_of {x : Bounded ε α} {outcome : Except ε α} (hx : x = of outcome) (f : ε → ε') :
    x.adapt f = of (outcome.mapError f) := by
  subst hx
  rfl

theorem mapM_eq_of {f : α → Bounded ε β} {g : α → Except ε β} {items : List α}
    (h : ∀ item ∈ items, f item = of (g item)) : items.mapM f = of (items.mapM g) := by
  induction items with
  | nil => rfl
  | cons item rest ih =>
      obtain ⟨hitem, hrest⟩ := List.forall_mem_cons.mp h
      rw [List.mapM_cons, List.mapM_cons]
      apply bind_eq_of hitem
      intro value _
      apply bind_eq_of (ih hrest)
      intro values _
      rfl

end Bounded

section Drawing

variable {cs rest : List Char} {lexeme : Lexeme}

-- The next lexeme that is not blank, and what follows it.
def draw (cs : List Char) : Option (Lexeme × List Char) :=
  match cs.dropWhile Lexeme.isBlankChar with
  | [] => none
  | c :: rest => some (Lexeme.next c rest)

theorem exists_of_draw (h : draw cs = some (lexeme, rest)) :
    ∃ c after, cs.dropWhile Lexeme.isBlankChar = c :: after ∧ Lexeme.isBlankChar c = false ∧
      Lexeme.next c after = (lexeme, rest) := by
  unfold draw at h
  split at h
  · cases h
  · rename_i c after hdrop
    have hhead := List.head?_dropWhile_not Lexeme.isBlankChar cs
    rw [hdrop] at hhead
    exact ⟨c, after, hdrop, by simpa using hhead, Option.some.inj h⟩

-- What is drawn has at least one character, and blanks alone are passed over before it.
theorem chars_of_draw (h : draw cs = some (lexeme, rest)) :
    lexeme.chars ≠ [] ∧ cs = cs.takeWhile Lexeme.isBlankChar ++ (lexeme.chars ++ rest) := by
  obtain ⟨c, after, hdrop, -, hnext⟩ := exists_of_draw h
  have hchars := Lexeme.next_chars c after
  have hne := Lexeme.next_chars_ne_nil c after
  rw [hnext] at hchars hne
  refine ⟨hne, ?_⟩
  rw [hchars, ← hdrop, List.takeWhile_append_dropWhile]

theorem length_lt_of_draw (h : draw cs = some (lexeme, rest)) : rest.length < cs.length := by
  obtain ⟨hne, hcs⟩ := chars_of_draw h
  have hpos := List.length_pos_iff.mpr hne
  rw [hcs, List.length_append, List.length_append]
  omega

theorem kind_of_draw (h : draw cs = some (lexeme, rest)) : lexeme.kind ≠ .blank := by
  obtain ⟨c, after, -, hblank, hnext⟩ := exists_of_draw h
  have hkind : (Lexeme.next c after).1.kind ≠ .blank := by
    fun_cases Lexeme.next c after <;> simp_all
  rwa [hnext] at hkind

theorem scan_dropWhile (cs : List Char) :
    ∃ blanks, (∀ blank ∈ blanks, blank.kind = .blank) ∧
      Lexeme.scan cs = blanks ++ Lexeme.scan (cs.dropWhile Lexeme.isBlankChar) := by
  cases cs with
  | nil => exact ⟨[], by simp, rfl⟩
  | cons c rest =>
      by_cases hblank : Lexeme.isBlankChar c = true
      · refine ⟨[⟨.blank, c :: rest.takeWhile Lexeme.isBlankChar⟩], by simp, ?_⟩
        rw [Lexeme.scan, Lexeme.next, if_pos hblank, List.dropWhile_cons_of_pos hblank]
        rfl
      · refine ⟨[], by simp, ?_⟩
        rw [List.dropWhile_cons_of_neg hblank, List.nil_append]

-- A reading of lexemes that takes no notice of blank ones may draw instead.
theorem reading_draw {α : Type} (read : List Lexeme → α)
    (hread : ∀ blank lexemes, blank.kind = .blank → read (blank :: lexemes) = read lexemes)
    (cs : List Char) :
    read (Lexeme.scan cs) =
      match draw cs with
      | none => read []
      | some (lexeme, rest) => read (lexeme :: Lexeme.scan rest) := by
  obtain ⟨blanks, hblanks, hscan⟩ := scan_dropWhile cs
  have hskip (lexemes : List Lexeme) : read (blanks ++ lexemes) = read lexemes := by
    clear hscan
    induction blanks with
    | nil => rfl
    | cons blank others ih =>
        obtain ⟨hblank, hothers⟩ := List.forall_mem_cons.mp hblanks
        rw [List.cons_append, hread blank _ hblank, ih hothers]
  rw [hscan, hskip, draw]
  cases cs.dropWhile Lexeme.isBlankChar with
  | nil => rw [Lexeme.scan]
  | cons c after => rw [Lexeme.scan]

end Drawing

section Lists

variable {state : ListState} {lexeme : Lexeme} {lexemes : List Lexeme} {cs : List Char}

-- The text left behind the end of a list.
def behindList (state : ListState) (lexemes : List Lexeme) : Except CompileError (List Char) :=
  (closeList state lexemes).map fun read => read.2.flatMap Lexeme.chars

theorem behindList_of_error {e : CompileError} (hnext : state.next lexeme = .error e) :
    behindList state (lexeme :: lexemes) = .error e := by
  rw [behindList, closeList, hnext]
  rfl

theorem behindList_of_end (hnext : state.next lexeme = .ok none) :
    behindList state (lexeme :: lexemes) = .ok (lexemes.flatMap Lexeme.chars) := by
  rw [behindList, closeList, hnext]
  rfl

theorem behindList_of_next {following : ListState}
    (hnext : state.next lexeme = .ok (some following)) :
    behindList state (lexeme :: lexemes) = behindList following lexemes := by
  rw [behindList, behindList, closeList_eq_of_next hnext]
  cases closeList following lexemes <;> rfl

theorem behindList_draw (state : ListState) (cs : List Char) :
    behindList state (Lexeme.scan cs) =
      match draw cs with
      | none => .error (.missingTerminator ')')
      | some (lexeme, rest) => behindList state (lexeme :: Lexeme.scan rest) := by
  have hblank (blank : Lexeme) (lexemes : List Lexeme) (hkind : blank.kind = .blank) :
      behindList state (blank :: lexemes) = behindList state lexemes := by
    apply behindList_of_next
    simp [ListState.next, hkind]
  rw [reading_draw (behindList state) hblank]
  rfl

-- With one more list around it, a list goes on as before, and its end is the end of an item there.
theorem ListState.next_around (depth : Nat) (position : ListPosition) (lexeme : Lexeme) :
    (⟨depth + 1, position⟩ : ListState).next lexeme =
      ((⟨depth, position⟩ : ListState).next lexeme).map fun following =>
        some (following.elim ⟨0, .item⟩ fun state => ⟨state.depth + 1, state.position⟩) := by
  by_cases hscalar : lexeme.isScalar = true
  · rw [next_scalar hscalar, next_scalar hscalar]
    split_ifs
    · rfl
    · cases lexeme.item <;> rfl
  · unfold Lexeme.isScalar at hscalar
    unfold ListState.next
    cases hkind : lexeme.kind with
    | number | word | string => simp [hkind] at hscalar
    | blank | stray | comment | symbol => rfl
    | opening | comma => by_cases hitem : position = .item <;> simp [hitem, Except.map]
    | closing =>
        by_cases hseparator : position = .separator
        · simp [hseparator, Except.map]
        · cases depth with
          | zero => simp [hseparator, Except.map]
          | succ depth => simp [hseparator, Except.map]

theorem behindList_around (depth : Nat) (position : ListPosition) (lexemes : List Lexeme) :
    behindList ⟨depth + 1, position⟩ lexemes =
      (closeList ⟨depth, position⟩ lexemes).bind fun read => behindList ⟨0, .item⟩ read.2 := by
  induction lexemes generalizing depth position with
  | nil => rfl
  | cons lexeme rest ih =>
      have haround := ListState.next_around depth position lexeme
      rw [closeList]
      cases hnext : (⟨depth, position⟩ : ListState).next lexeme with
      | error e =>
          rw [hnext] at haround
          rw [behindList_of_error haround]
          rfl
      | ok following =>
          rw [hnext] at haround
          rw [behindList_of_next haround]
          cases following with
          | none => rfl
          | some state =>
              rw [Option.elim_some, ih]
              dsimp only
              cases closeList state rest <;> rfl

theorem chars_of_closeList {chars : List Char}
    (h : closeList state (Lexeme.scan cs) = .ok (chars, lexemes)) :
    chars ++ lexemes.flatMap Lexeme.chars = cs := by
  rw [closeList_chars h, Lexeme.flatMap_chars_scan]

-- Behind a list the text is scanned as before.
theorem scan_of_closeList {chars : List Char}
    (h : closeList state (Lexeme.scan cs) = .ok (chars, lexemes)) :
    Lexeme.scan (lexemes.flatMap Lexeme.chars) = lexemes := by
  obtain ⟨before, hbefore⟩ := suffix_of_closeList h
  exact Lexeme.scan_flatMap_of_append_right hbefore.symm

-- An inner list is read to its end, and then the outer one from there.
theorem behindList_inner (cs : List Char) :
    behindList ⟨1, .start⟩ (Lexeme.scan cs) =
      (behindList ⟨0, .start⟩ (Lexeme.scan cs)).bind fun after =>
        behindList ⟨0, .item⟩ (Lexeme.scan after) := by
  rw [behindList_around, behindList.eq_1 ⟨0, .start⟩]
  cases hclose : closeList ⟨0, .start⟩ (Lexeme.scan cs) with
  | error e => rfl
  | ok read =>
      have hscan := scan_of_closeList hclose
      simp only [Except.bind, Except.map, hscan]

end Lists

section Tokens

variable {lexeme : Lexeme} {cs rest after : List Char}

-- The list between an opening bracket and what is left behind its closing one.
def listToken (opening : Lexeme) (rest after : List Char) : Token :=
  ⟨.list, String.ofList (opening.chars ++ rest.take (rest.length - after.length))⟩

-- The token that starts with a lexeme, and what follows that token.
def tokenFrom (lexeme : Lexeme) (rest : List Char) : Except CompileError (Token × List Char) :=
  if lexeme.kind = .opening then
    (behindList ⟨0, .start⟩ (Lexeme.scan rest)).map fun after =>
      (listToken lexeme rest after, after)
  else lexeme.token.map fun token => (token, rest)

theorem take_of_closeList {state : ListState} {chars : List Char} {lexemes : List Lexeme}
    (h : closeList state (Lexeme.scan cs) = .ok (chars, lexemes)) :
    cs.take (cs.length - (lexemes.flatMap Lexeme.chars).length) = chars := by
  rw [← chars_of_closeList h, List.length_append, Nat.add_sub_cancel, List.take_left]

theorem length_le_of_tokenFrom {token : Token} (h : tokenFrom lexeme rest = .ok (token, after)) :
    after.length ≤ rest.length := by
  unfold tokenFrom at h
  split_ifs at h
  · obtain ⟨left, hleft, hsame⟩ := map_eq_ok.mp h
    cases hsame
    obtain ⟨read, hread, rfl⟩ := map_eq_ok.mp hleft
    rw [← chars_of_closeList hread, List.length_append]
    omega
  · obtain ⟨_, _, hsame⟩ := map_eq_ok.mp h
    cases hsame
    exact le_rfl

theorem tokensOf_draw (cs : List Char) :
    tokensOf (Lexeme.scan cs) =
      match draw cs with
      | none => .ok []
      | some (lexeme, rest) => tokensOf (lexeme :: Lexeme.scan rest) := by
  rw [reading_draw tokensOf fun _ _ => tokensOf_blank, tokensOf]

theorem tokensOf_eq_tokenFrom (hblank : lexeme.kind ≠ .blank) (rest : List Char) :
    tokensOf (lexeme :: Lexeme.scan rest) =
      (tokenFrom lexeme rest).bind fun read =>
        (tokensOf (Lexeme.scan read.2)).map (read.1 :: ·) := by
  unfold tokenFrom
  split_ifs with hopening
  · cases hclose : closeList ⟨0, .start⟩ (Lexeme.scan rest) with
    | error e =>
        rw [tokensOf_unclosed hopening hclose, behindList, hclose]
        rfl
    | ok read =>
        have htake := take_of_closeList hclose
        have hscan := scan_of_closeList hclose
        rw [tokensOf_opening hopening hclose, behindList, hclose]
        simp only [Except.map, Except.bind, listToken, htake, hscan]
  · rw [tokensOf_single hblank hopening]
    cases lexeme.token <;> rfl

-- A list takes in any token but a keyword where it has room for one.
theorem behindList_item {position : ListPosition} (hposition : position ≠ .item)
    (hkind : lexeme.isScalar = true ∨ lexeme.kind = .opening) (rest : List Char) :
    behindList ⟨0, position⟩ (lexeme :: Lexeme.scan rest) =
      (tokenFrom lexeme rest).bind fun read =>
        if read.1.kind = .keyword then .error (.illegalToken read.1.text)
        else behindList ⟨0, .item⟩ (Lexeme.scan read.2) := by
  rcases hkind with hscalar | hopening
  · have hnext : (⟨0, position⟩ : ListState).next lexeme =
        lexeme.item.map fun _ => some ⟨0, .item⟩ := by
      rw [ListState.next_scalar hscalar, if_neg hposition]
    rw [tokenFrom, if_neg (Lexeme.kind_of_isScalar hscalar).2]
    cases htoken : lexeme.token with
    | error e =>
        rw [Lexeme.item, htoken] at hnext
        exact behindList_of_error hnext
    | ok token =>
        rw [Lexeme.item, htoken, Except.bind] at hnext
        by_cases hkeyword : token.kind = .keyword
        · rw [if_pos hkeyword] at hnext
          rw [behindList_of_error hnext]
          exact (if_pos hkeyword).symm
        · rw [if_neg hkeyword] at hnext
          rw [behindList_of_next hnext]
          exact (if_neg hkeyword).symm
  · have hnext : (⟨0, position⟩ : ListState).next lexeme = .ok (some ⟨1, .start⟩) := by
      simp [ListState.next, hopening, hposition]
    rw [behindList_of_next hnext, behindList_inner, tokenFrom, if_pos hopening]
    cases behindList ⟨0, .start⟩ (Lexeme.scan rest) <;> rfl

end Tokens

section Reader

-- The token that starts with a lexeme, where a list is read by a call.
def convertBy (readList : List Char → Bounded CompileError (List Char)) (lexeme : Lexeme)
    (rest : List Char) : Bounded CompileError (Token × List Char) :=
  if lexeme.kind = .opening then
    (fun after => (listToken lexeme rest after, after)) <$> readList rest
  else .of (lexeme.token.map fun token => (token, rest))

-- An item of a list, and what the list has left behind its end.
def readItemBy (readList : ListPosition → List Char → Bounded CompileError (List Char))
    (lexeme : Lexeme) (rest : List Char) : Bounded CompileError (List Char) := do
  let read ← convertBy (readList .start) lexeme rest
  if read.1.kind = .keyword then .of (.error (.illegalToken read.1.text))
  else readList .item read.2

-- Reads on to the end of a list, and gives the text behind it. There is one call for each lexeme
-- drawn, and an inner list is a call of its own.
def readListWithin : Nat → ListPosition → List Char → Bounded CompileError (List Char)
  | 0, _, _ => .spent
  | calls + 1, position, cs =>
      match draw cs with
      | none => .of (.error (.missingTerminator ')'))
      | some (lexeme, rest) =>
          match lexeme.kind with
          | .stray c => .of (.error (.unexpectedSymbol c))
          | .closing =>
              if position = .separator then .of (.error (.illegalToken lexeme.text))
              else .of (.ok rest)
          | .comma =>
              if position = .item then readListWithin calls .separator rest
              else .of (.error (.illegalToken lexeme.text))
          | .number | .word | .string _ | .opening =>
              if position = .item then .of (.error (.illegalToken lexeme.text))
              else readItemBy (readListWithin calls) lexeme rest
          | .comment | .symbol | .blank => .of (.error (.illegalToken lexeme.text))

-- Reads a text token by token.
def readWithin : Nat → List Char → Bounded CompileError (List Token)
  | 0, _ => .spent
  | calls + 1, cs =>
      match draw cs with
      | none => .of (.ok [])
      | some (lexeme, rest) => do
          let read ← convertBy (readListWithin calls .start) lexeme rest
          (read.1 :: ·) <$> readWithin calls read.2

section Calls

variable {lexeme : Lexeme} {rest : List Char}

theorem convertBy_eq {readList : List Char → Bounded CompileError (List Char)}
    (hread : readList rest = .of (behindList ⟨0, .start⟩ (Lexeme.scan rest))) :
    convertBy readList lexeme rest = .of (tokenFrom lexeme rest) := by
  unfold convertBy tokenFrom
  split_ifs
  · exact Bounded.map_eq_of hread _
  · rfl

theorem readItemBy_eq {readList : ListPosition → List Char → Bounded CompileError (List Char)}
    {position : ListPosition} (hposition : position ≠ .item)
    (hkind : lexeme.isScalar = true ∨ lexeme.kind = .opening)
    (hread : ∀ position cs, cs.length ≤ rest.length →
      readList position cs = .of (behindList ⟨0, position⟩ (Lexeme.scan cs))) :
    readItemBy readList lexeme rest =
      .of (behindList ⟨0, position⟩ (lexeme :: Lexeme.scan rest)) := by
  rw [behindList_item hposition hkind]
  apply Bounded.bind_eq_of (convertBy_eq (hread _ _ le_rfl))
  intro read htoken
  have hafter := length_le_of_tokenFrom htoken
  split_ifs
  · rfl
  · exact hread _ _ hafter

end Calls

-- As many calls as there are characters, and one more for the end, are enough for a list: what is
-- left of the text is shorter with each lexeme drawn, and no longer behind an inner list.
theorem readListWithin_eq {calls : Nat} {position : ListPosition} {cs : List Char}
    (hcalls : cs.length < calls) :
    readListWithin calls position cs = .of (behindList ⟨0, position⟩ (Lexeme.scan cs)) := by
  induction calls generalizing position cs with
  | zero => omega
  | succ calls ih =>
      rw [readListWithin, behindList_draw]
      cases hdraw : draw cs with
      | none => rfl
      | some drawn =>
          obtain ⟨lexeme, rest⟩ := drawn
          have hshort := length_lt_of_draw hdraw
          have hfails {e : CompileError}
              (hnext : (⟨0, position⟩ : ListState).next lexeme = .error e) :
              Bounded.of (.error e) =
                Bounded.of (behindList ⟨0, position⟩ (lexeme :: Lexeme.scan rest)) := by
            rw [behindList_of_error hnext]
          dsimp only
          cases hkind : lexeme.kind with
          | blank => exact absurd hkind (kind_of_draw hdraw)
          | stray c | comment | symbol => exact hfails (by simp [ListState.next, hkind])
          | closing =>
              by_cases hposition : position = .separator
              · exact (if_pos hposition).trans (hfails (by simp [ListState.next, hkind, hposition]))
              · refine (if_neg hposition).trans ?_
                rw [behindList_of_end (by simp [ListState.next, hkind, hposition]),
                  Lexeme.flatMap_chars_scan]
          | comma =>
              by_cases hposition : position = .item
              · have hnext : (⟨0, position⟩ : ListState).next lexeme =
                    .ok (some ⟨0, .separator⟩) := by
                  simp [ListState.next, hkind, hposition]
                rw [behindList_of_next hnext]
                exact (if_pos hposition).trans (ih (by omega))
              · exact (if_neg hposition).trans
                  (hfails (by simp [ListState.next, hkind, hposition]))
          | number | word | string | opening =>
              by_cases hposition : position = .item
              · exact (if_pos hposition).trans (hfails (by simp [ListState.next, hkind, hposition]))
              · have hstarts : lexeme.isScalar = true ∨ lexeme.kind = .opening := by
                  simp [Lexeme.isScalar, hkind]
                refine (if_neg hposition).trans (readItemBy_eq hposition hstarts ?_)
                intro _ later hlater
                exact ih (by omega)

-- And so they are for a text.
theorem readWithin_eq {calls : Nat} {cs : List Char} (hcalls : cs.length < calls) :
    readWithin calls cs = .of (Token.readChars cs) := by
  induction calls generalizing cs with
  | zero => omega
  | succ calls ih =>
      rw [readWithin, Token.readChars, tokensOf_draw]
      cases hdraw : draw cs with
      | none => rfl
      | some drawn =>
          obtain ⟨lexeme, rest⟩ := drawn
          have hshort := length_lt_of_draw hdraw
          dsimp only
          rw [tokensOf_eq_tokenFrom (kind_of_draw hdraw)]
          apply Bounded.bind_eq_of (convertBy_eq (readListWithin_eq (by omega)))
          intro read hread
          have hafter := length_le_of_tokenFrom hread
          exact Bounded.map_eq_of (ih (by omega)) _

end Reader

end LineScript
