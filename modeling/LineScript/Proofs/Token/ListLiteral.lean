import LineScript.Proofs.Lexeme.Boundary
import LineScript.Proofs.Outcome
import LineScript.Token.Reading

namespace LineScript

def Lexeme.isScalar (lexeme : Lexeme) : Bool :=
  match lexeme.kind with
  | .number | .word | .string _ => true
  | _ => false

-- The lexemes between the brackets of a list that stands at a position, with the tokens they make.
-- An inner list is one token.
inductive ListBody : ListPosition → List Lexeme → List Token → Prop where
  | done {position : ListPosition} (hposition : position ≠ .separator) : ListBody position [] []
  | blank {position : ListPosition} {lexeme : Lexeme} {rest : List Lexeme} {tokens : List Token}
      (hkind : lexeme.kind = .blank) (hrest : ListBody position rest tokens) :
      ListBody position (lexeme :: rest) tokens
  | comma {lexeme : Lexeme} {rest : List Lexeme} {tokens : List Token}
      (hkind : lexeme.kind = .comma) (hrest : ListBody .separator rest tokens) :
      ListBody .item (lexeme :: rest) (⟨.symbol, lexeme.text⟩ :: tokens)
  | scalar {position : ListPosition} {lexeme : Lexeme} {token : Token} {rest : List Lexeme}
      {tokens : List Token} (hposition : position ≠ .item) (hscalar : lexeme.isScalar = true)
      (hitem : lexeme.item = .ok token) (hrest : ListBody .item rest tokens) :
      ListBody position (lexeme :: rest) (token :: tokens)
  | list {position : ListPosition} {opening closing : Lexeme} {inner rest : List Lexeme}
      {innerTokens tokens : List Token} (hposition : position ≠ .item)
      (hopening : opening.kind = .opening) (hinner : ListBody .start inner innerTokens)
      (hclosing : closing.kind = .closing) (hrest : ListBody .item rest tokens) :
      ListBody position (opening :: (inner ++ closing :: rest))
        (⟨.list, String.ofList
          (opening.chars ++ (inner.flatMap Lexeme.chars ++ closing.chars))⟩ :: tokens)

-- What is still to be read once a list at depth `depth` has ended.
def closeOuter (depth : Nat) (lexemes : List Lexeme) :
    Except CompileError (List Char × List Lexeme) :=
  match depth with
  | 0 => .ok ([], lexemes)
  | outer + 1 => closeList ⟨outer, .item⟩ lexemes

theorem closeList_eq_of_next {state following : ListState} {lexeme : Lexeme} {rest : List Lexeme}
    (hnext : state.next lexeme = .ok (some following)) :
    closeList state (lexeme :: rest) =
      (closeList following rest).map fun read => (lexeme.chars ++ read.1, read.2) := by
  rw [closeList, hnext]

theorem closeList_closing {depth : Nat} {position : ListPosition} {lexeme : Lexeme}
    {rest : List Lexeme} (hkind : lexeme.kind = .closing) (hposition : position ≠ .separator) :
    closeList ⟨depth, position⟩ (lexeme :: rest) =
      (closeOuter depth rest).map fun read => (lexeme.chars ++ read.1, read.2) := by
  cases depth with
  | zero => simp [closeList, ListState.next, hkind, hposition, closeOuter, Except.map]
  | succ outer => rw [closeList]; simp [ListState.next, hkind, hposition, closeOuter]

theorem ListState.next_scalar {state : ListState} {lexeme : Lexeme}
    (hscalar : lexeme.isScalar = true) :
    state.next lexeme =
      if state.position = .item then .error (.illegalToken lexeme.text)
      else lexeme.item.map fun _ => some ⟨state.depth, .item⟩ := by
  unfold Lexeme.isScalar at hscalar
  unfold ListState.next
  split <;> simp_all

theorem map_read_append (read : Except CompileError (List Char × List Lexeme))
    (first second : List Char) :
    (read.map fun r => (second ++ r.1, r.2)).map (fun r => (first ++ r.1, r.2)) =
      read.map fun r => ((first ++ second) ++ r.1, r.2) := by
  cases read <;> simp [Except.map]

-- Reading a body and the bracket behind it, whatever lists are open around it.
theorem ListBody.closeList_eq {position : ListPosition} {body : List Lexeme} {tokens : List Token}
    (hbody : ListBody position body tokens) (depth : Nat) {closing : Lexeme}
    (hclosing : closing.kind = .closing) (rest : List Lexeme) :
    closeList ⟨depth, position⟩ (body ++ closing :: rest) =
      (closeOuter depth rest).map fun read =>
        ((body.flatMap Lexeme.chars ++ closing.chars) ++ read.1, read.2) := by
  induction hbody generalizing depth closing rest with
  | done hposition => simpa using closeList_closing hclosing hposition
  | @blank position lexeme body tokens hkind _ ih =>
      have hnext : (⟨depth, position⟩ : ListState).next lexeme = .ok (some ⟨depth, position⟩) := by
        simp [ListState.next, hkind]
      rw [List.cons_append, closeList_eq_of_next hnext, ih depth hclosing, map_read_append]
      simp
  | @comma lexeme body tokens hkind _ ih =>
      have hnext : (⟨depth, .item⟩ : ListState).next lexeme = .ok (some ⟨depth, .separator⟩) := by
        simp [ListState.next, hkind]
      rw [List.cons_append, closeList_eq_of_next hnext, ih depth hclosing, map_read_append]
      simp
  | @scalar position lexeme token body tokens hposition hscalar hitem _ ih =>
      have hnext : (⟨depth, position⟩ : ListState).next lexeme = .ok (some ⟨depth, .item⟩) := by
        simp [ListState.next_scalar hscalar, hposition, hitem, Except.map]
      rw [List.cons_append, closeList_eq_of_next hnext, ih depth hclosing, map_read_append]
      simp
  | @list position opening inside inner body _ _ hposition hopening _ hinside _ ihinner ih =>
      have hnext : (⟨depth, position⟩ : ListState).next opening =
          .ok (some ⟨depth + 1, .start⟩) := by
        simp [ListState.next, hopening, hposition]
      rw [List.cons_append, closeList_eq_of_next hnext, List.append_assoc, List.cons_append,
        ihinner (depth + 1) hinside, closeOuter, ih depth hclosing, map_read_append,
        map_read_append]
      simp

-- All that a list may take in next, and where it stands afterwards.
theorem ListState.next_cases {depth : Nat} {position : ListPosition} {lexeme : Lexeme}
    {following : Option ListState}
    (h : (⟨depth, position⟩ : ListState).next lexeme = .ok following) :
    (lexeme.kind = .blank ∧ following = some ⟨depth, position⟩) ∨
    (lexeme.kind = .closing ∧ position ≠ .separator) ∨
    (lexeme.kind = .comma ∧ position = .item ∧ following = some ⟨depth, .separator⟩) ∨
    (lexeme.kind = .opening ∧ position ≠ .item ∧ following = some ⟨depth + 1, .start⟩) ∨
    (lexeme.isScalar = true ∧ position ≠ .item ∧ (∃ token, lexeme.item = .ok token) ∧
      following = some ⟨depth, .item⟩) := by
  by_cases hscalar : lexeme.isScalar = true
  · rw [ListState.next_scalar hscalar] at h
    split_ifs at h with hposition
    obtain ⟨token, hitem, rfl⟩ := map_eq_ok.mp h
    exact .inr (.inr (.inr (.inr ⟨hscalar, hposition, ⟨token, hitem⟩, rfl⟩)))
  · unfold ListState.next at h
    unfold Lexeme.isScalar at hscalar
    split at h
    all_goals rename_i hkind
    all_goals simp only [hkind, not_true_eq_false] at hscalar
    · exact .inl ⟨hkind, by simpa using h.symm⟩
    · simp at h
    · split_ifs at h with hposition
      all_goals exact .inr (.inl ⟨hkind, hposition⟩)
    · split_ifs at h with hposition
      exact .inr (.inr (.inl ⟨hkind, hposition, by simpa using h.symm⟩))
    · split_ifs at h with hposition
      exact .inr (.inr (.inr (.inl ⟨hkind, hposition, by simpa using h.symm⟩)))
    all_goals simp at h

-- No list takes in a comment, or a string without its end.
theorem ListState.kind_of_next {state : ListState} {lexeme : Lexeme}
    {following : Option ListState} (h : state.next lexeme = .ok following) :
    lexeme.kind ≠ .comment ∧ lexeme.kind ≠ .string false := by
  constructor
  · intro hkind
    simp [ListState.next, hkind] at h
  · intro hkind
    have hitem : lexeme.item = .error (.missingTerminator '"') := by
      rw [Lexeme.item, Lexeme.token, hkind]
      rfl
    simp only [ListState.next, hkind, hitem] at h
    split_ifs at h
    cases h

theorem exists_of_map_read {read : Except CompileError (List Char × List Lexeme)}
    {first chars : List Char} {rest : List Lexeme}
    (h : (read.map fun r => (first ++ r.1, r.2)) = .ok (chars, rest)) :
    ∃ later, read = .ok (later, rest) ∧ chars = first ++ later := by
  obtain ⟨⟨later, left⟩, hread, hsame⟩ := map_eq_ok.mp h
  cases hsame
  exact ⟨later, hread, rfl⟩

theorem suffix_of_closeList {state : ListState} {lexemes rest : List Lexeme} {chars : List Char}
    (h : closeList state lexemes = .ok (chars, rest)) : rest <:+ lexemes := by
  induction lexemes generalizing state chars with
  | nil => cases h
  | cons lexeme others ih =>
      rw [closeList] at h
      split at h
      · cases h
      · cases h
        exact List.suffix_cons _ _
      · obtain ⟨later, hlater, -⟩ := exists_of_map_read h
        exact (ih hlater).trans (List.suffix_cons _ _)

-- A list that is closed has a body. The induction is on the length of what is still to be read,
-- since behind an inner list the reading goes on with what that list left over.
theorem exists_body_of_closeList {depth : Nat} {position : ListPosition} {lexemes : List Lexeme}
    {chars : List Char} {rest : List Lexeme}
    (h : closeList ⟨depth, position⟩ lexemes = .ok (chars, rest)) :
    ∃ body tokens closing after outer, ListBody position body tokens ∧
      closing.kind = .closing ∧ lexemes = body ++ closing :: after ∧
      closeOuter depth after = .ok (outer, rest) ∧
      chars = body.flatMap Lexeme.chars ++ closing.chars ++ outer := by
  induction hlen : lexemes.length using Nat.strong_induction_on
    generalizing depth position lexemes chars rest with
  | _ n ih =>
      subst hlen
      cases lexemes with
      | nil => simp [closeList] at h
      | cons lexeme others =>
          have hshort : others.length < (lexeme :: others).length := by simp
          cases hnext : (⟨depth, position⟩ : ListState).next lexeme with
          | error e => simp [closeList, hnext] at h
          | ok following =>
              rcases ListState.next_cases hnext with ⟨hkind, rfl⟩ | ⟨hkind, hposition⟩ |
                ⟨hkind, rfl, rfl⟩ | ⟨hkind, hposition, rfl⟩ |
                ⟨hscalar, hposition, ⟨token, hitem⟩, rfl⟩
              · rw [closeList_eq_of_next hnext] at h
                obtain ⟨later, hlater, rfl⟩ := exists_of_map_read h
                obtain ⟨body, tokens, closing, after, outer, hbody, hclosing, rfl, hout, rfl⟩ :=
                  ih _ hshort hlater rfl
                exact ⟨lexeme :: body, tokens, closing, after, outer, .blank hkind hbody, hclosing,
                  rfl, hout, by simp⟩
              · rw [closeList_closing hkind hposition] at h
                obtain ⟨outer, hout, rfl⟩ := exists_of_map_read h
                exact ⟨[], [], lexeme, others, outer, .done hposition, hkind, rfl, hout, by simp⟩
              · rw [closeList_eq_of_next hnext] at h
                obtain ⟨later, hlater, rfl⟩ := exists_of_map_read h
                obtain ⟨body, tokens, closing, after, outer, hbody, hclosing, rfl, hout, rfl⟩ :=
                  ih _ hshort hlater rfl
                exact ⟨lexeme :: body, _, closing, after, outer, .comma hkind hbody, hclosing,
                  rfl, hout, by simp⟩
              · rw [closeList_eq_of_next hnext] at h
                obtain ⟨later, hlater, rfl⟩ := exists_of_map_read h
                obtain ⟨inner, innerTokens, inside, between, later, hinner, hinside, rfl, hbetween,
                  rfl⟩ := ih _ hshort hlater rfl
                have hshorter :
                    between.length < (lexeme :: (inner ++ inside :: between)).length := by
                  simp only [List.length_cons, List.length_append]
                  omega
                obtain ⟨body, tokens, closing, after, outer, hbody, hclosing, rfl, hout, rfl⟩ :=
                  ih _ hshorter hbetween rfl
                exact ⟨_, _, closing, after, outer, .list hposition hkind hinner hinside hbody,
                  hclosing, by simp, hout, by simp⟩
              · rw [closeList_eq_of_next hnext] at h
                obtain ⟨later, hlater, rfl⟩ := exists_of_map_read h
                obtain ⟨body, tokens, closing, after, outer, hbody, hclosing, rfl, hout, rfl⟩ :=
                  ih _ hshort hlater rfl
                exact ⟨lexeme :: body, _, closing, after, outer,
                  .scalar hposition hscalar hitem hbody, hclosing, rfl, hout, by simp⟩

end LineScript
