import LineScript.CompileError
import LineScript.Lexeme
import LineScript.Number.Literal

namespace LineScript

def Lexeme.text (lexeme : Lexeme) : String := String.ofList lexeme.chars

-- Each accessor mark needs something to its right that is not another one.
def accessorsClosed : List Char → Bool
  | [] => true
  | ['@'] => false
  | '@' :: '@' :: _ => false
  | _ :: rest => accessorsClosed rest

-- A name with an accessor is never a keyword.
def readWord (lexeme : Lexeme) : Except CompileError Token :=
  if !accessorsClosed lexeme.chars then .error (.invalidToken lexeme.text)
  else if '@' ∈ lexeme.chars then .ok ⟨.name, lexeme.text⟩
  else
    match Keyword.ofText? lexeme.text with
    | some keyword => .ok (.ofKeyword keyword)
    | none => .ok ⟨.name, lexeme.text⟩

-- The token a lexeme is outside of lists. Brackets and commas are symbols there.
def Lexeme.token (lexeme : Lexeme) : Except CompileError Token :=
  match lexeme.kind with
  | .number =>
      if (Number.Literal.read? lexeme.chars).isSome then .ok ⟨.number, lexeme.text⟩
      else .error (.invalidToken lexeme.text)
  | .word => readWord lexeme
  | .string closed =>
      if closed then .ok ⟨.string, lexeme.text⟩ else .error (.missingTerminator '"')
  | .comment => .ok ⟨.comment, lexeme.text⟩
  | .stray c => .error (.unexpectedSymbol c)
  | .opening | .closing | .comma | .symbol | .blank => .ok ⟨.symbol, lexeme.text⟩

-- What a lexeme makes outside of lists, and what is asked of it for that. Only a keyword is spelled
-- anew.
inductive Lexeme.Makes (lexeme : Lexeme) : Token → Prop where
  | number (hkind : lexeme.kind = .number)
      (hread : (Number.Literal.read? lexeme.chars).isSome = true) :
      Makes lexeme ⟨.number, lexeme.text⟩
  | name (hkind : lexeme.kind = .word) (hclosed : accessorsClosed lexeme.chars = true)
      (hfree : '@' ∈ lexeme.chars ∨ Keyword.ofText? lexeme.text = none) :
      Makes lexeme ⟨.name, lexeme.text⟩
  | keyword {keyword : Keyword} (hkind : lexeme.kind = .word)
      (hclosed : accessorsClosed lexeme.chars = true) (hplain : '@' ∉ lexeme.chars)
      (hkeyword : Keyword.ofText? lexeme.text = some keyword) :
      Makes lexeme (.ofKeyword keyword)
  | string (hkind : lexeme.kind = .string true) : Makes lexeme ⟨.string, lexeme.text⟩
  | comment (hkind : lexeme.kind = .comment) : Makes lexeme ⟨.comment, lexeme.text⟩
  | symbol (hkind : lexeme.kind ∈ [.opening, .closing, .comma, .symbol, .blank]) :
      Makes lexeme ⟨.symbol, lexeme.text⟩

theorem Lexeme.makes_of_readWord {lexeme : Lexeme} {token : Token}
    (hkind : lexeme.kind = .word) (h : readWord lexeme = .ok token) : lexeme.Makes token := by
  unfold readWord at h
  split at h
  · cases h
  · rename_i hclosed
    have hclosed : accessorsClosed lexeme.chars = true := by simpa using hclosed
    split at h
    · rename_i haccess
      cases h
      exact .name hkind hclosed (.inl haccess)
    · rename_i hplain
      split at h
      · rename_i keyword hkeyword
        cases h
        exact .keyword hkind hclosed hplain hkeyword
      · rename_i hnone
        cases h
        exact .name hkind hclosed (.inr hnone)

theorem Lexeme.token_eq_ok_iff {lexeme : Lexeme} {token : Token} :
    lexeme.token = .ok token ↔ lexeme.Makes token := by
  constructor
  · intro h
    unfold Lexeme.token at h
    split at h
    all_goals rename_i hkind
    · split at h
      · cases h
        exact .number hkind ‹_›
      · cases h
    · exact makes_of_readWord hkind h
    · split at h
      · rename_i hclosed
        cases h
        exact .string (hkind.trans (congrArg _ hclosed))
      · cases h
    · cases h
      exact .comment hkind
    · cases h
    all_goals
      cases h
      exact .symbol (by simp [hkind])
  · intro h
    cases h with
    | number hkind hread => simp [Lexeme.token, hkind, hread]
    | name hkind hclosed hfree =>
        rcases hfree with haccess | hnone
        · simp [Lexeme.token, hkind, readWord, hclosed, haccess]
        · simp [Lexeme.token, hkind, readWord, hclosed, hnone]
    | keyword hkind hclosed hplain hkeyword =>
        simp [Lexeme.token, hkind, readWord, hclosed, hplain, hkeyword]
    | string hkind => simp [Lexeme.token, hkind]
    | comment hkind => simp [Lexeme.token, hkind]
    | symbol hkind =>
        simp only [List.mem_cons, List.not_mem_nil, or_false] at hkind
        rcases hkind with hkind | hkind | hkind | hkind | hkind <;> simp [Lexeme.token, hkind]

-- What has just been read in the innermost open list.
inductive ListPosition where
  | start
  | item
  | separator
deriving DecidableEq, Repr

-- How many lists are open around the innermost one, and where that one stands.
structure ListState where
  depth : Nat
  position : ListPosition
deriving DecidableEq, Repr

-- A list takes numbers, strings and names, and of those no keyword.
def Lexeme.item (lexeme : Lexeme) : Except CompileError Token :=
  lexeme.token.bind fun token =>
    if token.kind = .keyword then .error (.illegalToken token.text) else .ok token

-- Items and commas alternate, and an inner list is an item. There is no next state when the
-- outermost list ends.
def ListState.next (state : ListState) (lexeme : Lexeme) : Except CompileError (Option ListState) :=
  match lexeme.kind with
  | .blank => .ok (some state)
  | .stray c => .error (.unexpectedSymbol c)
  | .closing =>
      if state.position = .separator then .error (.illegalToken lexeme.text)
      else if state.depth = 0 then .ok none
      else .ok (some ⟨state.depth - 1, .item⟩)
  | .comma =>
      if state.position = .item then .ok (some ⟨state.depth, .separator⟩)
      else .error (.illegalToken lexeme.text)
  | .opening =>
      if state.position = .item then .error (.illegalToken lexeme.text)
      else .ok (some ⟨state.depth + 1, .start⟩)
  | .number | .word | .string _ =>
      if state.position = .item then .error (.illegalToken lexeme.text)
      else lexeme.item.map fun _ => some ⟨state.depth, .item⟩
  | .comment | .symbol => .error (.illegalToken lexeme.text)

-- Reads on to the bracket that ends the outermost open list, and gives the characters read and
-- the lexemes left.
def closeList (state : ListState) : List Lexeme → Except CompileError (List Char × List Lexeme)
  | [] => .error (.missingTerminator ')')
  | lexeme :: rest =>
      match state.next lexeme with
      | .error e => .error e
      | .ok none => .ok (lexeme.chars, rest)
      | .ok (some following) =>
          (closeList following rest).map fun read => (lexeme.chars ++ read.1, read.2)

theorem length_closeList {state : ListState} {lexemes : List Lexeme} {chars : List Char}
    {rest : List Lexeme} (h : closeList state lexemes = .ok (chars, rest)) :
    rest.length < lexemes.length := by
  induction lexemes generalizing state chars with
  | nil => simp [closeList] at h
  | cons lexeme others ih =>
      rw [closeList] at h
      split at h
      · simp at h
      · simp only [Except.ok.injEq, Prod.mk.injEq] at h
        simp [h.2]
      · rename_i following _
        cases hread : closeList following others with
        | error e => simp [hread, Except.map] at h
        | ok read =>
            simp only [hread, Except.map, Except.ok.injEq, Prod.mk.injEq] at h
            have := @ih following read.1 (by rw [hread, ← h.2])
            simp only [List.length_cons]
            omega

def tokensOf (lexemes : List Lexeme) : Except CompileError (List Token) :=
  match lexemes with
  | [] => .ok []
  | lexeme :: rest =>
      match lexeme.kind with
      | .blank => tokensOf rest
      | .opening =>
          match _hread : closeList ⟨0, .start⟩ rest with
          | .error e => .error e
          | .ok (chars, after) =>
              (tokensOf after).map (⟨.list, String.ofList (lexeme.chars ++ chars)⟩ :: ·)
      | _ => lexeme.token.bind fun token => (tokensOf rest).map (token :: ·)
termination_by lexemes.length
decreasing_by
  · simp
  · have := length_closeList _hread
    simp only [List.length_cons]
    omega
  · simp

def Token.readChars (cs : List Char) : Except CompileError (List Token) :=
  tokensOf (Lexeme.scan cs)

def Token.readAll (line : String) : Except CompileError (List Token) :=
  Token.readChars line.toList

-- A text that has to be exactly one token.
def Token.readSingle (text : String) : Except CompileError Token :=
  match Token.readAll text with
  | .error e => .error e
  | .ok [token] => .ok token
  | .ok _ => .error (.illegalToken text)

end LineScript
