import LineScript.Keyword

namespace LineScript

inductive TokenKind where
  | null
  | number
  | string
  | list
  | name
  | keyword
  | symbol
  | comment
deriving DecidableEq, Repr

def TokenKind.label : TokenKind → String
  | null => "NULL"
  | number => "NUMBER"
  | string => "STRING"
  | list => "LIST"
  | name => "VARIABLE"
  | keyword => "KEYWORD"
  | symbol => "SYMBOL"
  | comment => "COMMENT"

-- The text is the one the token was read from; strings and lists keep their delimiters.
structure Token where
  kind : TokenKind
  text : String
deriving DecidableEq, Repr

namespace Token

-- Stands for an absent operand.
def null : Token := ⟨.null, ""⟩

def ofKeyword (keyword : Keyword) : Token := ⟨.keyword, keyword.text⟩

def keyword? (token : Token) : Option Keyword :=
  if token.kind = .keyword then Keyword.ofText? token.text else none

def isSymbol (token : Token) (c : Char) : Bool :=
  token.kind = .symbol ∧ token.text.toList = [c]

-- Two null tokens always match; other texts are compared ignoring case.
def matchesToken (a b : Token) : Bool :=
  a.kind = b.kind && (a.kind = .null || Text.sameIgnoringCase a.text b.text)

def display (token : Token) : String :=
  if token.kind = .null then "null" else token.text

end Token

end LineScript
