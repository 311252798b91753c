import LineScript.Token

namespace LineScript

-- One alternative at a position of a statement.
inductive Expectation where
  | kind (kind : TokenKind)
  | keyword (keyword : Keyword)
  | symbol (symbol : Char)
deriving DecidableEq, Repr

namespace Expectation

def accepts : Expectation → Token → Bool
  | kind k, token => token.kind = k
  | keyword k, token => token.keyword? = some k
  | symbol c, token => token.isSymbol c

def text : Expectation → String
  | kind k => k.label
  | keyword k => s!"'{k.text}'"
  | symbol c => s!"'{c}'"

-- All but the last are separated by commas.
def describe (alternatives : List Expectation) : String :=
  match alternatives.reverse.map text with
  | [] => "nothing"
  | [only] => only
  | last :: rest => ", ".intercalate rest.reverse ++ " or " ++ last

end Expectation

end LineScript
