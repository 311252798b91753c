namespace LineScript.Text

-- What stands between the quotes of a string literal: a backslash takes the next character with
-- it, and only `t` and `n` then mean something else than themselves.
def unescape : List Char → List Char
  | [] => []
  | ['\\'] => []
  | '\\' :: 't' :: rest => '\t' :: unescape rest
  | '\\' :: 'n' :: rest => '\n' :: unescape rest
  | '\\' :: c :: rest => c :: unescape rest
  | c :: rest => c :: unescape rest

def escapeChar : Char → List Char
  | '\\' => ['\\', '\\']
  | '"' => ['\\', '"']
  | '\n' => ['\\', 'n']
  | '\t' => ['\\', 't']
  | c => [c]

-- The literal that denotes a text.
def quote (cs : List Char) : List Char :=
  '"' :: (cs.flatMap escapeChar ++ ['"'])

-- A literal without its first and last character, whatever they are.
def inner (cs : List Char) : List Char := cs.tail.dropLast

end LineScript.Text
