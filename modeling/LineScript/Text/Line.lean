import LineScript.Text.CodeRange

namespace LineScript.Text

def dropTrailing (p : Char → Bool) (cs : List Char) : List Char :=
  (cs.reverse.dropWhile p).reverse

def trimBlanks (cs : List Char) : List Char :=
  dropTrailing isBlank (cs.dropWhile isBlank)

-- The piece before the first mark, and the pieces after each mark.
def splitOn (mark : Char) : List Char → List Char × List (List Char)
  | [] => ([], [])
  | c :: rest =>
      let tail := splitOn mark rest
      if c = mark then ([], tail.1 :: tail.2) else (c :: tail.1, tail.2)

-- A line ends at a newline, which takes one carriage return right before it along. What follows
-- the last newline is a line only if it is not empty.
def splitLines : List Char → List (List Char)
  | [] => []
  | '\n' :: rest => [] :: splitLines rest
  | '\r' :: '\n' :: rest => [] :: splitLines rest
  | c :: rest =>
      match splitLines rest with
      | [] => [[c]]
      | line :: others => (c :: line) :: others

def lines (text : String) : List String :=
  (splitLines text.toList).map String.ofList

def isLineEnd (c : Char) : Bool := c == '\n' || c == '\r'

-- What is left of a line that was read together with its end.
def trimLineEnd (line : String) : String :=
  String.ofList (dropTrailing isLineEnd line.toList)

abbrev Bytes := Array UInt8

def encode (text : String) : Bytes := text.toUTF8.data

-- Refuses every sequence that is not well-formed UTF-8.
def decode? (bytes : Bytes) : Option String := String.fromUTF8? ⟨bytes⟩

def newline : UInt8 := 10

-- The position just after the first newline at or after `start`, or the end of the bytes.
def lineEnd (bytes : Bytes) (start : Nat) : Nat :=
  if h : start < bytes.size then
    if bytes[start] = newline then start + 1 else lineEnd bytes (start + 1)
  else bytes.size
termination_by bytes.size - start

end LineScript.Text
