import LineScript.Number.Literal
import LineScript.Text.Line
import LineScript.Value.Arithmetic

namespace LineScript.Value

-- A text takes the written form of anything; a list takes anything as its new last item.
def append (opened : Handle → Bool) (a b : Value) : Except RuntimeError Value :=
  match a with
  | string text => .ok (string (text ++ b.display opened))
  | list items => .ok (list (items ++ [b]))
  | _ => .error (undefined .append a b)

-- Texts are counted in characters.
def size : Value → Except RuntimeError Value
  | string text => .ok (integer (Number.saturate text.length))
  | list items => .ok (integer (Number.saturate items.length))
  | value => .error (.undefined .size value.type none)

def checkedIndex (index : Value) (length : Nat) : Except RuntimeError Nat :=
  match index with
  | integer n =>
      match Number.toIndex? n with
      | some i => if i < length then .ok i else .error (.outOfRange index .index)
      | none => .error (.outOfRange index .index)
  | _ => .error (.invalidIndex index)

-- An item of a list, or a character of a text as a text. `name` is what gets indexed.
def element (value index : Value) (name : String) : Except RuntimeError Value :=
  match value with
  | list items => (checkedIndex index items.length).map fun i => items.getD i null
  | string text =>
      (checkedIndex index text.length).map fun i =>
        match text.toList[i]? with
        | some c => string (String.singleton c)
        | none => null
  | _ => .error (.notIndexable name)

-- Changes one item of a list; the characters of a text cannot be changed one by one.
def modifyElement (value index : Value) (name : String)
    (change : Value → Except RuntimeError Value) : Except RuntimeError Value :=
  match value with
  | list items =>
      (checkedIndex index items.length).bind fun i =>
        (change (items.getD i null)).map fun item => list (items.set i item)
  | string _ => .error .stringAssignment
  | _ => .error (.notIndexable name)

-- A list of nulls that memory has no room for is refused.
def nulls (room : Nat) (size : Value) : Except RuntimeError Value :=
  match size with
  | integer n =>
      match Number.toIndex? n with
      | some length =>
          if length ≤ room then .ok (list (List.replicate length null))
          else .error (.outOfRange size .memory)
      | none => .error (.outOfRange size .size)
  | _ => .error (.wrongType .integer size.type)

def ofLiteral : Number.Literal → Value
  | .integer n => integer n
  | .float x => float x

def readNumber? (text : String) : Option Value :=
  (Number.Literal.read? text.toList).map ofLiteral

-- A line of a file: a number, with blanks around it or not, or else a text as it stands.
def ofLine (line : String) : Value :=
  match Number.Literal.read? (Text.trimBlanks line.toList) with
  | some literal => ofLiteral literal
  | none => string line

end LineScript.Value
