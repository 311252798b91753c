import LineScript.Number.Shortest

namespace LineScript

-- Copies of a file value share one handle. The name is the one the file was opened with.
structure Handle where
  id : Nat
  name : String
deriving DecidableEq, Repr

-- `incomparable` is the outcome of ordering two values that have no order.
inductive Value where
  | null
  | integer (n : Int64)
  | float (x : Float)
  | string (text : String)
  | list (items : List Value)
  | reader (handle : Handle)
  | writer (handle : Handle)
  | incomparable
deriving Inhabited

inductive ValueType where
  | null
  | integer
  | float
  | string
  | list
  | reader
  | writer
  | incomparable
deriving DecidableEq, Repr

def ValueType.name : ValueType → String
  | null => "NULL"
  | integer => "INTEGER"
  | float => "FLOAT"
  | string => "STRING"
  | list => "LIST"
  | reader => "READFILE"
  | writer => "WRITEFILE"
  | incomparable => "NAN"

namespace Value

def type : Value → ValueType
  | null => .null
  | integer _ => .integer
  | float _ => .float
  | string _ => .string
  | list _ => .list
  | reader _ => .reader
  | writer _ => .writer
  | incomparable => .incomparable

def ofBool (b : Bool) : Value := integer (if b then 1 else 0)

def handle? : Value → Option Handle
  | reader handle | writer handle => some handle
  | _ => none

def fileName? (value : Value) : Option String := value.handle?.map (·.name)

def fileText (kind : String) (isOpen : Bool) (name : String) : String :=
  kind ++ " FILE (" ++ (if isOpen then "open" else "closed") ++ ") '" ++ name ++ "'"

mutual

-- Whether a file is open is not part of its value, so it has to be told.
def display (opened : Handle → Bool) : Value → String
  | null => "null"
  | integer n => Number.integerText n
  | float x => Number.floatText x
  | string text => text
  | list items => "( " ++ displayItems opened items ++ " )"
  | reader handle => fileText "READ" (opened handle) handle.name
  | writer handle => fileText "WRITE" (opened handle) handle.name
  | incomparable => "NaN"

def displayItems (opened : Handle → Bool) : List Value → String
  | [] => ""
  | [item] => display opened item
  | item :: rest => display opened item ++ ", " ++ displayItems opened rest

end

mutual

-- The handles in a value, at any depth of lists, in the order in which they are met.
def handles : Value → List Handle
  | list items => handlesOfItems items
  | reader handle | writer handle => [handle]
  | _ => []

def handlesOfItems : List Value → List Handle
  | [] => []
  | item :: rest => handles item ++ handlesOfItems rest

end

def holds (value : Value) (handle : Handle) : Bool := value.handles.contains handle

end Value

end LineScript
