import LineScript.Number.Dyadic
import LineScript.Value

namespace LineScript.Value

-- Where a number stands among the floats, if the value is one.
def place? : Value → Option (Option Int)
  | integer n => some (Number.place? (Number.ofInteger n))
  | float x => some (Number.place? x)
  | _ => none

mutual

-- Never fails: values of different types are unequal, except that an integer equals the float
-- nearest to it and a file the text of its name. Files are equal by name, and floats by place.
def equals : Value → Value → Bool
  | null, null => true
  | integer a, integer b => a == b
  | integer a, float b => Number.place? (Number.ofInteger a) == Number.place? b
  | float a, integer b => Number.place? a == Number.place? (Number.ofInteger b)
  | float a, float b => Number.place? a == Number.place? b
  | string a, string b => a == b
  | string a, reader b | string a, writer b => a == b.name
  | reader a, string b | writer a, string b => a.name == b
  | reader a, reader b | reader a, writer b
  | writer a, reader b | writer a, writer b => a.name == b.name
  | list a, list b => equalsItems a b
  | _, _ => false

def equalsItems : List Value → List Value → Bool
  | [], [] => true
  | a :: as, b :: bs => equals a b && equalsItems as bs
  | _, _ => false

end

mutual

-- The files whose names are asked for when two values are compared, in order. Lists of the same
-- length are compared up to the first pair of items that differ.
def compared : Value → Value → List Handle
  | string _, reader handle | string _, writer handle
  | reader handle, string _ | writer handle, string _ => [handle]
  | reader a, reader b | reader a, writer b
  | writer a, reader b | writer a, writer b => [a, b]
  | list a, list b => if a.length = b.length then comparedItems a b else []
  | _, _ => []

def comparedItems : List Value → List Value → List Handle
  | a :: as, b :: bs => compared a b ++ if equals a b then comparedItems as bs else []
  | _, _ => []

end

-- Two integers are compared as such, and other numbers by their places.
def order (integers : Int64 → Int64 → Bool) (places : Option Int → Option Int → Bool)
    (a b : Value) : Value :=
  match a, b with
  | integer m, integer n => ofBool (integers m n)
  | _, _ =>
      match a.place?, b.place? with
      | some p, some q => ofBool (places p q)
      | _, _ => incomparable

def lessThan : Value → Value → Value := order (fun m n => m < n) Number.before

def greaterThan : Value → Value → Value :=
  order (fun m n => n < m) (fun p q => Number.before q p)

end LineScript.Value
