import LineScript.Number.Dyadic

namespace LineScript.Number

-- At least one digit and nothing else.
def readDigits? (cs : List Char) : Option Nat :=
  if cs ≠ [] ∧ cs.all Char.isDigit then some (Nat.ofDigitChars 10 cs 0) else none

def splitSign : List Char → Bool × List Char
  | '-' :: rest => (true, rest)
  | '+' :: rest => (false, rest)
  | cs => (false, cs)

def ofSigned? (negative : Bool) (absolute : Nat) : Option Int64 :=
  let n : Int := if negative then -absolute else absolute
  if Int64.minValue.toInt ≤ n ∧ n ≤ Int64.maxValue.toInt then some (Int64.ofInt n) else none

-- A sign is optional. What does not fit a word is no integer.
def readInteger? (cs : List Char) : Option Int64 :=
  (readDigits? (splitSign cs).2).bind (ofSigned? (splitSign cs).1)

-- A number written with a point, an exponent or both: ±0.digits · 10 ^ power.
structure Scientific where
  negative : Bool
  digits : List Char
  power : Int
deriving DecidableEq, Repr

def readExponent? : List Char → Option Int
  | [] => some 0
  | mark :: rest =>
      if mark = 'e' ∨ mark = 'E' then
        (readDigits? (splitSign rest).2).map fun n => if (splitSign rest).1 then -(n : Int) else n
      else none

def readFraction (cs : List Char) : List Char × List Char :=
  match cs with
  | '.' :: rest => rest.span Char.isDigit
  | _ => ([], cs)

-- The digits before and after the point may be missing on one side, not on both.
def readScientific? (cs : List Char) : Option Scientific :=
  let whole := (splitSign cs).2.span Char.isDigit
  let fraction := readFraction whole.2
  if whole.1 = [] ∧ fraction.1 = [] then none
  else (readExponent? fraction.2).map fun exponent =>
    ⟨(splitSign cs).1, whole.1 ++ fraction.1, whole.1.length + exponent⟩

-- Powers of ten beyond these bounds are infinite or vanish, so they are never computed.
def Scientific.absolute (s : Scientific) : Float :=
  let significant := s.digits.dropWhile (· = '0')
  let leading := s.digits.length - significant.length
  let power := s.power - leading
  let scale := power - significant.length
  if significant = [] then 0
  else if 400 < power then infinity
  else if power < -400 then 0
  else Float.ofScientific (Nat.ofDigitChars 10 significant 0) (scale < 0) scale.natAbs

def Scientific.toFloat (s : Scientific) : Float :=
  if s.negative then -s.absolute else s.absolute

inductive Literal where
  | integer (n : Int64)
  | float (x : Float)

-- Integer syntax gives an integer as long as it fits.
def Literal.read? (cs : List Char) : Option Literal :=
  match readInteger? cs with
  | some n => some (.integer n)
  | none => (readScientific? cs).map fun s => .float s.toFloat

end LineScript.Number
