import LineScript.Number.Dyadic

namespace LineScript.Number

-- The reals that round to one float, as numerators over a common denominator: the float itself
-- and the two ends. The ends belong to it when the mantissa is even.
structure Interval where
  low : Nat
  value : Nat
  high : Nat
  denominator : Nat
  closed : Bool
deriving DecidableEq, Repr

-- Below a power of two the next float is only half as far away.
def Dyadic.interval (d : Dyadic) : Interval :=
  let below := if d.mantissa = twoTo fractionBits then 1 else 2
  let unit := Dyadic.quotient { d with mantissa := 1 }
  { low := (4 * d.mantissa - below) * unit.1
    value := 4 * d.mantissa * unit.1
    high := (4 * d.mantissa + 2) * unit.1
    denominator := 4 * unit.2
    closed := d.mantissa % 2 == 0 }

-- The same interval measured in units of a power of ten.
def Interval.inUnits (i : Interval) : Int → Interval
  | .ofNat n => { i with denominator := i.denominator * tenTo n }
  | .negSucc n =>
      let scale := tenTo (n + 1)
      { i with low := i.low * scale, value := i.value * scale, high := i.high * scale }

def Interval.contains (i : Interval) (n : Nat) : Bool :=
  let point := n * i.denominator
  if i.closed then i.low ≤ point && point ≤ i.high else i.low < point && point < i.high

-- The whole number of the interval that is nearest to its float; a tie goes up.
def Interval.nearest? (i : Interval) : Option Nat :=
  let down := i.value / i.denominator
  match i.contains down, i.contains (down + 1) with
  | true, true =>
      if 2 * i.value < (2 * down + 1) * i.denominator then some down else some (down + 1)
  | true, false => some down
  | false, true => some (down + 1)
  | false, false => none

-- Every positive float times this is at least one.
def headroom : Nat := 400

-- The `k` with 10 ^ (k - 1) ≤ value < 10 ^ k.
def Interval.order (i : Interval) : Int :=
  ((Nat.toDigits 10 (i.value * tenTo headroom / i.denominator)).length : Int) - headroom

-- Seventeen digits tell any two floats apart.
def longest : Nat := 17

-- The fewest digits that read back as the float, as a number and the power of ten it is scaled
-- by. The coarsest grid has no digits of its own: there only the next power of ten can fit.
def Interval.shortest (i : Interval) : Nat × Int :=
  let grid (digits : Nat) : Option (Nat × Int) :=
    let power := i.order - digits
    ((i.inUnits power).nearest?).map (·, power)
  ((List.range (longest + 1)).findSome? grid).getD (0, 0)

-- Plain positional notation of digits · 10 ^ power, without an exponent.
def positional (digits : Nat) : Int → List Char
  | .ofNat n => Nat.toDigits 10 digits ++ List.replicate n '0'
  | .negSucc n =>
      let places := n + 1
      let written := Nat.toDigits 10 digits
      let padded := List.replicate (places + 1 - written.length) '0' ++ written
      padded.take (padded.length - places) ++ '.' :: padded.drop (padded.length - places)

def Dyadic.text (d : Dyadic) : List Char :=
  let absolute :=
    if d.mantissa = 0 then ['0'] else positional d.interval.shortest.1 d.interval.shortest.2
  if d.negative then '-' :: absolute else absolute

def floatText (x : Float) : String :=
  match magnitude x with
  | .finite d => String.ofList d.text
  | .infinite negative => if negative then "-inf" else "inf"
  | .notANumber => "NaN"

def integerText (n : Int64) : String :=
  match n.toInt with
  | .ofNat k => String.ofList (Nat.toDigits 10 k)
  | .negSucc k => String.ofList ('-' :: Nat.toDigits 10 (k + 1))

end LineScript.Number
