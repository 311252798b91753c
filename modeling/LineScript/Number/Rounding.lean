import LineScript.Number.Dyadic

namespace LineScript.Number

-- The nearest natural to a quotient; a half goes to the even neighbour.
def roundHalfEven (numerator denominator : Nat) : Nat :=
  let down := numerator / denominator
  let twice := 2 * (numerator % denominator)
  if twice < denominator then down
  else if denominator < twice then down + 1
  else if down % 2 = 0 then down else down + 1

-- The nearest integer a word can hold.
def saturate (n : Int) : Int64 :=
  if n < Int64.minValue.toInt then Int64.minValue
  else if Int64.maxValue.toInt < n then Int64.maxValue
  else Int64.ofInt n

theorem toInt_saturate {k : Nat} (h : (k : Int) ≤ Int64.maxValue.toInt) :
    (saturate k).toInt = k := by
  have hmin : Int64.minValue.toInt = -9223372036854775808 := by decide
  have hmax : Int64.maxValue.toInt = 9223372036854775807 := by decide
  unfold saturate
  rw [if_neg (by omega), if_neg (by omega), Int64.toInt_ofInt_of_le (by omega) (by omega)]

def Dyadic.signed (d : Dyadic) (absolute : Nat) : Int :=
  if d.negative then -absolute else absolute

-- Turns a float into an integer by the given rule on absolute values. What is not a number
-- becomes zero, and what does not fit becomes the nearest bound.
def toIntegerBy (rule : Nat → Nat → Nat) (x : Float) : Int64 :=
  match magnitude x with
  | .finite d => saturate (d.signed (rule d.quotient.1 d.quotient.2))
  | .infinite negative => if negative then Int64.minValue else Int64.maxValue
  | .notANumber => 0

def roundToInteger (x : Float) : Int64 := toIntegerBy roundHalfEven x

def truncateToInteger (x : Float) : Int64 := toIntegerBy (· / ·) x

-- The position an integer stands for, if it is not negative.
def toIndex? (n : Int64) : Option Nat :=
  if 0 ≤ n.toInt then some n.toInt.toNat else none

structure Duration where
  seconds : Nat
  nanoseconds : Nat
deriving DecidableEq, Repr

-- Rounded to the nearest nanosecond. There is none for negative numbers, or from 2 ^ 64 seconds
-- on; the negative zero is no negative number.
def Duration.ofSeconds? (x : Float) : Option Duration :=
  match magnitude x with
  | .finite d =>
      let nanoseconds := roundHalfEven (d.quotient.1 * tenTo 9) d.quotient.2
      if d.negative && d.mantissa != 0 then none
      else if twoTo 64 ≤ nanoseconds / tenTo 9 then none
      else some ⟨nanoseconds / tenTo 9, nanoseconds % tenTo 9⟩
  | _ => none

end LineScript.Number
