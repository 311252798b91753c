import LineScript.Number.Rounding
import LineScript.RuntimeError

namespace LineScript.Value

-- Integers that no float can hold are rounded.
def toFloat? : Value → Option Float
  | integer n => some (Number.ofInteger n)
  | float x => some x
  | _ => none

def undefined (operator : Operator) (a b : Value) : RuntimeError :=
  .undefined operator a.type (some b.type)

-- Integers stay integers; a float on either side makes floats of both.
def numeric (operator : Operator) (integers : Int64 → Int64 → Except RuntimeError Int64)
    (floats : Float → Float → Float) (a b : Value) : Except RuntimeError Value :=
  match a, b with
  | integer m, integer n => (integers m n).map integer
  | _, _ =>
      match a.toFloat?, b.toFloat? with
      | some x, some y => .ok (float (floats x y))
      | _, _ => .error (undefined operator a b)

def integral (operator : Operator) (integers : Int64 → Int64 → Except RuntimeError Int64)
    (a b : Value) : Except RuntimeError Value :=
  match a, b with
  | integer m, integer n => (integers m n).map integer
  | _, _ => .error (undefined operator a b)

-- Integer results wrap around.
def add : Value → Value → Except RuntimeError Value :=
  numeric .add (fun m n => .ok (m + n)) (· + ·)

def subtract : Value → Value → Except RuntimeError Value :=
  numeric .subtract (fun m n => .ok (m - n)) (· - ·)

def multiply : Value → Value → Except RuntimeError Value :=
  numeric .multiply (fun m n => .ok (m * n)) (· * ·)

-- The quotient of integers is cut off toward zero, and the remainder has the dividend's sign.
def divide : Value → Value → Except RuntimeError Value :=
  numeric .divide (fun m n => if n = 0 then .error .divisionByZero else .ok (m / n)) (· / ·)

def modulus : Value → Value → Except RuntimeError Value :=
  integral .modulus fun m n => if n = 0 then .error .divisionByZero else .ok (m % n)

-- A power on its way: the result so far still has to take `exponent` factors `base`.
structure Squaring where
  result : Int64
  base : Int64
  exponent : Nat
deriving DecidableEq, Repr

-- The last binary digit of the exponent decides whether the result takes the base.
def Squaring.turn (s : Squaring) : Squaring where
  result := if s.exponent % 2 = 1 then s.result * s.base else s.result
  base := s.base * s.base
  exponent := s.exponent / 2

def Squaring.finish (s : Squaring) : Int64 :=
  if s.exponent = 0 then s.result else s.turn.finish
termination_by s.exponent
decreasing_by exact Nat.div_lt_self (by omega) (by decide)

def wrappingPower (base : Int64) (exponent : Nat) : Int64 := Squaring.finish ⟨1, base, exponent⟩

def floatPower (a b : Value) : Except RuntimeError Value :=
  match a.toFloat?, b.toFloat? with
  | some x, some y => .ok (float (x.pow y))
  | _, _ => .error (undefined .power a b)

-- Only a negative exponent takes a pair of integers out of the integers.
def power (a b : Value) : Except RuntimeError Value :=
  match a, b with
  | integer base, integer exponent =>
      match Number.toIndex? exponent with
      | some n => .ok (integer (wrappingPower base n))
      | none => floatPower a b
  | _, _ => floatPower a b

def logarithm (a base : Value) : Except RuntimeError Value :=
  match a.toFloat?, base.toFloat? with
  | some x, some y => .ok (float (x.log / y.log))
  | _, _ => .error (undefined .logarithm a base)

-- To the nearest integer, a half to the even one.
def round : Value → Except RuntimeError Value
  | float x => .ok (integer (Number.roundToInteger x))
  | value => .error (.undefined .round value.type none)

def bitwiseAnd : Value → Value → Except RuntimeError Value :=
  integral .and fun m n => .ok (m &&& n)

def bitwiseOr : Value → Value → Except RuntimeError Value :=
  integral .or fun m n => .ok (m ||| n)

def bitwiseXor : Value → Value → Except RuntimeError Value :=
  integral .xor fun m n => .ok (m ^^^ n)

def bitwiseNegate : Value → Except RuntimeError Value
  | integer n => .ok (integer (~~~n))
  | value => .error (.undefined .negate value.type none)

end LineScript.Value
