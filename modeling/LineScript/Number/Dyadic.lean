namespace LineScript.Number

def twoTo (n : Nat) : Nat := Nat.pow 2 n

def tenTo (n : Nat) : Nat := Nat.pow 10 n

-- The number ±mantissa · 2 ^ exponent.
structure Dyadic where
  negative : Bool
  mantissa : Nat
  exponent : Int
deriving DecidableEq, Repr

inductive Magnitude where
  | finite (value : Dyadic)
  | infinite (negative : Bool)
  | notANumber
deriving DecidableEq, Repr

def fractionBits : Nat := 52

-- Reads the fields of a binary64 word. The lowest exponent field has no hidden bit.
def magnitude (x : Float) : Magnitude :=
  let bits := x.toBits.toNat
  let negative := bits / twoTo 63 == 1
  let field := bits / twoTo fractionBits % 2048
  let fraction := bits % twoTo fractionBits
  if field = 2047 then
    if fraction = 0 then .infinite negative else .notANumber
  else if field = 0 then .finite ⟨negative, fraction, -1074⟩
  else .finite ⟨negative, twoTo fractionBits + fraction, (field : Int) - 1075⟩

-- The absolute value as a quotient of naturals.
def Dyadic.quotient (d : Dyadic) : Nat × Nat :=
  match d.exponent with
  | .ofNat n => (d.mantissa * twoTo n, 1)
  | .negSucc n => (d.mantissa, twoTo (n + 1))

def infinity : Float := Float.ofBits 0x7FF0000000000000

-- The float nearest to an integer; a half goes to the even neighbour.
def ofInteger (n : Int64) : Float := Float.ofModel (.ofInt n.toInt)

-- Where a float stands among the floats: those in order have places in order, and both zeros stand
-- at zero. What is not a number stands nowhere.
def place? (x : Float) : Option Int :=
  let bits := x.toBits.toNat
  match magnitude x with
  | .notANumber => none
  | _ => some (if bits < twoTo 63 then bits else -((bits - twoTo 63 : Nat) : Int))

-- Nothing stands before or after what stands nowhere.
def before : Option Int → Option Int → Bool
  | some a, some b => a < b
  | _, _ => false

end LineScript.Number
