import LineScript.Console
import LineScript.Log
import LineScript.Memory

namespace LineScript

-- Random words, one after the other. Where they come from is left open.
def Words := Nat → UInt64

-- One word over and over.
instance (n : Nat) : OfNat Words n := ⟨fun _ => UInt64.ofNat n⟩

-- The words that are still to be drawn.
structure Random where
  words : Words

namespace Random

def next (random : Random) : UInt64 × Random :=
  (random.words 0, ⟨fun n => random.words (n + 1)⟩)

-- An integer from zero up to a positive bound.
def below (random : Random) (bound : Nat) : Nat × Random :=
  (random.next.1.toNat % bound, random.next.2)

-- A float from zero up to one, a multiple of 2 ^ -53.
def unit (random : Random) : Float × Random :=
  let high := random.next.1.toNat / Number.twoTo 11
  (Float.ofScientific high false 0 / Float.ofScientific (Number.twoTo 53) false 0, random.next.2)

end Random

-- Everything outside a program that it can touch, and what is not up to the program: the random
-- draws, the orders in which the variables of one scope after the other are met, and the length of
-- a list of nulls that memory has room for.
structure World where
  console : Console
  files : Files
  random : Random
  log : Log
  orders : Nat → Scope.Order := fun _ => .ofCreation
  room : Nat := Number.twoTo 30

namespace World

def opened (world : World) : Handle → Bool := world.files.isOpen

def note (world : World) (record : Record) : World :=
  { world with log := world.log.add record }

-- An order is never used again.
def pastOrder (world : World) : World :=
  { world with orders := fun n => world.orders (n + 1) }

end World

end LineScript
