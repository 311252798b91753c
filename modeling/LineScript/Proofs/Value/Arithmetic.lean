import LineScript.Value.Arithmetic
import Mathlib.Data.Int.ModEq
import Mathlib.Data.Nat.Size
import Mathlib.Tactic.Ring

namespace LineScript

namespace Number

-- A product and a quotient of words are off by a multiple of 2 ^ 64 at most.
theorem toInt_mul_modEq (a b : Int64) : (a * b).toInt ≡ a.toInt * b.toInt [ZMOD 2 ^ 64] := by
  rw [Int64.toInt_mul]
  exact Int.bmod_emod

theorem toInt_div_modEq (a b : Int64) : (a / b).toInt ≡ a.toInt.tdiv b.toInt [ZMOD 2 ^ 64] := by
  rw [Int64.toInt_div]
  exact Int.bmod_emod

end Number

namespace Value

open Number

namespace Squaring

-- What the result will be once all factors are taken.
def due (s : Squaring) : Int := s.result.toInt * s.base.toInt ^ s.exponent

-- The squared base also wraps around, in the last turn without being used any more.
theorem due_turn (s : Squaring) : s.turn.due ≡ s.due [ZMOD 2 ^ 64] := by
  obtain ⟨result, base, exponent⟩ := s
  have hsquare : (base * base).toInt ^ (exponent / 2) ≡ base.toInt ^ (2 * (exponent / 2))
      [ZMOD 2 ^ 64] := by
    rw [pow_mul, pow_two]
    exact (toInt_mul_modEq base base).pow _
  simp only [due, turn]
  obtain heven | hodd := Nat.mod_two_eq_zero_or_one exponent
  · have hexponent : 2 * (exponent / 2) = exponent := by omega
    rw [if_neg (by omega)]
    rw [hexponent] at hsquare
    exact hsquare.mul_left _
  · have hexponent : exponent = 2 * (exponent / 2) + 1 := by omega
    rw [if_pos hodd]
    calc (result * base).toInt * (base * base).toInt ^ (exponent / 2)
        ≡ result.toInt * base.toInt * base.toInt ^ (2 * (exponent / 2)) [ZMOD 2 ^ 64] :=
          (toInt_mul_modEq result base).mul hsquare
      _ = result.toInt * base.toInt ^ (2 * (exponent / 2) + 1) := by ring
      _ = result.toInt * base.toInt ^ exponent := by rw [← hexponent]

theorem finish_modEq (s : Squaring) : s.finish.toInt ≡ s.due [ZMOD 2 ^ 64] := by
  induction s using finish.induct with
  | case1 s hzero => rw [finish, if_pos hzero, due, hzero, pow_zero, mul_one]
  | case2 s hzero ih =>
      rw [finish, if_neg hzero]
      exact ih.trans s.due_turn

-- A turn behind the last one changes the base only.
theorem finish_turn (s : Squaring) : s.turn.finish = s.finish := by
  by_cases hzero : s.exponent = 0
  · rw [finish, if_pos (by simp [turn, hzero]), finish, if_pos hzero]
    simp [turn, hzero]
  · rw [finish.eq_def s, if_neg hzero]

theorem finish_iterate (s : Squaring) (k : Nat) : (turn^[k] s).finish = s.finish := by
  induction k with
  | zero => rfl
  | succ k ih => rw [Function.iterate_succ_apply', finish_turn, ih]

theorem exponent_iterate (s : Squaring) (k : Nat) :
    (turn^[k] s).exponent = s.exponent / 2 ^ k := by
  induction k with
  | zero => simp
  | succ k ih => rw [Function.iterate_succ_apply', turn, ih, Nat.div_div_eq_div_mul, pow_succ]

-- The exponent has as many turns as it has binary digits.
theorem exponent_iterate_eq_zero_iff (s : Squaring) (k : Nat) :
    (turn^[k] s).exponent = 0 ↔ s.exponent.size ≤ k := by
  rw [exponent_iterate, Nat.div_eq_zero_iff, Nat.size_le]
  simp

theorem finish_eq_result (s : Squaring) {k : Nat} (h : (turn^[k] s).exponent = 0) :
    s.finish = (turn^[k] s).result := by
  rw [← s.finish_iterate k, finish, if_pos h]

end Squaring

theorem wrappingPower_modEq (base : Int64) (exponent : Nat) :
    (wrappingPower base exponent).toInt ≡ base.toInt ^ exponent [ZMOD 2 ^ 64] := by
  have h := Squaring.finish_modEq ⟨1, base, exponent⟩
  rwa [Squaring.due, show (1 : Int64).toInt = 1 from rfl, one_mul] at h

-- A power of integers is the exact one, modulo 2 ^ 64, and no negative exponent gives an integer.
-- Every exponent of 64 binary digits is used up after one turn per digit.
theorem power_is_exact_modulo_word (base exponent : Int64) :
    (0 ≤ exponent.toInt → ∃ r : Int64,
      power (integer base) (integer exponent) = .ok (integer r) ∧
      -2 ^ 63 ≤ r.toInt ∧ r.toInt < 2 ^ 63 ∧
      r.toInt ≡ base.toInt ^ exponent.toInt.toNat [ZMOD 2 ^ 64]) ∧
    (exponent.toInt < 0 →
      power (integer base) (integer exponent) =
        .ok (float ((Number.ofInteger base).pow (Number.ofInteger exponent)))) ∧
    ∀ n < 2 ^ 64, ∃ turns ≤ 64,
      (∀ k < turns, (Squaring.turn^[k] ⟨1, base, n⟩).exponent ≠ 0) ∧
      (Squaring.turn^[turns] ⟨1, base, n⟩).exponent = 0 ∧
      wrappingPower base n = (Squaring.turn^[turns] ⟨1, base, n⟩).result ∧
      (wrappingPower base n).toInt ≡ base.toInt ^ n [ZMOD 2 ^ 64] := by
  refine ⟨fun hexponent => ?_, fun hexponent => ?_, fun n hn => ?_⟩
  · refine ⟨wrappingPower base exponent.toInt.toNat, ?_, Int64.le_toInt _, Int64.toInt_lt _,
      wrappingPower_modEq base _⟩
    rw [power, Number.toIndex?, if_pos hexponent]
  · rw [power, Number.toIndex?, if_neg (by omega)]
    rfl
  · refine ⟨n.size, Nat.size_le.mpr hn, fun k hk hzero => ?_, ?_, ?_, wrappingPower_modEq base n⟩
    · exact absurd ((Squaring.exponent_iterate_eq_zero_iff _ k).mp hzero) (by simpa using hk)
    · exact (Squaring.exponent_iterate_eq_zero_iff _ _).mpr le_rfl
    · exact Squaring.finish_eq_result _ ((Squaring.exponent_iterate_eq_zero_iff _ _).mpr le_rfl)

theorem powers_of_minus_three :
    power (integer (-3)) (integer 41) = .ok (integer 420491770248316829) ∧
    ∃ x, power (integer (-3)) (integer (-1)) = .ok (float x) := by
  refine ⟨?_, _, (power_is_exact_modulo_word (-3) (-1)).2.1 (by decide)⟩
  obtain ⟨r, hpower, hlow, hhigh, hmod⟩ := (power_is_exact_modulo_word (-3) 41).1 (by decide)
  have hresidue : r.toInt % 2 ^ 64 = 420491770248316829 := hmod
  have hr : r = 420491770248316829 :=
    Int64.toInt_inj.mp (show r.toInt = 420491770248316829 by omega)
  rw [hpower, hr]

example : wrappingPower 0 0 = 1 := by cbv

-- The only quotient of two words that is no word is that of the least one and -1.
theorem toInt_div_of_fits {a b : Int64} (h : ¬(a = Int64.minValue ∧ b = -1)) :
    (a / b).toInt = a.toInt.tdiv b.toInt := by
  obtain ha | hb := not_and_or.mp h
  · exact Int64.toInt_div_of_ne_left a b ha
  · exact Int64.toInt_div_of_ne_right a b hb

-- Quotient and remainder make up the dividend also where the quotient wraps around.
theorem quotient_mul_add_remainder (a b : Int64) :
    (a / b).toInt * b.toInt + (a % b).toInt ≡ a.toInt [ZMOD 2 ^ 64] := by
  calc (a / b).toInt * b.toInt + (a % b).toInt
      ≡ a.toInt.tdiv b.toInt * b.toInt + (a % b).toInt [ZMOD 2 ^ 64] :=
        ((toInt_div_modEq a b).mul_right _).add_right _
    _ = a.toInt := by rw [Int64.toInt_mod, Int.tdiv_mul_add_tmod]

theorem remainder_lt {a b : Int64} (hb : b ≠ 0) : |(a % b).toInt| < |b.toInt| := by
  have hpos : 0 < b.toInt.natAbs :=
    Int.natAbs_pos.mpr fun hzero => hb (Int64.toInt_inj.mp hzero)
  rw [Int64.toInt_mod, Int.abs_eq_natAbs, Int.abs_eq_natAbs, Int.natAbs_tmod]
  exact Int.ofNat_lt.mpr (Nat.mod_lt _ hpos)

theorem remainder_sign (a b : Int64) : a % b = 0 ∨ (a % b).toInt.sign = a.toInt.sign := by
  rw [← Int64.toInt_inj, Int64.toInt_mod, Int.sign_tmod]
  by_cases hdvd : b.toInt ∣ a.toInt
  · exact .inl (Int.tmod_eq_zero_of_dvd hdvd)
  · exact .inr (if_neg hdvd)

-- Both fail for a zero divisor and for nothing else. The one pair whose quotient is no word has
-- the wrapped quotient and the remainder zero.
theorem division_and_remainder_fit (a b : Int64) :
    (b = 0 →
      divide (integer a) (integer b) = .error .divisionByZero ∧
      modulus (integer a) (integer b) = .error .divisionByZero) ∧
    (b ≠ 0 → ∃ q r : Int64,
      divide (integer a) (integer b) = .ok (integer q) ∧
      modulus (integer a) (integer b) = .ok (integer r) ∧
      q.toInt * b.toInt + r.toInt ≡ a.toInt [ZMOD 2 ^ 64] ∧
      |r.toInt| < |b.toInt| ∧ (r = 0 ∨ r.toInt.sign = a.toInt.sign) ∧
      (¬(a = Int64.minValue ∧ b = -1) → q.toInt = a.toInt.tdiv b.toInt) ∧
      (a = Int64.minValue ∧ b = -1 → q = Int64.minValue ∧ r = 0)) := by
  refine ⟨?_, fun hb => ⟨a / b, a % b, ?_, ?_, quotient_mul_add_remainder a b, remainder_lt hb,
    remainder_sign a b, toInt_div_of_fits, ?_⟩⟩
  · rintro rfl
    exact ⟨rfl, rfl⟩
  · simp [divide, numeric, if_neg hb, Except.map]
  · simp [modulus, integral, if_neg hb, Except.map]
  · rintro ⟨rfl, rfl⟩
    exact ⟨rfl, rfl⟩

theorem least_integer_by_zero_and_minus_one :
    divide (integer Int64.minValue) (integer 0) = .error .divisionByZero ∧
    divide (integer Int64.minValue) (integer (-1)) = .ok (integer Int64.minValue) ∧
    modulus (integer Int64.minValue) (integer (-1)) = .ok (integer 0) := by
  obtain ⟨q, r, hdivide, hmodulus, -, -, -, -, hwrapped⟩ :=
    (division_and_remainder_fit Int64.minValue (-1)).2 (by decide)
  obtain ⟨rfl, rfl⟩ := hwrapped ⟨rfl, rfl⟩
  exact ⟨((division_and_remainder_fit Int64.minValue 0).1 rfl).1, hdivide, hmodulus⟩

end Value

end LineScript
