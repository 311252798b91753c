import LineScript.Number.Rounding
import Mathlib.Algebra.Order.Group.Unbundled.Int
import Mathlib.Algebra.Order.Ring.Int
import Mathlib.Data.Nat.Log

namespace LineScript.Number

-- Rounding goes to one of the two neighbours.
theorem roundHalfEven_bounds (numerator denominator : Nat) :
    numerator / denominator ≤ roundHalfEven numerator denominator ∧
      roundHalfEven numerator denominator ≤ numerator / denominator + 1 := by
  unfold roundHalfEven
  dsimp only
  split_ifs <;> omega

-- A greater quotient is not rounded to less.
theorem roundHalfEven_mono {n k : Nat} (h : n ≤ k) (denominator : Nat) :
    roundHalfEven n denominator ≤ roundHalfEven k denominator := by
  obtain hless | hsame := (Nat.div_le_div_right (c := denominator) h).lt_or_eq
  · have hup := (roundHalfEven_bounds n denominator).2
    have hdown := (roundHalfEven_bounds k denominator).1
    omega
  · have hn := Nat.div_add_mod n denominator
    have hk := Nat.div_add_mod k denominator
    rw [hsame] at hn
    unfold roundHalfEven
    dsimp only
    rw [hsame]
    split_ifs <;> omega

-- The 53 leading binary digits of a natural number, with zeros behind a shorter one. A longer one
-- is rounded, maybe up to the next power of two.
def significand (n : Nat) : Nat :=
  if n.log2 ≤ 52 then n * 2 ^ (52 - n.log2) else roundHalfEven n (2 ^ (n.log2 - 52))

theorem significand_of_short {n : Nat} (hpos : n ≠ 0) (hshort : n.log2 ≤ 52) :
    2 ^ 52 ≤ significand n ∧ significand n < 2 ^ 53 := by
  rw [significand, if_pos hshort]
  constructor
  · calc 2 ^ 52 = 2 ^ n.log2 * 2 ^ (52 - n.log2) := by rw [← pow_add]; congr 1; omega
      _ ≤ n * 2 ^ (52 - n.log2) := Nat.mul_le_mul_right _ (Nat.log2_self_le hpos)
  · calc n * 2 ^ (52 - n.log2)
        < 2 ^ (n.log2 + 1) * 2 ^ (52 - n.log2) :=
          Nat.mul_lt_mul_of_pos_right Nat.lt_log2_self (Nat.two_pow_pos _)
      _ = 2 ^ 53 := by rw [← pow_add]; congr 1; omega

theorem significand_of_long {n : Nat} (hpos : n ≠ 0) (hlong : 52 < n.log2) :
    2 ^ 52 ≤ significand n ∧ significand n ≤ 2 ^ 53 := by
  obtain ⟨hdown, hup⟩ := roundHalfEven_bounds n (2 ^ (n.log2 - 52))
  rw [significand, if_neg (by omega)]
  constructor
  · refine le_trans ?_ hdown
    rw [Nat.le_div_iff_mul_le (Nat.two_pow_pos _), ← pow_add, Nat.add_sub_cancel' hlong.le]
    exact Nat.log2_self_le hpos
  · refine hup.trans ?_
    have hdigits : 53 + (n.log2 - 52) = n.log2 + 1 := by omega
    rw [Nat.succ_le_iff, Nat.div_lt_iff_lt_mul (Nat.two_pow_pos _), ← pow_add, hdigits]
    exact Nat.lt_log2_self

theorem significand_bounds {n : Nat} (hpos : n ≠ 0) :
    2 ^ 52 ≤ significand n ∧ significand n ≤ 2 ^ 53 := by
  obtain hshort | hlong := le_or_gt n.log2 52
  · exact (significand_of_short hpos hshort).imp id le_of_lt
  · exact significand_of_long hpos hlong

theorem significand_mono {n k : Nat} (h : n ≤ k) (hlead : n.log2 = k.log2) :
    significand n ≤ significand k := by
  rw [significand, significand, hlead]
  split_ifs
  · exact Nat.mul_le_mul_right _ h
  · exact roundHalfEven_mono h _

-- Where the float nearest to a natural number stands among the floats.
def naturalPlace (n : Nat) : Nat := if n = 0 then 0 else (n.log2 + 1022) * 2 ^ 52 + significand n

theorem naturalPlace_eq {n : Nat} (hpos : n ≠ 0) :
    naturalPlace n = (n.log2 + 1022) * 2 ^ 52 + significand n := if_neg hpos

-- No word is so great that its float is infinite.
theorem naturalPlace_lt_of_word {n : Nat} (hword : n < 2 ^ 64) : naturalPlace n < 2047 * 2 ^ 52 := by
  obtain rfl | hpos := eq_or_ne n 0
  · simp [naturalPlace]
  · have hlead := (Nat.log2_lt hpos).mpr hword
    have hbehind := (significand_bounds hpos).2
    rw [naturalPlace_eq hpos]
    omega

-- Below 2 ^ 53 a natural number is not rounded, so nothing greater is rounded down to it.
theorem naturalPlace_lt {n k : Nat} (h : n < k) (hexact : n < 2 ^ 53) :
    naturalPlace n < naturalPlace k := by
  have hk : k ≠ 0 := Nat.ne_zero_of_lt h
  have hbehind := (significand_bounds hk).1
  rw [naturalPlace_eq hk]
  obtain rfl | hn := eq_or_ne n 0
  · rw [naturalPlace, if_pos rfl]
    omega
  · have hshort : n.log2 ≤ 52 := Nat.lt_succ_iff.mp ((Nat.log2_lt hn).mpr hexact)
    have hfront := (significand_of_short hn hshort).2
    have hle : n.log2 ≤ k.log2 := (Nat.le_log2 hk).mpr ((Nat.log2_self_le hn).trans h.le)
    rw [naturalPlace_eq hn]
    obtain hsame | hless := hle.eq_or_lt
    · rw [significand, significand, if_pos hshort, if_pos (hsame ▸ hshort), ← hsame]
      exact Nat.add_lt_add_left (Nat.mul_lt_mul_of_pos_right h (Nat.two_pow_pos _)) _
    · omega

-- Rounded or not, natural numbers keep their order. One that is rounded up to a power of two still
-- comes no later than that power.
theorem naturalPlace_mono {n k : Nat} (h : n ≤ k) : naturalPlace n ≤ naturalPlace k := by
  obtain rfl | hn := eq_or_ne n 0
  · simp [naturalPlace]
  · have hk : k ≠ 0 := by omega
    have hle : n.log2 ≤ k.log2 := (Nat.le_log2 hk).mpr ((Nat.log2_self_le hn).trans h)
    rw [naturalPlace_eq hn, naturalPlace_eq hk]
    obtain hless | hsame := hle.lt_or_eq
    · have hup := (significand_bounds hn).2
      have hdown := (significand_bounds hk).1
      omega
    · rw [hsame]
      exact Nat.add_le_add_left (significand_mono h hsame) _

theorem naturalPlace_inj {n k : Nat} (hexact : n < 2 ^ 53)
    (h : naturalPlace n = naturalPlace k) : n = k := by
  obtain hlt | heq | hgt := lt_trichotomy n k
  · exact absurd h (naturalPlace_lt hlt hexact).ne
  · exact heq
  · exact absurd h (naturalPlace_lt hgt (hgt.trans hexact)).ne'

def integerPlace (n : Int64) : Int :=
  if n.toInt < 0 then -(naturalPlace n.toInt.natAbs : Int) else naturalPlace n.toInt.natAbs

theorem integerPlace_mono {m n : Int64} (h : m.toInt ≤ n.toInt) :
    integerPlace m ≤ integerPlace n := by
  rw [integerPlace, integerPlace]
  split_ifs
  · have hplace := naturalPlace_mono (show n.toInt.natAbs ≤ m.toInt.natAbs by omega)
    omega
  · omega
  · omega
  · have hplace := naturalPlace_mono (show m.toInt.natAbs ≤ n.toInt.natAbs by omega)
    omega

-- An integer that is not rounded shares its place with no other.
theorem integerPlace_inj {m n : Int64} (hexact : |m.toInt| < 2 ^ 53)
    (h : integerPlace m = integerPlace n) : m = n := by
  have hsmall : m.toInt.natAbs < 2 ^ 53 := by
    rw [Int.abs_eq_natAbs] at hexact
    exact_mod_cast hexact
  have habs (hplace : naturalPlace m.toInt.natAbs = naturalPlace n.toInt.natAbs) :
      m.toInt.natAbs = n.toInt.natAbs := naturalPlace_inj hsmall hplace
  have hpos (k : Int64) (hk : k.toInt < 0) : 0 < naturalPlace k.toInt.natAbs := by
    rw [naturalPlace_eq (by omega)]
    omega
  refine Int64.toInt_inj.mp ?_
  rw [integerPlace, integerPlace] at h
  split_ifs at h with hm hn hn
  · have hsame := habs (by omega)
    omega
  · have hleft := hpos m hm
    omega
  · have hright := hpos n hn
    omega
  · have hsame := habs (by omega)
    omega

end LineScript.Number
