import LineScript.Number.Dyadic
import LineScript.Proofs.Number.Place
import Mathlib

namespace LineScript.Number

open Float.Model.UnpackedFloat Float.Model.Format
open Float.Model (totalExponent UnpackedFloat)

section Packing

theorem toNat_packComponents (sign : Sign) (exponent : BitVec 11) (mantissa : BitVec 52) :
    (packComponents binary64 sign exponent mantissa).toNat =
      sign.toBitVec.toNat * 2 ^ 63 + exponent.toNat * 2 ^ 52 + mantissa.toNat := by
  rw [packComponents, BitVec.toNat_append, BitVec.toNat_append,
    ← Nat.shiftLeft_add_eq_or_of_lt exponent.isLt, ← Nat.shiftLeft_add_eq_or_of_lt mantissa.isLt,
    Nat.shiftLeft_eq, Nat.shiftLeft_eq]
  ring

theorem log2_eq_of_bounds {m : Nat} (hlow : 2 ^ 52 ≤ m) (hhigh : m < 2 ^ 53) : m.log2 = 52 := by
  have hpos : m ≠ 0 := by omega
  have hle := (Nat.le_log2 hpos).mpr hlow
  have hlt := (Nat.log2_lt hpos).mpr hhigh
  omega

-- The hidden bit of the mantissa carries into the exponent field.
theorem toNat_pack_finite (sign : Sign) {m lead : Nat} (hpos : 0 < m) (hlow : 2 ^ 52 ≤ m)
    (hhigh : m < 2 ^ 53) (hlead : lead ≤ 64) :
    (UnpackedFloat.pack binary64 (.finite sign m ((lead : Int) - 52) hpos)).toNat =
      sign.toBitVec.toNat * 2 ^ 63 + (lead + 1022) * 2 ^ 52 + m := by
  have hfield : ((lead : Int) - 52 + binary64.exponentBias +
      binary64.mantissaBitsWithoutImplicit).toNat = lead + 1023 := by
    rw [show binary64.exponentBias = 1023 from rfl]
    dsimp only
    omega
  rw [UnpackedFloat.pack]
  simp only [hfield, log2_eq_of_bounds hlow hhigh]
  rw [if_neg (show ¬2 ^ 11 ≤ lead + 1023 + 1 by omega),
    if_pos (show 52 + 1 = binary64.mantissaBits from rfl), toNat_packComponents,
    BitVec.toNat_ofNat, BitVec.toNat_ofNat]
  omega

end Packing

section Shifting

-- No natural number is so close to zero that its digits would have to stop early.
theorem targetExponent_eq {m : Nat} {e : Int} (h : -1022 ≤ m.log2 + e) :
    binary64.targetExponent (totalExponent m e) = m.log2 + e - 52 := by
  rw [targetExponent, totalExponent, show binary64.minExponent = -1074 by decide,
    show binary64.mantissaBits = 53 from rfl]
  omega

theorem shift_of_fits {m lead : Nat} (hlow : 2 ^ 52 ≤ m) (hhigh : m < 2 ^ 53) :
    shiftToTargetExponent binary64 m ((lead : Int) - 52) .exact =
      (⟨m, false, false⟩, (lead : Int) - 52) := by
  have hlog := log2_eq_of_bounds hlow hhigh
  rw [shiftToTargetExponent, targetExponent_eq (by omega), hlog, shiftToExponent]
  have hstay : ((52 : Nat) + ((lead : Int) - 52) - 52 - (lead - 52)).toNat = 0 := by omega
  simp only [hstay, Prod.mk.injEq]
  exact ⟨rfl, by omega⟩

theorem shift_of_carry (lead : Nat) :
    shiftToTargetExponent binary64 (2 ^ 53) ((lead : Int) - 52) .exact =
      (⟨2 ^ 52, false, false⟩, ((lead + 1 : Nat) : Int) - 52) := by
  have hlog : (2 ^ 53 : Nat).log2 = 53 := Nat.log2_two_pow
  rw [shiftToTargetExponent, targetExponent_eq (by omega), hlog, shiftToExponent]
  have hone : ((53 : Nat) + ((lead : Int) - 52) - 52 - (lead - 52)).toNat = 1 := by omega
  simp only [hone, Prod.mk.injEq]
  exact ⟨rfl, by omega⟩

theorem roundedMantissa_mk (down : Nat) (half rest : Bool) :
    (ExtendedMantissa.mk down half rest).roundedMantissa =
      if half then (if rest then down + 1 else down + down % 2) else down := by
  cases half <;> cases rest <;> rfl

-- The last digit that is cut off stands for a half, and the others are only asked for being zero.
theorem shiftRight_exact (k n : Nat) :
    ExtendedMantissa.ofMantissaAndAccuracy k .exact >>> (n + 1) =
      ⟨k / 2 ^ (n + 1), k / 2 ^ n % 2 != 0, k % 2 ^ n != 0⟩ := by
  induction n with
  | zero =>
      change ExtendedMantissa.shiftRightOne ⟨k, false, false⟩ = _
      simp [ExtendedMantissa.shiftRightOne, Nat.mod_one]
  | succ n ih =>
      have hdiv : k / 2 ^ (n + 1) / 2 = k / 2 ^ (n + 1 + 1) := by
        rw [Nat.div_div_eq_div_mul, ← pow_succ]
      have hrest : (k / 2 ^ n % 2 != 0 || k % 2 ^ n != 0) = (k % 2 ^ (n + 1) != 0) := by
        rw [Nat.mod_pow_succ, Bool.eq_iff_iff]
        simp
        omega
      change ExtendedMantissa.shiftRightOne
        (ExtendedMantissa.ofMantissaAndAccuracy k .exact >>> (n + 1)) = _
      rw [ih, ExtendedMantissa.shiftRightOne, hdiv, hrest]

theorem roundedMantissa_shiftRight (k n : Nat) :
    (ExtendedMantissa.ofMantissaAndAccuracy k .exact >>> (n + 1)).roundedMantissa =
      roundHalfEven k (2 ^ (n + 1)) := by
  have hrest : k % 2 ^ (n + 1) = k % 2 ^ n + 2 ^ n * (k / 2 ^ n % 2) := Nat.mod_pow_succ
  have hdouble : 2 ^ (n + 1) = 2 * 2 ^ n := pow_succ' 2 n
  have hlow : k % 2 ^ n < 2 ^ n := Nat.mod_lt _ (Nat.two_pow_pos n)
  have hdigit := Nat.mod_two_eq_zero_or_one (k / 2 ^ n)
  rw [shiftRight_exact, roundedMantissa_mk, roundHalfEven, hrest]
  generalize k / 2 ^ (n + 1) = down
  rw [hdouble]
  generalize k % 2 ^ n = low at *
  generalize k / 2 ^ n % 2 = digit at *
  generalize 2 ^ n = half at *
  simp only [bne_iff_ne]
  obtain rfl | rfl := hdigit
  · split_ifs <;> omega
  · split_ifs <;> omega

theorem roundWithAccuracy_eq {sign : Sign} {m rounded : Nat} {e first last : Int}
    {em : ExtendedMantissa} (hfirst : shiftToTargetExponent binary64 m e .exact = (em, first))
    (hlast : shiftToTargetExponent binary64 em.roundedMantissa first .exact =
      (⟨rounded, false, false⟩, last)) (hpos : 0 < rounded) :
    roundWithAccuracy binary64 sign m e .exact = .finite sign rounded last hpos := by
  simp [roundWithAccuracy, hfirst, hlast, hpos.ne']

end Shifting

section Rounding

variable {k : Nat}

-- A short number gets zeros behind it, a long one loses its last digits.
theorem significand_of_shift (hpos : k ≠ 0) :
    ∃ m e em,
      decreaseExponent k 0 (binary64.targetExponent (totalExponent k 0)) = (m, e) ∧
      shiftToTargetExponent binary64 m e .exact = (em, (k.log2 : Int) - 52) ∧
      em.roundedMantissa = significand k := by
  have htarget : binary64.targetExponent (totalExponent k 0) = (k.log2 : Int) - 52 := by
    rw [targetExponent_eq (by omega), add_zero]
  rw [htarget]
  obtain hshort | hlong := le_or_gt k.log2 52
  · obtain ⟨hlow, hhigh⟩ := significand_of_short hpos hshort
    refine ⟨significand k, (k.log2 : Int) - 52, ⟨significand k, false, false⟩, ?_,
      shift_of_fits hlow hhigh, rfl⟩
    have hleft : (0 - ((k.log2 : Int) - 52)).toNat = 52 - k.log2 := by omega
    rw [decreaseExponent, hleft, Nat.shiftLeft_eq, significand, if_pos hshort, Prod.mk.injEq]
    exact ⟨rfl, by omega⟩
  · obtain ⟨n, hn⟩ : ∃ n, k.log2 - 52 = n + 1 := ⟨k.log2 - 53, by omega⟩
    have hleft : (0 - ((k.log2 : Int) - 52)).toNat = 0 := by omega
    have hright : ((k.log2 : Int) - 52 - 0).toNat = n + 1 := by omega
    refine ⟨k, 0, ExtendedMantissa.ofMantissaAndAccuracy k .exact >>> (n + 1), ?_, ?_, ?_⟩
    · rw [decreaseExponent, hleft]
      rfl
    · rw [shiftToTargetExponent, htarget, shiftToExponent]
      simp only [hright, Prod.mk.injEq, true_and]
      omega
    · rw [roundedMantissa_shiftRight, significand, if_neg (by omega), hn]

theorem toNat_pack_round (sign : Sign) (hpos : k ≠ 0) (hword : k.log2 < 64) :
    (UnpackedFloat.pack binary64 (UnpackedFloat.round binary64 sign k 0)).toNat =
      sign.toBitVec.toNat * 2 ^ 63 + naturalPlace k := by
  obtain ⟨m, e, em, hdecrease, hfirst, hrounded⟩ := significand_of_shift hpos
  obtain ⟨hlow, hhigh⟩ := significand_bounds hpos
  rw [← hrounded] at hlow hhigh
  rw [naturalPlace_eq hpos, ← hrounded, UnpackedFloat.round, hdecrease]
  dsimp only
  obtain hless | hcarried := hhigh.lt_or_eq
  · rw [roundWithAccuracy_eq hfirst (shift_of_fits hlow hless) (by omega),
      toNat_pack_finite sign _ hlow hless (by omega)]
    omega
  · rw [roundWithAccuracy_eq hfirst (hcarried ▸ shift_of_carry k.log2) (by omega), hcarried,
      toNat_pack_finite sign _ le_rfl (by omega) (by omega)]
    omega

theorem toNat_pack_normalize {z : Int} (hword : z.natAbs < 2 ^ 64) :
    (UnpackedFloat.pack binary64 (UnpackedFloat.normalize binary64 z 0 .positive)).toNat =
      (if z < 0 then 2 ^ 63 else 0) + naturalPlace z.natAbs := by
  obtain hneg | rfl | hpos := lt_trichotomy z 0
  · have hnat : (-z).toNat = z.natAbs := by omega
    rw [UnpackedFloat.normalize, Int.compare_eq_lt.mpr hneg, if_pos hneg]
    dsimp only
    rw [hnat, toNat_pack_round _ (by omega) ((Nat.log2_lt (by omega)).mpr hword)]
    rfl
  · rfl
  · have hnat : z.toNat = z.natAbs := by omega
    rw [UnpackedFloat.normalize, Int.compare_eq_gt.mpr hpos, if_neg (by omega)]
    dsimp only
    rw [hnat, toNat_pack_round _ (by omega) ((Nat.log2_lt (by omega)).mpr hword)]
    rfl

end Rounding

theorem place?_of_field {x : Float} (h : x.toBits.toNat / 2 ^ 52 % 2048 ≠ 2047) :
    place? x = some (if x.toBits.toNat < 2 ^ 63 then (x.toBits.toNat : Int)
      else -((x.toBits.toNat - 2 ^ 63 : Nat) : Int)) := by
  have hnumber : magnitude x ≠ .notANumber := by
    have hfield : ¬x.toBits.toNat / twoTo fractionBits % 2048 = 2047 := h
    simp only [magnitude, if_neg hfield]
    split_ifs <;> nofun
  rw [place?]
  split
  · rename_i hnone
    exact absurd hnone hnumber
  · rfl

-- The place of an integer among the floats is that of the float it is promoted to.
theorem place?_ofInteger (n : Int64) : place? (ofInteger n) = some (integerPlace n) := by
  have hlow := n.le_toInt
  have hhigh := n.toInt_lt
  have hsmall := naturalPlace_lt_of_word (n := n.toInt.natAbs) (by omega)
  have hbits : (ofInteger n).toBits.toNat =
      (if n.toInt < 0 then 2 ^ 63 else 0) + naturalPlace n.toInt.natAbs :=
    toNat_pack_normalize (by omega)
  rw [integerPlace]
  split_ifs at hbits ⊢
  · rw [place?_of_field (by omega), if_neg (by omega), hbits, Nat.add_sub_cancel_left]
  · rw [zero_add] at hbits
    rw [place?_of_field (by omega), if_pos (by omega), hbits]

theorem place?_eq_none_iff {x : Float} : place? x = none ↔ magnitude x = .notANumber := by
  rw [place?]
  split
  · rename_i hnone
    exact iff_of_true rfl hnone
  · rename_i hnumber
    exact iff_of_false (by nofun) hnumber

-- Integers that are promoted keep their order, though two of them may come to share a place.
theorem promotion_mono {m n : Int64} {p q : Int} (h : m ≤ n)
    (hm : place? (ofInteger m) = some p) (hn : place? (ofInteger n) = some q) : p ≤ q := by
  rw [place?_ofInteger, Option.some.injEq] at hm hn
  rw [← hm, ← hn]
  exact integerPlace_mono (Int64.le_iff_toInt_le.mp h)

-- Two integers that are promoted to one float are the same unless both are rounded.
theorem promotion_inj {m n : Int64} (hexact : |m.toInt| < 2 ^ 53)
    (h : place? (ofInteger m) = place? (ofInteger n)) : m = n := by
  rw [place?_ofInteger, place?_ofInteger] at h
  exact integerPlace_inj hexact (Option.some.inj h)

end LineScript.Number
