import Mathlib
import OxScada.Js.Number

/-! Integers as binary64 values. Below `2 ^ 53` they are exact, and so are their differences and their order. -/

namespace OxScada.Js
open Float.Model UnpackedFloat

def ofInteger (n : ℤ) : Float := .ofModel (Float.Model.ofInt n)

/-- The value is the integer, and the highest bit of its mantissa is in place. -/
def Exactly (n : ℤ) : UnpackedFloat → Prop
  | .zero _ => n = 0
  | .finite sign mantissa exponent _ =>
    mantissa.log2 = 52 ∧ -52 ≤ exponent ∧ exponent ≤ 0 ∧ sign.apply mantissa = n * 2 ^ (-exponent).toNat
  | _ => False

variable {n m : ℤ} {v k j : ℕ} {sign : Sign} {x y : UnpackedFloat} {value : Float}

/-! ### Rounding -/

theorem log2_mul_pow (hv : v ≠ 0) (k : ℕ) : (v * 2 ^ k).log2 = v.log2 + k := by
  induction k with
  | zero => rw [pow_zero, mul_one, add_zero]
  | succ k ih =>
    have hpos : v * 2 ^ k ≠ 0 := mul_ne_zero hv (by positivity)
    rw [pow_succ', mul_left_comm, Nat.log2_two_mul hpos, ih, add_assoc]

theorem shiftRight_exact (v j : ℕ) : (⟨v * 2 ^ j, false, false⟩ : ExtendedMantissa) >>> j = ⟨v, false, false⟩ := by
  show Nat.repeat ExtendedMantissa.shiftRightOne j _ = _
  induction j generalizing v with
  | zero => rw [pow_zero, mul_one]; rfl
  | succ j ih =>
    have hstep : v * 2 ^ (j + 1) = 2 * v * 2 ^ j := by ring
    rw [Nat.repeat, hstep, ih]
    simp [ExtendedMantissa.shiftRightOne]

theorem targetExponent_binary64 (total : ℤ) (h : -1021 ≤ total) : Format.binary64.targetExponent total = total - 53 := by
  have hmin : Format.binary64.minExponent = -1074 := rfl
  have hbits : (Format.binary64.mantissaBits : ℤ) = 53 := rfl
  rw [Format.targetExponent, hmin, hbits]
  omega

variable {e : ℤ}

theorem shiftToTargetExponent_exact (hv : v.log2 = 52) (j : ℕ) (he : -1074 ≤ e + j) :
    shiftToTargetExponent .binary64 (v * 2 ^ j) e .exact = (⟨v, false, false⟩, e + j) := by
  have hpos : v ≠ 0 := by
    rintro rfl
    cases hv
  have htotal : totalExponent (v * 2 ^ j) e = e + j + 53 := by
    rw [totalExponent, log2_mul_pow hpos, hv]
    push_cast
    ring
  have hshift : (e + j - e).toNat = j := by omega
  rw [shiftToTargetExponent, htotal, targetExponent_binary64 _ (by omega), add_sub_cancel_right, shiftToExponent, hshift]
  have hexact := shiftRight_exact v j
  rw [ExtendedMantissa.ofMantissaAndAccuracy, hexact]

theorem roundWithAccuracy_exact (hv : v.log2 = 52) (hpos : 0 < v) (sign : Sign) (j : ℕ) (he : -1074 ≤ e + j) :
    roundWithAccuracy .binary64 sign (v * 2 ^ j) e .exact = .finite sign v (e + j) hpos := by
  have hagain := shiftToTargetExponent_exact hv 0 (by simpa using he)
  simp only [pow_zero, mul_one, Nat.cast_zero, add_zero] at hagain
  rw [roundWithAccuracy, shiftToTargetExponent_exact hv j he]
  simp only [ExtendedMantissa.roundedMantissa, ExtendedMantissa.accuracy, Accuracy.roundToNearestEven, hagain]
  exact dif_neg hpos.ne'

theorem round_exact (hv : v ≠ 0) (hlog : v.log2 ≤ 52) (sign : Sign) (k : ℕ) :
    ∃ hpos, round .binary64 sign (v * 2 ^ k) (-k) = .finite sign (v * 2 ^ (52 - v.log2)) (v.log2 - 52) hpos := by
  have hpos : 0 < v * 2 ^ (52 - v.log2) := Nat.mul_pos (Nat.pos_of_ne_zero hv) (by positivity)
  have hplace : (v * 2 ^ (52 - v.log2)).log2 = 52 := by
    rw [log2_mul_pow hv]
    omega
  have htotal : totalExponent (v * 2 ^ k) (-k) = v.log2 + 1 := by
    rw [totalExponent, log2_mul_pow hv]
    push_cast
    ring
  refine ⟨hpos, ?_⟩
  rw [UnpackedFloat.round, htotal, targetExponent_binary64 _ (by omega), decreaseExponent, Nat.shiftLeft_eq]
  -- Either the mantissa is too short, or it has zeros beyond its place.
  rcases le_total k (52 - v.log2) with hshort | hlong
  · have hshift : (-(k : ℤ) - (v.log2 + 1 - 53)).toNat = 52 - v.log2 - k := by omega
    have hmantissa : v * 2 ^ k * 2 ^ (52 - v.log2 - k) = v * 2 ^ (52 - v.log2) * 2 ^ 0 := by
      rw [mul_assoc, ← pow_add, Nat.add_sub_cancel' hshort, pow_zero, mul_one]
    have hexact := roundWithAccuracy_exact hplace hpos sign 0 (by omega : -1074 ≤ (v.log2 - 52 : ℤ) + (0 : ℕ))
    have hexponent : -(k : ℤ) - (52 - v.log2 - k : ℕ) = v.log2 - 52 := by omega
    rw [hshift, hmantissa, hexponent]
    simpa using hexact
  · have hshift : (-(k : ℤ) - (v.log2 + 1 - 53)).toNat = 0 := by omega
    have hmantissa : v * 2 ^ k = v * 2 ^ (52 - v.log2) * 2 ^ (k - (52 - v.log2)) := by
      rw [mul_assoc, ← pow_add, Nat.add_sub_cancel' hlong]
    have hexponent : -(k : ℤ) + (k - (52 - v.log2) : ℕ) = v.log2 - 52 := by omega
    have hexact := roundWithAccuracy_exact hplace hpos sign (k - (52 - v.log2)) (by omega : -1074 ≤ -(k : ℤ) + (k - (52 - v.log2) : ℕ))
    rw [hshift, pow_zero, mul_one, hmantissa, Nat.cast_zero, sub_zero]
    dsimp only
    rw [hexact]
    simp only [hexponent]

theorem log2_le_of_lt (h : v < 2 ^ 53) : v.log2 ≤ 52 := by
  by_cases hv : v = 0
  · rw [hv]
    decide
  · exact Nat.lt_succ_iff.mp ((Nat.log2_lt hv).mpr h)

theorem normalize_exactly (h : n.natAbs < 2 ^ 53) (k : ℕ) (zeroSign : Sign) :
    Exactly n (normalize .binary64 (n * 2 ^ k) (-k) zeroSign) := by
  have hlog := log2_le_of_lt h
  have hpow : (0 : ℤ) < 2 ^ k := by positivity
  have hplace : n ≠ 0 → (n.natAbs * 2 ^ (52 - n.natAbs.log2)).log2 = 52 := fun hn => by
    rw [log2_mul_pow (Int.natAbs_ne_zero.mpr hn)]
    omega
  have hexponent : (-((n.natAbs.log2 : ℤ) - 52)).toNat = 52 - n.natAbs.log2 := by omega
  rw [UnpackedFloat.normalize]
  rcases lt_trichotomy n 0 with hn | rfl | hn
  · have hneg : n * 2 ^ k < 0 := mul_neg_of_neg_of_pos hn hpow
    obtain ⟨hpos, hround⟩ := round_exact (Int.natAbs_ne_zero.mpr hn.ne) hlog .negative k
    have habs : (n.natAbs : ℤ) = -n := by omega
    have hmantissa : (-(n * 2 ^ k)).toNat = n.natAbs * 2 ^ k := by
      have hcast : -(n * 2 ^ k) = ((n.natAbs * 2 ^ k : ℕ) : ℤ) := by
        push_cast
        rw [← Int.natCast_natAbs, habs]
        ring
      rw [hcast, Int.toNat_natCast]
    rw [compare_lt_iff_lt.mpr hneg]
    dsimp only
    rw [hmantissa, hround]
    refine ⟨hplace hn.ne, by omega, by omega, ?_⟩
    show -((n.natAbs * 2 ^ (52 - n.natAbs.log2) : ℕ) : ℤ) = _
    rw [hexponent, Nat.cast_mul, habs]
    push_cast
    ring
  · rw [zero_mul]
    rfl
  · have hgt : 0 < n * 2 ^ k := mul_pos hn hpow
    obtain ⟨hpos, hround⟩ := round_exact (Int.natAbs_ne_zero.mpr hn.ne') hlog .positive k
    have habs : (n.natAbs : ℤ) = n := by omega
    have hmantissa : (n * 2 ^ k).toNat = n.natAbs * 2 ^ k := by
      have hcast : n * 2 ^ k = ((n.natAbs * 2 ^ k : ℕ) : ℤ) := by
        rw [Nat.cast_mul, habs]
        push_cast
        rfl
      rw [hcast, Int.toNat_natCast]
    rw [compare_gt_iff_gt.mpr hgt]
    dsimp only
    rw [hmantissa, hround]
    refine ⟨hplace hn.ne', by omega, by omega, ?_⟩
    show ((n.natAbs * 2 ^ (52 - n.natAbs.log2) : ℕ) : ℤ) = _
    rw [hexponent, Nat.cast_mul, habs]
    push_cast
    rfl

/-! ### Packing -/

theorem implicitBit_append (hpos : 0 < v) (hv : v.log2 = 52) : (1#1 ++ BitVec.ofNat 52 v).toNat = v := by
  obtain ⟨hlow, hhigh⟩ := (Nat.log2_eq_iff hpos.ne').mp hv
  have hbit : (1#1).toNat <<< 52 = 2 ^ 52 := rfl
  have hvec : (BitVec.ofNat 52 v).toNat = v % 2 ^ 52 := BitVec.toNat_ofNat v 52
  rw [BitVec.toNat_append, hbit, hvec, Nat.or_comm, Nat.or_two_pow_eq_add_of_lt (Nat.mod_lt v (by positivity))]
  omega

theorem pack_normal (sign : Sign) (hpos : 0 < v) (hv : v.log2 = 52) (hmin : -1074 ≤ e) (hmax : e ≤ 971) :
    UnpackedFloat.pack .binary64 (.finite sign v e hpos) = packComponents .binary64 sign (BitVec.ofNat 11 (e + 1075).toNat) (BitVec.ofNat 52 v) := by
  have hbias : e + (Format.binary64.exponentBias : ℕ) + (Format.binary64.mantissaBitsWithoutImplicit : ℕ) = e + 1075 := by
    show e + 1023 + 52 = _
    ring
  have hbits : 2 ^ Format.binary64.exponentBits = 2048 := rfl
  have hfits : ¬2 ^ Format.binary64.exponentBits ≤ (e + 1075).toNat + 1 := by
    rw [hbits]
    omega
  have hnormal : v.log2 + 1 = Format.binary64.mantissaBits := by
    rw [hv]
    rfl
  rw [UnpackedFloat.pack, hbias]
  simp only [if_neg hfits, if_pos hnormal]

theorem unpack_normal {e : BitVec 11} {m : BitVec 52} (sign : Sign) (hones : e ≠ -1#11) (hzero : e ≠ 0#11) (hv : (1#1 ++ m).toNat = v) (hpos : 0 < v) :
    UnpackedFloat.unpack .binary64 (packComponents .binary64 sign e m) = .finite sign v (e.toNat - 1075) hpos := by
  subst hv
  have hbias : ((Format.binary64.exponentBias : ℕ) : ℤ) + (Format.binary64.mantissaBitsWithoutImplicit : ℕ) = 1075 := rfl
  simp only [UnpackedFloat.unpack, unpackExponent_packComponents, unpackMantissa_packComponents, unpackSign_packComponents,
    if_neg hones, if_neg hzero, hbias, Sign.ofBitVec_toBitVec]

theorem unpack_pack_exact (hpos : 0 < v) (hv : v.log2 = 52) (hmin : -1074 ≤ e) (hmax : e ≤ 971) :
    (Float.Model.pack (.finite sign v e hpos)).unpack = .finite sign v e hpos := by
  have hbiased : (BitVec.ofNat 11 (e + 1075).toNat).toNat = (e + 1075).toNat := by
    rw [BitVec.toNat_ofNat]
    exact Nat.mod_eq_of_lt (by omega)
  have hones : BitVec.ofNat 11 (e + 1075).toNat ≠ -1#11 := by
    intro h
    have hvalue := congrArg BitVec.toNat h
    have hall : (-1#11).toNat = 2047 := rfl
    omega
  have hzero : BitVec.ofNat 11 (e + 1075).toNat ≠ 0#11 := by
    intro h
    have hvalue := congrArg BitVec.toNat h
    have hnone : (0#11).toNat = 0 := rfl
    omega
  have hexponent : ((e + 1075).toNat : ℤ) - 1075 = e := by omega
  show UnpackedFloat.unpack .binary64 (UnpackedFloat.pack .binary64 (.finite sign v e hpos)) = _
  rw [pack_normal sign hpos hv hmin hmax, unpack_normal sign hones hzero (implicitBit_append hpos hv) hpos]
  simp only [hbiased, hexponent]

theorem Exactly.unpack_pack (h : Exactly n x) : (Float.Model.pack x).unpack = x := by
  cases x with
  | zero sign => cases sign <;> rfl
  | finite sign v e hpos =>
    obtain ⟨hv, hmin, hmax, -⟩ := h
    exact unpack_pack_exact hpos hv (by omega) (by omega)
  | infinity | notANumber => exact absurd h id

theorem ofInteger_exactly (h : n.natAbs < 2 ^ 53) : Exactly n (ofInteger n).toModel.unpack := by
  have hexact := normalize_exactly h 0 .positive
  rw [pow_zero, mul_one, Nat.cast_zero, neg_zero] at hexact
  show Exactly n (Float.Model.pack (UnpackedFloat.normalize .binary64 n 0 .positive)).unpack
  rwa [hexact.unpack_pack]

/-! ### What an integer is taken for -/

theorem apply_scaled (hpos : 0 < v) (hv : sign.apply v = n * 2 ^ k) : v = n.natAbs * 2 ^ k ∧ sign.apply n.natAbs = n := by
  have hpow : (0 : ℤ) < 2 ^ k := by positivity
  have hcast : (0 : ℤ) < v := by exact_mod_cast hpos
  cases sign with
  | positive =>
    have hvalue : (v : ℤ) = n * 2 ^ k := hv
    have hn : 0 < n := pos_of_mul_pos_left (hvalue ▸ hcast) hpow.le
    have habs : (n.natAbs : ℤ) = n := by omega
    refine ⟨?_, habs⟩
    zify
    rw [hvalue, abs_of_pos hn]
  | negative =>
    have hvalue : (v : ℤ) = -n * 2 ^ k := by
      have hneg : -(v : ℤ) = n * 2 ^ k := hv
      rw [neg_mul, ← hneg, neg_neg]
    have hn : 0 < -n := pos_of_mul_pos_left (hvalue ▸ hcast) hpow.le
    have habs : -(n.natAbs : ℤ) = n := by omega
    refine ⟨?_, habs⟩
    zify
    rw [hvalue, abs_of_neg (by omega)]

theorem roundToInt_exact (hpos : 0 < v) (he : e ≤ 0) (hv : sign.apply v = n * 2 ^ (-e).toNat) : roundToInt sign v e = n := by
  obtain ⟨hmantissa, hsign⟩ := apply_scaled hpos hv
  have hnone : (e - 0).toNat = 0 := by omega
  have hshift : (0 - (e - (0 : ℕ))).toNat = (-e).toNat := by
    rw [Nat.cast_zero, sub_zero, zero_sub]
  rw [roundToInt, decreaseExponent, hnone, Nat.shiftLeft_zero]
  simp only [shiftToExponent, hshift, ExtendedMantissa.ofMantissaAndAccuracy]
  rw [hmantissa, shiftRight_exact]
  exact hsign

theorem Exactly.toInt (h : Exactly n x) (low high : ℤ) : x.toInt low high = n := by
  cases x with
  | zero sign => exact Eq.symm h
  | finite sign v e hpos =>
    obtain ⟨-, -, hmax, hvalue⟩ := h
    exact roundToInt_exact hpos hmax hvalue
  | infinity | notANumber => exact absurd h id

theorem clampInt_exactly (h : Exactly n value.toModel.unpack) (low high : ℤ) : clampInt value low high = max low (min high n) := by
  rw [clampInt, h.toInt]

/-! ### Differences -/

theorem apply_mul (sign : Sign) (v k : ℕ) : sign.apply (v * k : ℕ) = sign.apply v * k := by
  cases sign with
  | positive => exact Nat.cast_mul v k
  | negative =>
    show -((v * k : ℕ) : ℤ) = -(v : ℤ) * k
    rw [Nat.cast_mul, neg_mul]

theorem apply_neg (sign : Sign) (v : ℕ) : (-sign).apply v = -sign.apply v := by
  cases sign with
  | positive => rfl
  | negative => exact (neg_neg _).symm

theorem apply_decreaseExponent (he : e ≤ 0) (hv : sign.apply v = n * 2 ^ (-e).toNat) (hj : -(j : ℤ) ≤ e) :
    sign.apply (decreaseExponent v e (-j)).1 = n * 2 ^ j := by
  have hsum : (-e).toNat + (e - -(j : ℤ)).toNat = j := by omega
  rw [decreaseExponent]
  dsimp only
  rw [Nat.shiftLeft_eq, apply_mul, hv, Nat.cast_pow, Nat.cast_ofNat, mul_assoc, ← pow_add, hsum]

theorem Exactly.sub (hx : Exactly n x) (hy : Exactly m y) (h : (n - m).natAbs < 2 ^ 53) :
    Exactly (n - m) (UnpackedFloat.sub .binary64 x y) := by
  cases x with
  | infinity | notANumber => exact absurd hx id
  | zero sign₁ =>
    obtain rfl : n = 0 := hx
    cases y with
    | infinity | notANumber => exact absurd hy id
    | zero sign₂ =>
      obtain rfl : m = 0 := hy
      cases sign₁ <;> cases sign₂ <;> rfl
    | finite sign₂ v₂ e₂ hpos₂ =>
      obtain ⟨hv₂, hmin₂, hmax₂, hvalue₂⟩ := hy
      refine ⟨hv₂, hmin₂, hmax₂, ?_⟩
      rw [apply_neg, hvalue₂, zero_sub, neg_mul]
  | finite sign₁ v₁ e₁ hpos₁ =>
    cases y with
    | infinity | notANumber => exact absurd hy id
    | zero sign₂ =>
      obtain rfl : m = 0 := hy
      rw [sub_zero]
      exact hx
    | finite sign₂ v₂ e₂ hpos₂ =>
      obtain ⟨-, -, hmax₁, hvalue₁⟩ := hx
      obtain ⟨-, -, hmax₂, hvalue₂⟩ := hy
      obtain ⟨j, hj⟩ : ∃ j : ℕ, min e₁ e₂ = -j := ⟨(-min e₁ e₂).toNat, by omega⟩
      have hfirst := apply_decreaseExponent hmax₁ hvalue₁ (hj ▸ min_le_left e₁ e₂)
      have hsecond := apply_decreaseExponent hmax₂ hvalue₂ (hj ▸ min_le_right e₁ e₂)
      show Exactly (n - m) (UnpackedFloat.normalize .binary64
        (sign₁.apply (decreaseExponent v₁ e₁ (min e₁ e₂)).1 - sign₂.apply (decreaseExponent v₂ e₂ (min e₁ e₂)).1) (min e₁ e₂) .positive)
      rw [hj, hfirst, hsecond, ← sub_mul]
      exact normalize_exactly h j .positive

theorem sub_exactly {a b : Float} (ha : Exactly n a.toModel.unpack) (hb : Exactly m b.toModel.unpack) (h : (n - m).natAbs < 2 ^ 53) :
    Exactly (n - m) (a - b).toModel.unpack := by
  have hdifference := ha.sub hb h
  show Exactly (n - m) (Float.Model.pack (UnpackedFloat.sub .binary64 a.toModel.unpack b.toModel.unpack)).unpack
  rwa [hdifference.unpack_pack]

/-! ### Order -/

variable {a b k₁ k₂ v₁ v₂ : ℕ}

theorem scaled_lt (h₁ : v₁ = a * 2 ^ k₁) (h₂ : v₂ = b * 2 ^ k₂) (hlog₁ : v₁.log2 = 52) (hlog₂ : v₂.log2 = 52) (hpos₁ : 0 < v₁) (hpos₂ : 0 < v₂)
    (hk : k₂ < k₁) : a < b := by
  obtain ⟨-, hhigh⟩ := (Nat.log2_eq_iff hpos₁.ne').mp hlog₁
  obtain ⟨hlow, -⟩ := (Nat.log2_eq_iff hpos₂.ne').mp hlog₂
  have hscale : a * 2 ^ k₁ < b * 2 ^ k₁ := calc
    a * 2 ^ k₁ < 2 ^ 52 * 2 ^ 1 := by rw [← h₁]; exact hhigh
    _ ≤ b * 2 ^ k₂ * 2 ^ (k₁ - k₂) := by
      rw [← h₂]
      exact Nat.mul_le_mul hlow (Nat.pow_le_pow_right (by norm_num) (by omega))
    _ = b * 2 ^ k₁ := by rw [mul_assoc, ← pow_add, Nat.add_sub_cancel' hk.le]
  exact lt_of_mul_lt_mul_right hscale (Nat.zero_le _)

theorem compare_scaled (h₁ : v₁ = a * 2 ^ k₁) (h₂ : v₂ = b * 2 ^ k₂) (hlog₁ : v₁.log2 = 52) (hlog₂ : v₂.log2 = 52) (hpos₁ : 0 < v₁) (hpos₂ : 0 < v₂)
    {e₁ e₂ : ℤ} (he₁ : (-e₁).toNat = k₁) (he₂ : (-e₂).toNat = k₂) (hmax₁ : e₁ ≤ 0) (hmax₂ : e₂ ≤ 0) :
    (compare e₁ e₂).then (compare v₁ v₂) = compare (a : ℤ) b := by
  rcases lt_trichotomy e₁ e₂ with he | rfl | he
  · have hlt : (a : ℤ) < b := by exact_mod_cast scaled_lt h₁ h₂ hlog₁ hlog₂ hpos₁ hpos₂ (by omega)
    rw [compare_lt_iff_lt.mpr he, compare_lt_iff_lt.mpr hlt]
    rfl
  · obtain rfl : k₁ = k₂ := he₁.symm.trans he₂
    have hpow : 0 < 2 ^ k₁ := by positivity
    rw [compare_eq_iff_eq.mpr rfl, h₁, h₂]
    rcases lt_trichotomy a b with hab | rfl | hab
    · have hscale : a * 2 ^ k₁ < b * 2 ^ k₁ := Nat.mul_lt_mul_of_pos_right hab hpow
      rw [compare_lt_iff_lt.mpr hscale, compare_lt_iff_lt.mpr (Int.ofNat_lt.mpr hab)]
      rfl
    · rw [compare_eq_iff_eq.mpr rfl, compare_eq_iff_eq.mpr rfl]
      rfl
    · have hscale : b * 2 ^ k₁ < a * 2 ^ k₁ := Nat.mul_lt_mul_of_pos_right hab hpow
      rw [compare_gt_iff_gt.mpr hscale, compare_gt_iff_gt.mpr (Int.ofNat_lt.mpr hab)]
      rfl
  · have hlt : (b : ℤ) < a := by exact_mod_cast scaled_lt h₂ h₁ hlog₂ hlog₁ hpos₂ hpos₁ (by omega)
    rw [compare_gt_iff_gt.mpr he, compare_gt_iff_gt.mpr hlt]
    rfl

theorem Exactly.finite {hpos : 0 < v} (h : Exactly n (.finite sign v e hpos)) :
    v.log2 = 52 ∧ e ≤ 0 ∧ v = n.natAbs * 2 ^ (-e).toNat ∧ (sign = .positive ∧ 0 < n ∨ sign = .negative ∧ n < 0) := by
  obtain ⟨hv, -, hmax, hvalue⟩ := h
  obtain ⟨hmantissa, hsign⟩ := apply_scaled hpos hvalue
  have hn : n ≠ 0 := by
    rintro rfl
    rw [Int.natAbs_zero, zero_mul] at hmantissa
    omega
  refine ⟨hv, hmax, hmantissa, ?_⟩
  cases sign with
  | positive =>
    have habs : (n.natAbs : ℤ) = n := hsign
    exact .inl ⟨rfl, by omega⟩
  | negative =>
    have habs : -(n.natAbs : ℤ) = n := hsign
    exact .inr ⟨rfl, by omega⟩

theorem compare_neg (n m : ℤ) : compare (-n) (-m) = (compare n m).swap := by
  rcases lt_trichotomy n m with h | rfl | h
  · rw [compare_lt_iff_lt.mpr h, compare_gt_iff_gt.mpr (neg_lt_neg h)]
    rfl
  · rw [compare_eq_iff_eq.mpr rfl, compare_eq_iff_eq.mpr rfl]
    rfl
  · rw [compare_gt_iff_gt.mpr h, compare_lt_iff_lt.mpr (neg_lt_neg h)]
    rfl

theorem Exactly.compare (hx : Exactly n x) (hy : Exactly m y) : x.compare y = some (Ord.compare n m) := by
  cases x with
  | infinity | notANumber => exact absurd hx id
  | zero sign₁ =>
    obtain rfl : n = 0 := hx
    cases y with
    | infinity | notANumber => exact absurd hy id
    | zero sign₂ =>
      obtain rfl : m = 0 := hy
      rfl
    | finite sign₂ v₂ e₂ hpos₂ =>
      obtain ⟨-, -, -, ⟨rfl, hm⟩ | ⟨rfl, hm⟩⟩ := hy.finite
      · rw [compare_lt_iff_lt.mpr hm]
        rfl
      · rw [compare_gt_iff_gt.mpr hm]
        rfl
  | finite sign₁ v₁ e₁ hpos₁ =>
    obtain ⟨hlog₁, hmax₁, hv₁, hsign₁⟩ := hx.finite
    cases y with
    | infinity | notANumber => exact absurd hy id
    | zero sign₂ =>
      obtain rfl : m = 0 := hy
      obtain ⟨rfl, hn⟩ | ⟨rfl, hn⟩ := hsign₁
      · rw [compare_gt_iff_gt.mpr hn]
        rfl
      · rw [compare_lt_iff_lt.mpr hn]
        rfl
    | finite sign₂ v₂ e₂ hpos₂ =>
      obtain ⟨hlog₂, hmax₂, hv₂, hsign₂⟩ := hy.finite
      have hscaled := compare_scaled hv₁ hv₂ hlog₁ hlog₂ hpos₁ hpos₂ rfl rfl hmax₁ hmax₂
      obtain ⟨rfl, hn⟩ | ⟨rfl, hn⟩ := hsign₁
      · obtain ⟨rfl, hm⟩ | ⟨rfl, hm⟩ := hsign₂
        · rw [Int.natAbs_of_nonneg hn.le, Int.natAbs_of_nonneg hm.le] at hscaled
          exact congrArg some hscaled
        · rw [compare_gt_iff_gt.mpr (hm.trans hn)]
          rfl
      · obtain ⟨rfl, hm⟩ | ⟨rfl, hm⟩ := hsign₂
        · rw [compare_lt_iff_lt.mpr (hn.trans hm)]
          rfl
        · have hswap : Ord.compare (n.natAbs : ℤ) m.natAbs = (Ord.compare n m).swap := by
            rw [Int.natCast_natAbs, Int.natCast_natAbs, abs_of_neg hn, abs_of_neg hm, compare_neg]
          show some ((Ord.compare e₁ e₂).then (Ord.compare v₁ v₂)).swap = _
          rw [hscaled, hswap, Ordering.swap_swap]

theorem lt_iff_exactly {a b : Float} (ha : Exactly n a.toModel.unpack) (hb : Exactly m b.toModel.unpack) : a < b ↔ n < m := by
  have hlt : a < b ↔ (a.toModel.unpack.compare b.toModel.unpack == some .lt) = true := decide_eq_true_iff
  rw [hlt, ha.compare hb, beq_iff_eq, Option.some.injEq, compare_lt_iff_lt]

theorem exactly_of_beq {a : Float} (hn : n.natAbs < 2 ^ 53) (h : (a == ofInteger n) = true) : Exactly n a.toModel.unpack := by
  have hexact := ofInteger_exactly hn
  obtain ⟨-, -, rfl | ⟨rfl, hzero⟩ | ⟨rfl, hzero⟩⟩ := Float.beq_iff_ne_nan_and_eq.mp h
  · exact hexact
  · rw [hzero] at hexact
    exact hexact
  · rw [hzero] at hexact
    exact hexact

end OxScada.Js
