import OxScada.Js.Integers

/-! Arithmetic on integers as binary64 values: products, the floor of a quotient, and the conversion to
an unsigned integer of 32 bits. As long as the integers are below `2 ^ 50` nothing is lost to rounding. -/

namespace OxScada.Js
open Float.Model UnpackedFloat

/-- The greatest integer that is not above the value `mantissa * 2 ^ exponent`. -/
def floorScaled (mantissa exponent : ℤ) : ℤ :=
  if 0 ≤ exponent then mantissa * 2 ^ exponent.toNat else mantissa / 2 ^ (-exponent).toNat

/-- The greatest integer that is not above the value and one half. -/
def roundScaled (mantissa exponent : ℤ) : ℤ :=
  if 0 ≤ exponent then mantissa * 2 ^ exponent.toNat else (2 * mantissa + 2 ^ (-exponent).toNat) / (2 * 2 ^ (-exponent).toNat)

/-- A function on the integers below a value, for the values that are not integers by themselves. -/
def onFinite (f : ℤ → ℤ → ℤ) (value : Float) : Float :=
  match value.toModel.unpack with
  | .finite sign mantissa exponent _ => ofInteger (f (sign.apply mantissa) exponent)
  | _ => value

def mathFloor (value : Float) : Float := onFinite floorScaled value

def mathRound (value : Float) : Float := onFinite roundScaled value

def toUint32 (value : Float) : ℕ := (value.toModel.unpack.toInt 0 0 % 2 ^ 32).toNat

example : mathFloor (7.5 : Float) == 7 ∧ mathRound (2.5 : Float) == 3 ∧ toUint32 (4294967297.5 : Float) = 1 := by decide +kernel

variable {n m d : ℤ} {v k j : ℕ} {sign : Sign} {x y : UnpackedFloat} {a b : Float}

theorem toUint32_exactly (h : Exactly n a.toModel.unpack) : toUint32 a = (n % 2 ^ 32).toNat := by
  rw [toUint32, h.toInt]

theorem onFinite_exactly {f : ℤ → ℤ → ℤ} (hf : ∀ (n : ℤ) (k : ℕ), f (n * 2 ^ k) (-k) = n) (hn : n.natAbs < 2 ^ 53)
    (h : Exactly n a.toModel.unpack) : Exactly n (onFinite f a).toModel.unpack := by
  cases hx : a.toModel.unpack with
  | infinity | notANumber =>
    rw [hx] at h
    exact absurd h id
  | zero sign =>
    have hsame : onFinite f a = a := by rw [onFinite, hx]
    rwa [hsame]
  | finite sign v e hpos =>
    have hinteger : onFinite f a = ofInteger (f (sign.apply v) e) := by rw [onFinite, hx]
    rw [hx] at h
    obtain ⟨-, -, hmax, hvalue⟩ := h
    obtain ⟨k, rfl⟩ : ∃ k : ℕ, e = -k := ⟨(-e).toNat, by omega⟩
    rw [neg_neg, Int.toNat_natCast] at hvalue
    rw [hinteger, hvalue, hf]
    exact ofInteger_exactly hn

theorem roundScaled_exact (n : ℤ) (k : ℕ) : roundScaled (n * 2 ^ k) (-k) = n := by
  have hpow : (0 : ℤ) < 2 ^ k := by positivity
  unfold roundScaled
  split_ifs with hk
  · obtain rfl : k = 0 := by omega
    simp
  · have hsplit : 2 * (n * 2 ^ k) + 2 ^ k = 2 ^ k + n * (2 * 2 ^ k) := by ring
    have hhalf : (2 : ℤ) ^ k / (2 * 2 ^ k) = 0 := Int.ediv_eq_zero_of_lt hpow.le (by omega)
    rw [neg_neg, Int.toNat_natCast, hsplit, Int.add_mul_ediv_right _ _ (by omega), hhalf, zero_add]

theorem mathRound_exactly (hn : n.natAbs < 2 ^ 53) (h : Exactly n a.toModel.unpack) : Exactly n (mathRound a).toModel.unpack :=
  onFinite_exactly roundScaled_exact hn h

/-! ### Products -/

theorem apply_sign_mul (s t : Sign) (v w : ℕ) : (s * t).apply (v * w : ℕ) = s.apply v * t.apply w := by
  cases s <;> cases t <;> simp [Sign.apply]

theorem Exactly.mul (hx : Exactly n x) (hy : Exactly m y) (h : (n * m).natAbs < 2 ^ 53) :
    Exactly (n * m) (UnpackedFloat.mul .binary64 x y) := by
  cases x with
  | infinity | notANumber => exact absurd hx id
  | zero sign₁ =>
    obtain rfl : n = 0 := hx
    cases y with
    | infinity | notANumber => exact absurd hy id
    | zero sign₂ | finite sign₂ v₂ e₂ hpos₂ => exact zero_mul m
  | finite sign₁ v₁ e₁ hpos₁ =>
    cases y with
    | infinity | notANumber => exact absurd hy id
    | zero sign₂ =>
      obtain rfl : m = 0 := hy
      exact mul_zero n
    | finite sign₂ v₂ e₂ hpos₂ =>
      obtain ⟨hlog₁, hmin₁, hmax₁, hvalue₁⟩ := hx
      obtain ⟨hlog₂, hmin₂, hmax₂, hvalue₂⟩ := hy
      obtain ⟨k₁, rfl⟩ : ∃ k : ℕ, e₁ = -k := ⟨(-e₁).toNat, by omega⟩
      obtain ⟨k₂, rfl⟩ : ∃ k : ℕ, e₂ = -k := ⟨(-e₂).toNat, by omega⟩
      rw [neg_neg, Int.toNat_natCast] at hvalue₁ hvalue₂
      obtain ⟨hmantissa₁, -⟩ := apply_scaled hpos₁ hvalue₁
      obtain ⟨hmantissa₂, -⟩ := apply_scaled hpos₂ hvalue₂
      have hproduct : v₁ * v₂ = (n * m).natAbs * 2 ^ (k₁ + k₂) := by
        rw [hmantissa₁, hmantissa₂, Int.natAbs_mul, pow_add]
        ring
      have hne : (n * m).natAbs ≠ 0 := by
        intro hzero
        rw [hzero, zero_mul] at hproduct
        exact (Nat.mul_pos hpos₁ hpos₂).ne' hproduct
      have hlow : 104 ≤ (n * m).natAbs.log2 + (k₁ + k₂) := by
        rw [← log2_mul_pow hne, ← hproduct]
        have h₁ := (Nat.log2_eq_iff hpos₁.ne').mp hlog₁
        have h₂ := (Nat.log2_eq_iff hpos₂.ne').mp hlog₂
        rw [Nat.le_log2 (Nat.mul_pos hpos₁ hpos₂).ne']
        calc 2 ^ 104 = 2 ^ 52 * 2 ^ 52 := by norm_num
          _ ≤ v₁ * v₂ := Nat.mul_le_mul h₁.1 h₂.1
      have hhigh := log2_le_of_lt h
      -- The highest bit of the product is put in place, and only zeros are shifted out for it.
      obtain ⟨j, hj⟩ : ∃ j, k₁ + k₂ = 52 - (n * m).natAbs.log2 + j := Nat.exists_eq_add_of_le (by omega)
      have hplace : ((n * m).natAbs * 2 ^ (52 - (n * m).natAbs.log2)).log2 = 52 := by
        rw [log2_mul_pow hne]
        omega
      have hpos : 0 < (n * m).natAbs * 2 ^ (52 - (n * m).natAbs.log2) := Nat.mul_pos (Nat.pos_of_ne_zero hne) (by positivity)
      have hshifted : v₁ * v₂ = (n * m).natAbs * 2 ^ (52 - (n * m).natAbs.log2) * 2 ^ j := by
        rw [hproduct, hj, pow_add, mul_assoc]
      have hexact := roundWithAccuracy_exact hplace hpos (sign₁ * sign₂) j (e := -k₁ + -k₂) (by omega)
      have hexponent : (-(-(k₁ : ℤ) + -k₂ + j)).toNat = 52 - (n * m).natAbs.log2 := by omega
      have hsigned := apply_sign_mul sign₁ sign₂ v₁ v₂
      rw [hshifted, apply_mul, hvalue₁, hvalue₂] at hsigned
      show Exactly (n * m) (roundWithAccuracy .binary64 (sign₁ * sign₂) (v₁ * v₂) (-k₁ + -k₂) .exact)
      rw [hshifted, hexact]
      refine ⟨hplace, by omega, by omega, ?_⟩
      rw [hexponent]
      have hpow : ((2 ^ j : ℕ) : ℤ) ≠ 0 := by positivity
      apply mul_right_cancel₀ hpow
      rw [hsigned, Nat.cast_pow, Nat.cast_ofNat, mul_assoc (n * m), ← pow_add, ← hj, pow_add]
      ring

theorem mul_exactly (ha : Exactly n a.toModel.unpack) (hb : Exactly m b.toModel.unpack) (h : (n * m).natAbs < 2 ^ 53) :
    Exactly (n * m) (a * b).toModel.unpack := by
  have hproduct := ha.mul hb h
  show Exactly (n * m) (Float.Model.pack (UnpackedFloat.mul .binary64 a.toModel.unpack b.toModel.unpack)).unpack
  rwa [hproduct.unpack_pack]

/-! ### Quotients -/

theorem roundedMantissa_bounds (em : ExtendedMantissa) : em.mantissa ≤ em.roundedMantissa ∧ em.roundedMantissa ≤ em.mantissa + 1 := by
  obtain ⟨mantissa, roundBit, stickyBit⟩ := em
  have hparity := Nat.mod_lt mantissa (Nat.zero_lt_two)
  cases roundBit <;> cases stickyBit <;> simp [ExtendedMantissa.roundedMantissa, ExtendedMantissa.accuracy, Accuracy.roundToNearestEven]
  omega

theorem shiftRight_mantissa (em : ExtendedMantissa) (j : ℕ) : (em >>> j).mantissa = em.mantissa / 2 ^ j := by
  show (Nat.repeat ExtendedMantissa.shiftRightOne j em).mantissa = _
  induction j with
  | zero => simp [Nat.repeat]
  | succ j ih =>
    show (Nat.repeat ExtendedMantissa.shiftRightOne j em).mantissa / 2 = _
    rw [ih, Nat.div_div_eq_div_mul, pow_succ]

theorem ofMantissaAndAccuracy_mantissa (v : ℕ) (accuracy : Accuracy) : (ExtendedMantissa.ofMantissaAndAccuracy v accuracy).mantissa = v := by
  cases accuracy with
  | exact => rfl
  | inexact order => cases order <;> rfl

/-- Rounding a mantissa that has the highest bit in place or `j` places above it: the floor or the integer
after it, whose own highest bit may then be one place too high. -/
theorem roundWithAccuracy_floor {q : ℕ} {e : ℤ} (hq : q.log2 = 52 + j) (he : -1074 ≤ e + j) (sign : Sign) (accuracy : Accuracy) :
    ∃ r, q / 2 ^ j ≤ r ∧ r ≤ q / 2 ^ j + 1 ∧ 2 ^ 52 ≤ r ∧
      ((∃ hpos, r.log2 = 52 ∧ roundWithAccuracy .binary64 sign q e accuracy = .finite sign r (e + j) hpos) ∨
        (∃ hpos, r = 2 ^ 53 ∧ roundWithAccuracy .binary64 sign q e accuracy = .finite sign (2 ^ 52) (e + j + 1) hpos)) := by
  have hqpos : q ≠ 0 := by
    rintro rfl
    rw [Nat.log2_zero] at hq
    omega
  obtain ⟨hqlow, hqhigh⟩ := (Nat.log2_eq_iff hqpos).mp hq
  have htotal : totalExponent q e = e + j + 53 := by
    rw [totalExponent, hq]
    push_cast
    ring
  have hshift : (e + j - e).toNat = j := by omega
  have hfirst : shiftToTargetExponent .binary64 q e accuracy = (ExtendedMantissa.ofMantissaAndAccuracy q accuracy >>> j, e + j) := by
    rw [shiftToTargetExponent, htotal, targetExponent_binary64 _ (by omega), add_sub_cancel_right, shiftToExponent, hshift]
  set em := ExtendedMantissa.ofMantissaAndAccuracy q accuracy >>> j with hem
  have hmantissa : em.mantissa = q / 2 ^ j := by rw [hem, shiftRight_mantissa, ofMantissaAndAccuracy_mantissa]
  obtain ⟨hlow, hhigh⟩ := roundedMantissa_bounds em
  rw [hmantissa] at hlow hhigh
  have hbottom : 2 ^ 52 ≤ q / 2 ^ j := by
    rw [Nat.le_div_iff_mul_le (by positivity), ← pow_add]
    exact hqlow
  have htop : q / 2 ^ j < 2 ^ 53 := by
    rw [Nat.div_lt_iff_lt_mul (by positivity), ← pow_add]
    exact hqhigh.trans_le (Nat.pow_le_pow_right (by norm_num) (by omega))
  refine ⟨em.roundedMantissa, hlow, hhigh, hbottom.trans hlow, ?_⟩
  rw [roundWithAccuracy, hfirst]
  dsimp only
  rcases Nat.lt_or_ge em.roundedMantissa (2 ^ 53) with hfits | hover
  · have hpos : 0 < em.roundedMantissa := by omega
    have hlog : em.roundedMantissa.log2 = 52 := (Nat.log2_eq_iff hpos.ne').mpr ⟨hbottom.trans hlow, hfits⟩
    have hagain := shiftToTargetExponent_exact hlog 0 (e := e + j) (by omega)
    simp only [pow_zero, mul_one, Nat.cast_zero, add_zero] at hagain
    refine .inl ⟨hpos, hlog, ?_⟩
    rw [hagain]
    exact dif_neg hpos.ne'
  · have hr : em.roundedMantissa = 2 ^ 53 := by omega
    have hagain := shiftToTargetExponent_exact (v := 2 ^ 52) (by decide +kernel) 1 (e := e + j) (by omega)
    have hdouble : 2 ^ 52 * 2 ^ 1 = 2 ^ 53 := by norm_num
    rw [hdouble] at hagain
    refine .inr ⟨by positivity, hr, ?_⟩
    rw [hr, hagain]
    exact dif_neg (by positivity)

/-- An error of one unit does not reach the next integer, when there are more than twice as many units to an
integer as the denominator. -/
theorem floor_quotient {n d units r : ℕ} (hd : 0 < d) (hunits : 2 * d ≤ units) (hlow : n * units / d ≤ r) (hhigh : r ≤ n * units / d + 1) :
    r / units = n / d := by
  have hpos : 0 < units := by omega
  have hdivision := Nat.div_add_mod n d
  have hrest := Nat.mod_lt n hd
  have hbelow : n / d * units ≤ n * units / d := by
    rw [Nat.le_div_iff_mul_le hd]
    nlinarith [Nat.zero_le (n % d)]
  have habove : n * units / d < (n / d + 1) * units - 1 := by
    have hroom : units ≤ (n / d + 1) * units := Nat.le_mul_of_pos_left _ (Nat.succ_pos _)
    rw [Nat.div_lt_iff_lt_mul hd, Nat.sub_mul, one_mul]
    have hscaled : n * units + units ≤ (n / d + 1) * units * d := by nlinarith
    omega
  exact Nat.div_eq_of_lt_le (hbelow.trans hlow) (by omega)

theorem floorScaled_exact (n : ℤ) (k : ℕ) : floorScaled (n * 2 ^ k) (-k) = n := by
  have hpow : (2 : ℤ) ^ k ≠ 0 := by positivity
  unfold floorScaled
  split_ifs with hk
  · obtain rfl : k = 0 := by omega
    simp
  · rw [neg_neg, Int.toNat_natCast, Int.mul_ediv_cancel _ hpow]

theorem mathFloor_exactly (hn : n.natAbs < 2 ^ 53) (h : Exactly n a.toModel.unpack) : Exactly n (mathFloor a).toModel.unpack :=
  onFinite_exactly floorScaled_exact hn h

theorem floorScaled_neg (r k : ℕ) : floorScaled r (-k) = (r / 2 ^ k : ℕ) := by
  unfold floorScaled
  split_ifs with hk
  · obtain rfl : k = 0 := by omega
    simp
  · rw [neg_neg, Int.toNat_natCast]
    norm_cast

theorem pack_unpack_ofModel (hpack : (Float.Model.pack x).unpack = x) : (Float.ofModel (Float.Model.pack x)).toModel.unpack = x := hpack

theorem mathFloor_pack {r : ℕ} (hr : r.log2 = 52) (hpos : 0 < r) (hk : k ≤ 1074) :
    mathFloor (.ofModel (Float.Model.pack (.finite .positive r (-(k : ℤ)) hpos))) = ofInteger (r / 2 ^ k : ℕ) := by
  have hpack : (Float.Model.pack (.finite .positive r (-(k : ℤ)) hpos)).unpack = .finite .positive r (-(k : ℤ)) hpos :=
    unpack_pack_exact hpos hr (by omega) (by omega)
  rw [mathFloor, onFinite, pack_unpack_ofModel hpack]
  dsimp only
  rw [← floorScaled_neg]
  rfl

theorem divCore_exact {v₁ v₂ k₁ k₂ : ℕ} (hlog₁ : v₁.log2 = 52) (hlog₂ : v₂.log2 = 52) (hk₁ : k₁ ≤ 52) (hk₂ : k₂ ≤ 52) :
    divCore .binary64 v₁ (-k₁) v₂ (-k₂) = (v₁ * 2 ^ 53 / v₂, -(k₁ : ℤ) + k₂ - 53, accuracyOfFraction (v₁ * 2 ^ 53 % v₂) v₂) := by
  have htotal : totalExponent v₁ (-k₁) - totalExponent v₂ (-k₂) = -k₁ + k₂ := by
    rw [totalExponent, totalExponent, hlog₁, hlog₂]
    ring
  have htarget : min (-(k₁ : ℤ) - -k₂) (-k₁ + k₂ - 53) = -k₁ + k₂ - 53 := by omega
  have hshift : (-(k₁ : ℤ) - -k₂ - (-k₁ + k₂ - 53)).toNat = 53 := by omega
  rw [divCore, htotal, targetExponent_binary64 _ (by omega), htarget, hshift, Nat.shiftLeft_eq]

theorem roundWithAccuracy_quotient {n d v₁ v₂ k₁ k₂ : ℕ} (hlog₁ : v₁.log2 = 52) (hlog₂ : v₂.log2 = 52) (hpos₁ : 0 < v₁) (hpos₂ : 0 < v₂)
    (hk₁ : k₁ ≤ 52) (hk₂ : k₂ ≤ 52) (hv₁ : v₁ = n * 2 ^ k₁) (hv₂ : v₂ = d * 2 ^ k₂) (hn : n < 2 ^ 50) (hd : 0 < d) (accuracy : Accuracy) :
    ∃ (r k : ℕ) (hpos : 0 < r), r.log2 = 52 ∧ k ≤ 1074 ∧ r / 2 ^ k = n / d ∧
      roundWithAccuracy .binary64 .positive (v₁ * 2 ^ 53 / v₂) (-k₁ + k₂ - 53) accuracy = .finite .positive r (-(k : ℤ)) hpos := by
  obtain ⟨hlow₁, hhigh₁⟩ := (Nat.log2_eq_iff hpos₁.ne').mp hlog₁
  obtain ⟨hlow₂, hhigh₂⟩ := (Nat.log2_eq_iff hpos₂.ne').mp hlog₂
  have hqlow : 2 ^ 52 ≤ v₁ * 2 ^ 53 / v₂ := by
    rw [Nat.le_div_iff_mul_le hpos₂]
    exact Nat.mul_le_mul hlow₁ hhigh₂.le
  have hqhigh : v₁ * 2 ^ 53 / v₂ < 2 ^ 54 := by
    rw [Nat.div_lt_iff_lt_mul hpos₂]
    omega
  obtain ⟨j, hj, hq⟩ : ∃ j, j ≤ 1 ∧ (v₁ * 2 ^ 53 / v₂).log2 = 52 + j := by
    have hqpos : v₁ * 2 ^ 53 / v₂ ≠ 0 := by omega
    rcases Nat.lt_or_ge (v₁ * 2 ^ 53 / v₂) (2 ^ 53) with hshort | hlong
    · exact ⟨0, by omega, (Nat.log2_eq_iff hqpos).mpr ⟨hqlow, hshort⟩⟩
    · exact ⟨1, by omega, (Nat.log2_eq_iff hqpos).mpr ⟨hlong, hqhigh⟩⟩
  obtain ⟨k, hk⟩ : ∃ k, k₁ + 53 = k₂ + j + k := Nat.exists_eq_add_of_le (by omega)
  have hunits : v₁ * 2 ^ 53 / v₂ / 2 ^ j = n * 2 ^ k / d := by
    have hnumerator : n * 2 ^ k₁ * 2 ^ 53 = n * 2 ^ k * 2 ^ (k₂ + j) := by
      rw [mul_assoc, ← pow_add, hk, mul_assoc, ← pow_add, add_comm k]
    have hdenominator : d * 2 ^ k₂ * 2 ^ j = d * 2 ^ (k₂ + j) := by
      rw [mul_assoc, ← pow_add]
    rw [Nat.div_div_eq_div_mul, hv₁, hv₂, hnumerator, hdenominator, Nat.mul_div_mul_right _ _ (by positivity)]
  obtain ⟨r, hlow, hhigh, hbottom, hrounded⟩ := roundWithAccuracy_floor hq (e := -k₁ + k₂ - 53) (by omega) .positive accuracy
  rw [hunits] at hlow hhigh
  -- The unit is small, as the quotient has its highest bit in place.
  have hroom : 2 * d ≤ 2 ^ k := by
    by_contra hfew
    have hmany : 2 ^ 52 - 1 ≤ n * 2 ^ k / d := by omega
    rw [Nat.le_div_iff_mul_le hd] at hmany
    have hless : n * 2 ^ k ≤ 2 ^ 50 * (2 * d) := Nat.mul_le_mul hn.le (not_le.mp hfew).le
    omega
  have hfloor := floor_quotient hd hroom hlow hhigh
  have hexponent : -(k₁ : ℤ) + k₂ - 53 + j = -(k : ℤ) := by omega
  rw [hexponent] at hrounded
  rcases hrounded with ⟨hpos, hlog, hfinite⟩ | ⟨hpos, rfl, hfinite⟩
  · exact ⟨r, k, hpos, hlog, by omega, hfloor, hfinite⟩
  · obtain ⟨k, rfl⟩ : ∃ k', k = k' + 1 := ⟨k - 1, by
      rcases k with _ | k
      · omega
      · omega⟩
    have hnext : -((k + 1 : ℕ) : ℤ) + 1 = -(k : ℤ) := by omega
    rw [hnext] at hfinite
    refine ⟨2 ^ 52, k, hpos, by decide +kernel, by omega, ?_, hfinite⟩
    have hhalf := Nat.mul_div_mul_right (2 ^ 52) (2 ^ k) Nat.zero_lt_two
    rw [← hfloor, ← hhalf, ← pow_succ, ← pow_succ]

theorem mathFloor_div {n d : ℕ} (ha : Exactly n a.toModel.unpack) (hb : Exactly d b.toModel.unpack) (hn : n < 2 ^ 50) (hd : 0 < d) (hd' : d < 2 ^ 50) :
    Exactly (n / d : ℕ) (mathFloor (a / b)).toModel.unpack := by
  have hquotient : a / b = .ofModel (Float.Model.pack (UnpackedFloat.div .binary64 a.toModel.unpack b.toModel.unpack)) := rfl
  have hsmall : ((n / d : ℕ) : ℤ).natAbs < 2 ^ 53 := by
    have hle := Nat.div_le_self n d
    rw [Int.natAbs_natCast]
    omega
  rw [hquotient]
  cases hy : b.toModel.unpack with
  | infinity | notANumber =>
    rw [hy] at hb
    exact absurd hb id
  | zero sign₂ =>
    rw [hy] at hb
    have hzero : (d : ℤ) = 0 := hb
    omega
  | finite sign₂ v₂ e₂ hpos₂ =>
    rw [hy] at hb
    cases hx : a.toModel.unpack with
    | infinity | notANumber =>
      rw [hx] at ha
      exact absurd ha id
    | zero sign₁ =>
      rw [hx] at ha
      have hzero : (n : ℤ) = 0 := ha
      obtain rfl : n = 0 := by omega
      rw [Nat.zero_div]
      apply mathFloor_exactly (by decide)
      have hquotient : Exactly 0 (UnpackedFloat.div .binary64 (.zero sign₁) (.finite sign₂ v₂ e₂ hpos₂)) := (rfl : (0 : ℤ) = 0)
      show Exactly 0 (Float.Model.pack (UnpackedFloat.div .binary64 (.zero sign₁) (.finite sign₂ v₂ e₂ hpos₂))).unpack
      rwa [hquotient.unpack_pack]
    | finite sign₁ v₁ e₁ hpos₁ =>
      rw [hx] at ha
      obtain ⟨hlog₁, hmax₁, hv₁, hsign₁⟩ := ha.finite
      obtain ⟨hlog₂, hmax₂, hv₂, hsign₂⟩ := hb.finite
      obtain ⟨-, hmin₁, -, -⟩ := ha
      obtain ⟨-, hmin₂, -, -⟩ := hb
      obtain ⟨k₁, rfl⟩ : ∃ k : ℕ, e₁ = -k := ⟨(-e₁).toNat, by omega⟩
      obtain ⟨k₂, rfl⟩ : ∃ k : ℕ, e₂ = -k := ⟨(-e₂).toNat, by omega⟩
      obtain ⟨rfl, -⟩ : sign₁ = .positive ∧ 0 < (n : ℤ) := by
        rcases hsign₁ with h | ⟨-, h⟩
        · exact h
        · omega
      obtain ⟨rfl, -⟩ : sign₂ = .positive ∧ 0 < (d : ℤ) := by
        rcases hsign₂ with h | ⟨-, h⟩
        · exact h
        · omega
      rw [neg_neg, Int.toNat_natCast, Int.natAbs_natCast] at hv₁ hv₂
      obtain ⟨r, k, hpos, hlog, hk, hfloor, hrounded⟩ := roundWithAccuracy_quotient hlog₁ hlog₂ hpos₁ hpos₂ (by omega) (by omega) hv₁ hv₂ hn hd
        (accuracyOfFraction (v₁ * 2 ^ 53 % v₂) v₂)
      have hdiv : UnpackedFloat.div .binary64 (.finite .positive v₁ (-k₁) hpos₁) (.finite .positive v₂ (-k₂) hpos₂) =
          .finite .positive r (-(k : ℤ)) hpos := by
        rw [← hrounded]
        show (match divCore .binary64 v₁ (-k₁) v₂ (-k₂) with
          | (m, e, accuracy) => roundWithAccuracy .binary64 .positive m e accuracy) = _
        rw [divCore_exact hlog₁ hlog₂ (by omega) (by omega)]
      rw [hdiv, mathFloor_pack hlog hpos hk, hfloor]
      exact ofInteger_exactly hsmall

theorem le_iff_exactly (ha : Exactly n a.toModel.unpack) (hb : Exactly m b.toModel.unpack) : a ≤ b ↔ n ≤ m := by
  have hle : a ≤ b ↔ (a.toModel.unpack.compare b.toModel.unpack).any (·.isLE) = true := decide_eq_true_iff
  rw [hle, ha.compare hb, Option.any_some, Ordering.isLE_iff_ne_gt, compare_gt_iff_gt, not_lt]

end OxScada.Js
