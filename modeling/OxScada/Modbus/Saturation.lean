import OxScada.Modbus.ReadAfterWrite

/-! Integers of any magnitude in registers. The signed encoders clamp, the unsigned ones take the low
bits, and the words of a register are read and written back as they were. -/

namespace OxScada.Modbus
open OxScada.Bytes OxScada.Js Float.Model

def HoldsInteger (z : ℤ) (value : Float) : Prop :=
  match value.toModel.unpack with
  | .zero _ => z = 0
  | .finite sign mantissa exponent _ => sign.apply (mantissa * 2 ^ exponent.toNat : ℕ) = z * 2 ^ (-exponent).toNat
  | _ => False

namespace ModbusDataType

def range : ModbusDataType → ℤ × ℤ
  | .uint16 => (0, 0xffff)
  | .int16 => (-0x8000, 0x7fff)
  | .uint32 => (0, 0xffffffff)
  | .int32 => (-0x80000000, 0x7fffffff)
  | .bool | .float32 => (0, 0)

variable (dataType : ModbusDataType)

def clamped (z : ℤ) : ℤ := max dataType.range.1 (min dataType.range.2 z)

/-- The integers that the encoder of the data type clamps: all of them for a signed one, and for an
unsigned one those whose low bits are what clamping gives. -/
def Saturates (z : ℤ) : Prop :=
  dataType ∈ [.int16, .int32] ∨
    let modulus : ℤ := 2 ^ (16 * registerWidth dataType)
    0 ≤ z ∧ z < modulus ∨ z < 0 ∧ modulus ∣ z ∨ modulus ≤ z ∧ modulus ∣ z + 1

/-- The integer that is read back: an unsigned field has the low bits. -/
def stored (z : ℤ) : ℤ :=
  if dataType ∈ [.int16, .int32] then dataType.clamped z else z % 2 ^ (16 * registerWidth dataType)

end ModbusDataType

variable {entry : RegisterMapEntry} {value : Float} {z : ℤ} {n : ℕ} {words : List ℕ}

theorem mathRound_holds (h : HoldsInteger z value) : mathRound value = .integer z := by
  unfold HoldsInteger at h
  unfold mathRound
  cases hvalue : value.toModel.unpack with
  | infinity | notANumber =>
    rw [hvalue] at h
    exact absurd h id
  | zero sign =>
    rw [hvalue] at h
    obtain rfl : z = 0 := h
    rfl
  | finite sign v e hpos =>
    rw [hvalue] at h
    dsimp only at h ⊢
    -- With `d` binary places the number is `z * 2 ^ d`, and half a unit more has the same floor.
    have hhalf : (2 : ℤ) ^ (-e).toNat < 2 ^ ((-e).toNat + 1) := pow_lt_pow_right₀ one_lt_two (Nat.lt_succ_self _)
    have hpow : (0 : ℤ) < 2 ^ ((-e).toNat + 1) := by positivity
    have hsum : 2 * (z * 2 ^ (-e).toNat) + 2 ^ (-e).toNat = 2 ^ (-e).toNat + 2 ^ ((-e).toNat + 1) * z := by ring
    have hzero : (2 : ℤ) ^ (-e).toNat / 2 ^ ((-e).toNat + 1) = 0 := Int.ediv_eq_zero_of_lt (by positivity) hhalf
    rw [h, hsum, Int.add_mul_ediv_left _ _ hpow.ne', hzero, zero_add]

theorem holdsInteger_exactly (h : Exactly z value.toModel.unpack) : HoldsInteger z value := by
  unfold HoldsInteger
  cases hvalue : value.toModel.unpack with
  | infinity | notANumber =>
    rw [hvalue] at h
    exact absurd h id
  | zero sign =>
    rw [hvalue] at h
    exact h
  | finite sign v e hpos =>
    rw [hvalue] at h
    obtain ⟨-, -, hmax, hscaled⟩ := h
    have hnone : e.toNat = 0 := by omega
    dsimp only
    rw [hnone, pow_zero, mul_one, hscaled]

theorem ofInteger_injOn {y z : ℤ} (hy : -2 ^ 32 ≤ y) (hy' : y ≤ 2 ^ 32) (hz : -2 ^ 32 ≤ z) (hz' : z ≤ 2 ^ 32)
    (h : ofInteger y = ofInteger z) : y = z := by
  have hround : mathRound (ofInteger y) = mathRound (ofInteger z) := by rw [h]
  rw [mathRound_ofInteger hy hy', mathRound_ofInteger hz hz'] at hround
  exact Rounded.integer.inj hround

/-! ### Words of a number -/

theorem joinWords_splitWords (hn : n < 2 ^ 32) (wordOrder : WordOrder) :
    joinWords (splitWords n wordOrder) wordOrder = n ∧ ∀ word ∈ splitWords n wordOrder, word < 2 ^ 16 := by
  have hhigh : n / 2 ^ 16 % 2 ^ 16 = n / 2 ^ 16 := Nat.mod_eq_of_lt (by omega)
  have hlow : n % 2 ^ 16 % 2 ^ 16 = n % 2 ^ 16 := Nat.mod_mod _ _
  have hsum : n / 2 ^ 16 * 2 ^ 16 + n % 2 ^ 16 = n := by omega
  cases wordOrder with
  | big | little =>
    constructor
    · show n / 2 ^ 16 % 2 ^ 16 * 2 ^ 16 + n % 2 ^ 16 % 2 ^ 16 = n
      rw [hhigh, hlow, hsum]
    · simp only [splitWords, List.mem_cons, List.not_mem_nil, or_false]
      rintro word (rfl | rfl) <;> omega

theorem unsigned_lt (bits : ℕ) (z : ℤ) : unsigned bits z < 2 ^ bits := by
  have hpos : (0 : ℤ) < 2 ^ bits := by positivity
  have hlt := Int.emod_lt_of_pos z hpos
  have hnonneg := Int.emod_nonneg z hpos.ne'
  unfold unsigned
  have hcast : ((z % 2 ^ bits).toNat : ℤ) < (2 ^ bits : ℕ) := by
    rw [Int.toNat_of_nonneg hnonneg]
    exact_mod_cast hlt
  exact_mod_cast hcast

theorem signed_unsigned {bits : ℕ} (hbits : 0 < bits) (hlow : -2 ^ (bits - 1) ≤ z) (hhigh : z < 2 ^ (bits - 1)) :
    signed bits (unsigned bits z) = z := by
  have hpow : (2 : ℤ) ^ bits = 2 * 2 ^ (bits - 1) := by rw [← pow_succ', Nat.sub_add_cancel hbits]
  have hpos : (0 : ℤ) < 2 ^ (bits - 1) := by positivity
  have hcast : ((unsigned bits z : ℕ) : ℤ) = z % 2 ^ bits :=
    Int.toNat_of_nonneg (Int.emod_nonneg z (by positivity))
  have hcompare : unsigned bits z < 2 ^ (bits - 1) ↔ z % 2 ^ bits < 2 ^ (bits - 1) := by
    rw [← hcast]
    exact_mod_cast Iff.rfl
  unfold signed
  rw [hcast]
  by_cases hneg : z < 0
  · have hmod : z % 2 ^ bits = z + 2 ^ bits := by
      rw [← Int.add_emod_right, Int.emod_eq_of_lt (by omega) (by omega)]
    rw [if_neg (by rw [hcompare, hmod]; omega), hmod]
    ring
  · have hmod : z % 2 ^ bits = z := Int.emod_eq_of_lt (by omega) (by omega)
    rw [if_pos (by rw [hcompare, hmod]; omega), hmod]

/-! ### Encoded and decoded -/

theorem decode_encode (htype : entry.dataType.IsInteger) (hscale : entry.scale = none) (hvalue : HoldsInteger z value) :
    ∃ words, encodeValueToRegisters entry value = some words ∧ words.length = registerWidth entry.dataType ∧
      (∀ word ∈ words, word < 2 ^ 16) ∧
        decodeRegistersToValue entry words = some (ofInteger (entry.dataType.stored z)) := by
  have hscaled : ∀ op v, entry.scaled op v = v := fun op v => by rw [RegisterMapEntry.scaled, hscale]
  have hround := mathRound_holds hvalue
  have hlength : ∀ n order, (splitWords n order).length = 2 := fun n order => by cases order <;> rfl
  unfold encodeValueToRegisters decodeRegistersToValue
  simp only [hscaled, hround]
  cases hdata : entry.dataType with
  | bool | float32 =>
    rw [hdata] at htype
    simp [ModbusDataType.IsInteger] at htype
  | uint16 =>
    have hlow := unsigned_lt 16 z
    refine ⟨[unsigned 16 z], rfl, rfl, by simpa using hlow, ?_⟩
    have hget : [unsigned 16 z].getD 0 0 % 2 ^ 16 = unsigned 16 z := Nat.mod_eq_of_lt hlow
    have hcast : ((unsigned 16 z : ℕ) : ℤ) = z % 2 ^ 16 := Int.toNat_of_nonneg (Int.emod_nonneg z (by norm_num))
    simp only [hget, hcast, Option.map_some, hscaled]
    rfl
  | int16 =>
    set c := (Rounded.integer z).clampInt (-0x8000) 0x7fff with hc
    have hclamped : c = ModbusDataType.int16.clamped z := rfl
    have hbounds : -2 ^ 15 ≤ c ∧ c < 2 ^ 15 := by
      rw [hc, Rounded.clampInt]
      omega
    have hlow := unsigned_lt 16 c
    refine ⟨[unsigned 16 c], rfl, rfl, by simpa using hlow, ?_⟩
    have hget : [unsigned 16 c].getD 0 0 % 2 ^ 16 = unsigned 16 c := Nat.mod_eq_of_lt hlow
    have hsigned : signed 16 (unsigned 16 c) = c := signed_unsigned (by norm_num) hbounds.1 hbounds.2
    simp only [hget, hsigned, Option.map_some, hscaled]
    rfl
  | uint32 =>
    have hlow := unsigned_lt 32 z
    obtain ⟨hjoin, hwords⟩ := joinWords_splitWords hlow (entry.wordOrder.getD .big)
    refine ⟨splitWords (unsigned 32 z) (entry.wordOrder.getD .big), rfl, hlength _ _, hwords, ?_⟩
    have hcast : ((unsigned 32 z : ℕ) : ℤ) = z % 2 ^ 32 := Int.toNat_of_nonneg (Int.emod_nonneg z (by norm_num))
    simp only [hjoin, hcast, Option.map_some, hscaled]
    rfl
  | int32 =>
    set c := (Rounded.integer z).clampInt (-0x80000000) 0x7fffffff with hc
    have hclamped : c = ModbusDataType.int32.clamped z := rfl
    have hbounds : -2 ^ 31 ≤ c ∧ c < 2 ^ 31 := by
      rw [hc, Rounded.clampInt]
      omega
    obtain ⟨hjoin, hwords⟩ := joinWords_splitWords (unsigned_lt 32 c) (entry.wordOrder.getD .big)
    refine ⟨splitWords (unsigned 32 c) (entry.wordOrder.getD .big), rfl, hlength _ _, hwords, ?_⟩
    have hsigned : signed 32 (unsigned 32 c) = c := signed_unsigned (by norm_num) hbounds.1 hbounds.2
    simp only [hjoin, hsigned, Option.map_some, hscaled]
    rfl

/-- The low bits of an integer are its clamped value in the range, and beyond it at the multiples of
the modulus (below) and just before them (above). -/
theorem emod_eq_clamped {modulus : ℤ} (hpos : 0 < modulus) :
    z % modulus = max 0 (min (modulus - 1) z) ↔
      0 ≤ z ∧ z < modulus ∨ z < 0 ∧ modulus ∣ z ∨ modulus ≤ z ∧ modulus ∣ z + 1 := by
  have hlt := Int.emod_lt_of_pos z hpos
  have hnonneg := Int.emod_nonneg z hpos.ne'
  rcases lt_or_ge z 0 with hneg | hnat
  · have hclamp : max 0 (min (modulus - 1) z) = 0 := by omega
    rw [hclamp, ← Int.dvd_iff_emod_eq_zero]
    constructor
    · exact fun h => .inr (.inl ⟨hneg, h⟩)
    · rintro (h | h | h)
      · omega
      · exact h.2
      · omega
  rcases lt_or_ge z modulus with hsmall | hlarge
  · have hclamp : max 0 (min (modulus - 1) z) = z := by omega
    rw [hclamp, Int.emod_eq_of_lt hnat hsmall]
    exact ⟨fun _ => .inl ⟨hnat, hsmall⟩, fun _ => rfl⟩
  · have hclamp : max 0 (min (modulus - 1) z) = modulus - 1 := by omega
    have hnext : modulus ∣ z + 1 ↔ z % modulus = modulus - 1 := by
      constructor
      · intro h
        obtain ⟨k, hk⟩ := h
        have hz : z = modulus - 1 + modulus * (k - 1) := by linarith [mul_sub modulus k 1]
        rw [hz, Int.add_mul_emod_self_left, Int.emod_eq_of_lt (by omega) (by omega)]
      · intro h
        refine ⟨z / modulus + 1, ?_⟩
        have hdiv := Int.emod_add_mul_ediv z modulus
        linarith [mul_add modulus (z / modulus) 1]
    rw [hclamp, hnext]
    constructor
    · exact fun h => .inr (.inr ⟨hlarge, h⟩)
    · rintro (h | h | h)
      · omega
      · omega
      · exact h.2

theorem stored_eq_clamped (dataType : ModbusDataType) (htype : dataType.IsInteger) (z : ℤ) :
    dataType.stored z = dataType.clamped z ↔ dataType.Saturates z := by
  unfold ModbusDataType.stored ModbusDataType.Saturates
  by_cases hsigned : dataType ∈ [ModbusDataType.int16, ModbusDataType.int32]
  · rw [if_pos hsigned]
    exact ⟨fun _ => .inl hsigned, fun _ => rfl⟩
  · rw [if_neg hsigned, or_iff_right hsigned, ← emod_eq_clamped (by positivity)]
    cases dataType <;> simp [ModbusDataType.IsInteger] at htype hsigned <;> rfl

theorem bounds_clamped (dataType : ModbusDataType) (z : ℤ) : -2 ^ 32 ≤ dataType.clamped z ∧ dataType.clamped z ≤ 2 ^ 32 := by
  unfold ModbusDataType.clamped
  cases dataType <;> simp only [ModbusDataType.range] <;> omega

theorem bounds_stored (dataType : ModbusDataType) (z : ℤ) : -2 ^ 32 ≤ dataType.stored z ∧ dataType.stored z ≤ 2 ^ 32 := by
  have hclamped := bounds_clamped dataType z
  unfold ModbusDataType.stored
  split_ifs
  · exact hclamped
  · have hpos : (0 : ℤ) < 2 ^ (16 * registerWidth dataType) := by positivity
    have hlt := Int.emod_lt_of_pos z hpos
    have hnonneg := Int.emod_nonneg z hpos.ne'
    have hle : (2 : ℤ) ^ (16 * registerWidth dataType) ≤ 2 ^ 32 := by
      apply pow_le_pow_right₀ (by norm_num)
      cases dataType <;> simp [registerWidth]
    omega

/-- The integer comes back clamped, in words of 16 bits, and all words of the width are written again as
they were read. -/
def RegisterMapEntry.ReadsClamped (entry : RegisterMapEntry) (value : Float) (z : ℤ) : Prop :=
  (∃ words, encodeValueToRegisters entry value = some words ∧ (∀ word ∈ words, word < 2 ^ 16) ∧
      decodeRegistersToValue entry words = some (ofInteger (entry.dataType.clamped z))) ∧
    ∀ words : List ℕ, words.length = registerWidth entry.dataType → (∀ word ∈ words, word < 2 ^ 16) →
      (decodeRegistersToValue entry words).bind (encodeValueToRegisters entry) = some words

/-- An integer comes back clamped from a register if and only if the encoder of the data type clamps it. -/
theorem readsClamped_iff (htype : entry.dataType.IsInteger) (hscale : entry.scale = none) (hvalue : HoldsInteger z value) :
    entry.ReadsClamped value z ↔ entry.dataType.Saturates z := by
  obtain ⟨words, hencode, -, hwords, hdecode⟩ := decode_encode htype hscale hvalue
  have hstored := stored_eq_clamped entry.dataType htype z
  constructor
  · rintro ⟨⟨words', hencode', -, hdecode'⟩, -⟩
    rw [hencode] at hencode'
    obtain rfl := Option.some.inj hencode'
    rw [hdecode] at hdecode'
    obtain ⟨hlow, hhigh⟩ := bounds_stored entry.dataType z
    obtain ⟨hlow', hhigh'⟩ := bounds_clamped entry.dataType z
    exact hstored.mp (ofInteger_injOn hlow hhigh hlow' hhigh' (Option.some.inj hdecode'))
  · intro hsaturates
    rw [hstored.mpr hsaturates] at hdecode
    refine ⟨⟨words, hencode, hwords, hdecode⟩, fun others hlength hothers => ?_⟩
    have hsome : ∃ v, decodeRegistersToValue entry others = some v := by
      unfold decodeRegistersToValue
      cases hdata : entry.dataType with
      | bool | float32 =>
        rw [hdata] at htype
        simp [ModbusDataType.IsInteger] at htype
      | uint16 | int16 | uint32 | int32 => exact ⟨_, rfl⟩
    obtain ⟨v, hv⟩ := hsome
    rw [hv, Option.bind_some]
    exact encode_decode htype hscale hlength hothers hv

def level : RegisterMapEntry := ⟨"level".toList, .holdingRegister, 0, .int32, none, some .little, true⟩

theorem level_readsClamped : level.ReadsClamped (ofInteger (-3000000000)) (-3000000000) ↔ ModbusDataType.int32.Saturates (-3000000000) :=
  readsClamped_iff (show level.dataType.IsInteger by simp [level, ModbusDataType.IsInteger]) rfl
    (holdsInteger_exactly (ofInteger_exactly (by norm_num)))

def flow : RegisterMapEntry := ⟨"flow".toList, .holdingRegister, 0, .uint16, none, none, true⟩

/-- One more than the largest word is read back as zero. -/
theorem flow_wraps : HoldsInteger 65536 (ofInteger 65536) ∧ ¬ flow.ReadsClamped (ofInteger 65536) 65536 := by
  refine ⟨(holdsInteger_exactly (ofInteger_exactly (by norm_num))), ?_⟩
  rintro ⟨⟨words, hencode, -, hdecode⟩, -⟩
  have hzero : encodeValueToRegisters flow (ofInteger 65536) = some [0] := by decide +kernel
  rw [hzero] at hencode
  obtain rfl := Option.some.inj hencode
  have hother : decodeRegistersToValue flow [0] ≠ some (ofInteger (flow.dataType.clamped 65536)) := by decide +kernel
  exact hother hdecode

end OxScada.Modbus
