import OxScada.Bytes.Buffer

/-! JavaScript numbers, which are binary64 values, and the little-endian fields of a Node
`Buffer`. An integer field takes `NaN` as zero. -/

namespace OxScada.Js
open OxScada.Bytes Float.Model

def orElse (value fallback : Float) : Float := if value.isNaN || value == 0 then fallback else value

/-- `Math.trunc(value)` held within bounds, as a fixed-width write takes it. -/
def clampInt (value : Float) (low high : ℤ) : ℤ := max low (min high (value.toModel.unpack.toInt low high))

/-! ### Fields -/

def writeUIntLE (width n : ℕ) : Buffer := (List.range width).map fun i => UInt8.ofNat (n / 256 ^ i)

def writeIntLE (width : ℕ) (n : ℤ) : Buffer := writeUIntLE width (n % 2 ^ (8 * width)).toNat

def readUIntLE : Buffer → ℕ
  | [] => 0
  | octet :: rest => octet.toNat + 256 * readUIntLE rest

variable (octets : Buffer)

def readIntLE : ℤ :=
  let n : ℤ := readUIntLE octets
  if n < 2 ^ (8 * octets.length - 1) then n else n - 2 ^ (8 * octets.length)

def convert (format : Format) : UnpackedFloat → UnpackedFloat
  | .finite sign mantissa exponent _ => UnpackedFloat.round format sign mantissa exponent
  | special => special

def writeFloatLE (value : Float) : Buffer :=
  writeUIntLE 4 (UnpackedFloat.pack .binary32 (convert .binary32 value.toModel.unpack)).toNat

def readFloatLE : Float :=
  .ofModel (pack (convert .binary64 (UnpackedFloat.unpack .binary32 (BitVec.ofNat _ (readUIntLE octets)))))

def writeDoubleLE (value : Float) : Buffer := writeUIntLE 8 value.toBits.toNat

def readDoubleLE : Float := .ofBits (UInt64.ofNat (readUIntLE octets))

example : readFloatLE (writeFloatLE (-1.5)) = -1.5 ∧ writeFloatLE (-1.5) = [0x00, 0x00, 0xc0, 0xbf] := by decide +kernel

theorem writeUIntLE_length (width n : ℕ) : (writeUIntLE width n).length = width := by
  rw [writeUIntLE, List.length_map, List.length_range]

theorem writeIntLE_length (width : ℕ) (n : ℤ) : (writeIntLE width n).length = width := writeUIntLE_length ..

theorem writeFloatLE_length (value : Float) : (writeFloatLE value).length = 4 := writeUIntLE_length ..

theorem writeUIntLE_succ (width n : ℕ) : writeUIntLE (width + 1) n = UInt8.ofNat n :: writeUIntLE width (n / 256) := by
  simp only [writeUIntLE, List.range_succ_eq_map, List.map_cons, List.map_map, pow_zero, Nat.div_one]
  congr 1
  apply List.map_congr_left
  intro i _
  simp only [Function.comp_apply, pow_succ', Nat.div_div_eq_div_mul]

theorem readUIntLE_writeUIntLE {width n : ℕ} (h : n < 256 ^ width) : readUIntLE (writeUIntLE width n) = n := by
  induction width generalizing n with
  | zero =>
    simp only [pow_zero, Nat.lt_one_iff] at h
    rw [h]
    rfl
  | succ width ih =>
    have hdiv : n / 256 < 256 ^ width := by
      rw [Nat.div_lt_iff_lt_mul (by norm_num)]
      rwa [pow_succ] at h
    rw [writeUIntLE_succ, readUIntLE, ih hdiv, UInt8.toNat_ofNat']
    omega

theorem writeUIntLE_readUIntLE : writeUIntLE octets.length (readUIntLE octets) = octets := by
  induction octets with
  | nil => rfl
  | cons octet rest ih =>
    have hlt := octet.toNat_lt
    have hrest : (octet.toNat + 256 * readUIntLE rest) / 256 = readUIntLE rest := by omega
    have hfirst : UInt8.ofNat (octet.toNat + 256 * readUIntLE rest) = octet := by
      apply UInt8.toNat_inj.mp
      rw [UInt8.toNat_ofNat']
      omega
    rw [List.length_cons, writeUIntLE_succ, readUIntLE, hrest, ih, hfirst]

/-! ### A number minus itself -/

theorem unpacked_sub_self (x : UnpackedFloat) :
    UnpackedFloat.sub .binary64 x x = .notANumber ∨ UnpackedFloat.sub .binary64 x x = .zero .positive := by
  cases x with
  | infinity sign =>
    left
    cases sign <;> rfl
  | notANumber => exact .inl rfl
  | zero sign =>
    right
    cases sign <;> rfl
  | finite sign mantissa exponent hpos =>
    right
    show UnpackedFloat.normalize .binary64 (_ - _) _ _ = _
    rw [Int.sub_self]
    rfl

theorem sub_self_within (t : Float) : ¬ t - t < 0 ∧ ¬ 0xffff < t - t := by
  have hsub : t - t = .ofModel (pack (UnpackedFloat.sub .binary64 t.toModel.unpack t.toModel.unpack)) := rfl
  rcases unpacked_sub_self t.toModel.unpack with h | h
  · rw [hsub, h]
    decide +kernel
  · rw [hsub, h]
    decide +kernel

end OxScada.Js
