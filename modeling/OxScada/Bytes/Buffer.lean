import Mathlib.Data.List.Infix
import Mathlib.Tactic

/-! Byte buffers with the index conventions of JavaScript typed arrays: a read
outside the buffer is `undefined`, and a slice bound below zero counts from the
end. Nothing here depends on a particular wire format. -/

namespace OxScada.Bytes

abbrev Buffer := List UInt8

abbrev Text := List Char

instance text_lawfulBEq : LawfulBEq Text := inferInstance

namespace Buffer
variable (buf : Buffer)

def at? (i : ℤ) : Option UInt8 :=
  if 0 ≤ i then buf[i.toNat]? else none

def bound (len : ℕ) (i : ℤ) : ℕ :=
  if i < 0 then (i + len).toNat else min i.toNat len

def subarray (start stop : ℤ) : Buffer :=
  (buf.take (bound buf.length stop)).drop (bound buf.length start)

/-- `buf.toString("latin1")`: every octet is the character of that code. -/
def latin1 : Text := buf.map (fun b => Char.ofNat b.toNat)

theorem at?_natCast (i : ℕ) : at? buf (i : ℤ) = buf[i]? := by
  simp [at?]

theorem bound_natCast {len i : ℕ} (h : i ≤ len) : bound len (i : ℤ) = i := by
  have hn : ¬ (i : ℤ) < 0 := by omega
  simp only [bound, if_neg hn, Int.toNat_natCast, min_eq_left h]

theorem subarray_natCast {i j : ℕ} (hi : i ≤ buf.length) (hj : j ≤ buf.length) :
    subarray buf (i : ℤ) (j : ℤ) = (buf.take j).drop i := by
  rw [subarray, bound_natCast hi, bound_natCast hj]

end Buffer

/-! ### Signed 32-bit accumulation -/

/-- One round of `acc = (acc << 8) | byte` in JavaScript, whose bitwise operators
work on 32-bit two's complement words. -/
def shiftIn (acc : BitVec 32) (b : UInt8) : BitVec 32 := (acc <<< 8) ||| b.toBitVec.setWidth 32

theorem shiftIn_toNat (acc : BitVec 32) (b : UInt8) :
    (shiftIn acc b).toNat = acc.toNat * 256 % 2 ^ 32 + b.toNat := by
  have hb : b.toNat < 2 ^ 8 := b.toNat_lt
  have hdvd : acc.toNat * 256 % 2 ^ 32 = 2 ^ 8 * (acc.toNat % 2 ^ 24) := by omega
  rw [shiftIn, BitVec.toNat_or, BitVec.toNat_shiftLeft, BitVec.toNat_setWidth,
    UInt8.toNat_toBitVec, Nat.shiftLeft_eq, Nat.mod_eq_of_lt (a := b.toNat) (by omega)]
  rw [show (2 : ℕ) ^ 8 = 256 by norm_num, hdvd, ← Nat.two_pow_add_eq_or_of_lt hb]

def scaleIn (acc : ℕ) (b : UInt8) : ℕ := acc * 256 + b.toNat

variable (octets : Buffer)

def bigEndian : ℕ := octets.foldl scaleIn 0

/-- The value left in the 32-bit accumulator after all octets were shifted in. -/
def signedBigEndian : ℤ := (octets.foldl shiftIn 0).toInt

theorem foldl_scaleIn (acc : ℕ) :
    octets.foldl scaleIn acc = acc * 256 ^ octets.length + bigEndian octets := by
  induction octets generalizing acc with
  | nil => simp [bigEndian]
  | cons b bs ih =>
    have h0 := ih (scaleIn 0 b)
    have hacc := ih (scaleIn acc b)
    simp only [bigEndian, List.foldl_cons, List.length_cons] at *
    rw [hacc, h0]
    simp only [scaleIn]
    ring

theorem bigEndian_cons (b : UInt8) (bs : Buffer) :
    bigEndian (b :: bs) = b.toNat * 256 ^ bs.length + bigEndian bs := by
  rw [bigEndian, List.foldl_cons, foldl_scaleIn]
  simp [scaleIn]

theorem bigEndian_lt : bigEndian octets < 256 ^ octets.length := by
  induction octets with
  | nil => simp [bigEndian]
  | cons b bs ih =>
    have hb : b.toNat + 1 ≤ 256 := b.toNat_lt
    rw [bigEndian_cons, List.length_cons, pow_succ']
    calc b.toNat * 256 ^ bs.length + bigEndian bs
        < b.toNat * 256 ^ bs.length + 256 ^ bs.length := Nat.add_lt_add_left ih _
      _ = (b.toNat + 1) * 256 ^ bs.length := by ring
      _ ≤ 256 * 256 ^ bs.length := Nat.mul_le_mul_right _ hb

theorem foldl_shiftIn_toNat (acc : BitVec 32) :
    (octets.foldl shiftIn acc).toNat = octets.foldl scaleIn acc.toNat % 2 ^ 32 := by
  induction octets generalizing acc with
  | nil => exact (Nat.mod_eq_of_lt acc.isLt).symm
  | cons b bs ih =>
    have hb : b.toNat < 2 ^ 8 := b.toNat_lt
    have hstep : (shiftIn acc b).toNat ≡ scaleIn acc.toNat b [MOD 2 ^ 32] := by
      rw [shiftIn_toNat, scaleIn]
      exact (Nat.mod_modEq _ _).add_right _
    rw [List.foldl_cons, List.foldl_cons, ih, foldl_scaleIn, foldl_scaleIn bs]
    exact (hstep.mul_right _).add_right _

theorem signedBigEndian_eq {octets : Buffer} (h : octets.length ≤ 4) :
    signedBigEndian octets =
      if bigEndian octets < 2 ^ 31 then (bigEndian octets : ℤ) else bigEndian octets - 2 ^ 32 := by
  have hlt : bigEndian octets < 2 ^ 32 := by
    calc bigEndian octets < 256 ^ octets.length := bigEndian_lt octets
      _ ≤ 256 ^ 4 := Nat.pow_le_pow_right (by norm_num) h
      _ = 2 ^ 32 := by norm_num
  have hnat : (octets.foldl shiftIn 0).toNat = bigEndian octets := by
    rw [foldl_shiftIn_toNat]
    exact Nat.mod_eq_of_lt hlt
  rw [signedBigEndian, BitVec.toInt_eq_toNat_cond, hnat]
  split_ifs <;> omega

end OxScada.Bytes
