import Mathlib

/-! Cyclic redundancy checks with a reflected polynomial, of any width. The register is linear in its bits, and where the
polynomial has its highest bit no error that fits in the register leaves it at zero. -/

namespace OxScada.Bytes.Crc

variable {w : ℕ} (poly : BitVec w)
variable (c : BitVec w)

def shift : BitVec w := if c.getLsbD 0 then (c >>> 1) ^^^ poly else c >>> 1

def bit (b : Bool) : BitVec w := if b then 1#w else 0#w

def feed (b : Bool) : BitVec w := shift poly (c ^^^ bit b)

def run (bits : List Bool) : BitVec w := bits.foldl (feed poly) c

def register : List Bool → BitVec w
  | [] => 0#w
  | b :: rest => bit b ^^^ (register rest <<< 1)

variable {poly}

/-! ### The register is linear -/

theorem shift_zero : shift poly 0 = 0 := by simp [shift]

theorem shift_xor (c d : BitVec w) : shift poly (c ^^^ d) = shift poly c ^^^ shift poly d := by
  unfold shift
  rw [BitVec.getLsbD_xor, BitVec.ushiftRight_xor_distrib]
  cases c.getLsbD 0 with
  | false =>
    cases d.getLsbD 0 with
    | false => rfl
    | true => exact BitVec.xor_assoc _ _ _
  | true =>
    cases d.getLsbD 0 with
    | false =>
      show (c >>> 1 ^^^ d >>> 1) ^^^ poly = (c >>> 1 ^^^ poly) ^^^ d >>> 1
      rw [BitVec.xor_assoc, BitVec.xor_assoc, BitVec.xor_comm (d >>> 1)]
    | true =>
      show c >>> 1 ^^^ d >>> 1 = (c >>> 1 ^^^ poly) ^^^ (d >>> 1 ^^^ poly)
      rw [BitVec.xor_comm (d >>> 1), BitVec.xor_assoc, ← BitVec.xor_assoc poly, BitVec.xor_self, BitVec.zero_xor]

theorem iterate_shift_zero (n : ℕ) : (shift poly)^[n] 0 = 0 := by
  apply Function.iterate_fixed
  exact shift_zero

theorem iterate_shift_xor (n : ℕ) (c d : BitVec w) : (shift poly)^[n] (c ^^^ d) = (shift poly)^[n] c ^^^ (shift poly)^[n] d := by
  induction n generalizing c d with
  | zero => rfl
  | succ n ih => rw [Function.iterate_succ_apply, Function.iterate_succ_apply, Function.iterate_succ_apply, shift_xor, ih]

theorem bit_xor (a b : Bool) : (bit (a ^^ b) : BitVec w) = bit a ^^^ bit b := by
  cases a <;> cases b <;> simp [bit]

theorem run_xor {l m : List Bool} (h : l.length = m.length) (c d : BitVec w) :
    run poly (c ^^^ d) (List.zipWith xor l m) = run poly c l ^^^ run poly d m := by
  induction l generalizing m c d with
  | nil =>
    obtain rfl := List.length_eq_zero_iff.mp h.symm
    rfl
  | cons a l ih =>
    cases m with
    | nil => cases h
    | cons b m =>
      have hfeed : feed poly (c ^^^ d) (a ^^ b) = feed poly c a ^^^ feed poly d b := by
        unfold feed
        rw [← shift_xor, bit_xor]
        congr 1
        rw [BitVec.xor_assoc, ← BitVec.xor_assoc d, BitVec.xor_comm d, BitVec.xor_assoc (bit a), ← BitVec.xor_assoc]
      show run poly (feed poly (c ^^^ d) (a ^^ b)) (List.zipWith xor l m) = run poly (feed poly c a) l ^^^ run poly (feed poly d b) m
      rw [hfeed]
      exact ih (Nat.succ.inj h) _ _

theorem run_append (l m : List Bool) : run poly c (l ++ m) = run poly (run poly c l) m := List.foldl_append

theorem run_false (n : ℕ) : run poly c (List.replicate n false) = (shift poly)^[n] c := by
  induction n generalizing c with
  | zero => rfl
  | succ n ih =>
    have hfeed : feed poly c false = shift poly c := congrArg (shift poly) BitVec.xor_zero
    rw [List.replicate_succ, Function.iterate_succ_apply, ← ih, ← hfeed]
    rfl

/-! ### Bits that fit in the register -/

theorem bit_getLsbD (b : Bool) (i : ℕ) (hw : 0 < w) : (bit b : BitVec w).getLsbD i = (b && decide (i = 0)) := by
  cases b with
  | false => simp [bit]
  | true => simp [bit, BitVec.getLsbD_one, hw]

variable {bits : List Bool} {c : BitVec w}

theorem register_getLsbD (h : bits.length ≤ w) (i : ℕ) : (register bits : BitVec w).getLsbD i = bits.getD i false := by
  induction bits generalizing i with
  | nil => simp [register]
  | cons b rest ih =>
    rw [List.length_cons] at h
    rw [register, BitVec.getLsbD_xor, bit_getLsbD b i (by omega), BitVec.getLsbD_shiftLeft]
    cases i with
    | zero => simp
    | succ i =>
      by_cases hi : i + 1 < w
      · simp [ih (by omega), hi]
      · have hnone : rest[i]? = none := List.getElem?_eq_none (by omega)
        simp [hi, hnone]

theorem shift_shiftLeft (h : c.getLsbD (w - 1) = false) : shift poly (c <<< 1) = c := by
  have hlow : (c <<< 1).getLsbD 0 = false := by simp [BitVec.getLsbD_shiftLeft]
  unfold shift
  rw [hlow, if_neg (by simp)]
  apply BitVec.eq_of_getLsbD_eq
  intro i hi
  rw [BitVec.getLsbD_ushiftRight, BitVec.getLsbD_shiftLeft]
  by_cases htop : 1 + i < w
  · have hindex : 1 + i - 1 = i := by omega
    simp [htop, hindex]
  · have hindex : i = w - 1 := by omega
    rw [hindex, h]
    simp
    omega

theorem iterate_shift_shiftLeft {n : ℕ} (h : ∀ i, w - n ≤ i → c.getLsbD i = false) : (shift poly)^[n] (c <<< n) = c := by
  induction n with
  | zero => exact BitVec.shiftLeft_zero c
  | succ n ih =>
    have htop : (c <<< n).getLsbD (w - 1) = false := by
      rw [BitVec.getLsbD_shiftLeft]
      by_cases hn : w - 1 < n
      · simp [hn]
      · simp [h (w - 1 - n) (by omega)]
    rw [Function.iterate_succ_apply, BitVec.shiftLeft_add, shift_shiftLeft htop]
    apply ih
    intro i hi
    exact h i (by omega)

theorem run_eq_register (h : bits.length ≤ w) (c : BitVec w) :
    run poly c bits = (shift poly)^[bits.length] (c ^^^ register bits) := by
  induction bits generalizing c with
  | nil => exact BitVec.xor_zero.symm
  | cons b rest ih =>
    rw [List.length_cons] at h
    have htop : (register rest : BitVec w).getLsbD (w - 1) = false := by
      rw [register_getLsbD (by omega), List.getD_eq_getElem?_getD, List.getElem?_eq_none (by omega)]
      rfl
    show run poly (feed poly c b) rest = _
    rw [ih (by omega), List.length_cons, Function.iterate_succ_apply, register, ← BitVec.xor_assoc, shift_xor, shift_shiftLeft htop]
    rfl

/-! ### Errors -/

section
variable (hpoly : poly.msb = true)
include hpoly

theorem shift_eq_zero (h : shift poly c = 0) : c = 0 := by
  unfold shift at h
  have htop : (c >>> 1).getLsbD (w - 1) = false := by
    rw [BitVec.getLsbD_ushiftRight]
    exact BitVec.getLsbD_of_ge _ _ (by omega)
  by_cases hlow : c.getLsbD 0 = true
  · rw [if_pos hlow] at h
    have hbit := congrArg (fun d : BitVec w => d.getLsbD (w - 1)) h
    rw [BitVec.msb_eq_getLsbD_last] at hpoly
    simp only [BitVec.getLsbD_xor, htop, hpoly] at hbit
    simp at hbit
  · rw [if_neg hlow] at h
    apply BitVec.eq_of_getLsbD_eq
    intro i hi
    cases i with
    | zero => simpa using hlow
    | succ i =>
      have hbit := congrArg (fun d : BitVec w => d.getLsbD i) h
      simp only [BitVec.getLsbD_ushiftRight] at hbit
      rw [Nat.add_comm]
      simpa using hbit

theorem iterate_shift_eq_zero {n : ℕ} (h : (shift poly)^[n] c = 0) : c = 0 := by
  induction n with
  | zero => exact h
  | succ n ih =>
    rw [Function.iterate_succ_apply'] at h
    exact ih (shift_eq_zero hpoly h)

theorem iterate_shift_injective (n : ℕ) : Function.Injective (shift poly)^[n] := by
  intro c d h
  refine BitVec.xor_eq_zero_iff.mp (iterate_shift_eq_zero (n := n) hpoly ?_)
  rw [iterate_shift_xor, h]
  exact BitVec.xor_self

theorem run_burst {window : List Bool} (hlength : window.length ≤ w) (htrue : true ∈ window) (before after : ℕ) :
    run poly 0 (List.replicate before false ++ window ++ List.replicate after false) ≠ 0 := by
  rw [run_append, run_append, run_false, run_false, iterate_shift_zero, run_eq_register hlength]
  intro hzero
  have hregister : register window = 0#w := BitVec.zero_xor.symm.trans <|
    iterate_shift_eq_zero hpoly (iterate_shift_eq_zero hpoly hzero)
  obtain ⟨i, hi, hbit⟩ := List.mem_iff_getElem.mp htrue
  have hset := register_getLsbD hlength i
  rw [hregister, List.getD_eq_getElem?_getD, List.getElem?_eq_getElem hi, hbit] at hset
  simp at hset

end

theorem eq_window {start width : ℕ} (h : ∀ i, bits[i]? = some true → start ≤ i ∧ i < start + width) :
    bits = List.replicate (min start bits.length) false ++ (bits.drop start).take width ++ List.replicate (bits.length - (start + width)) false := by
  have hfalse : ∀ l : List Bool, (∀ b ∈ l, b = false) → l = List.replicate l.length false := fun l => List.eq_replicate_of_mem
  have hbefore : bits.take start = List.replicate (min start bits.length) false := by
    rw [← List.length_take]
    refine hfalse _ fun b hb => ?_
    obtain ⟨i, hi, rfl⟩ := List.mem_iff_getElem.mp hb
    rw [List.length_take] at hi
    rw [List.getElem_take]
    by_contra htrue
    have hmem := h i (by rw [List.getElem?_eq_getElem (by omega)]; simpa using htrue)
    omega
  have hafter : (bits.drop start).drop width = List.replicate (bits.length - (start + width)) false := by
    rw [List.drop_drop, ← List.length_drop]
    refine hfalse _ fun b hb => ?_
    obtain ⟨i, hi, rfl⟩ := List.mem_iff_getElem.mp hb
    rw [List.length_drop] at hi
    rw [List.getElem_drop]
    by_contra htrue
    have hmem := h (start + width + i) (by rw [List.getElem?_eq_getElem (by omega)]; simpa using htrue)
    omega
  rw [← hbefore, ← hafter, List.append_assoc, List.take_append_drop, List.take_append_drop]

end OxScada.Bytes.Crc
