import OxScada.Bytes.Crc
import OxScada.Dnp3.LinkLayer

/-! The block CRC as a run of the register over the bits on the line, and the errors it finds. -/

namespace OxScada.Dnp3
open OxScada.Bytes

/-! ### Bits on the line -/

def octetBits (octet : UInt8) : List Bool := (List.range 8).map octet.toBitVec.getLsbD

def lineBits (buf : Buffer) : List Bool := buf.flatMap octetBits

def flipped (sent received : Buffer) : Set ℕ := {i | (lineBits sent)[i]? ≠ (lineBits received)[i]?}

theorem octetBits_length (octet : UInt8) : (octetBits octet).length = 8 := by simp [octetBits]

theorem lineBits_length (buf : Buffer) : (lineBits buf).length = 8 * buf.length := by
  induction buf with
  | nil => rfl
  | cons octet rest ih =>
    rw [List.length_cons, ← Nat.succ_eq_add_one, Nat.mul_succ, ← ih]
    simp [lineBits, octetBits_length, Nat.add_comm]

theorem lineBits_getElem? (buf : Buffer) (i : ℕ) :
    (lineBits buf)[i]? = buf[i / 8]?.map fun octet => octet.toBitVec.getLsbD (i % 8) := by
  induction buf generalizing i with
  | nil => simp [lineBits]
  | cons octet rest ih =>
    show (octetBits octet ++ lineBits rest)[i]? = _
    by_cases hi : i < 8
    · have hdiv : i / 8 = 0 := Nat.div_eq_of_lt hi
      have hmod : i % 8 = i := Nat.mod_eq_of_lt hi
      rw [List.getElem?_append_left (by rw [octetBits_length]; exact hi), hdiv, hmod]
      simp [octetBits, hi]
    · obtain ⟨j, rfl⟩ := Nat.exists_eq_add_of_le (Nat.le_of_not_lt hi)
      have hdiv : (8 + j) / 8 = j / 8 + 1 := by omega
      have hmod : (8 + j) % 8 = j % 8 := by omega
      rw [List.getElem?_append_right (by rw [octetBits_length]; omega), octetBits_length, Nat.add_sub_cancel_left, ih, hdiv, hmod]
      rfl

/-! ### The table runs the register -/

theorem crcShift_eq : crcShift = Crc.shift crcPoly := by
  funext crc
  have hlow : crc &&& 1 = 1 ↔ crc.getLsbD 0 = true := by
    rw [BitVec.toNat_eq, BitVec.toNat_and]
    simp [BitVec.getLsbD, Nat.testBit_zero, Nat.and_one_is_mod]
  unfold crcShift Crc.shift
  simp only [hlow]

theorem register_octetBits (octet : UInt8) : (Crc.register (octetBits octet) : BitVec 16) = octet.toBitVec.setWidth 16 := by
  apply BitVec.eq_of_getLsbD_eq
  intro i hi
  rw [Crc.register_getLsbD (by rw [octetBits_length]; omega), BitVec.getLsbD_setWidth, List.getD_eq_getElem?_getD]
  by_cases h : i < 8
  · simp [octetBits, h, hi]
  · have hnone : (octetBits octet)[i]? = none := List.getElem?_eq_none (by rw [octetBits_length]; omega)
    rw [hnone, BitVec.getLsbD_of_ge _ _ (by omega)]
    simp

theorem iterate_crcShift (crc : BitVec 16) : crcShift^[8] crc = (crc >>> 8) ^^^ crcTable (crc &&& 0xff) := by
  have hsplit : crc = ((crc >>> 8) <<< 8) ^^^ (crc &&& 0xff) := by
    apply BitVec.eq_of_getLsbD_eq
    intro i hi
    have hmask : ∀ i < 16, (0xff : BitVec 16).getLsbD i = decide (i < 8) := by decide
    rw [BitVec.getLsbD_xor, BitVec.getLsbD_shiftLeft, BitVec.getLsbD_ushiftRight, BitVec.getLsbD_and, hmask i hi]
    by_cases h : i < 8
    · simp [h]
    · simp [h, hi, show 8 + (i - 8) = i by omega]
  have hhigh : crcShift^[8] ((crc >>> 8) <<< 8) = crc >>> 8 := by
    rw [crcShift_eq]
    apply Crc.iterate_shift_shiftLeft
    intro i hi
    rw [BitVec.getLsbD_ushiftRight]
    exact BitVec.getLsbD_of_ge _ _ (by omega)
  conv_lhs => rw [hsplit]
  rw [crcShift_eq, Crc.iterate_shift_xor, ← crcShift_eq, hhigh]
  rfl

theorem crcStep_eq (crc : BitVec 16) (octet : UInt8) : crcStep crc octet = Crc.run crcPoly crc (octetBits octet) := by
  rw [Crc.run_eq_register (by rw [octetBits_length]; decide), octetBits_length, register_octetBits, ← crcShift_eq, iterate_crcShift]
  have hhigh : (crc ^^^ octet.toBitVec.setWidth 16) >>> 8 = crc >>> 8 := by
    apply BitVec.eq_of_getLsbD_eq
    intro i hi
    simp [BitVec.getLsbD_setWidth]
  rw [hhigh]
  rfl

theorem foldl_crcStep (data : Buffer) (crc : BitVec 16) : data.foldl crcStep crc = Crc.run crcPoly crc (lineBits data) := by
  induction data generalizing crc with
  | nil => rfl
  | cons octet rest ih =>
    rw [List.foldl_cons, ih, crcStep_eq, ← Crc.run_append]
    rfl

theorem register_crc (low high : UInt8) : (Crc.register (lineBits [low, high]) : BitVec 16) = readUInt16LE low high := by
  have hlength : (lineBits [low, high]).length ≤ 16 := (lineBits_length _).le
  apply BitVec.eq_of_getLsbD_eq
  intro i hi
  rw [Crc.register_getLsbD hlength, List.getD_eq_getElem?_getD, lineBits_getElem?, readUInt16LE, BitVec.getLsbD_append]
  by_cases h : i < 8
  · have hdiv : i / 8 = 0 := Nat.div_eq_of_lt h
    have hmod : i % 8 = i := Nat.mod_eq_of_lt h
    simp [h, hdiv, hmod]
  · have hdiv : i / 8 = 1 := by omega
    have hmod : i % 8 = i - 8 := by omega
    simp [h, hdiv, hmod]

/-! ### What a checked block leaves in the register -/

def residue : BitVec 16 := crcShift^[16] (BitVec.allOnes 16)

theorem msb_crcPoly : crcPoly.msb = true := by decide

theorem run_checked (body : Buffer) (low high : UInt8) :
    verifyBlockCrc (body ++ [low, high]) = true ↔ Crc.run crcPoly 0 (lineBits (body ++ [low, high])) = residue := by
  have hbody : (body ++ [low, high]).length - 2 = body.length := by simp
  have hbits : lineBits (body ++ [low, high]) = lineBits body ++ lineBits [low, high] := List.flatMap_append
  have hverify : verifyBlockCrc (body ++ [low, high]) = (dnp3Crc body == readUInt16LE low high) := by
    unfold verifyBlockCrc
    dsimp only
    rw [hbody, List.drop_left, List.take_left]
  have hlength : (lineBits [low, high]).length = 16 := lineBits_length _
  rw [hverify, beq_iff_eq, dnp3Crc, foldl_crcStep, hbits, Crc.run_append, Crc.run_eq_register hlength.le, hlength, register_crc, residue,
    crcShift_eq, (Crc.iterate_shift_injective msb_crcPoly 16).eq_iff]
  generalize Crc.run crcPoly 0 (lineBits body) = crc
  constructor
  · intro h
    rw [← h, ← BitVec.xor_allOnes, ← BitVec.xor_assoc, BitVec.xor_self, BitVec.zero_xor]
  · intro h
    rw [← BitVec.xor_allOnes, ← h, ← BitVec.xor_assoc, BitVec.xor_self, BitVec.zero_xor]

theorem verifyBlockCrc_iff {buf : Buffer} (h : 2 ≤ buf.length) :
    verifyBlockCrc buf = true ↔ Crc.run crcPoly 0 (lineBits buf) = residue := by
  obtain ⟨low, high, hend⟩ := List.length_eq_two.mp (show (buf.drop (buf.length - 2)).length = 2 by rw [List.length_drop]; omega)
  rw [← List.take_append_drop (buf.length - 2) buf, hend]
  exact run_checked _ _ _

/-! ### Bursts -/

theorem zipWith_xor_getElem? {l m : List Bool} (h : l.length = m.length) (i : ℕ) :
    (List.zipWith xor l m)[i]? = some true ↔ l[i]? ≠ m[i]? := by
  rw [List.getElem?_zipWith]
  by_cases hi : i < l.length
  · rw [List.getElem?_eq_getElem hi, List.getElem?_eq_getElem (h ▸ hi)]
    simp
  · rw [List.getElem?_eq_none (by omega), List.getElem?_eq_none (by omega)]
    simp

/-- Where the bits that came in wrong lie within sixteen positions, the CRC does not match. -/
theorem verifyBlockCrc_burst (block : Buffer) :
    verifyBlockCrc (appendCrc block) = true ∧
      ∀ corrupted : Buffer, corrupted.length = (appendCrc block).length → (flipped (appendCrc block) corrupted).Nonempty →
        ∀ start, flipped (appendCrc block) corrupted ⊆ Set.Ico start (start + 16) → verifyBlockCrc corrupted = false := by
  refine ⟨verifyBlockCrc_appendCrc block, fun corrupted hlength hflipped start hburst => ?_⟩
  have hlong : 2 ≤ (appendCrc block).length := by
    rw [appendCrc_length]
    omega
  have hsent := (verifyBlockCrc_iff hlong).mp (verifyBlockCrc_appendCrc block)
  have hbits : (lineBits (appendCrc block)).length = (lineBits corrupted).length := by rw [lineBits_length, lineBits_length, hlength]
  -- the error is what the two strings of bits have in xor, and both leave the same residue
  by_contra haccepted
  rw [Bool.not_eq_false, verifyBlockCrc_iff (by omega)] at haccepted
  have herror : Crc.run crcPoly (0 ^^^ 0) _ = _ := Crc.run_xor hbits 0 0
  rw [hsent, haccepted, BitVec.xor_self] at herror
  generalize hbad : List.zipWith xor (lineBits (appendCrc block)) (lineBits corrupted) = bad at herror
  have hset : ∀ i, bad[i]? = some true ↔ i ∈ flipped (appendCrc block) corrupted := by
    intro i
    rw [← hbad]
    exact zipWith_xor_getElem? hbits i
  have hwindow := Crc.eq_window fun i (hi : bad[i]? = some true) => Set.mem_Ico.mp (hburst ((hset i).mp hi))
  rw [hwindow] at herror
  refine Crc.run_burst msb_crcPoly (List.length_take_le _ _) ?_ _ _ herror
  obtain ⟨i, hi⟩ := hflipped
  have hin := Set.mem_Ico.mp (hburst hi)
  apply List.mem_of_getElem? (i := i - start)
  rw [List.getElem?_take_of_lt (by omega), List.getElem?_drop, Nat.add_sub_cancel' hin.1]
  exact (hset i).mpr hi

/-- Two bits of `[0x45, 0x01]` with its CRC go wrong, one in the body and one in the CRC. -/
theorem verifyBlockCrc_burst_boundary : appendCrc [0x45, 0x01] = [0x45, 0x01, 0x0e, 0xfe] ∧ verifyBlockCrc [0x45, 0x00, 0x0a, 0xfe] = false := by
  refine ⟨by decide, ?_⟩
  have hlengths : (lineBits (appendCrc [0x45, 0x01])).length = 32 ∧ (lineBits [0x45, 0x00, 0x0a, 0xfe]).length = 32 := by
    constructor <;> exact lineBits_length _
  apply (verifyBlockCrc_burst [0x45, 0x01]).2 [0x45, 0x00, 0x0a, 0xfe] (by decide) ⟨8, by unfold flipped; decide⟩ 8
  intro i hi
  by_cases hin : i < 32
  · interval_cases i <;> revert hi <;> unfold flipped <;> decide
  · exact absurd ((List.getElem?_eq_none (by omega)).trans (List.getElem?_eq_none (by omega)).symm) hi

end OxScada.Dnp3
