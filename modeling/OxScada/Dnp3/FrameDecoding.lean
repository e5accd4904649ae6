import OxScada.Dnp3.Loopback

/-! An accepted frame of exact length is the encoding of what it decodes to. -/

namespace OxScada.Dnp3
open OxScada.Bytes

/-! ### Blocks -/

theorem writeUInt16LE_read (low high : UInt8) : writeUInt16LE (readUInt16LE low high) = [low, high] := by
  have hlow : (high.toBitVec ++ low.toBitVec).extractLsb' 0 8 = low.toBitVec := BitVec.extractLsb'_append_eq_right
  have hhigh : (high.toBitVec ++ low.toBitVec).extractLsb' 8 8 = high.toBitVec := BitVec.extractLsb'_append_eq_left
  show [UInt8.ofBitVec ((high.toBitVec ++ low.toBitVec).extractLsb' 0 8), UInt8.ofBitVec ((high.toBitVec ++ low.toBitVec).extractLsb' 8 8)] = _
  rw [hlow, hhigh]

theorem eq_appendCrc {block : Buffer} (h : verifyBlockCrc block = true) : block = appendCrc (block.take (block.length - 2)) := by
  unfold verifyBlockCrc at h
  dsimp only at h
  have hend := List.take_append_drop (block.length - 2) block
  match hdrop : block.drop (block.length - 2) with
  | [low, high] =>
    rw [hdrop] at h hend
    have hcrc : dnp3Crc (block.take (block.length - 2)) = readUInt16LE low high := by simpa using h
    rw [appendCrc, hcrc, writeUInt16LE_read, hend]
  | [] => simp [hdrop] at h
  | [_] => simp [hdrop] at h
  | _ :: _ :: _ :: _ => simp [hdrop] at h

def blocksLength (remaining : ℕ) : ℕ := remaining + (remaining + 15) / blockSize * 2

theorem blocksLength_step {remaining : ℕ} (h : 0 < remaining) :
    blocksLength remaining = min blockSize remaining + 2 + blocksLength (remaining - min blockSize remaining) := by
  simp only [blocksLength, blockSize]
  omega

variable {payload frame : Buffer} {header : Dnp3LinkHeader}

theorem eq_crcBlocks {rest : Buffer} {remaining : ℕ} (hlength : rest.length = blocksLength remaining)
    (h : extractBlocks rest remaining = some payload) : rest = crcBlocks payload ∧ payload.length = remaining := by
  induction rest, remaining using extractBlocks.induct generalizing payload with
  | case1 rest remaining hpos take blockWithCrc =>
    rename_i hshort
    rw [extractBlocks, if_pos hpos] at h
    dsimp only at h
    rw [if_pos hshort] at h
    cases h
  | case2 rest remaining hpos take blockWithCrc hlong =>
    rename_i hbad
    rw [extractBlocks, if_pos hpos] at h
    dsimp only at h
    rw [if_neg hlong, if_pos hbad] at h
    cases h
  | case3 rest remaining hpos take blockWithCrc hlong hgood =>
    rename_i ih
    rw [extractBlocks, if_pos hpos] at h
    dsimp only at h
    rw [if_neg hlong, if_neg hgood] at h
    obtain ⟨later, hlater, rfl⟩ := Option.map_eq_some_iff.mp h
    have hstep := blocksLength_step hpos
    have htake : (rest.take (min blockSize remaining + 2)).length = min blockSize remaining + 2 := by
      apply le_antisymm (List.length_take_le _ _)
      exact Nat.le_of_not_lt hlong
    obtain ⟨hrest, hleft⟩ := ih (by rw [List.length_drop, hlength, hstep, Nat.add_sub_cancel_left]) hlater
    have hcrc : verifyBlockCrc (rest.take (min blockSize remaining + 2)) = true := by simpa using hgood
    have hblock := eq_appendCrc hcrc
    rw [htake, Nat.add_sub_cancel] at hblock
    generalize hbody : (rest.take (min blockSize remaining + 2)).take (min blockSize remaining) = body at *
    have hfull : body.length = min blockSize remaining := by
      rw [← hbody, List.length_take, htake]
      omega
    have hlengths : (body ++ later).length = remaining := by
      rw [List.length_append, hfull, hleft]
      omega
    have hne : body ++ later ≠ [] := by
      intro hnil
      rw [hnil] at hlengths
      simp at hlengths
      omega
    -- a block that is not full is the last one
    have hcut : (body ++ later).take blockSize = body ∧ (body ++ later).drop blockSize = later := by
      by_cases hlast : blockSize ≤ remaining
      · have hsize : body.length = blockSize := hfull.trans (min_eq_left hlast)
        rw [← hsize, List.take_left, List.drop_left]
        exact ⟨rfl, rfl⟩
      · have hlater : later = [] := List.length_eq_zero_iff.mp (by omega)
        rw [hlater, List.append_nil]
        constructor
        · exact List.take_of_length_le (by omega)
        · exact List.drop_of_length_le (by omega)
    refine ⟨?_, hlengths⟩
    rw [crcBlocks, if_neg hne, hcut.1, hcut.2, ← hrest, ← hblock, List.take_append_drop]
  | case4 rest remaining hdone =>
    obtain rfl : remaining = 0 := Nat.eq_zero_of_not_pos hdone
    rw [extractBlocks, if_neg hdone] at h
    obtain rfl : payload = [] := (Option.some.inj h).symm
    obtain rfl : rest = [] := List.length_eq_zero_iff.mp hlength
    refine ⟨?_, rfl⟩
    rw [crcBlocks, if_pos rfl]

/-! ### The header -/

theorem eq_linkHeader (h : parseLinkHeader frame = some header) :
    frame = appendCrc (linkHeader header.length header.control.toNat header.destination header.source) ++ frame.drop headerBytes ∧
      header.length < 256 := by
  unfold parseLinkHeader at h
  split at h
  · rename_i start sync length control dest0 dest1 src0 src1 crc0 crc1 rest
    by_cases hstart : start ≠ startByte ∨ sync ≠ syncByte
    · rw [if_pos hstart] at h
      cases h
    rw [if_neg hstart] at h
    by_cases hcrc : dnp3Crc [start, sync, length, control, dest0, dest1, src0, src1] ≠ readUInt16LE crc0 crc1
    · rw [if_pos hcrc] at h
      cases h
    rw [if_neg hcrc] at h
    obtain rfl := (Option.some.inj h).symm
    push Not at hstart hcrc
    obtain ⟨rfl, rfl⟩ := hstart
    have hheader : linkHeader length.toNat control.toNat (readUInt16LE dest0 dest1).toNat (readUInt16LE src0 src1).toNat =
        [startByte, syncByte, length, control, dest0, dest1, src0, src1] := by
      unfold linkHeader
      rw [UInt8.ofNat_toNat, UInt8.ofNat_toNat, BitVec.ofNat_toNat, BitVec.ofNat_toNat, BitVec.setWidth_eq, BitVec.setWidth_eq,
        writeUInt16LE_read, writeUInt16LE_read]
      rfl
    refine ⟨?_, length.toNat_lt⟩
    show _ = appendCrc (linkHeader length.toNat control.toNat (readUInt16LE dest0 dest1).toNat (readUInt16LE src0 src1).toNat) ++ _
    rw [appendCrc, hheader, hcrc, writeUInt16LE_read]
    rfl
  · cases h

/-! ### Frames -/

theorem extractPayload_cases (h : extractPayload frame = some (header, payload)) :
    parseLinkHeader frame = some header ∧ 5 ≤ header.length ∧ extractBlocks (frame.drop headerBytes) (header.length - 5) = some payload := by
  unfold extractPayload at h
  split at h
  · cases h
  · rename_i found hparse
    by_cases hlow : found.length < 5
    · rw [if_pos hlow] at h
      cases h
    rw [if_neg hlow] at h
    obtain ⟨blocks, hblocks, heq⟩ := Option.map_eq_some_iff.mp h
    obtain ⟨rfl, rfl⟩ := Prod.mk.inj heq
    exact ⟨hparse, Nat.le_of_not_lt hlow, hblocks⟩

theorem build_extracted (h : extractPayload frame = some (header, payload))
    (hexact : frame.length = frameLength (header.length - 5)) :
    buildLinkFrame header.control.toNat header.destination header.source payload = .ok frame := by
  obtain ⟨hparse, hlow, hblocks⟩ := extractPayload_cases h
  obtain ⟨hframe, hhigh⟩ := eq_linkHeader hparse
  have hrest : (frame.drop headerBytes).length = blocksLength (header.length - 5) := by
    rw [List.length_drop, hexact, frameLength, blocksLength]
    omega
  obtain ⟨hcrc, hlength⟩ := eq_crcBlocks hrest hblocks
  have hsize : 5 + payload.length = header.length := by omega
  rw [buildLinkFrame_ok (by omega), hsize, ← hcrc, ← hframe]

/-- Frames of exact length and contents of at most 250 octets are in one to one correspondence. -/
theorem linkFrame_encoding :
    (∀ frame header payload, extractPayload frame = some (header, payload) → frame.length = frameLength (header.length - 5) →
      buildLinkFrame header.control.toNat header.destination header.source payload = .ok frame) ∧
    (∀ frame other header payload, extractPayload frame = some (header, payload) → extractPayload other = some (header, payload) →
      frame.length = frameLength (header.length - 5) → other.length = frameLength (header.length - 5) → frame = other) ∧
    (∀ control destination source (payload : Buffer), payload.length ≤ 250 →
      ∃ frame header, buildLinkFrame control destination source payload = .ok frame ∧ extractPayload frame = some (header, payload) ∧
        frame.length = frameLength (header.length - 5) ∧ header.control.toNat = control % 256 ∧
        header.destination = destination % 65536 ∧ header.source = source % 65536) := by
  refine ⟨fun _ _ _ => build_extracted, ?_, ?_⟩
  · intro frame other header payload hframe hother hlength hlengths
    have hbuild := (build_extracted hframe hlength).symm.trans (build_extracted hother hlengths)
    exact Except.ok.inj hbuild
  · intro control destination source payload hlength
    refine ⟨_, _, buildLinkFrame_ok hlength, extractPayload_linkFrame hlength, ?_, rfl, rfl, rfl⟩
    rw [frameHeader_length hlength, Nat.add_sub_cancel_left, List.length_append, headerBlock_length, crcBlocks_length, frameLength,
      Nat.add_assoc]

end OxScada.Dnp3
