import OxScada.Bytes.Buffer

/-! The DNP3 data link layer: block CRCs, the link header, and frames. Numbers that the
code masks to an octet or to sixteen bits are reduced on the way into the frame. -/

namespace OxScada.Dnp3
open OxScada.Bytes

/-! ### CRC-DNP -/

def crcPoly : BitVec 16 := 0xa6bc

def crcShift (crc : BitVec 16) : BitVec 16 :=
  if crc &&& 1 = 1 then (crc >>> 1) ^^^ crcPoly else crc >>> 1

def crcTable (i : BitVec 16) : BitVec 16 := crcShift^[8] i

def crcStep (crc : BitVec 16) (octet : UInt8) : BitVec 16 :=
  let idx := (crc ^^^ octet.toBitVec.setWidth 16) &&& 0xff
  (crc >>> 8) ^^^ crcTable idx

def dnp3Crc (data : Buffer) : BitVec 16 := ~~~ (data.foldl crcStep 0)

def writeUInt16LE (n : BitVec 16) : Buffer := [⟨n.extractLsb' 0 8⟩, ⟨n.extractLsb' 8 8⟩]

def readUInt16LE (low high : UInt8) : BitVec 16 := high.toBitVec ++ low.toBitVec

theorem readUInt16LE_write (n : BitVec 16) : readUInt16LE ⟨n.extractLsb' 0 8⟩ ⟨n.extractLsb' 8 8⟩ = n := by
  have hjoin : (n.extractLsb' 8 8 ++ n.extractLsb' 0 8 : BitVec (8 + 8)) = n :=
    BitVec.extractLsb'_append_extractLsb'
  exact hjoin

def appendCrc (block : Buffer) : Buffer := block ++ writeUInt16LE (dnp3Crc block)

theorem appendCrc_length (block : Buffer) : (appendCrc block).length = block.length + 2 := by
  simp [appendCrc, writeUInt16LE]

def verifyBlockCrc (blockWithCrc : Buffer) : Bool :=
  let bodyLength := blockWithCrc.length - 2
  match blockWithCrc.drop bodyLength with
  | [low, high] => dnp3Crc (blockWithCrc.take bodyLength) == readUInt16LE low high
  | _ => false

theorem verifyBlockCrc_appendCrc (block : Buffer) : verifyBlockCrc (appendCrc block) = true := by
  have hbody : (appendCrc block).length - 2 = block.length := by
    rw [appendCrc_length, Nat.add_sub_cancel]
  unfold verifyBlockCrc
  dsimp only
  rw [hbody, appendCrc, List.drop_left, List.take_left, writeUInt16LE]
  dsimp only
  rw [readUInt16LE_write, beq_self_eq_true]

/-! ### Frames -/

def startByte : UInt8 := 0x05

def syncByte : UInt8 := 0x64

def blockSize : ℕ := 16

def headerBytes : ℕ := 10

structure Dnp3LinkHeader where
  length : ℕ
  control : UInt8
  dir : Bool
  prm : Bool
  fcb : Bool
  fcv : Bool
  func : UInt8
  destination : ℕ
  source : ℕ
  deriving DecidableEq, Repr

def headerOf (length control : UInt8) (destination source : BitVec 16) : Dnp3LinkHeader where
  length := length.toNat
  control := control
  dir := control &&& 0x80 ≠ 0
  prm := control &&& 0x40 ≠ 0
  fcb := control &&& 0x20 ≠ 0
  fcv := control &&& 0x10 ≠ 0
  func := control &&& 0x0f
  destination := destination.toNat
  source := source.toNat

/-- The first ten octets of the buffer as a link header, with its CRC checked. -/
def parseLinkHeader : Buffer → Option Dnp3LinkHeader
  | start :: sync :: length :: control :: dest0 :: dest1 :: src0 :: src1 :: crc0 :: crc1 :: _ =>
    if start ≠ startByte ∨ sync ≠ syncByte then none
    else if dnp3Crc [start, sync, length, control, dest0, dest1, src0, src1] ≠ readUInt16LE crc0 crc1 then none
    else some (headerOf length control (readUInt16LE dest0 dest1) (readUInt16LE src0 src1))
  | _ => none

/-- The payload in blocks of sixteen octets, each with its CRC. -/
def crcBlocks (payload : Buffer) : Buffer :=
  if payload = [] then []
  else appendCrc (payload.take blockSize) ++ crcBlocks (payload.drop blockSize)
termination_by payload.length
decreasing_by
  rw [List.length_drop]
  have hpos := List.length_pos_of_ne_nil ‹_›
  simp only [blockSize]
  omega

def linkHeader (length : ℕ) (control destination source : ℕ) : Buffer :=
  [startByte, syncByte, UInt8.ofNat length, UInt8.ofNat control] ++
    writeUInt16LE (BitVec.ofNat 16 destination) ++ writeUInt16LE (BitVec.ofNat 16 source)

def buildLinkFrame (control destination source : ℕ) (payload : Buffer) : Except String Buffer :=
  let length := 5 + payload.length
  if 255 < length then
    .error s!"DNP3 link frame too long: {length} (max 255). TODO: caller must segment at transport layer."
  else .ok (appendCrc (linkHeader length control destination source) ++ crcBlocks payload)

/-- The block loop of `extractPayload`, on the octets from its offset on. -/
def extractBlocks (rest : Buffer) (remaining : ℕ) : Option Buffer :=
  if 0 < remaining then
    let take := min blockSize remaining
    let blockWithCrc := rest.take (take + 2)
    if blockWithCrc.length < take + 2 then none
    else if verifyBlockCrc blockWithCrc = false then none
    else (extractBlocks (rest.drop (take + 2)) (remaining - take)).map (blockWithCrc.take take ++ ·)
  else some []
termination_by remaining
decreasing_by
  simp only [blockSize]
  omega

def extractPayload (frame : Buffer) : Option (Dnp3LinkHeader × Buffer) :=
  match parseLinkHeader frame with
  | none => none
  | some header =>
    if header.length < 5 then none
    else (extractBlocks (frame.drop headerBytes) (header.length - 5)).map fun payload => (header, payload)

def buildResponseControl (func : ℕ) (fcb fcv : Bool) : UInt8 :=
  (UInt8.ofNat func &&& 0x0f) ||| 0x40 ||| (if fcb then 0x20 else 0) ||| (if fcv then 0x10 else 0)

/-! ### What is built can be read back -/

/-- The octets a frame with `userDataLen` octets of user data has on the wire. -/
def frameLength (userDataLen : ℕ) : ℕ := headerBytes + userDataLen + (userDataLen + 15) / blockSize * 2

theorem crcBlocks_length (payload : Buffer) :
    (crcBlocks payload).length = payload.length + (payload.length + 15) / blockSize * 2 := by
  induction payload using crcBlocks.induct with
  | case1 => simp [crcBlocks, blockSize]
  | case2 payload hne ih =>
    have hpos := List.length_pos_of_ne_nil hne
    rw [crcBlocks, if_neg hne, List.length_append, appendCrc_length, ih, List.length_take,
      List.length_drop]
    simp only [blockSize]
    omega

theorem linkHeader_length (length control destination source : ℕ) :
    (linkHeader length control destination source).length = 8 := rfl

theorem parseLinkHeader_build (length control destination source : ℕ) (rest : Buffer) :
    parseLinkHeader (appendCrc (linkHeader length control destination source) ++ rest) =
      some (headerOf (UInt8.ofNat length) (UInt8.ofNat control) (BitVec.ofNat 16 destination)
        (BitVec.ofNat 16 source)) := by
  unfold appendCrc
  generalize hcrc : dnp3Crc (linkHeader length control destination source) = crc
  simp only [linkHeader, writeUInt16LE, List.cons_append, List.nil_append, parseLinkHeader,
    readUInt16LE_write] at hcrc ⊢
  rw [if_neg (by simp), if_neg (by rw [hcrc]; simp)]

theorem extractBlocks_crcBlocks (payload rest : Buffer) :
    extractBlocks (crcBlocks payload ++ rest) payload.length = some payload := by
  induction payload using crcBlocks.induct with
  | case1 =>
    rw [extractBlocks, if_neg (by simp)]
  | case2 payload hne ih =>
    have hpos := List.length_pos_of_ne_nil hne
    have hblock : (payload.take blockSize).length = min blockSize payload.length := List.length_take
    have hcut : (appendCrc (payload.take blockSize)).length = min blockSize payload.length + 2 := by
      rw [appendCrc_length, hblock]
    have hsplit : crcBlocks payload ++ rest =
        appendCrc (payload.take blockSize) ++ (crcBlocks (payload.drop blockSize) ++ rest) := by
      rw [crcBlocks, if_neg hne, List.append_assoc]
    have hleft : payload.length - min blockSize payload.length = (payload.drop blockSize).length := by
      rw [List.length_drop]
      omega
    rw [extractBlocks, if_pos hpos, hsplit]
    dsimp only
    rw [← hcut, List.take_left, List.drop_left, if_neg (lt_irrefl _), verifyBlockCrc_appendCrc,
      if_neg (by simp), hleft, ih, Option.map_some, appendCrc, ← hblock, List.take_left,
      List.take_append_drop]

theorem buildLinkFrame_ok {control destination source : ℕ} {payload : Buffer} (hlen : payload.length ≤ 250) :
    buildLinkFrame control destination source payload =
      .ok (appendCrc (linkHeader (5 + payload.length) control destination source) ++ crcBlocks payload) := by
  unfold buildLinkFrame
  dsimp only
  rw [if_neg (by omega)]

end OxScada.Dnp3
