import OxScada.Bytes.Buffer

/-! The frames of Modbus TCP. A frame is decoded at the head of a stream, and what it says does
not depend on the bytes that come after it. -/

namespace OxScada.Modbus
open OxScada.Bytes

namespace FunctionCode

def readCoils : ℕ := 0x01
def readDiscreteInputs : ℕ := 0x02
def readHoldingRegisters : ℕ := 0x03
def readInputRegisters : ℕ := 0x04
def writeSingleCoil : ℕ := 0x05
def writeSingleRegister : ℕ := 0x06
def writeMultipleCoils : ℕ := 0x0f
def writeMultipleRegisters : ℕ := 0x10

end FunctionCode

inductive ExceptionCode where
  | illegalFunction | illegalDataAddress | illegalDataValue | serverDeviceFailure
  deriving DecidableEq

def ExceptionCode.toByte : ExceptionCode → UInt8
  | .illegalFunction => 0x01
  | .illegalDataAddress => 0x02
  | .illegalDataValue => 0x03
  | .serverDeviceFailure => 0x04

def exceptionFlag : UInt8 := 0x80
def mbapHeaderLength : ℕ := 7
def modbusProtocolId : ℕ := 0
def maxReadBits : ℕ := 0x07d0
def maxReadRegisters : ℕ := 0x007d
def maxWriteCoils : ℕ := 0x07b0
def maxWriteRegisters : ℕ := 0x007b

structure MbapHeader where
  transactionId : ℕ
  protocolId : ℕ
  length : ℕ
  unitId : ℕ
  deriving DecidableEq

structure ModbusRequest where
  header : MbapHeader
  functionCode : ℕ
  data : Buffer
  deriving DecidableEq

/-! ### Numbers -/

variable (buf : Buffer)

/-- `buf.readUInt16BE(i)` in a buffer that has the two bytes. -/
def readUInt16BE (i : ℕ) : ℕ := (buf.getD i 0).toNat * 256 + (buf.getD (i + 1) 0).toNat

def readUInt8 (i : ℕ) : ℕ := (buf.getD i 0).toNat

def uint16BE (n : ℕ) : Buffer := [UInt8.ofNat (n / 256), UInt8.ofNat n]

/-! ### Requests -/

def decodeMbapHeader : MbapHeader where
  transactionId := readUInt16BE buf 0
  protocolId := readUInt16BE buf 2
  length := readUInt16BE buf 4
  unitId := readUInt8 buf 6

def hexText (n : ℕ) : Text := Nat.toDigits 16 n

/-- The request at the head of a buffer with the bytes it takes, or `none` if it is not all there.
An error is a `ModbusFrameError`. -/
def decodeRequest : Except Text (Option (ModbusRequest × ℕ)) :=
  if buf.length < mbapHeaderLength then .ok none
  else
    let header := decodeMbapHeader buf
    if header.protocolId ≠ modbusProtocolId then .error ("Unexpected protocol id 0x".toList ++ hexText header.protocolId)
    else if header.length < 2 then .error ("Invalid MBAP length ".toList ++ Nat.toDigits 10 header.length)
    else
      let frameLength := mbapHeaderLength - 1 + header.length
      if buf.length < frameLength then .ok none
      else .ok (some (⟨header, readUInt8 buf mbapHeaderLength, (buf.take frameLength).drop (mbapHeaderLength + 1)⟩, frameLength))

/-! ### Responses -/

def encodeMbapHeader (header : MbapHeader) (pduLength : ℕ) : Buffer :=
  uint16BE header.transactionId ++ uint16BE header.protocolId ++ uint16BE (pduLength + 1) ++ [UInt8.ofNat header.unitId]

def encodeResponse (header : MbapHeader) (functionCode : ℕ) (responsePdu : Buffer) : Buffer :=
  encodeMbapHeader header (1 + responsePdu.length) ++ UInt8.ofNat functionCode :: responsePdu

def encodeExceptionResponse (header : MbapHeader) (functionCode : ℕ) (exceptionCode : ExceptionCode) : Buffer :=
  encodeMbapHeader header 2 ++ [UInt8.ofNat functionCode ||| exceptionFlag, exceptionCode.toByte]

def packByte (bits : List Bool) : UInt8 := UInt8.ofNat (bits.foldr (fun bit acc => 2 * acc + bit.toNat) 0)

def packBits (bits : List Bool) : Buffer :=
  (List.range ((bits.length + 7) / 8)).map fun i => packByte ((bits.drop (8 * i)).take 8)

def unpackBits (count : ℕ) : List Bool :=
  (List.range count).map fun i => (buf.getD (i / 8) 0).toNat.testBit (i % 8)

def packRegisters (registers : List ℤ) : Buffer := registers.flatMap fun register => uint16BE (register % 2 ^ 16).toNat

def unpackRegisters (count : ℕ) : List ℕ := (List.range count).map fun i => readUInt16BE buf (2 * i)

/-! ### A frame at the head of a stream -/

variable {buf : Buffer} {request : ModbusRequest} {n : ℕ}

theorem getD_append {i : ℕ} (h : i < buf.length) (more : Buffer) : (buf ++ more).getD i 0 = buf.getD i 0 := by
  rw [List.getD_eq_getElem?_getD, List.getD_eq_getElem?_getD, List.getElem?_append_left h]

theorem readUInt16BE_append {i : ℕ} (h : i + 1 < buf.length) (more : Buffer) :
    readUInt16BE (buf ++ more) i = readUInt16BE buf i := by
  unfold readUInt16BE
  rw [getD_append (by omega), getD_append h]

theorem decodeMbapHeader_append (h : mbapHeaderLength ≤ buf.length) (more : Buffer) :
    decodeMbapHeader (buf ++ more) = decodeMbapHeader buf := by
  unfold mbapHeaderLength at h
  unfold decodeMbapHeader readUInt8
  rw [readUInt16BE_append (by omega), readUInt16BE_append (by omega), readUInt16BE_append (by omega), getD_append (by omega)]

theorem decodeRequest_some : decodeRequest buf = .ok (some (request, n)) ↔
    (decodeMbapHeader buf).protocolId = modbusProtocolId ∧ 2 ≤ (decodeMbapHeader buf).length ∧
      n = mbapHeaderLength - 1 + (decodeMbapHeader buf).length ∧ n ≤ buf.length ∧
      request = ⟨decodeMbapHeader buf, readUInt8 buf mbapHeaderLength, (buf.take n).drop (mbapHeaderLength + 1)⟩ := by
  unfold decodeRequest
  dsimp only
  constructor
  · intro h
    split_ifs at h with hshort hprotocol hlength hincomplete
    · cases h
    · cases h
    · obtain ⟨rfl, rfl⟩ := Prod.mk.inj (Option.some.inj (Except.ok.inj h))
      exact ⟨not_not.mp hprotocol, not_lt.mp hlength, rfl, not_lt.mp hincomplete, rfl⟩
  · rintro ⟨hprotocol, hlength, rfl, hcomplete, rfl⟩
    have hlong : ¬ buf.length < mbapHeaderLength := by
      unfold mbapHeaderLength at hcomplete ⊢
      omega
    rw [if_neg hlong, if_neg (not_not.mpr hprotocol), if_neg (not_lt.mpr hlength), if_neg (not_lt.mpr hcomplete)]

section
variable (h : decodeRequest buf = .ok (some (request, n)))
include h

theorem decodeRequest_length : mbapHeaderLength + 1 ≤ n ∧ n ≤ buf.length := by
  obtain ⟨-, hlength, rfl, hcomplete, -⟩ := decodeRequest_some.mp h
  unfold mbapHeaderLength at hcomplete ⊢
  omega

theorem decodeRequest_append (more : Buffer) :
    decodeRequest (buf ++ more) = .ok (some (request, n)) := by
  obtain ⟨hn, hle⟩ := decodeRequest_length h
  obtain ⟨hprotocol, hlength, hframe, -, hrequest⟩ := decodeRequest_some.mp h
  have hheader : decodeMbapHeader (buf ++ more) = decodeMbapHeader buf := decodeMbapHeader_append (by omega) more
  rw [decodeRequest_some, hheader]
  refine ⟨hprotocol, hlength, hframe, ?_, ?_⟩
  · rw [List.length_append]
    omega
  · rw [hrequest, readUInt8, readUInt8, getD_append (by omega), List.take_append_of_le_length hle]

theorem decodeRequest_take :
    decodeRequest (buf.take n) = .ok (some (request, n)) := by
  obtain ⟨hn, hle⟩ := decodeRequest_length h
  obtain ⟨hprotocol, hlength, hframe, -, hrequest⟩ := decodeRequest_some.mp h
  have htake : (buf.take n).length = n := List.length_take_of_le hle
  have hheader : decodeMbapHeader (buf.take n) = decodeMbapHeader buf := by
    conv_rhs => rw [← List.take_append_drop n buf]
    exact (decodeMbapHeader_append (by omega) _).symm
  have hcode : readUInt8 (buf.take n) mbapHeaderLength = readUInt8 buf mbapHeaderLength := by
    conv_rhs => rw [← List.take_append_drop n buf]
    exact congrArg UInt8.toNat (getD_append (by omega) _).symm
  rw [decodeRequest_some, hheader]
  refine ⟨hprotocol, hlength, hframe, htake.ge, ?_⟩
  rw [hrequest, hcode, List.take_take, min_self]

end

theorem decodeRequest_error {message : Text} (h : decodeRequest buf = .error message) (more : Buffer) :
    decodeRequest (buf ++ more) = .error message := by
  unfold decodeRequest at h ⊢
  dsimp only at h ⊢
  split_ifs at h with hshort hprotocol hlength
  · have hlong : ¬ (buf ++ more).length < mbapHeaderLength := by
      rw [List.length_append]
      omega
    rw [if_neg hlong, decodeMbapHeader_append (not_lt.mp hshort), if_pos hprotocol]
    exact h
  · have hlong : ¬ (buf ++ more).length < mbapHeaderLength := by
      rw [List.length_append]
      omega
    rw [if_neg hlong, decodeMbapHeader_append (not_lt.mp hshort), if_neg hprotocol, if_pos hlength]
    exact h

/-! ### The frames of a stream -/

/-- The requests of a stream, one after the other, and the incomplete frame at its end. -/
inductive Frames : Buffer → List ModbusRequest → Buffer → Prop
  | tail {buf : Buffer} (h : decodeRequest buf = .ok none) : Frames buf [] buf
  | frame {buf tail : Buffer} {request : ModbusRequest} {n : ℕ} {requests : List ModbusRequest}
      (h : decodeRequest buf = .ok (some (request, n))) (hrest : Frames (buf.drop n) requests tail) :
      Frames buf (request :: requests) tail

variable {requests requests' : List ModbusRequest} {tail consumed : Buffer}

theorem Frames.error {message : Text} (h : decodeRequest buf = .error message) : ¬ Frames buf requests tail := by
  intro hframes
  cases hframes with
  | tail hnone =>
    rw [h] at hnone
    cases hnone
  | frame hsome =>
    rw [h] at hsome
    cases hsome

theorem Frames.of_none (h : decodeRequest buf = .ok none) (hframes : Frames buf requests tail) : requests = [] ∧ tail = buf := by
  cases hframes with
  | tail => exact ⟨rfl, rfl⟩
  | frame hsome =>
    rw [h] at hsome
    cases hsome

theorem Frames.split (hfront : Frames consumed requests []) (hframes : Frames (consumed ++ buf) requests' tail) :
    ∃ rest, requests' = requests ++ rest ∧ Frames buf rest tail := by
  generalize hnil : ([] : Buffer) = last at hfront
  induction hfront generalizing requests' with
  | tail =>
    subst hnil
    exact ⟨requests', rfl, hframes⟩
  | frame h _ ih =>
    have happend := decodeRequest_append h buf
    cases hframes with
    | tail hnone =>
      rw [happend] at hnone
      cases hnone
    | frame hsome hrest =>
      rw [happend] at hsome
      obtain ⟨rfl, rfl⟩ := Prod.mk.inj (Option.some.inj (Except.ok.inj hsome))
      rw [List.drop_append_of_le_length (decodeRequest_length h).2] at hrest
      obtain ⟨rest, rfl, hframes⟩ := ih hrest hnil
      exact ⟨rest, rfl, hframes⟩

theorem Frames.concat (hfront : Frames consumed requests []) (h : decodeRequest buf = .ok (some (request, n))) :
    Frames (consumed ++ buf.take n) (requests ++ [request]) [] := by
  generalize hnil : ([] : Buffer) = last at hfront
  induction hfront with
  | tail =>
    subst hnil
    refine .frame (decodeRequest_take h) ?_
    rw [List.nil_append, List.drop_take_self]
    exact .tail rfl
  | frame hhead _ ih =>
    refine .frame (decodeRequest_append hhead _) ?_
    rw [List.drop_append_of_le_length (decodeRequest_length hhead).2]
    exact ih hnil

end OxScada.Modbus
