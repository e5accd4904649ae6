import OxScada.Js.Number

/-! Classic capture files. A file is a header of 24 bytes and records, each with a header of 16 bytes
that says how many bytes of the packet follow. -/

namespace OxScada.Goose
open OxScada.Bytes OxScada.Js

def pcapMagicMicroseconds : ℕ := 0xa1b2c3d4
def pcapMagicNanoseconds : ℕ := 0xa1b23c4d
def pcapngBlockTypeShb : ℕ := 0x0a0d0d0a
def pcapGlobalHeaderLength : ℕ := 24
def pcapRecordHeaderLength : ℕ := 16

/-- A `PcapParseError`, or the `PcapStreamOverflowError` that is one. -/
inductive PcapError where
  | malformed (message : String)
  | overflow (message : String)
  deriving DecidableEq, Repr

inductive PcapByteOrder where
  | big | little
  deriving DecidableEq, Repr

structure PcapGlobalHeader where
  byteOrder : PcapByteOrder
  nanosecondPrecision : Bool
  versionMajor : ℕ
  versionMinor : ℕ
  thisZone : ℤ
  sigFigs : ℕ
  snapLen : ℕ
  linkType : ℕ
  deriving DecidableEq, Repr

structure PcapRecordHeader where
  timestampMs : Float
  seconds : ℕ
  subSeconds : ℕ
  capturedLength : ℕ
  originalLength : ℕ
  deriving DecidableEq

structure PcapPacket extends PcapRecordHeader where
  data : Buffer
  deriving DecidableEq

structure PcapFile where
  header : PcapGlobalHeader
  packets : List PcapPacket
  deriving DecidableEq

/-! ### Fields -/

def readUInt (order : PcapByteOrder) (octets : Buffer) : ℕ :=
  match order with
  | .big => bigEndian octets
  | .little => readUIntLE octets

variable (buf : Buffer)

def field (offset width : ℕ) : Buffer := (buf.drop offset).take width

variable (offset : ℕ)
variable (order : PcapByteOrder)

def readU32 : ℕ := readUInt order (field buf offset 4)

def readU16 : ℕ := readUInt order (field buf offset 2)

def readI32 : ℤ :=
  let n : ℤ := readU32 buf offset order
  if n < 2 ^ 31 then n else n - 2 ^ 32

/-! ### Headers -/

def hex8 (n : ℕ) : String :=
  let digits := Nat.toDigits 16 n
  String.ofList (List.replicate (8 - digits.length) '0' ++ digits)

/-- The byte order and the precision that the magic number stands for. -/
def readMagic : Except PcapError (PcapByteOrder × Bool) :=
  let magicBE := readU32 buf 0 .big
  let magicLE := readU32 buf 0 .little
  if magicBE = pcapMagicMicroseconds then .ok (.big, false)
  else if magicLE = pcapMagicMicroseconds then .ok (.little, false)
  else if magicBE = pcapMagicNanoseconds then .ok (.big, true)
  else if magicLE = pcapMagicNanoseconds then .ok (.little, true)
  else if magicBE = pcapngBlockTypeShb then
    .error (.malformed ("this is a pcapng file, not a classic pcap file — re-save it as pcap " ++
      "(Wireshark: File > Save As > Wireshark/tcpdump/... pcap)"))
  else .error (.malformed ("not a pcap file: unknown magic 0x" ++ hex8 magicBE))

def readPcapGlobalHeader : Except PcapError PcapGlobalHeader :=
  if buf.length < pcapGlobalHeaderLength then
    .error (.malformed s!"pcap file too short: {buf.length} bytes < {pcapGlobalHeaderLength}-byte global header")
  else
    (readMagic buf).map fun (byteOrder, nanosecondPrecision) =>
      { byteOrder, nanosecondPrecision
        versionMajor := readU16 buf 4 byteOrder
        versionMinor := readU16 buf 6 byteOrder
        thisZone := readI32 buf 8 byteOrder
        sigFigs := readU32 buf 12 byteOrder
        snapLen := readU32 buf 16 byteOrder
        linkType := readU32 buf 20 byteOrder }

def subSecondsPerSecond (header : PcapGlobalHeader) : ℕ := if header.nanosecondPrecision then 1000000000 else 1000000

def decodePcapRecordHeader (header : PcapGlobalHeader) (packetIndex : ℕ) : Except PcapError PcapRecordHeader :=
  let perSecond := subSecondsPerSecond header
  let seconds := readU32 buf offset header.byteOrder
  let subSeconds := readU32 buf (offset + 4) header.byteOrder
  let capturedLength := readU32 buf (offset + 8) header.byteOrder
  let originalLength := readU32 buf (offset + 12) header.byteOrder
  if perSecond ≤ subSeconds then
    .error (.malformed (s!"packet {packetIndex}: sub-second field {subSeconds} exceeds {perSecond} — " ++ "byte order or magic is wrong"))
  else
    let timestampMs := Float.ofNat (seconds * 1000) + Float.ofNat subSeconds / Float.ofNat perSecond * 1000
    .ok ⟨timestampMs, seconds, subSeconds, capturedLength, originalLength⟩

/-! ### Files -/

/-- The `while` loop of `parsePcap`, from `offset` on, after `packetIndex` packets. -/
def parseRecords (buf : Buffer) (header : PcapGlobalHeader) (offset packetIndex : ℕ) : Except PcapError (List PcapPacket) :=
  if offset < buf.length then
    if buf.length < offset + pcapRecordHeaderLength then
      .error (.malformed (s!"truncated packet record header at offset {offset} " ++
        s!"({buf.length - offset} of {pcapRecordHeaderLength} bytes)"))
    else
      match decodePcapRecordHeader buf offset header packetIndex with
      | .error e => .error e
      | .ok record =>
        let start := offset + pcapRecordHeaderLength
        if buf.length < start + record.capturedLength then
          .error (.malformed (s!"truncated packet {packetIndex}: incl_len {record.capturedLength} at offset {start} exceeds the " ++
            s!"{buf.length}-byte file"))
        else
          (parseRecords buf header (start + record.capturedLength) (packetIndex + 1)).map
            (⟨record, field buf start record.capturedLength⟩ :: ·)
  else .ok []
termination_by buf.length - offset
decreasing_by
  unfold pcapRecordHeaderLength
  omega

def parsePcap : Except PcapError PcapFile :=
  match readPcapGlobalHeader buf with
  | .error e => .error e
  | .ok header => (parseRecords buf header pcapGlobalHeaderLength 0).map fun packets => ⟨header, packets⟩

/-! ### The bytes of a record are its own -/

variable {buf : Buffer} {header : PcapGlobalHeader}

theorem field_append {offset width : ℕ} (h : offset + width ≤ buf.length) (later : Buffer) :
    field (buf ++ later) offset width = field buf offset width := by
  have hdrop : width ≤ (buf.drop offset).length := by
    rw [List.length_drop]
    omega
  rw [field, field, List.drop_append_of_le_length (by omega), List.take_append_of_le_length hdrop]

theorem field_drop (buf : Buffer) (start offset width : ℕ) : field (buf.drop start) offset width = field buf (start + offset) width := by
  rw [field, field, List.drop_drop]

theorem readU32_append {offset : ℕ} (h : offset + 4 ≤ buf.length) (later : Buffer) (order : PcapByteOrder) :
    readU32 (buf ++ later) offset order = readU32 buf offset order := by
  rw [readU32, readU32, field_append h]

theorem decodePcapRecordHeader_append (h : pcapRecordHeaderLength ≤ buf.length) (later : Buffer) (header : PcapGlobalHeader) (index : ℕ) :
    decodePcapRecordHeader (buf ++ later) 0 header index = decodePcapRecordHeader buf 0 header index := by
  unfold pcapRecordHeaderLength at h
  unfold decodePcapRecordHeader
  rw [readU32_append (by omega), readU32_append (by omega), readU32_append (by omega), readU32_append (by omega)]

theorem decodePcapRecordHeader_drop (buf : Buffer) (offset : ℕ) (header : PcapGlobalHeader) (index : ℕ) :
    decodePcapRecordHeader (buf.drop offset) 0 header index = decodePcapRecordHeader buf offset header index := by
  unfold decodePcapRecordHeader readU32
  simp only [field_drop, Nat.add_zero, Nat.zero_add]

theorem readPcapGlobalHeader_take (h : pcapGlobalHeaderLength ≤ buf.length) :
    readPcapGlobalHeader (buf.take pcapGlobalHeaderLength) = readPcapGlobalHeader buf := by
  have htake : (buf.take pcapGlobalHeaderLength).length = pcapGlobalHeaderLength := List.length_take_of_le h
  have hsame : ∀ offset width, offset + width ≤ pcapGlobalHeaderLength →
      field (buf.take pcapGlobalHeaderLength) offset width = field buf offset width := by
    intro offset width hle
    conv_rhs => rw [← List.take_append_drop pcapGlobalHeaderLength buf]
    exact (field_append (by rw [htake]; exact hle) _).symm
  unfold readPcapGlobalHeader readMagic readI32 readU16 readU32
  rw [htake, if_neg (lt_irrefl _), if_neg (not_lt.mpr h)]
  simp only [hsame 0 4 (by decide), hsame 4 2 (by decide), hsame 6 2 (by decide), hsame 8 4 (by decide), hsame 12 4 (by decide),
    hsame 16 4 (by decide), hsame 20 4 (by decide)]

end OxScada.Goose
