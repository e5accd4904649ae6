import OxScada.Goose.Pcap
import OxScada.Order.Pointwise
import OxScada.Js.Arithmetic
import OxScada.Runs.Reachable

/-! The writer of capture files. Every field has 32 bits, and a value that needs more of them loses its
upper bits. -/

namespace OxScada.Goose
open OxScada.Bytes OxScada.Js OxScada.Order OxScada.Runs

structure PcapPacketInput where
  timestampMs : Float
  data : Buffer
  originalLength : Option ℕ := none

structure PcapEncodeOptions where
  byteOrder : PcapByteOrder := .little
  nanosecondPrecision : Bool := false
  snapLen : ℕ := 65535
  linkType : ℕ := 1

variable (options : PcapEncodeOptions)

def PcapEncodeOptions.perSecond : ℕ := if options.nanosecondPrecision then 1000000000 else 1000000

def PcapEncodeOptions.magic : ℕ :=
  if options.nanosecondPrecision then pcapMagicNanoseconds else pcapMagicMicroseconds

variable (order : PcapByteOrder)

def writeUInt (width value : ℕ) : Buffer :=
  match order with
  | .big => (writeUIntLE width value).reverse
  | .little => writeUIntLE width value

def writeU32 (value : ℕ) : Buffer := writeUInt order 4 (value % 2 ^ 32)

def writeU16 (value : ℕ) : Buffer := writeUInt order 2 (value % 2 ^ 16)

/-- The seconds of a timestamp and what is left of it, with the carry for a rest that was rounded up. -/
def splitTimestamp (perSecond : ℕ) (timestampMs : Float) : Float × Float :=
  let seconds := mathFloor (timestampMs / 1000)
  let subSeconds := mathRound ((timestampMs - seconds * 1000) * (ofInteger perSecond / 1000))
  if ofInteger perSecond ≤ subSeconds then (seconds + 1, subSeconds - ofInteger perSecond) else (seconds, subSeconds)

def encodeGlobalHeader : Buffer :=
  writeU32 options.byteOrder options.magic ++ writeU16 options.byteOrder 2 ++ writeU16 options.byteOrder 4 ++
    writeU32 options.byteOrder 0 ++ writeU32 options.byteOrder 0 ++ writeU32 options.byteOrder options.snapLen ++
    writeU32 options.byteOrder options.linkType

def encodeRecordHeader (packet : PcapPacketInput) : Buffer :=
  let split := splitTimestamp options.perSecond packet.timestampMs
  writeU32 options.byteOrder (toUint32 split.1) ++ writeU32 options.byteOrder (toUint32 split.2) ++
    writeU32 options.byteOrder packet.data.length ++
    writeU32 options.byteOrder (packet.originalLength.getD packet.data.length)

def encodeRecords (options : PcapEncodeOptions) : List PcapPacketInput → Except PcapError Buffer
  | [] => .ok []
  | packet :: later =>
    if packet.timestampMs.isFinite = false ∨ packet.timestampMs < 0 then
      .error (.malformed "packet timestampMs must be a non-negative number")
    else (encodeRecords options later).map fun rest => encodeRecordHeader options packet ++ packet.data ++ rest

def encodePcap (packets : List PcapPacketInput) (options : PcapEncodeOptions) : Except PcapError Buffer :=
  (encodeRecords options packets).map (encodeGlobalHeader options ++ ·)

/-! ### Fields -/

variable (order : PcapByteOrder) {value width : ℕ}

theorem writeUInt_length (width value : ℕ) : (writeUInt order width value).length = width := by
  cases order with
  | big => rw [writeUInt, List.length_reverse, writeUIntLE_length]
  | little => rw [writeUInt, writeUIntLE_length]

theorem bigEndian_append (octets : Buffer) (octet : UInt8) : bigEndian (octets ++ [octet]) = bigEndian octets * 256 + octet.toNat := by
  rw [bigEndian, List.foldl_append]
  rfl

theorem bigEndian_reverse (octets : Buffer) : bigEndian octets.reverse = readUIntLE octets := by
  induction octets with
  | nil => rfl
  | cons octet rest ih =>
    rw [List.reverse_cons, bigEndian_append, ih, readUIntLE]
    ring

theorem readUInt_writeUInt (h : value < 256 ^ width) : readUInt order (writeUInt order width value) = value := by
  cases order with
  | big => exact (bigEndian_reverse _).trans (readUIntLE_writeUIntLE h)
  | little => exact readUIntLE_writeUIntLE h

variable {offset : ℕ} {header : PcapGlobalHeader}

theorem field_middle (before octets after : Buffer) (hoffset : before.length = offset) (hwidth : octets.length = width) :
    field (before ++ (octets ++ after)) offset width = octets := by
  rw [field, ← hoffset, List.drop_left, ← hwidth, List.take_left]

theorem readU32_writeU32 (before after : Buffer) (hoffset : before.length = offset) (h : value < 2 ^ 32) :
    readU32 (before ++ (writeU32 order value ++ after)) offset order = value := by
  have hbytes : value < 256 ^ 4 := by
    norm_num
    exact h
  rw [readU32, writeU32, Nat.mod_eq_of_lt h, field_middle before _ after hoffset (writeUInt_length ..)]
  exact readUInt_writeUInt order hbytes

theorem readUInt_lt (octets : Buffer) : readUInt order octets < 256 ^ octets.length := by
  cases order with
  | big => exact bigEndian_lt octets
  | little =>
    have hreverse := bigEndian_lt octets.reverse
    rwa [bigEndian_reverse, List.length_reverse] at hreverse

theorem readU32_lt (buf : Buffer) (offset : ℕ) : readU32 buf offset order < 2 ^ 32 := by
  have hlength : (field buf offset 4).length ≤ 4 := List.length_take_le _ _
  calc readU32 buf offset order < 256 ^ (field buf offset 4).length := readUInt_lt order _
    _ ≤ 256 ^ 4 := Nat.pow_le_pow_right (by norm_num) hlength
    _ = 2 ^ 32 := by norm_num

/-! ### The header of a file -/

variable {options : PcapEncodeOptions}

theorem writeU32_length (value : ℕ) : (writeU32 order value).length = 4 := writeUInt_length ..

theorem writeU16_length (value : ℕ) : (writeU16 order value).length = 2 := writeUInt_length ..

theorem encodeGlobalHeader_length (options : PcapEncodeOptions) : (encodeGlobalHeader options).length = pcapGlobalHeaderLength := by
  simp only [encodeGlobalHeader, List.length_append, writeU32_length, writeU16_length]
  rfl

theorem readMagic_writeU32 (options : PcapEncodeOptions) (after : Buffer) :
    readMagic (writeU32 options.byteOrder options.magic ++ after) = .ok (options.byteOrder, options.nanosecondPrecision) := by
  have hfirst : ∀ order octets, octets.length = 4 → readU32 (octets ++ after) 0 order = readUInt order octets := by
    intro order octets hlength
    have hfield : field ([] ++ (octets ++ after)) 0 4 = octets := field_middle [] octets after rfl hlength
    rw [readU32, ← List.nil_append (octets ++ after), hfield]
  unfold readMagic PcapEncodeOptions.magic
  rw [hfirst _ _ (writeU32_length ..), hfirst _ _ (writeU32_length ..)]
  cases options.byteOrder <;> cases options.nanosecondPrecision <;> decide +kernel

theorem readPcapGlobalHeader_encode (hsnap : options.snapLen < 2 ^ 32) (hlink : options.linkType < 2 ^ 32) (after : Buffer) :
    ∃ header, readPcapGlobalHeader (encodeGlobalHeader options ++ after) = .ok header ∧ header.byteOrder = options.byteOrder ∧
      header.nanosecondPrecision = options.nanosecondPrecision ∧ header.snapLen = options.snapLen ∧ header.linkType = options.linkType := by
  have hlong : ¬ (encodeGlobalHeader options ++ after).length < pcapGlobalHeaderLength := by
    rw [List.length_append, encodeGlobalHeader_length]
    omega
  have hmagic : readMagic (encodeGlobalHeader options ++ after) = .ok (options.byteOrder, options.nanosecondPrecision) := by
    simp only [encodeGlobalHeader, List.append_assoc]
    exact readMagic_writeU32 options _
  have hsnapLen : readU32 (encodeGlobalHeader options ++ after) 16 options.byteOrder = options.snapLen := by
    have hbefore : (writeU32 options.byteOrder options.magic ++ writeU16 options.byteOrder 2 ++ writeU16 options.byteOrder 4 ++
        writeU32 options.byteOrder 0 ++ writeU32 options.byteOrder 0).length = 16 := by
      simp only [List.length_append, writeU32_length, writeU16_length]
    have hread := readU32_writeU32 options.byteOrder _ (writeU32 options.byteOrder options.linkType ++ after) hbefore hsnap
    simpa only [encodeGlobalHeader, List.append_assoc] using hread
  have hlinkType : readU32 (encodeGlobalHeader options ++ after) 20 options.byteOrder = options.linkType := by
    have hbefore : (writeU32 options.byteOrder options.magic ++ writeU16 options.byteOrder 2 ++ writeU16 options.byteOrder 4 ++
        writeU32 options.byteOrder 0 ++ writeU32 options.byteOrder 0 ++ writeU32 options.byteOrder options.snapLen).length = 20 := by
      simp only [List.length_append, writeU32_length, writeU16_length]
    have hread := readU32_writeU32 options.byteOrder _ after hbefore hlink
    simpa only [encodeGlobalHeader, List.append_assoc] using hread
  unfold readPcapGlobalHeader
  rw [if_neg hlong, hmagic]
  exact ⟨_, rfl, rfl, rfl, hsnapLen, hlinkType⟩

/-! ### The records -/

variable {packet : PcapPacketInput} {n : ℕ}

def PcapPacketInput.At (packet : PcapPacketInput) (n : ℕ) : Prop := (packet.timestampMs == ofInteger n) = true

def PcapEncodeOptions.perMs (options : PcapEncodeOptions) : ℕ := if options.nanosecondPrecision then 1000000 else 1000

theorem thousand_exactly : Exactly 1000 (1000 : Float).toModel.unpack := exactly_of_beq (by decide) (by decide +kernel)

theorem perMs_exactly (options : PcapEncodeOptions) : Exactly options.perMs (ofInteger options.perSecond / 1000).toModel.unpack := by
  unfold PcapEncodeOptions.perMs PcapEncodeOptions.perSecond
  cases options.nanosecondPrecision with
  | false => exact exactly_of_beq (n := 1000) (by decide) (by decide +kernel)
  | true => exact exactly_of_beq (n := 1000000) (by decide) (by decide +kernel)

theorem splitTimestamp_exactly (options : PcapEncodeOptions) (hat : packet.At n) (hn : n < 2 ^ 50) :
    Exactly (n / 1000 : ℕ) (splitTimestamp options.perSecond packet.timestampMs).1.toModel.unpack ∧
      Exactly (n % 1000 * options.perMs : ℕ) (splitTimestamp options.perSecond packet.timestampMs).2.toModel.unpack := by
  have hperMs : options.perMs = 1000 ∨ options.perMs = 1000000 := by
    unfold PcapEncodeOptions.perMs
    split_ifs <;> simp
  have hperSecond : options.perSecond = 1000 * options.perMs := by
    unfold PcapEncodeOptions.perMs PcapEncodeOptions.perSecond
    split_ifs <;> rfl
  have htime : Exactly n packet.timestampMs.toModel.unpack := exactly_of_beq (by omega) hat
  have hseconds := mathFloor_div (d := 1000) htime thousand_exactly hn (by norm_num) (by norm_num)
  have hdivision := Nat.div_add_mod n 1000
  have hrest : (n : ℤ) - (n / 1000 : ℕ) * 1000 = (n % 1000 : ℕ) := by omega
  have hwhole := mul_exactly hseconds thousand_exactly (by omega)
  have hdifference := sub_exactly htime hwhole (by omega)
  rw [hrest] at hdifference
  have hmod := Nat.mod_lt n (show 0 < 1000 by norm_num)
  have hunits : n % 1000 * options.perMs < options.perSecond := by
    rw [hperSecond]
    rcases hperMs with h | h <;> rw [h] <;> omega
  have hsmall : options.perSecond ≤ 1000000000 := by
    rw [hperSecond]
    rcases hperMs with h | h
    · rw [h]
      norm_num
    · rw [h]
  have hscaled := mul_exactly hdifference (perMs_exactly options) (by
    rw [← Nat.cast_mul, Int.natAbs_natCast]
    omega)
  rw [← Nat.cast_mul] at hscaled
  have hrounded := mathRound_exactly (by omega) hscaled
  have hper : Exactly options.perSecond (ofInteger options.perSecond).toModel.unpack := ofInteger_exactly (by omega)
  -- Nothing was rounded up, so there is no carry.
  have hcarry : ¬ ofInteger options.perSecond ≤
      mathRound ((packet.timestampMs - mathFloor (packet.timestampMs / 1000) * 1000) * (ofInteger options.perSecond / 1000)) := by
    rw [le_iff_exactly hper hrounded]
    omega
  unfold splitTimestamp
  dsimp only
  rw [if_neg hcarry]
  exact ⟨hseconds, hrounded⟩

def PcapPacketInput.Fits (packet : PcapPacketInput) : Prop :=
  (∃ n : ℕ, n < 2 ^ 32 * 1000 ∧ packet.At n) ∧ packet.data.length < 2 ^ 32

def Carried (options : PcapEncodeOptions) (packet : PcapPacketInput) (parsed : PcapPacket) : Prop :=
  parsed.data = packet.data ∧ parsed.originalLength = packet.originalLength.getD packet.data.length ∧
    ∃ n : ℕ, packet.At n ∧ parsed.seconds = n / 1000 ∧ parsed.subSeconds = n % 1000 * options.perMs

theorem encodeRecordHeader_length (options : PcapEncodeOptions) (packet : PcapPacketInput) :
    (encodeRecordHeader options packet).length = pcapRecordHeaderLength := by
  simp only [encodeRecordHeader, List.length_append, writeU32_length]
  rfl

theorem decodePcapRecordHeader_encode (horder : header.byteOrder = options.byteOrder)
    (hprecision : header.nanosecondPrecision = options.nanosecondPrecision) (hat : packet.At n) (hn : n < 2 ^ 32 * 1000)
    (hdata : packet.data.length < 2 ^ 32) (horiginal : packet.originalLength.getD packet.data.length < 2 ^ 32) (before after : Buffer) (index : ℕ) :
    ∃ record, decodePcapRecordHeader (before ++ (encodeRecordHeader options packet ++ after)) before.length header index = .ok record ∧
      record.seconds = n / 1000 ∧ record.subSeconds = n % 1000 * options.perMs ∧ record.capturedLength = packet.data.length ∧
      record.originalLength = packet.originalLength.getD packet.data.length := by
  obtain ⟨hseconds, hsubSeconds⟩ := splitTimestamp_exactly options hat (by omega)
  have hperSecond : subSecondsPerSecond header = 1000 * options.perMs := by
    unfold subSecondsPerSecond PcapEncodeOptions.perMs
    rw [hprecision]
    split_ifs <;> rfl
  have hperMs : 0 < options.perMs ∧ options.perMs ≤ 1000000 := by
    unfold PcapEncodeOptions.perMs
    split_ifs <;> omega
  have hmod := Nat.mod_lt n (show 0 < 1000 by norm_num)
  have hunits : n % 1000 * options.perMs < 1000 * options.perMs := Nat.mul_lt_mul_of_pos_right hmod hperMs.1
  have hfirst : toUint32 (splitTimestamp options.perSecond packet.timestampMs).1 = n / 1000 := by
    rw [toUint32_exactly hseconds]
    omega
  have hsecond : toUint32 (splitTimestamp options.perSecond packet.timestampMs).2 = n % 1000 * options.perMs := by
    rw [toUint32_exactly hsubSeconds]
    omega
  set fields := [writeU32 options.byteOrder (n / 1000), writeU32 options.byteOrder (n % 1000 * options.perMs),
    writeU32 options.byteOrder packet.data.length, writeU32 options.byteOrder (packet.originalLength.getD packet.data.length)] with hfields
  have hencode : encodeRecordHeader options packet = fields.flatten := by
    rw [encodeRecordHeader, hfirst, hsecond, hfields]
    simp
  have hread : ∀ (earlier later : List Buffer) (value : ℕ), fields = earlier ++ writeU32 options.byteOrder value :: later → value < 2 ^ 32 →
      readU32 (before ++ (encodeRecordHeader options packet ++ after)) (before.length + earlier.flatten.length) options.byteOrder = value := by
    intro earlier later value hsplit hvalue
    have hmiddle := readU32_writeU32 options.byteOrder (before ++ earlier.flatten) (later.flatten ++ after) List.length_append hvalue
    rw [hencode, hsplit]
    simpa using hmiddle
  have hr₀ := hread [] _ (n / 1000) hfields (by omega)
  have hr₁ := hread [_] _ (n % 1000 * options.perMs) hfields (by omega)
  have hr₂ := hread [_, _] _ packet.data.length hfields hdata
  have hr₃ := hread [_, _, _] [] _ hfields horiginal
  simp only [List.flatten_nil, List.flatten_cons, List.length_append, List.length_nil, writeU32_length, Nat.add_zero, Nat.reduceAdd] at hr₀ hr₁ hr₂ hr₃
  unfold decodePcapRecordHeader
  dsimp only
  rw [horder, hr₀, hr₁, hr₂, hr₃, if_neg (by omega)]
  exact ⟨_, rfl, rfl, rfl, rfl, rfl⟩

theorem encodeRecords_cons {later : List PcapPacketInput} {bytes : Buffer} (h : encodeRecords options (packet :: later) = .ok bytes) :
    ∃ rest, encodeRecords options later = .ok rest ∧ bytes = encodeRecordHeader options packet ++ packet.data ++ rest := by
  rw [encodeRecords] at h
  split_ifs at h with hrefused
  obtain ⟨rest, hrest, rfl⟩ := map_ok.mp h
  exact ⟨rest, hrest, rfl⟩

theorem parseRecords_encode (horder : header.byteOrder = options.byteOrder)
    (hprecision : header.nanosecondPrecision = options.nanosecondPrecision) {packets : List PcapPacketInput} {bytes : Buffer}
    (hfits : ∀ packet ∈ packets, packet.Fits) (horiginal : ∀ packet ∈ packets, ∀ length ∈ packet.originalLength, length < 2 ^ 32)
    (h : encodeRecords options packets = .ok bytes) (before : Buffer) (index : ℕ) :
    ∃ parsed, parseRecords (before ++ bytes) header before.length index = .ok parsed ∧ List.Forall₂ (Carried options) packets parsed := by
  induction packets generalizing before index bytes with
  | nil =>
    obtain rfl := Except.ok.inj h
    refine ⟨[], ?_, .nil⟩
    rw [List.append_nil, parseRecords, if_neg (lt_irrefl _)]
  | cons packet later ih =>
    obtain ⟨rest, hrest, rfl⟩ := encodeRecords_cons h
    obtain ⟨⟨n, hn, hat⟩, hdata⟩ := hfits packet List.mem_cons_self
    have hlength : packet.originalLength.getD packet.data.length < 2 ^ 32 := by
      cases hgiven : packet.originalLength with
      | none => exact hdata
      | some length => exact horiginal packet List.mem_cons_self length hgiven
    obtain ⟨record, hrecord, hseconds, hsubSeconds, hcaptured, horiginalLength⟩ :=
      decodePcapRecordHeader_encode horder hprecision hat hn hdata hlength before (packet.data ++ rest) index
    obtain ⟨parsed, hparsed, hcarried⟩ := ih (fun p hp => hfits p (List.mem_cons_of_mem _ hp))
      (fun p hp => horiginal p (List.mem_cons_of_mem _ hp)) hrest (before ++ encodeRecordHeader options packet ++ packet.data) (index + 1)
    have hheader := encodeRecordHeader_length options packet
    have hdataField : field (before ++ (encodeRecordHeader options packet ++ (packet.data ++ rest))) (before.length + pcapRecordHeaderLength)
        packet.data.length = packet.data := by
      have hmiddle := field_middle (before ++ encodeRecordHeader options packet) packet.data rest
        (show (before ++ encodeRecordHeader options packet).length = before.length + pcapRecordHeaderLength by rw [List.length_append, hheader]) rfl
      simpa only [List.append_assoc] using hmiddle
    have hlater : parseRecords (before ++ (encodeRecordHeader options packet ++ (packet.data ++ rest))) header
        (before.length + pcapRecordHeaderLength + packet.data.length) (index + 1) = .ok parsed := by
      simpa only [List.append_assoc, List.length_append, hheader, Nat.add_assoc] using hparsed
    have htotal : (before ++ (encodeRecordHeader options packet ++ (packet.data ++ rest))).length =
        before.length + (pcapRecordHeaderLength + (packet.data.length + rest.length)) := by
      simp only [List.length_append, hheader]
    have hpositive : 0 < pcapRecordHeaderLength := by decide
    refine ⟨⟨record, packet.data⟩ :: parsed, ?_, .cons ⟨rfl, horiginalLength, n, hat, hseconds, hsubSeconds⟩ hcarried⟩
    rw [List.append_assoc, parseRecords, if_pos (by omega), if_neg (by omega), hrecord]
    dsimp only
    rw [hcaptured, if_neg (by omega), hdataField, hlater]
    rfl

/-! ### Whatever the parser reads, its numbers have 32 bits -/

theorem decodePcapRecordHeader_bounds {buf : Buffer} {index : ℕ} {record : PcapRecordHeader}
    (h : decodePcapRecordHeader buf offset header index = .ok record) : record.seconds < 2 ^ 32 ∧ record.capturedLength < 2 ^ 32 := by
  unfold decodePcapRecordHeader at h
  dsimp only at h
  split_ifs at h
  obtain rfl := Except.ok.inj h
  exact ⟨readU32_lt _ _ _, readU32_lt _ _ _⟩

theorem parseRecords_bounds {buf : Buffer} {index : ℕ} {parsed : List PcapPacket}
    (h : parseRecords buf header offset index = .ok parsed) : ∀ packet ∈ parsed, packet.seconds < 2 ^ 32 ∧ packet.data.length < 2 ^ 32 := by
  induction offset, index using parseRecords.induct buf header generalizing parsed with
  | case1 offset index _ hshort =>
    rw [parseRecords, if_pos ‹_›, if_pos hshort] at h
    cases h
  | case2 offset index _ hshort e he =>
    rw [parseRecords, if_pos ‹_›, if_neg hshort, he] at h
    cases h
  | case3 offset index _ hshort record hrecord =>
    rename_i htruncated
    rw [parseRecords, if_pos ‹_›, if_neg hshort, hrecord] at h
    dsimp only at h
    rw [if_pos htruncated] at h
    cases h
  | case4 offset index _ hshort record hrecord =>
    rename_i hwhole ih
    rw [parseRecords, if_pos ‹_›, if_neg hshort, hrecord] at h
    dsimp only at h
    rw [if_neg hwhole] at h
    obtain ⟨later, hlater, rfl⟩ := map_ok.mp h
    obtain ⟨hseconds, hcaptured⟩ := decodePcapRecordHeader_bounds hrecord
    have hdata : (field buf (offset + pcapRecordHeaderLength) record.capturedLength).length < 2 ^ 32 :=
      (List.length_take_le _ _).trans_lt hcaptured
    exact List.forall_mem_cons.mpr ⟨⟨hseconds, hdata⟩, ih hlater⟩
  | case5 offset index hend =>
    rw [parseRecords, if_neg hend] at h
    obtain rfl := Except.ok.inj h
    simp

/-! ### The round trip -/

/-- The file that the parser makes of the bytes says what was written. -/
def RoundTrips (packets : List PcapPacketInput) (options : PcapEncodeOptions) (bytes : Buffer) : Prop :=
  ∃ file, parsePcap bytes = .ok file ∧ file.header.byteOrder = options.byteOrder ∧
    file.header.nanosecondPrecision = options.nanosecondPrecision ∧ file.header.snapLen = options.snapLen ∧
    file.header.linkType = options.linkType ∧ List.Forall₂ (Carried options) packets file.packets

variable {packets : List PcapPacketInput} {bytes : Buffer}

theorem parsePcap_encode (hsnap : options.snapLen < 2 ^ 32) (hlink : options.linkType < 2 ^ 32)
    (horiginal : ∀ packet ∈ packets, ∀ length ∈ packet.originalLength, length < 2 ^ 32) (hfits : ∀ packet ∈ packets, packet.Fits)
    (h : encodePcap packets options = .ok bytes) : RoundTrips packets options bytes := by
  unfold encodePcap at h
  obtain ⟨records, hrecords, rfl⟩ := map_ok.mp h
  obtain ⟨header, hheader, horder, hprecision, hsnapLen, hlinkType⟩ := readPcapGlobalHeader_encode hsnap hlink records
  obtain ⟨parsed, hparsed, hcarried⟩ := parseRecords_encode horder hprecision hfits horiginal hrecords (encodeGlobalHeader options) 0
  rw [encodeGlobalHeader_length] at hparsed
  refine ⟨⟨header, parsed⟩, ?_, horder, hprecision, hsnapLen, hlinkType, hcarried⟩
  rw [parsePcap, hheader]
  dsimp only
  rw [hparsed]
  rfl

/-- Nothing else comes back: the parser has no more than 32 bits for the seconds and for the length. -/
theorem RoundTrips.fits (h : RoundTrips packets options bytes) : ∀ packet ∈ packets, packet.Fits := by
  obtain ⟨file, hparse, -, -, -, -, hcarried⟩ := h
  unfold parsePcap at hparse
  split at hparse
  next => cases hparse
  next header hheader =>
    obtain ⟨parsed, hrecords, rfl⟩ := map_ok.mp hparse
    have hbounds := parseRecords_bounds hrecords
    intro packet hpacket
    obtain ⟨read, hread, hdata, -, n, hat, hseconds, -⟩ := forall₂_left hcarried hpacket
    obtain ⟨hsmall, hshort⟩ := hbounds read hread
    refine ⟨⟨n, ?_, hat⟩, ?_⟩
    · omega
    · rwa [← hdata]

/-- The writer is the inverse of the parser exactly for the packets that have their seconds and their length in 32 bits. -/
theorem encodePcap_roundTrips (packets : List PcapPacketInput) (options : PcapEncodeOptions) (bytes : Buffer) (hsnap : options.snapLen < 2 ^ 32)
    (hlink : options.linkType < 2 ^ 32) (horiginal : ∀ packet ∈ packets, ∀ length ∈ packet.originalLength, length < 2 ^ 32)
    (h : encodePcap packets options = .ok bytes) : RoundTrips packets options bytes ↔ ∀ packet ∈ packets, packet.Fits := by
  constructor
  · intro hround
    exact hround.fits
  · intro hfits
    exact parsePcap_encode hsnap hlink horiginal hfits h

/-- A frame of two octets, seen a moment before the seconds run out. -/
theorem encodePcap_roundTrips_last :
    ∃ bytes, encodePcap [⟨4294967295999, [1, 2], some 60⟩] ⟨.big, true, 65535, 1⟩ = .ok bytes ∧
      RoundTrips [⟨4294967295999, [1, 2], some 60⟩] ⟨.big, true, 65535, 1⟩ bytes := by
  obtain ⟨bytes, h⟩ : ∃ bytes, encodePcap [⟨4294967295999, [1, 2], some 60⟩] ⟨.big, true, 65535, 1⟩ = .ok bytes := by
    simp only [encodePcap, encodeRecords]
    rw [if_neg (by decide +kernel)]
    exact ⟨_, rfl⟩
  refine ⟨bytes, h, (encodePcap_roundTrips _ _ _ (by decide) (by decide) (by simp) h).mpr ?_⟩
  intro packet hpacket
  obtain rfl := List.mem_singleton.mp hpacket
  refine ⟨⟨4294967295999, by decide, ?_⟩, by decide⟩
  unfold PcapPacketInput.At
  decide +kernel

/-- One millisecond later the second after the last one is written as the first. -/
theorem encodePcap_wraps :
    ∃ bytes, encodePcap [⟨4294967296000, [], none⟩] {} = .ok bytes ∧ PcapPacketInput.At ⟨4294967296000, [], none⟩ 4294967296000 ∧
      ¬ RoundTrips [⟨4294967296000, [], none⟩] {} bytes := by
  obtain ⟨bytes, h⟩ : ∃ bytes, encodePcap [⟨4294967296000, [], none⟩] {} = .ok bytes := by
    simp only [encodePcap, encodeRecords]
    rw [if_neg (by decide +kernel)]
    exact ⟨_, rfl⟩
  have hat : PcapPacketInput.At ⟨4294967296000, [], none⟩ 4294967296000 := by
    unfold PcapPacketInput.At
    decide +kernel
  refine ⟨bytes, h, hat, ?_⟩
  intro hround
  obtain ⟨⟨n, hn, hn'⟩, -⟩ := hround.fits _ List.mem_cons_self
  have hwritten := (exactly_of_beq (by decide) hat).toInt 0 0
  have hread := (exactly_of_beq (by omega) hn').toInt 0 0
  have hsame : (n : ℤ) = 4294967296000 := hread.symm.trans hwritten
  omega

end OxScada.Goose
