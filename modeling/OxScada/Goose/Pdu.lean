import OxScada.Goose.Ber
import OxScada.Runs.Reachable

/-! Decoding of dataset members and of the IECGoosePdu. The source loops and
recurses without a bound of its own, so every looping function takes a step budget
and answers `none` when it is used up; a call returns when some budget suffices. -/

namespace OxScada.Goose
open OxScada.Bytes OxScada.Runs

abbrev Outcome (α : Type) := Option (Except GooseParseError α)

def Terminates {α : Type} (run : ℕ → Outcome α) : Prop := ∃ budget, run budget ≠ none

theorem outcome_map_eq_ok {α β : Type} {f : α → β} {outcome : Outcome α} {b : β}
    (h : outcome.map (Except.map f) = some (.ok b)) : ∃ a, outcome = some (.ok a) ∧ f a = b := by
  obtain ⟨result, rfl, hmap⟩ := Option.map_eq_some_iff.mp h
  obtain ⟨a, rfl, ha⟩ := map_ok.mp hmap
  exact ⟨a, rfl, ha⟩

def readChildrenFrom : ℕ → Buffer → ℤ → Outcome (List BerTlv)
  | 0, _, _ => none
  | budget + 1, content, offset =>
    if offset < content.length then
      match readTlv content offset with
      | .error e => some (.error e)
      | .ok tlv =>
        match tlv.stop with
        -- NaN is not below the length, so the loop ends
        | none => some (.ok [tlv])
        | some next => (readChildrenFrom budget content next).map (Except.map (tlv :: ·))
    else some (.ok [])

def readChildren (budget : ℕ) (content : Buffer) : Outcome (List BerTlv) :=
  readChildrenFrom budget content 0

/-! ### Dataset members -/

variable (content : Buffer)

def decodeUnsigned : Except GooseParseError ℕ :=
  if content.length = 0 then .ok 0
  else if 6 < content.length then
    .error ⟨s!"integer too large to decode safely ({content.length} octets)"⟩
  else .ok (bigEndian content)

def decodeSigned : Except GooseParseError ℤ :=
  if content.length = 0 then .ok 0
  else if 6 < content.length then
    .error ⟨s!"integer too large to decode safely ({content.length} octets)"⟩
  else
    let value : ℤ := bigEndian content
    if content.headD 0 &&& 0x80 ≠ 0 then .ok (value - 2 ^ (8 * content.length)) else .ok value

def decodeBoolean : Bool := content.any (· != 0)

inductive Ieee754 where
  | single (bits : BitVec 32)
  | double (bits : BitVec 64)
  deriving DecidableEq, Repr

def decodeFloat : Except GooseParseError Ieee754 :=
  if content.length = 5 then .ok (.single (.ofNat 32 (bigEndian (content.drop 1))))
  else if content.length = 9 then .ok (.double (.ofNat 64 (bigEndian (content.drop 1))))
  else if content.length = 4 then .ok (.single (.ofNat 32 (bigEndian content)))
  else if content.length = 8 then .ok (.double (.ofNat 64 (bigEndian content)))
  else .error ⟨s!"unsupported FloatingPoint length {content.length}"⟩

inductive Validity where
  | good | invalid | reserved | questionable
  deriving DecidableEq, Repr

inductive QualitySource where
  | process | substituted
  deriving DecidableEq, Repr

structure GooseQuality where
  validity : Validity
  overflow : Bool
  outOfRange : Bool
  badReference : Bool
  oscillatory : Bool
  failure : Bool
  oldData : Bool
  inconsistent : Bool
  inaccurate : Bool
  source : QualitySource
  test : Bool
  operatorBlocked : Bool
  deriving DecidableEq, Repr

/-- Bit `n` of a bit string, counted from the most significant bit of its first octet. -/
def bitAt (dataBytes : Buffer) (n : ℕ) : Bool :=
  (dataBytes[n / 8]?).any (fun b => b.toNat.testBit (7 - n % 8))

def decodeQuality : Except GooseParseError GooseQuality :=
  if content.length < 1 then .error ⟨"Quality bitstring is empty"⟩
  else
    let bit := bitAt (content.drop 1)
    .ok {
      validity := match bit 0, bit 1 with
        | false, false => .good
        | false, true => .invalid
        | true, false => .reserved
        | true, true => .questionable
      overflow := bit 2
      outOfRange := bit 3
      badReference := bit 4
      oscillatory := bit 5
      failure := bit 6
      oldData := bit 7
      inconsistent := bit 8
      inaccurate := bit 9
      source := if bit 10 then .substituted else .process
      test := bit 11
      operatorBlocked := bit 12 }

structure UtcTime where
  seconds : ℕ
  fraction : ℕ
  quality : ℕ
  deriving DecidableEq, Repr

def decodeUtcTime : Except GooseParseError UtcTime :=
  if content.length < 8 then .error ⟨s!"UTCTime requires 8 octets, got {content.length}"⟩
  else .ok {
    seconds := bigEndian (content.take 4)
    fraction := bigEndian ((content.drop 4).take 3)
    quality := bigEndian ((content.drop 7).take 1) }

inductive GooseDataValue where
  | boolean (value : Bool)
  | int (value : ℤ)
  | uint (value : ℕ)
  | float (value : Ieee754)
  | bitstring (bits : List Bool) (unusedBits : ℕ)
  | quality (value : GooseQuality)
  | octetstring (value : Buffer)
  | visiblestring (value : Text)
  | utctime (value : UtcTime)
  | members (value : List GooseDataValue)
  | unknown (tag : Option UInt8) (raw : Buffer)

inductive DataTag where
  | array | struct | boolean | bitString | integer | unsigned | floatingPoint | real
  | octetString | visibleString | utcTime
  deriving DecidableEq, Repr

def DataTag.code : DataTag → UInt8
  | .array => 0xa1
  | .struct => 0xa2
  | .boolean => 0x83
  | .bitString => 0x84
  | .integer => 0x85
  | .unsigned => 0x86
  | .floatingPoint => 0x87
  | .real => 0x88
  | .octetString => 0x89
  | .visibleString => 0x8a
  | .utcTime => 0x91

def looksLikeQuality : Bool :=
  decide (2 ≤ content.length) && decide (content.length ≤ 3) && decide (content.headD 0 ≤ 7)

def decodeBitString : Except GooseParseError GooseDataValue :=
  if looksLikeQuality content then (decodeQuality content).map .quality
  else
    let unusedBits := (content.headD 0).toNat
    let dataBytes := content.drop 1
    let totalBits := dataBytes.length * 8 - unusedBits
    .ok (.bitstring ((List.range totalBits).map (bitAt dataBytes)) unusedBits)

def decodeScalar (tlv : BerTlv) : Except GooseParseError GooseDataValue :=
  if tlv.tag = some DataTag.boolean.code then .ok (.boolean (decodeBoolean tlv.content))
  else if tlv.tag = some DataTag.integer.code then (decodeSigned tlv.content).map .int
  else if tlv.tag = some DataTag.unsigned.code then (decodeUnsigned tlv.content).map .uint
  else if tlv.tag = some DataTag.floatingPoint.code ∨ tlv.tag = some DataTag.real.code then
    (decodeFloat tlv.content).map .float
  else if tlv.tag = some DataTag.bitString.code then decodeBitString tlv.content
  else if tlv.tag = some DataTag.octetString.code then .ok (.octetstring tlv.content)
  else if tlv.tag = some DataTag.visibleString.code then
    .ok (.visiblestring (Buffer.latin1 tlv.content))
  else if tlv.tag = some DataTag.utcTime.code then (decodeUtcTime tlv.content).map .utctime
  else .ok (.unknown tlv.tag tlv.content)

/-- `Array.prototype.map` with a callback that may throw or not return. -/
def mapOutcome {α β : Type} (f : α → Outcome β) : List α → Outcome (List β)
  | [] => some (.ok [])
  | a :: as =>
    match f a with
    | none => none
    | some (.error e) => some (.error e)
    | some (.ok b) => (mapOutcome f as).map (Except.map (b :: ·))

def decodeDataValue : ℕ → BerTlv → Outcome GooseDataValue
  | 0, _ => none
  | budget + 1, tlv =>
    if tlv.tag = some DataTag.array.code ∨ tlv.tag = some DataTag.struct.code then
      match readChildren budget tlv.content with
      | none => none
      | some (.error e) => some (.error e)
      | some (.ok children) =>
        (mapOutcome (decodeDataValue budget) children).map (Except.map .members)
    else some (decodeScalar tlv)

/-! ### The IECGoosePdu -/

inductive PduTag where
  | gocbRef | timeAllowedToLive | datSet | goID | t | stNum | sqNum | simulation | confRev
  | ndsCom | numDatSetEntries | allData
  deriving DecidableEq, Repr

def PduTag.code : PduTag → UInt8
  | .gocbRef => 0x80
  | .timeAllowedToLive => 0x81
  | .datSet => 0x82
  | .goID => 0x83
  | .t => 0x84
  | .stNum => 0x85
  | .sqNum => 0x86
  | .simulation => 0x87
  | .confRev => 0x88
  | .ndsCom => 0x89
  | .numDatSetEntries => 0x8a
  | .allData => 0xab

def pduApplicationTag : UInt8 := 0x61

structure PartialPdu where
  gocbRef : Option Text := none
  timeAllowedToLive : Option ℕ := none
  datSet : Option Text := none
  goID : Text := []
  t : ℚ := 0
  stNum : Option ℕ := none
  sqNum : Option ℕ := none
  simulation : Bool := false
  confRev : ℕ := 0
  ndsCom : Bool := false
  numDatSetEntries : Option ℕ := none
  allData : List GooseDataValue := []

def PartialPdu.initial : PartialPdu := {}

/-- The decoded PDU. `t` is the exact number of milliseconds, which the source
rounds to a double. -/
structure GoosePdu where
  gocbRef : Text
  timeAllowedToLive : ℕ
  datSet : Text
  goID : Text
  t : ℚ
  stNum : ℕ
  sqNum : ℕ
  simulation : Bool
  confRev : ℕ
  ndsCom : Bool
  numDatSetEntries : ℕ
  allData : List GooseDataValue

def decodeUtcTimeToMs : Except GooseParseError ℚ :=
  if content.length < 4 then .ok 0
  else
    -- a short timestamp is filled up with zero octets
    let padded := if 8 ≤ content.length then content
      else content ++ List.replicate (8 - content.length) 0
    (decodeUtcTime padded).map fun time => time.seconds * 1000 + time.fraction / 0x1000000 * 1000

def applyScalarField (pdu : PartialPdu) (child : BerTlv) : Except GooseParseError PartialPdu :=
  if child.tag = some PduTag.gocbRef.code then
    .ok { pdu with gocbRef := some (Buffer.latin1 child.content) }
  else if child.tag = some PduTag.timeAllowedToLive.code then
    (decodeUnsigned child.content).map fun v => { pdu with timeAllowedToLive := some v }
  else if child.tag = some PduTag.datSet.code then
    .ok { pdu with datSet := some (Buffer.latin1 child.content) }
  else if child.tag = some PduTag.goID.code then
    .ok { pdu with goID := Buffer.latin1 child.content }
  else if child.tag = some PduTag.t.code then
    (decodeUtcTimeToMs child.content).map fun v => { pdu with t := v }
  else if child.tag = some PduTag.stNum.code then
    (decodeUnsigned child.content).map fun v => { pdu with stNum := some v }
  else if child.tag = some PduTag.sqNum.code then
    (decodeUnsigned child.content).map fun v => { pdu with sqNum := some v }
  else if child.tag = some PduTag.simulation.code then
    .ok { pdu with simulation := decodeBoolean child.content }
  else if child.tag = some PduTag.confRev.code then
    (decodeUnsigned child.content).map fun v => { pdu with confRev := v }
  else if child.tag = some PduTag.ndsCom.code then
    .ok { pdu with ndsCom := decodeBoolean child.content }
  else if child.tag = some PduTag.numDatSetEntries.code then
    (decodeUnsigned child.content).map fun v => { pdu with numDatSetEntries := some v }
  else .ok pdu

def applyField (budget : ℕ) (pdu : PartialPdu) (child : BerTlv) : Outcome PartialPdu :=
  if child.tag = some PduTag.allData.code then
    match readChildren budget child.content with
    | none => none
    | some (.error e) => some (.error e)
    | some (.ok members) =>
      (mapOutcome (decodeDataValue budget) members).map
        (Except.map fun values => { pdu with allData := values })
  else some (applyScalarField pdu child)

def applyFields (budget : ℕ) : PartialPdu → List BerTlv → Outcome PartialPdu
  | pdu, [] => some (.ok pdu)
  | pdu, child :: children =>
    match applyField budget pdu child with
    | none => none
    | some (.error e) => some (.error e)
    | some (.ok pdu') => applyFields budget pdu' children

def finishPdu (pdu : PartialPdu) : Except GooseParseError GoosePdu :=
  match pdu.gocbRef with
  | none => .error ⟨"IECGoosePdu missing gocbRef"⟩
  | some gocbRef =>
    match pdu.timeAllowedToLive with
    | none => .error ⟨"IECGoosePdu missing timeAllowedToLive"⟩
    | some timeAllowedToLive =>
      match pdu.datSet with
      | none => .error ⟨"IECGoosePdu missing datSet"⟩
      | some datSet =>
        match pdu.stNum with
        | none => .error ⟨"IECGoosePdu missing stNum"⟩
        | some stNum =>
          match pdu.sqNum with
          | none => .error ⟨"IECGoosePdu missing sqNum"⟩
          | some sqNum =>
            .ok { gocbRef, timeAllowedToLive, datSet, goID := pdu.goID, t := pdu.t, stNum, sqNum,
                  simulation := pdu.simulation, confRev := pdu.confRev, ndsCom := pdu.ndsCom,
                  numDatSetEntries := pdu.numDatSetEntries.getD pdu.allData.length,
                  allData := pdu.allData }

def tagHex (tag : Option UInt8) : String :=
  match tag with
  | none => "undefined"
  | some t => String.ofList (Nat.toDigits 16 t.toNat)

def parseGoosePdu (budget : ℕ) (apdu : Buffer) : Outcome GoosePdu :=
  match readTlv apdu 0 with
  | .error e => some (.error e)
  | .ok root =>
    if root.tag ≠ some pduApplicationTag then
      let got := tagHex root.tag
      some (.error ⟨s!"expected IECGoosePdu application tag 0x61, got 0x{got}"⟩)
    else
      match readChildren budget root.content with
      | none => none
      | some (.error e) => some (.error e)
      | some (.ok children) =>
        match applyFields budget .initial children with
        | none => none
        | some (.error e) => some (.error e)
        | some (.ok pdu) => some (finishPdu pdu)

end OxScada.Goose
