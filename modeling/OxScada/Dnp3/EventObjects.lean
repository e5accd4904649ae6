import OxScada.Dnp3.Controls
import OxScada.Dnp3.EventBuffer

/-! The objects that report buffered events, with the headers they share and the common
times that relative times refer to. -/

namespace OxScada.Dnp3
open OxScada.Bytes OxScada.Js

inductive BinaryEventTimeMode where
  | noTime | absoluteTime | relativeTime
  deriving DecidableEq, Repr

inductive NumericEventTimeMode where
  | noTime | absoluteTime
  deriving DecidableEq, Repr

structure EventVariationPolicy where
  binary : BinaryEventTimeMode := .absoluteTime
  counter : NumericEventTimeMode := .absoluteTime
  analog : NumericEventTimeMode := .absoluteTime
  deriving DecidableEq, Repr

inductive TimeMode where
  | none | absolute | relative
  deriving DecidableEq, Repr

/-- An event with its group and variation. `core` has the flags and the value. -/
structure EventDescriptor where
  seq : ℕ
  group : UInt8
  variation : UInt8
  index : ℕ
  timestamp : Float
  core : Buffer
  timeMode : TimeMode

structure EventEncodeResult where
  bytes : Buffer
  encodedSeqs : List ℕ
  remaining : ℕ

def timeFieldLength : TimeMode → ℕ
  | .absolute => 6
  | .relative => 2
  | .none => 0

def eventGroupFor : Dnp3PointType → UInt8
  | .binaryInput => Group.binaryInputEvent
  | .binaryOutput => Group.binaryOutputEvent
  | .counter => Group.counterEvent
  | .analogInput => Group.analogInputEvent
  | .analogOutput => Group.analogOutputEvent

def NumericEventTimeMode.timeMode : NumericEventTimeMode → TimeMode
  | .noTime => .none
  | .absoluteTime => .absolute

/-- A binary output has no relative-time variation, and gets an absolute time. -/
def binaryTimeMode (isInput : Bool) : BinaryEventTimeMode → TimeMode
  | .noTime => .none
  | .absoluteTime => .absolute
  | .relativeTime => if isInput then .relative else .absolute

/-- The variation without and with a time, for the two widths of an analog value. -/
def analogVariation (encoding : AnalogEncoding) (mode : NumericEventTimeMode) : UInt8 :=
  match encoding, mode with
  | .int32, .noTime => 1
  | .int32, .absoluteTime => 3
  | .float32, .noTime => 5
  | .float32, .absoluteTime => 7

def describeEvent (event : Dnp3Event) (encoding : AnalogEncoding) (policy : EventVariationPolicy) : EventDescriptor :=
  let describe (variation : UInt8) (core : Buffer) (timeMode : TimeMode) : EventDescriptor :=
    ⟨event.seq, eventGroupFor event.pointType, variation, event.index, event.timestamp, core, timeMode⟩
  match event.pointType with
  | .binaryInput | .binaryOutput =>
    let mode := binaryTimeMode (event.pointType = .binaryInput) policy.binary
    describe (match mode with
      | .none => 1
      | .absolute => 2
      | .relative => 3) [event.flags] mode
  | .counter =>
    describe (match policy.counter with
      | .noTime => 1
      | .absoluteTime => 5)
      (event.flags :: writeIntLE 4 (clampInt event.value.toNumber 0 0xffffffff)) policy.counter.timeMode
  | .analogInput | .analogOutput =>
    describe (analogVariation encoding policy.analog)
      (event.flags ::
        match encoding with
        | .int32 => writeIntLE 4 (clampInt event.value.toNumber (-2147483648) 2147483647)
        | .float32 => writeFloatLE event.value.toNumber) policy.analog.timeMode

def buildCtoObject (epochMs : Float) : Buffer := [Group.timeAndDateCto, 1, 0x07, 0x01] ++ encodeDnp3Time epochMs

/-- An analog event whose point is not mapped has no width, and ends the list. -/
def describeEvents (m : Dnp3PointMap) (policy : EventVariationPolicy) : List Dnp3Event → List EventDescriptor
  | [] => []
  | event :: rest =>
    let pointDef := m.getPoint event.pointType event.index
    if (event.pointType = .analogInput ∨ event.pointType = .analogOutput) ∧ pointDef.isNone then []
    else
      describeEvent event ((pointDef.bind (·.encoding)).getD .float32) policy :: describeEvents m policy rest

/-! ### Runs under one header -/

namespace EventDescriptor
variable (d : EventDescriptor)

def twoOctet : Bool := 0xff < d.index

def prefixLen : ℕ := if d.twoOctet then 2 else 1

def maxCount : ℕ := if d.twoOctet then 0xffff else 0xff

def headerLen : ℕ := 3 + d.prefixLen

def cto : Buffer := if d.timeMode = .relative then buildCtoObject d.timestamp else []

/-- The time field, unless the offset from the common time does not fit. -/
def timeField (ctoBase : Float) : Option Buffer :=
  match d.timeMode with
  | .absolute => some (encodeDnp3Time d.timestamp)
  | .relative =>
    let offset := d.timestamp - ctoBase
    if offset < 0 ∨ 0xffff < offset then none else some (writeIntLE 2 (clampInt offset 0 0xffff))
  | .none => some []

def itemLen : ℕ := d.prefixLen + d.core.length + timeFieldLength d.timeMode

end EventDescriptor

structure EventRun where
  octets : Buffer
  seqs : List ℕ
  rest : List EventDescriptor

/-- The inner loop: the events that go under the header of `first`. `taken` octets are
written before the items, and `count` items so far. -/
def collectRun (first : EventDescriptor) (maxBytes : ℕ) : ℕ → ℕ → List EventDescriptor → Except String EventRun
  | _, _, [] => .ok ⟨[], [], []⟩
  | taken, count, d :: rest =>
    if first.maxCount ≤ count ∨ d.group ≠ first.group ∨ d.variation ≠ first.variation ∨ d.twoOctet ≠ first.twoOctet then
      .ok ⟨[], [], d :: rest⟩
    else
      match d.timeField first.timestamp with
      | none => .ok ⟨[], [], d :: rest⟩
      | some field =>
        let itemLen := first.prefixLen + d.core.length + field.length
        if maxBytes < taken + itemLen then .ok ⟨[], [], d :: rest⟩
        else do
          let indexed ← writeChecked first.prefixLen d.index
          let later ← collectRun first maxBytes (taken + itemLen) (count + 1) rest
          return ⟨indexed ++ d.core ++ field ++ later.octets, d.seq :: later.seqs, later.rest⟩

def encodeRuns (maxBytes : ℕ) : ℕ → ℕ → List EventDescriptor → Except String (Buffer × List ℕ)
  | rounds + 1, used, first :: rest =>
    let taken := used + first.cto.length + first.headerLen
    if maxBytes < taken + first.itemLen then .ok ([], [])
    else do
      let run ← collectRun first maxBytes taken 0 (first :: rest)
      if run.seqs = [] then return ([], [])
      let later ← encodeRuns maxBytes rounds (taken + run.octets.length) run.rest
      let header := [first.group, first.variation, if first.twoOctet then 0x28 else 0x17] ++
        writeUIntLE first.prefixLen run.seqs.length
      return (first.cto ++ header ++ run.octets ++ later.1, run.seqs ++ later.2)
  | _, _, _ => .ok ([], [])

def buildEventObjects (m : Dnp3PointMap) (policy : EventVariationPolicy) (maxBytes : ℕ) (events : List Dnp3Event) :
    Except String EventEncodeResult := do
  let descriptors := describeEvents m policy events
  let encoded ← encodeRuns maxBytes descriptors.length 0 descriptors
  return ⟨encoded.1, encoded.2, events.length - encoded.2.length⟩

end OxScada.Dnp3
