import OxScada.Dnp3.PointMap

/-! Controls: SELECT, OPERATE and the direct forms. The processor keeps a journal of the
selects it armed and of the calls it made to the sink, which the source does not have. -/

namespace OxScada.Dnp3
open OxScada.Bytes OxScada.Js

inductive CommandStatus where
  | success | timeout | noSelect | formatError | notSupported | alreadyActive | hardwareError | isLocal
  | tooManyObjs | notAuthorized | automationInhibit | processingLimited | outOfRange | undefined
  deriving DecidableEq, Repr

def CommandStatus.code : CommandStatus → UInt8
  | success => 0
  | timeout => 1
  | noSelect => 2
  | formatError => 3
  | notSupported => 4
  | alreadyActive => 5
  | hardwareError => 6
  | isLocal => 7
  | tooManyObjs => 8
  | notAuthorized => 9
  | automationInhibit => 10
  | processingLimited => 11
  | outOfRange => 12
  | undefined => 127

/-! ### Command objects -/

structure CrobFields where
  opType : UInt8
  tcc : UInt8
  clear : Bool
  queue : Bool
  count : UInt8
  onTimeMs : ℕ
  offTimeMs : ℕ
  deriving DecidableEq, Repr

def isControlGroup (group : UInt8) : Bool := group = Group.binaryOutputCommand ∨ group = Group.analogOutputCommand

def decodeCrob (data : Buffer) : Option CrobFields :=
  if data.length ≠ crobObjectSize then none
  else
    let controlCode := data.headD 0
    some {
      opType := controlCode &&& 0x0f
      tcc := (controlCode &&& 0xc0) >>> 6
      clear := controlCode &&& 0x20 ≠ 0
      queue := controlCode &&& 0x10 ≠ 0
      count := (data.drop 1).headD 0
      onTimeMs := readUIntLE ((data.drop 2).take 4)
      offTimeMs := readUIntLE ((data.drop 6).take 4) }

def encodeCrob (fields : CrobFields) (status : CommandStatus) : Buffer :=
  let opType : UInt8 := fields.opType &&& 0x0f
  let tcc : UInt8 := (fields.tcc <<< 6) &&& 0xc0
  let controlCode := opType ||| tcc ||| (if fields.clear then 0x20 else 0) ||| (if fields.queue then 0x10 else 0)
  [controlCode, fields.count] ++ writeUIntLE 4 fields.onTimeMs ++ writeUIntLE 4 fields.offTimeMs ++ [status.code]

def decodeAnalogOutput (variation : UInt8) (data : Buffer) : Option Float :=
  if analogOutputObjectSize variation ≠ some data.length then none
  else if variation = 1 then some (Float.ofInt (readIntLE (data.take 4)))
  else if variation = 2 then some (Float.ofInt (readIntLE (data.take 2)))
  else if variation = 3 then some (readFloatLE (data.take 4))
  else some (readDoubleLE (data.take 8))

def encodeAnalogOutput (variation : UInt8) (value : Float) (status : CommandStatus) : Except String Buffer :=
  if variation = 1 then .ok (writeIntLE 4 (clampInt value (-2147483648) 2147483647) ++ [status.code])
  else if variation = 2 then .ok (writeIntLE 2 (clampInt value (-32768) 32767) ++ [status.code])
  else if variation = 3 then .ok (writeFloatLE value ++ [status.code])
  else if variation = 4 then .ok (writeDoubleLE value ++ [status.code])
  else .error s!"Unsupported g41 variation {variation}"

/-- The coil state a CROB asks for. The trip-close code overrides the operation type. -/
def crobValue (crob : CrobFields) : Option Bool :=
  let polarity (value : Bool) : Bool := if crob.tcc = 2 then false else if crob.tcc = 1 then true else value
  if crob.opType = 3 ∨ crob.opType = 1 then some (polarity true)
  else if crob.opType = 4 ∨ crob.opType = 2 then some (polarity false)
  else none

def pulseDurationMs (crob : CrobFields) : ℕ :=
  if crob.opType ≠ 1 ∧ crob.opType ≠ 2 then 0
  else if crob.count = 0 then 0
  else crob.count.toNat * crob.onTimeMs + (crob.count.toNat - 1) * crob.offTimeMs

inductive Dnp3ControlCommand where
  | binaryOutput (group variation : UInt8) (index : ℕ) (tagId : String) (value : Bool) (crob : CrobFields)
  | analogOutput (group variation : UInt8) (index : ℕ) (tagId : String) (value : Float)
  deriving DecidableEq

/-- One control object of a request: the command it decodes to, or why it is rejected. -/
structure DecodedObject where
  header : ParsedObjectHeader
  item : ParsedPrefixedObject
  verdict : Except CommandStatus Dnp3ControlCommand
  iin : Iin := 0

def DecodedObject.rejection (d : DecodedObject) : Option CommandStatus :=
  match d.verdict with
  | .error status => some status
  | .ok _ => none

def DecodedObject.command (d : DecodedObject) : Option Dnp3ControlCommand :=
  match d.verdict with
  | .error _ => none
  | .ok command => some command

def decodeObject (m : Dnp3PointMap) (header : ParsedObjectHeader) (item : ParsedPrefixedObject) : DecodedObject :=
  if header.group = Group.binaryOutputCommand then
    match decodeCrob item.data with
    | none => ⟨header, item, .error .formatError, Iin.parameterError⟩
    | some crob =>
      if crob.queue ∨ crob.clear then ⟨header, item, .error .notSupported, 0⟩
      else
        match crobValue crob with
        | none => ⟨header, item, .error .notSupported, 0⟩
        | some value =>
          match m.getPoint .binaryOutput item.index with
          | none => ⟨header, item, .error .notSupported, Iin.objectUnknown⟩
          | some d =>
            ⟨header, item, .ok (.binaryOutput header.group header.variation item.index d.tagId value crob), 0⟩
  else
    match decodeAnalogOutput header.variation item.data with
    | none =>
      if (analogOutputObjectSize header.variation).isSome then ⟨header, item, .error .formatError, Iin.parameterError⟩
      else ⟨header, item, .error .notSupported, Iin.objectUnknown⟩
    | some value =>
      match m.getPoint .analogOutput item.index with
      | none => ⟨header, item, .error .notSupported, Iin.objectUnknown⟩
      | some d => ⟨header, item, .ok (.analogOutput header.group header.variation item.index d.tagId value), 0⟩

/-- What an OPERATE must reproduce: group, variation, index, and the body with its status zeroed. -/
def DecodedObject.canonical (d : DecodedObject) : Buffer :=
  [d.header.group, d.header.variation] ++ writeUIntLE 2 d.item.index ++
    if d.item.data = [] then [] else d.item.data.dropLast ++ [0]

def canonicalDigest (decoded : List DecodedObject) : Buffer := (decoded.map DecodedObject.canonical).flatten

/-! ### The processor -/

structure Dnp3ControlConfig where
  enabled : Bool := false
  selectTimeoutMs : ℤ := 5000
  deriving DecidableEq, Repr

structure ArmedSelect where
  seq : ℕ
  armedAt : ℤ
  digest : Buffer
  commands : List Dnp3ControlCommand
  deriving DecidableEq

/-- Whether an armed select is the one this OPERATE refers to. -/
def ArmedSelect.isMatch (armed : ArmedSelect) (req : ParsedRequest) (decoded : List DecodedObject) : Bool :=
  armed.seq = (req.seq + 15) % 16 ∧ armed.digest = canonicalDigest decoded

inductive SinkAnswer where
  | ok
  | refused (status : Option CommandStatus)
  | threw
  deriving DecidableEq, Repr

inductive ControlEvent where
  | armed (select : ArmedSelect)
  | called (command : Dnp3ControlCommand) (answer : SinkAnswer)
  deriving DecidableEq

/-- The embedder's sink. It may answer by all that went before. -/
abbrev Dnp3ControlSink := List ControlEvent → Dnp3ControlCommand → SinkAnswer

structure Dnp3ControlProcessor where
  config : Dnp3ControlConfig := {}
  sink : Option Dnp3ControlSink := none
  armed : Option ArmedSelect := none
  activeUntil : ℕ → Option ℤ := fun _ => none
  journal : List ControlEvent := []

structure ControlProcessResult where
  objects : Buffer
  iin : Iin
  statuses : List CommandStatus
  executed : List Dnp3ControlCommand

namespace Dnp3ControlProcessor
variable (p : Dnp3ControlProcessor)

def writable : Bool := p.config.enabled && p.sink.isSome

def disarm : Dnp3ControlProcessor := { p with armed := none }

def arm (select : ArmedSelect) : Dnp3ControlProcessor :=
  { p with armed := some select, journal := p.journal ++ [.armed select] }

/-- Whether a command reaches the sink: a CROB with count zero does not, and neither does one
for an output that is still pulsing. -/
def preempt (now : ℤ) : Dnp3ControlCommand → Option CommandStatus
  | .binaryOutput _ _ index _ _ crob =>
    if crob.count = 0 then some .success
    else if (p.activeUntil index).any (now < ·) then some .alreadyActive
    else none
  | .analogOutput .. => none

def occupy (now : ℤ) : Dnp3ControlCommand → Dnp3ControlProcessor
  | .binaryOutput _ _ index _ _ crob =>
    { p with
      activeUntil := Function.update p.activeUntil index
        (if 0 < pulseDurationMs crob then some (now + pulseDurationMs crob) else none) }
  | .analogOutput .. => p

def callSink (sink : Dnp3ControlSink) (now : ℤ) (command : Dnp3ControlCommand) :
    CommandStatus × Dnp3ControlProcessor :=
  let answer := sink p.journal command
  let called := { p with journal := p.journal ++ [.called command answer] }
  match answer with
  | .threw => (.hardwareError, called)
  | .refused status => (status.getD .hardwareError, called)
  | .ok => (.success, called.occupy now command)

def executeOne (sink : Dnp3ControlSink) (now : ℤ) (d : DecodedObject) :
    CommandStatus × Dnp3ControlProcessor :=
  match d.verdict with
  | .error status => (status, p)
  | .ok command =>
    match p.preempt now command with
    | some status => (status, p)
    | none => p.callSink sink now command

def executeAll (sink : Dnp3ControlSink) (now : ℤ) :
    Dnp3ControlProcessor → List DecodedObject → List CommandStatus × Dnp3ControlProcessor
  | p, [] => ([], p)
  | p, d :: rest =>
    let first := p.executeOne sink now d
    let later := executeAll sink now first.2 rest
    (first.1 :: later.1, later.2)

def execute (p : Dnp3ControlProcessor) (decoded : List DecodedObject) (now : ℤ) :
    List CommandStatus × Dnp3ControlProcessor :=
  match p.sink with
  | none => (decoded.map fun _ => .notSupported, p)
  | some sink => executeAll sink now p decoded

def resolveStatuses (p : Dnp3ControlProcessor) (req : ParsedRequest) (decoded : List DecodedObject) (now : ℤ) :
    List CommandStatus × Dnp3ControlProcessor :=
  if p.writable = false then (decoded.map fun _ => .notSupported, p.disarm)
  else if req.func = FunctionCode.select then
    if decoded.any (·.rejection.isSome) then (decoded.map (·.rejection.getD .success), p.disarm)
    else
      (decoded.map fun _ => .success,
        p.arm ⟨req.seq, now, canonicalDigest decoded, decoded.filterMap (·.command)⟩)
  else if req.func = FunctionCode.operate then
    match p.armed with
    | none => (decoded.map fun _ => .noSelect, p.disarm)
    | some armed =>
      if armed.isMatch req decoded = false then (decoded.map fun _ => .noSelect, p.disarm)
      else if p.config.selectTimeoutMs < now - armed.armedAt then (decoded.map fun _ => .timeout, p.disarm)
      else p.disarm.execute decoded now
  else p.disarm.execute decoded now

end Dnp3ControlProcessor

/-! ### The echo -/

def echoBody (header : ParsedObjectHeader) (item : ParsedPrefixedObject) (d : Option DecodedObject)
    (status : CommandStatus) : Except String Buffer :=
  match d.bind (·.command) with
  | some (.binaryOutput _ _ _ _ _ crob) => .ok (encodeCrob crob status)
  | some (.analogOutput _ _ _ _ value) => encodeAnalogOutput header.variation value status
  | none => .ok (if item.data = [] then [] else item.data.dropLast ++ [status.code])

def writeChecked (width n : ℕ) : Except String Buffer :=
  if n < 256 ^ width then .ok (writeUIntLE width n) else .error "ERR_OUT_OF_RANGE"

def echoItems (header : ParsedObjectHeader) (prefixLen : ℕ) :
    List ParsedPrefixedObject → List (DecodedObject × CommandStatus) → Except String Buffer
  | [], _ => .ok []
  | item :: items, results => do
    let indexed ← writeChecked prefixLen item.index
    let body ← echoBody header item (results.head?.map (·.1)) ((results.head?.map (·.2)).getD .undefined)
    let later ← echoItems header prefixLen items results.tail
    return indexed ++ body ++ later

def echo : List ParsedObjectHeader → List (DecodedObject × CommandStatus) → Except String Buffer
  | [], _ => .ok []
  | header :: headers, results =>
    match header.items with
    | none | some [] => echo headers results
    | some items => do
      let width := if header.qualifier &&& 0xf0 = 0x20 then 2 else 1
      let count ← writeChecked width items.length
      let objects ← echoItems header width items results
      let later ← echo headers (results.drop items.length)
      return [header.group, header.variation, header.qualifier] ++ count ++ objects ++ later

/-! ### Requests -/

def controlHeaders (req : ParsedRequest) : List ParsedObjectHeader := req.objects.filter (isControlGroup ·.group)

def decodeHeader (m : Dnp3PointMap) (header : ParsedObjectHeader) : List DecodedObject :=
  (header.items.getD []).map (decodeObject m header)

def decodeRequest (m : Dnp3PointMap) (req : ParsedRequest) : List DecodedObject :=
  (controlHeaders req).flatMap (decodeHeader m)

def requestIin (m : Dnp3PointMap) (req : ParsedRequest) : Iin :=
  ((controlHeaders req).map fun header =>
    match header.items with
    | none => Iin.parameterError
    | some _ => ((decodeHeader m header).map (·.iin)).foldr (· ||| ·) 0).foldr (· ||| ·) 0

namespace Dnp3ControlProcessor

def process (p : Dnp3ControlProcessor) (m : Dnp3PointMap) (req : ParsedRequest) (now : ℤ) :
    Except String ControlProcessResult × Dnp3ControlProcessor :=
  if controlHeaders req = [] then (.ok ⟨[], Iin.parameterError, [], []⟩, p)
  else
    let decoded := decodeRequest m req
    let iin := requestIin m req
    if decoded.length = 0 then (.ok ⟨[], iin, [], []⟩, p)
    else
      let resolved := p.resolveStatuses req decoded now
      let results := decoded.zip resolved.1
      let executed := results.filterMap fun (d, status) => if status = .success then d.command else none
      ((echo (controlHeaders req) results).map fun objects =>
        ⟨objects, iin, resolved.1, if req.func = FunctionCode.select then [] else executed⟩, resolved.2)

end Dnp3ControlProcessor

end OxScada.Dnp3
