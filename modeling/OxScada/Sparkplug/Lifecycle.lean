import OxScada.Sparkplug.Topic

/-! The life cycle of an edge node and its devices: the messages that each transition asks the
transport to publish, and the transitions that wait for what became of them. -/

namespace OxScada.Sparkplug
open OxScada.Bytes

inductive NodeState where
  | offline | connecting | online
  deriving DecidableEq, Repr

inductive DeviceState where
  | offline | online
  deriving DecidableEq, Repr

inductive HostState where
  | unknown | online | offline
  deriving DecidableEq, Repr

inductive SparkplugDataType where
  | int8 | int16 | int32 | int64 | uint8 | uint16 | uint32 | uint64 | float | double | boolean | string | dateTime | text | uuid
  deriving DecidableEq, Repr

inductive MetricValue where
  | null
  | boolean (value : Bool)
  | number (value : Option ℚ)
  | bigint (value : ℤ)
  | string (value : Text)
  deriving DecidableEq, Repr

structure SparkplugMetric where
  name : Text
  dataType : SparkplugDataType
  value : MetricValue
  deriving DecidableEq, Repr

structure SparkplugPayload where
  seq : Option ℕ
  metrics : List SparkplugMetric
  deriving DecidableEq, Repr

structure OutboundMessage where
  topic : Text
  payload : SparkplugPayload
  qos : ℕ
  retain : Bool
  messageType : SparkplugMessageType
  transitionId : Option ℕ
  deriving DecidableEq, Repr

structure DeviceDefinition where
  deviceId : Text
  metrics : List SparkplugMetric
  deriving DecidableEq, Repr

inductive TransitionKind where
  | birth | death
  deriving DecidableEq, Repr

structure Transition where
  kind : TransitionKind
  id : ℕ
  deriving DecidableEq, Repr

structure DeviceRecord where
  definition : DeviceDefinition
  state : DeviceState
  pending : Option Transition
  deriving DecidableEq, Repr

structure EdgeNodeLifecycle where
  nodeMetrics : List SparkplugMetric
  nodeState : NodeState
  hostState : HostState
  bdSeq : ℕ
  seq : ℕ
  devices : Text → Option DeviceRecord
  nextTransitionId : ℕ

def seqModulo : ℕ := 256

def nodeControlRebirth : Text := "Node Control/Rebirth".toList

def bdSeqMetric (bdSeq : ℕ) : SparkplugMetric := ⟨"bdSeq".toList, .int64, .number (some bdSeq)⟩

def rebirthControlMetric : SparkplugMetric := ⟨nodeControlRebirth, .boolean, .boolean false⟩

def buildWillPayload (bdSeq : ℕ) : SparkplugPayload := ⟨none, [bdSeqMetric bdSeq]⟩

def buildWillTopic (node : EdgeNodeDescriptor) : Except String Text := buildNodeTopic node .ndeath

/-- The device that a message is about, as the transport reads it from the topic. -/
def OutboundMessage.deviceId (msg : OutboundMessage) : Option Text := (parseTopic msg.topic).bind (·.deviceId)

def DeviceRecord.reset (record : DeviceRecord) : DeviceRecord := { record with state := .offline, pending := none }

namespace EdgeNodeLifecycle

def init (nodeMetrics : List SparkplugMetric) : EdgeNodeLifecycle where
  nodeMetrics := nodeMetrics
  nodeState := .offline
  hostState := .unknown
  bdSeq := 0
  seq := 0
  devices := fun _ => none
  nextTransitionId := 1

variable (node : EdgeNodeDescriptor) (l : EdgeNodeLifecycle)

def canPublishData : Bool := l.nodeState = .online && l.hostState ≠ .offline

@[simps] def setDevice (deviceId : Text) (record : DeviceRecord) : EdgeNodeLifecycle :=
  { l with devices := Function.update l.devices deviceId (some record) }

def registerDevice (definition : DeviceDefinition) : EdgeNodeLifecycle :=
  let existing := l.devices definition.deviceId
  l.setDevice definition.deviceId ⟨definition, (existing.map (·.state)).getD .offline, existing.bind (·.pending)⟩

@[simps] def setNodeMetrics (metrics : List SparkplugMetric) : EdgeNodeLifecycle := { l with nodeMetrics := metrics }

@[simps] def resetSeq : EdgeNodeLifecycle := { l with seq := 0 }

@[simps] def advanceSeq : EdgeNodeLifecycle := { l with seq := (l.seq + 1) % seqModulo }

/-- A message with the next `seq`, which is consumed before the topic is built. -/
def outbound (topic : Except String Text) (messageType : SparkplugMessageType) (qos : ℕ) (metrics : List SparkplugMetric)
    (transitionId : Option ℕ) : EdgeNodeLifecycle × Except String OutboundMessage :=
  (l.advanceSeq, topic.map fun topic => ⟨topic, ⟨some l.seq, metrics⟩, qos, false, messageType, transitionId⟩)

@[simps] def beginSession : EdgeNodeLifecycle := { l with bdSeq := (l.bdSeq + 1) % 256, seq := 0, nodeState := .connecting }

def onConnect : EdgeNodeLifecycle × Except String OutboundMessage :=
  let l := if l.seq ≠ 0 then { l with seq := 0 } else l
  let l := { l with nodeState := .connecting, devices := fun deviceId => (l.devices deviceId).map DeviceRecord.reset }
  l.outbound (buildNodeTopic node .nbirth) .nbirth 1 (bdSeqMetric l.bdSeq :: rebirthControlMetric :: l.nodeMetrics) none

@[simps] def onDisconnect : EdgeNodeLifecycle :=
  { l with nodeState := .offline, devices := fun deviceId => (l.devices deviceId).map DeviceRecord.reset }

def confirmNodeBirth : EdgeNodeLifecycle × Bool :=
  if l.nodeState ≠ .connecting then (l, false) else ({ l with nodeState := .online }, true)

def failNodeBirth : EdgeNodeLifecycle := l.onDisconnect

def publishNodeData (changed : List SparkplugMetric) : EdgeNodeLifecycle × Except String (Option OutboundMessage) :=
  if !l.canPublishData || changed.length = 0 then (l, .ok none)
  else
    let (l, msg) := l.outbound (buildNodeTopic node .ndata) .ndata 0 changed none
    (l, msg.map some)

def birthDevice (definition : DeviceDefinition) : EdgeNodeLifecycle × Except String OutboundMessage :=
  if l.nodeState ≠ .online then
    (l, .error ("Cannot DBIRTH device \"" ++ String.ofList definition.deviceId ++ "\" before edge node NBIRTH"))
  else
    let transitionId := l.nextTransitionId
    let l := l.registerDevice definition
    let l := { l.setDevice definition.deviceId ⟨definition, .offline, some ⟨.birth, transitionId⟩⟩ with nextTransitionId := transitionId + 1 }
    l.outbound (buildDeviceTopic node definition.deviceId .dbirth) .dbirth 1 definition.metrics (some transitionId)

/-- `transitionId === undefined` fits any pending transition of the kind. -/
def settles (kind : TransitionKind) (transitionId : Option ℕ) (pending : Option Transition) : Bool :=
  pending.any fun transition => transition.kind = kind && transitionId.all (· = transition.id)

variable (deviceId : Text)

def confirmDeviceBirth (transitionId : Option ℕ) : EdgeNodeLifecycle × Bool :=
  match l.devices deviceId with
  | none => (l, false)
  | some record =>
    if l.nodeState ≠ .online || !settles .birth transitionId record.pending then (l, false)
    else (l.setDevice deviceId { record with state := .online, pending := none }, true)

def failDeviceBirth (transitionId : Option ℕ) : EdgeNodeLifecycle :=
  match l.devices deviceId with
  | none => l
  | some record =>
    match transitionId with
    | none => if record.pending.isSome then l else l.setDevice deviceId record.reset
    | some _ => if !settles .birth transitionId record.pending then l else l.setDevice deviceId record.reset

def publishDeviceData (changed : List SparkplugMetric) :
    EdgeNodeLifecycle × Except String (Option OutboundMessage) :=
  match l.devices deviceId with
  | none => (l, .ok none)
  | some record =>
    if record.state ≠ .online then (l, .ok none)
    else if record.pending.isSome then (l, .ok none)
    else if !l.canPublishData || changed.length = 0 then (l, .ok none)
    else
      let (l, msg) := l.outbound (buildDeviceTopic node deviceId .ddata) .ddata 0 changed none
      (l, msg.map some)

def deathDevice : EdgeNodeLifecycle × Except String (Option OutboundMessage) :=
  match l.devices deviceId with
  | none => (l, .ok none)
  | some record =>
    if record.state ≠ .online || record.pending.isSome then (l, .ok none)
    else
      let transitionId := l.nextTransitionId
      let l := { l.setDevice deviceId { record with pending := some ⟨.death, transitionId⟩ } with nextTransitionId := transitionId + 1 }
      let (l, msg) := l.outbound (buildDeviceTopic node deviceId .ddeath) .ddeath 1 [] (some transitionId)
      (l, msg.map some)

def confirmDeviceDeath (transitionId : Option ℕ) : EdgeNodeLifecycle × Bool :=
  match l.devices deviceId with
  | none => (l, false)
  | some record =>
    if !settles .death transitionId record.pending then (l, false)
    else (l.setDevice deviceId record.reset, true)

def failDeviceDeath (transitionId : Option ℕ) : EdgeNodeLifecycle :=
  match l.devices deviceId with
  | none => l
  | some record =>
    if !settles .death transitionId record.pending then l
    else l.setDevice deviceId { record with pending := none }

/-- The result is whether publishing data was allowed or forbidden by it. -/
def onHostState (online : Bool) : EdgeNodeLifecycle × Bool :=
  let before := l.canPublishData
  let l := { l with hostState := if online then .online else .offline }
  (l, before ≠ l.canPublishData)

variable {node l} {l' : EdgeNodeLifecycle} {deviceId : Text} {transitionId : Option ℕ}

/-! ### What each of them does -/

@[simp] theorem onDisconnect_onDisconnect : l.onDisconnect.onDisconnect = l.onDisconnect := by
  have hreset : DeviceRecord.reset ∘ DeviceRecord.reset = DeviceRecord.reset := rfl
  simp only [onDisconnect, Option.map_map, hreset]

theorem reset_offline {record : DeviceRecord} (h : (l.devices deviceId).map DeviceRecord.reset = some record) :
    record.state = .offline ∧ record.pending = none := by
  obtain ⟨before, -, rfl⟩ := Option.map_eq_some_iff.mp h
  exact ⟨rfl, rfl⟩

@[simp] theorem onHostState_fst (online : Bool) :
    (l.onHostState online).1 = { l with hostState := if online then .online else .offline } := rfl

@[simps] def reborn (l : EdgeNodeLifecycle) : EdgeNodeLifecycle := { l.onDisconnect with nodeState := .connecting, seq := 1 }

theorem onConnect_ok {topic : Text} (h : buildNodeTopic node .ndeath = .ok topic) :
    ∃ msg, l.onConnect node = (l.reborn, .ok msg) ∧ msg.messageType = .nbirth ∧ msg.transitionId = none ∧
      msg.payload = ⟨some 0, bdSeqMetric l.bdSeq :: rebirthControlMetric :: l.nodeMetrics⟩ := by
  obtain ⟨topic', htopic⟩ := buildNodeTopic_isOk h .nbirth (by decide)
  refine ⟨⟨topic', ⟨some 0, _⟩, 1, false, .nbirth, none⟩, ?_, rfl, rfl, rfl⟩
  unfold onConnect outbound advanceSeq
  split_ifs with hseq
  · simp [htopic, Except.map, reborn, onDisconnect, seqModulo]
  · have hzero : l.seq = 0 := not_not.mp hseq
    simp [htopic, Except.map, reborn, onDisconnect, seqModulo, hzero]

theorem confirmNodeBirth_eq : (l.confirmNodeBirth).1 = l ∨ l.nodeState = .connecting ∧ (l.confirmNodeBirth).1 = { l with nodeState := .online } := by
  unfold confirmNodeBirth
  split_ifs with hstate
  · exact .inl rfl
  · exact .inr ⟨not_not.mp hstate, rfl⟩

theorem publishNodeData_cases {topic : Text} (h : buildNodeTopic node .ndeath = .ok topic) (changed : List SparkplugMetric) :
    l.publishNodeData node changed = (l, .ok none) ∨
      l.canPublishData = true ∧ changed ≠ [] ∧ ∃ msg, l.publishNodeData node changed = (l.advanceSeq, .ok (some msg)) ∧
        msg.messageType = .ndata ∧ msg.transitionId = none ∧ msg.payload = ⟨some l.seq, changed⟩ := by
  obtain ⟨topic', htopic⟩ := buildNodeTopic_isOk h .ndata (by decide)
  unfold publishNodeData
  split_ifs with hquiet
  · exact .inl rfl
  · obtain ⟨hcan, hchanged⟩ : l.canPublishData = true ∧ changed ≠ [] := by simpa using hquiet
    refine .inr ⟨hcan, hchanged, ⟨topic', ⟨some l.seq, changed⟩, 0, false, .ndata, none⟩, ?_, rfl, rfl, rfl⟩
    simp [outbound, htopic, Except.map]

/-- Data of a device is published when, besides, the device is online and nothing of it is pending. -/
theorem publishDeviceData_cases (node : EdgeNodeDescriptor) (l : EdgeNodeLifecycle) (deviceId : Text) (changed : List SparkplugMetric) :
    l.publishDeviceData node deviceId changed = (l, .ok none) ∨
      ∃ record, l.devices deviceId = some record ∧ record.state = .online ∧ record.pending = none ∧ l.canPublishData = true ∧
        changed ≠ [] ∧ l.publishDeviceData node deviceId changed = (l.advanceSeq, (buildDeviceTopic node deviceId .ddata).map fun topic =>
          some ⟨topic, ⟨some l.seq, changed⟩, 0, false, .ddata, none⟩) := by
  unfold publishDeviceData
  cases hrecord : l.devices deviceId with
  | none => exact .inl rfl
  | some record =>
    dsimp only
    split_ifs with hstate hpending hquiet
    · exact .inl rfl
    · exact .inl rfl
    · exact .inl rfl
    · obtain ⟨hcan, hchanged⟩ : l.canPublishData = true ∧ changed ≠ [] := by simpa using hquiet
      refine .inr ⟨record, rfl, not_not.mp hstate, by simpa using hpending, hcan, hchanged, ?_⟩
      simp only [outbound]
      cases buildDeviceTopic node deviceId .ddata <;> rfl

/-- A transition of a device has begun, with the next number and the next `seq`. -/
@[simps] def begun (l : EdgeNodeLifecycle) (deviceId : Text) (record : DeviceRecord) : EdgeNodeLifecycle :=
  { (l.setDevice deviceId record).advanceSeq with nextTransitionId := l.nextTransitionId + 1 }

theorem birthDevice_online (h : l.nodeState = .online) (definition : DeviceDefinition) :
    l.birthDevice node definition =
      (l.begun definition.deviceId ⟨definition, .offline, some ⟨.birth, l.nextTransitionId⟩⟩,
        (buildDeviceTopic node definition.deviceId .dbirth).map fun topic =>
          ⟨topic, ⟨some l.seq, definition.metrics⟩, 1, false, .dbirth, some l.nextTransitionId⟩) := by
  simp [birthDevice, h, registerDevice, outbound, begun, setDevice, advanceSeq]

theorem deathDevice_cases (node : EdgeNodeDescriptor) (l : EdgeNodeLifecycle) (deviceId : Text) :
    l.deathDevice node deviceId = (l, .ok none) ∨
      ∃ record, l.devices deviceId = some record ∧ record.state = .online ∧ record.pending = none ∧
        l.deathDevice node deviceId =
          (l.begun deviceId { record with pending := some ⟨.death, l.nextTransitionId⟩ },
            (buildDeviceTopic node deviceId .ddeath).map fun topic =>
              some ⟨topic, ⟨some l.seq, []⟩, 1, false, .ddeath, some l.nextTransitionId⟩) := by
  unfold deathDevice
  cases hrecord : l.devices deviceId with
  | none => exact .inl rfl
  | some record =>
    dsimp only
    split_ifs with hquiet
    · exact .inl rfl
    · obtain ⟨hstate, hpending⟩ : record.state = .online ∧ record.pending = none := by simpa using hquiet
      refine .inr ⟨record, rfl, hstate, hpending, ?_⟩
      simp only [outbound]
      cases buildDeviceTopic node deviceId .ddeath <;> rfl

@[simp] theorem settles_some (kind : TransitionKind) (id : ℕ) (pending : Option Transition) :
    settles kind (some id) pending = decide (pending = some ⟨kind, id⟩) := by
  cases pending with
  | none => rfl
  | some transition =>
    obtain ⟨kind', id'⟩ := transition
    simp [settles, eq_comm]

/-! A callback settles the transition that it was made for, while that is the pending one. -/

section Settling
variable {record : DeviceRecord} (hrecord : l.devices deviceId = some record) (id : ℕ)
include hrecord

theorem confirmDeviceBirth_eq : (l.confirmDeviceBirth deviceId (some id)).1 =
    if l.nodeState = .online ∧ record.pending = some ⟨.birth, id⟩ then
      l.setDevice deviceId { record with state := .online, pending := none }
    else l := by
  unfold confirmDeviceBirth
  rw [hrecord]
  by_cases hstate : l.nodeState = .online <;> by_cases hpending : record.pending = some ⟨.birth, id⟩ <;> simp [hstate, hpending]

theorem failDeviceBirth_eq : l.failDeviceBirth deviceId (some id) =
    if record.pending = some ⟨.birth, id⟩ then l.setDevice deviceId record.reset else l := by
  unfold failDeviceBirth
  rw [hrecord]
  by_cases hpending : record.pending = some ⟨.birth, id⟩ <;> simp [hpending]

theorem failDeviceBirth_data : l.failDeviceBirth deviceId none =
    if record.pending = none then l.setDevice deviceId record.reset else l := by
  unfold failDeviceBirth
  rw [hrecord]
  cases hpending : record.pending <;> simp [hpending]

theorem confirmDeviceDeath_eq : (l.confirmDeviceDeath deviceId (some id)).1 =
    if record.pending = some ⟨.death, id⟩ then l.setDevice deviceId record.reset else l := by
  unfold confirmDeviceDeath
  rw [hrecord]
  by_cases hpending : record.pending = some ⟨.death, id⟩ <;> simp [hpending]

theorem failDeviceDeath_eq : l.failDeviceDeath deviceId (some id) =
    if record.pending = some ⟨.death, id⟩ then l.setDevice deviceId { record with pending := none } else l := by
  unfold failDeviceDeath
  rw [hrecord]
  by_cases hpending : record.pending = some ⟨.death, id⟩ <;> simp [hpending]

end Settling

theorem settling_unknown (h : l.devices deviceId = none) (transitionId : Option ℕ) :
    (l.confirmDeviceBirth deviceId transitionId).1 = l ∧ l.failDeviceBirth deviceId transitionId = l ∧
      (l.confirmDeviceDeath deviceId transitionId).1 = l ∧ l.failDeviceDeath deviceId transitionId = l := by
  simp [confirmDeviceBirth, failDeviceBirth, confirmDeviceDeath, failDeviceDeath, h]

end EdgeNodeLifecycle

end OxScada.Sparkplug
