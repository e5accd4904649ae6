import OxScada.Sparkplug.Lifecycle

/-! The bridge that drives the life cycle over MQTT clients, as a machine. A step is a call of the
API, an event of a client that was created once, a callback of a publish or of a subscription, or
the reconnect timer. A call that throws counts as a callback with an error, and a callback that
comes while the call still runs as one right after it. -/

namespace OxScada.Sparkplug
open OxScada.Bytes

structure SparkplugConfig where
  groupId : Text
  edgeNodeId : Text
  primaryHostId : Option Text
  enabled : Bool
  deriving DecidableEq, Repr

def SparkplugConfig.node (config : SparkplugConfig) : EdgeNodeDescriptor := ⟨config.groupId, config.edgeNodeId⟩

/-- What a publish or a subscription remembers of the moment it was made. -/
structure Birth where
  client : ℕ
  sessionEpoch : ℕ
  birthEpoch : ℕ
  deriving DecidableEq, Repr

inductive OnSuccess where
  | nothing
  | subscribeAfterNodeBirth (birth : Birth)
  | confirmNodeBirth
  deriving DecidableEq, Repr

structure Publish where
  id : ℕ
  birth : Birth
  message : OutboundMessage
  onSuccess : OnSuccess
  deriving DecidableEq, Repr

structure Subscription where
  id : ℕ
  birth : Birth
  filters : List Text
  deriving DecidableEq, Repr

inductive Event where
  | connected (client : ℕ)
  | publish (p : Publish)
  | published (p : Publish) (ok : Bool)
  | subscribe (subscription : Subscription)
  | subscribed (subscription : Subscription) (ok : Bool)
  deriving DecidableEq, Repr

structure Will where
  topic : Text
  payload : SparkplugPayload
  qos : ℕ
  retain : Bool
  deriving DecidableEq, Repr

/-- A client that `connectFn` created, with the session its handlers were attached for. -/
structure MqttClient where
  will : Will
  sessionEpoch : Option ℕ
  deriving DecidableEq, Repr

/-- What `connectFn` does. It may stop the bridge before it is done. One that stops and starts the
bridge again is no step here. -/
structure ConnectResult where
  stops : Bool
  throws : Bool
  deriving DecidableEq, Repr

/-- `client` is an index into `clients`, and `reconnectTimer` the epoch that the armed timer
expects. The clients, the callbacks that were not called yet and the log of what was handed over
and answered, newest first, are not state of the source. -/
structure Bridge where
  lifecycle : EdgeNodeLifecycle
  client : Option ℕ
  started : Bool
  sessionEpoch : ℕ
  birthEpoch : ℕ
  connectedSessionEpoch : Option ℕ
  reconnectTimer : Option ℕ
  clients : List MqttClient
  waiting : List Publish
  subscribing : List Subscription
  log : List Event

namespace Bridge

def init (nodeMetrics : List SparkplugMetric) : Bridge where
  lifecycle := .init nodeMetrics
  client := none
  started := false
  sessionEpoch := 0
  birthEpoch := 0
  connectedSessionEpoch := none
  reconnectTimer := none
  clients := []
  waiting := []
  subscribing := []
  log := []

variable (config : SparkplugConfig) (s : Bridge)

def isCurrentSession (client sessionEpoch : ℕ) : Bool := s.started && s.client = some client && s.sessionEpoch = sessionEpoch

def isCurrentBirth (birth : Birth) : Bool := s.isCurrentSession birth.client birth.sessionEpoch && s.birthEpoch = birth.birthEpoch

@[simps] def withLifecycle (lifecycle : EdgeNodeLifecycle) : Bridge := { s with lifecycle }

variable (msg : OutboundMessage)

def handlePublishSuccess : Bridge × Bool :=
  match msg.messageType with
  | .dbirth =>
    match msg.deviceId with
    | none => (s, false)
    | some deviceId =>
      let (lifecycle, confirmed) := s.lifecycle.confirmDeviceBirth deviceId msg.transitionId
      (s.withLifecycle lifecycle, confirmed)
  | .ddeath =>
    match msg.deviceId with
    | none => (s, false)
    | some deviceId =>
      let (lifecycle, confirmed) := s.lifecycle.confirmDeviceDeath deviceId msg.transitionId
      (s.withLifecycle lifecycle, confirmed)
  | _ => (s, true)

def handlePublishFailure : Bridge :=
  match msg.messageType with
  | .nbirth | .ndata => s.withLifecycle s.lifecycle.failNodeBirth
  | .dbirth | .ddata =>
    match msg.deviceId with
    | none => s
    | some deviceId => s.withLifecycle (s.lifecycle.failDeviceBirth deviceId msg.transitionId)
  | .ddeath =>
    match msg.deviceId with
    | none => s
    | some deviceId => s.withLifecycle (s.lifecycle.failDeviceDeath deviceId msg.transitionId)
  | _ => s

@[simps] def handed (p : Publish) : Bridge := { s with waiting := p :: s.waiting, log := .publish p :: s.log }

def handOver (client : ℕ) (message : OutboundMessage) (onSuccess : OnSuccess) : Bridge :=
  s.handed ⟨s.log.length, ⟨client, s.sessionEpoch, s.birthEpoch⟩, message, onSuccess⟩

def publishMessage (onSuccess : OnSuccess) (encoded : Bool) : Bridge :=
  match s.client with
  | none => s.handlePublishFailure msg
  | some client => if encoded then s.handOver client msg onSuccess else s.handlePublishFailure msg

/-- The exception of a topic that cannot be built goes to the caller, with the changes made. -/
def publishBuilt (built : EdgeNodeLifecycle × Except String OutboundMessage) (onSuccess : OnSuccess) (encoded : Bool) : Bridge :=
  match built with
  | (lifecycle, .error _) => s.withLifecycle lifecycle
  | (lifecycle, .ok msg) => (s.withLifecycle lifecycle).publishMessage msg onSuccess encoded

def publishOptional (built : EdgeNodeLifecycle × Except String (Option OutboundMessage)) (encoded : Bool) : Bridge :=
  match built with
  | (lifecycle, .error _) | (lifecycle, .ok none) => s.withLifecycle lifecycle
  | (lifecycle, .ok (some msg)) => (s.withLifecycle lifecycle).publishMessage msg .nothing encoded

variable (subscription : Subscription)

@[simps] def asked : Bridge :=
  { s with subscribing := subscription :: s.subscribing, log := .subscribe subscription :: s.log }

def subscribeAfterNodeBirth (birth : Birth) : Except String Bridge :=
  if !s.isCurrentBirth birth then .ok s
  else (buildCommandSubscriptionFilters config.node).map fun filters => s.asked ⟨s.log.length, birth, filters⟩

def runOnSuccess (msg : OutboundMessage) : OnSuccess → Bridge
  | .nothing => s
  | .confirmNodeBirth => s.withLifecycle s.lifecycle.confirmNodeBirth.1
  | .subscribeAfterNodeBirth birth =>
    match s.subscribeAfterNodeBirth config birth with
    | .ok s' => s'
    | .error _ => s.handlePublishFailure msg

@[simps] def settled (p : Publish) (ok : Bool) : Bridge :=
  { s with waiting := s.waiting.filter (·.id ≠ p.id), log := .published p ok :: s.log }

def published (p : Publish) (ok : Bool) : Bridge :=
  let s := s.settled p ok
  if !s.isCurrentBirth p.birth then s
  else if !ok then s.handlePublishFailure p.message
  else
    let (s, callbackResult) := s.handlePublishSuccess p.message
    if !callbackResult then s else s.runOnSuccess config p.message p.onSuccess

@[simps] def answered (ok : Bool) : Bridge :=
  { s with subscribing := s.subscribing.filter (·.id ≠ subscription.id), log := .subscribed subscription ok :: s.log }

def subscribed (ok : Bool) : Bridge :=
  let s := s.answered subscription ok
  if !s.isCurrentBirth subscription.birth then s
  else if !ok then s.withLifecycle s.lifecycle.failNodeBirth
  else s.withLifecycle s.lifecycle.confirmNodeBirth.1

@[simps] def stop : Bridge :=
  { s with
    started := false, reconnectTimer := none, client := none
    sessionEpoch := s.sessionEpoch + 1, birthEpoch := s.birthEpoch + 1, lifecycle := s.lifecycle.onDisconnect }

/-- The client that was created for the session `sessionEpoch` is the bridge's. -/
@[simps] def attach (will : Will) (sessionEpoch : ℕ) : Bridge :=
  { s with clients := s.clients ++ [⟨will, some sessionEpoch⟩], client := some s.clients.length }

def openSession (willEncoded : Bool) (result : ConnectResult) : Bridge × Bool :=
  let s := { s with sessionEpoch := s.sessionEpoch + 1, lifecycle := s.lifecycle.beginSession }
  let sessionEpoch := s.sessionEpoch
  let willPayload := buildWillPayload s.lifecycle.bdSeq
  match buildWillTopic config.node with
  | .error _ => (s.withLifecycle s.lifecycle.onDisconnect, false)
  | .ok willTopic =>
    if !willEncoded then (s.withLifecycle s.lifecycle.onDisconnect, false)
    else
      let will : Will := ⟨willTopic, willPayload, 1, false⟩
      let s := if result.stops then s.stop else s
      if result.throws then (s.withLifecycle s.lifecycle.onDisconnect, false)
      else if !s.started || sessionEpoch ≠ s.sessionEpoch then ({ s with clients := s.clients ++ [⟨will, none⟩] }, false)
      else (s.attach will sessionEpoch, true)

def start (codecAvailable willEncoded : Bool) (result : ConnectResult) : Bridge :=
  if s.started then s
  else if !config.enabled then s
  else if !codecAvailable then s
  else
    let (s, opened) := { s with started := true }.openSession config willEncoded result
    if !opened then { s with started := false } else s

def scheduleReconnect (expectedEpoch : ℕ) : Bridge :=
  if !s.started || s.reconnectTimer.isSome then s else { s with reconnectTimer := some expectedEpoch }

/-- The callback of the timer that is armed for `expectedEpoch`. -/
def timerFired (expectedEpoch : ℕ) (willEncoded : Bool) (result : ConnectResult) : Bridge :=
  let s := { s with reconnectTimer := none }
  if !s.started || s.client ≠ none || s.sessionEpoch ≠ expectedEpoch then s
  else
    let (s, opened) := s.openSession config willEncoded result
    if !opened then s.scheduleReconnect s.sessionEpoch else s

def onConnectEvent (client sessionEpoch : ℕ) (encoded : Bool) : Bridge :=
  if !s.isCurrentSession client sessionEpoch || s.connectedSessionEpoch = some sessionEpoch then s
  else
    let s := { s with connectedSessionEpoch := some sessionEpoch, birthEpoch := s.birthEpoch + 1 }
    s.publishBuilt (s.lifecycle.onConnect config.node) (.subscribeAfterNodeBirth ⟨client, sessionEpoch, s.birthEpoch⟩) encoded

def lost : Bridge :=
  { s with client := none, sessionEpoch := s.sessionEpoch + 1, birthEpoch := s.birthEpoch + 1, lifecycle := s.lifecycle.onDisconnect }

def handleSessionLoss (client sessionEpoch : ℕ) : Bridge :=
  if !s.isCurrentSession client sessionEpoch then s else s.lost.scheduleReconnect s.lost.sessionEpoch

def rebirth (encoded : Bool) : Bridge :=
  if s.lifecycle.nodeState ≠ .online then s
  else
    let s := { s with lifecycle := s.lifecycle.resetSeq, birthEpoch := s.birthEpoch + 1 }
    s.publishBuilt (s.lifecycle.onConnect config.node) .confirmNodeBirth encoded

/-- What a body is parsed as, as the state of a host and as a payload. -/
structure Body where
  online : Bool
  decoded : Option (List SparkplugMetric)
  deriving DecidableEq, Repr

def isRebirthCommand (metrics : List SparkplugMetric) : Bool :=
  metrics.any fun m => m.name = nodeControlRebirth && m.value = .boolean true

def handleMessage (topic : Text) (body : Body) (encoded : Bool) : Bridge :=
  match parseStateTopic topic with
  | some hostApplicationId =>
    if config.primaryHostId.any fun host => host ≠ [] && hostApplicationId ≠ host then s
    else s.withLifecycle (s.lifecycle.onHostState body.online).1
  | none =>
    match parseTopic topic with
    | none => s
    | some parsed =>
      if parsed.messageType = .ncmd || parsed.messageType = .dcmd then
        match body.decoded with
        | none => s
        | some metrics => if isRebirthCommand metrics then s.rebirth config encoded else s
      else s

def birthSite (definition : DeviceDefinition) (encoded : Bool) : Bridge :=
  if s.lifecycle.nodeState ≠ .online then s
  else s.publishBuilt (s.lifecycle.birthDevice config.node definition) .nothing encoded

def publishSiteData (deviceId : Text) (changed : List SparkplugMetric) (encoded : Bool) : Bridge :=
  s.publishOptional (s.lifecycle.publishDeviceData config.node deviceId changed) encoded

def publishNodeData (changed : List SparkplugMetric) (encoded : Bool) : Bridge :=
  s.publishOptional (s.lifecycle.publishNodeData config.node changed) encoded

def deathSite (deviceId : Text) (encoded : Bool) : Bridge :=
  s.publishOptional (s.lifecycle.deathDevice config.node deviceId) encoded

end Bridge

/-- `encoded` is whether `encodePayload` returns, and `ok` that a callback brings no error. -/
inductive Action where
  | start (codecAvailable willEncoded : Bool) (result : ConnectResult)
  | stop
  | timer (willEncoded : Bool) (result : ConnectResult)
  | setNodeMetrics (metrics : List SparkplugMetric)
  | birthSite (definition : DeviceDefinition) (encoded : Bool)
  | publishSiteData (deviceId : Text) (changed : List SparkplugMetric) (encoded : Bool)
  | publishNodeData (changed : List SparkplugMetric) (encoded : Bool)
  | deathSite (deviceId : Text) (encoded : Bool)
  | rebirth (encoded : Bool)
  | connect (client : ℕ) (encoded : Bool)
  | sessionLoss (client : ℕ)
  | message (client : ℕ) (topic : Text) (body : Bridge.Body) (encoded : Bool)
  | published (id : ℕ) (ok : Bool)
  | subscribed (id : ℕ) (ok : Bool)
  deriving DecidableEq, Repr

/-- The handlers of a client are those of the session it was attached for. Later calls of a callback
find nothing that waits. -/
def step (config : SparkplugConfig) (s : Bridge) : Action → Option Bridge
  | .start codecAvailable willEncoded result => some (s.start config codecAvailable willEncoded result)
  | .stop => some s.stop
  | .timer willEncoded result => s.reconnectTimer.map fun expectedEpoch => s.timerFired config expectedEpoch willEncoded result
  | .setNodeMetrics metrics => some (s.withLifecycle (s.lifecycle.setNodeMetrics metrics))
  | .birthSite definition encoded => some (s.birthSite config definition encoded)
  | .publishSiteData deviceId changed encoded => some (s.publishSiteData config deviceId changed encoded)
  | .publishNodeData changed encoded => some (s.publishNodeData config changed encoded)
  | .deathSite deviceId encoded => some (s.deathSite config deviceId encoded)
  | .rebirth encoded => some (s.rebirth config encoded)
  | .connect client encoded =>
    s.clients[client]?.map fun record =>
      let s := { s with log := .connected client :: s.log }
      match record.sessionEpoch with
      | none => s
      | some sessionEpoch => s.onConnectEvent config client sessionEpoch encoded
  | .sessionLoss client =>
    s.clients[client]?.map fun record =>
      match record.sessionEpoch with
      | none => s
      | some sessionEpoch => s.handleSessionLoss client sessionEpoch
  | .message client topic body encoded =>
    s.clients[client]?.map fun record =>
      match record.sessionEpoch with
      | none => s
      | some sessionEpoch => if !s.isCurrentSession client sessionEpoch then s else s.handleMessage config topic body encoded
  | .published id ok =>
    match s.waiting.find? (·.id = id) with
    | none => some s
    | some p => some (s.published config p ok)
  | .subscribed id ok =>
    match s.subscribing.find? (·.id = id) with
    | none => some s
    | some subscription => some (s.subscribed subscription ok)

end OxScada.Sparkplug
