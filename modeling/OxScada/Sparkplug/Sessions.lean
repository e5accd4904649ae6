import OxScada.Sparkplug.Bridge

/-! What holds of the bridge between two steps: a client is held only while the bridge is started,
its handlers are those of the current session, and without a client the node is offline and, while
the bridge is started, the reconnect timer is armed for the current session. -/

namespace OxScada.Sparkplug
open OxScada.Bytes

variable {config : SparkplugConfig} {node : EdgeNodeDescriptor} {s s' : Bridge} {l : EdgeNodeLifecycle} {p : Publish} {msg : OutboundMessage}
  {ok encoded willEncoded : Bool} {result : ConnectResult}

/-- A message is about the device whose topic it has, and the transitions of devices are numbered. -/
structure OutboundMessage.Built (node : EdgeNodeDescriptor) (msg : OutboundMessage) : Prop where
  kind : msg.messageType ∈ [.nbirth, .ndata, .dbirth, .ddata, .ddeath]
  device : msg.messageType ∈ deviceScopedMessageTypes → ∃ deviceId, buildDeviceTopic node deviceId msg.messageType = .ok msg.topic
  transition : msg.transitionId.isSome ↔ msg.messageType = .dbirth ∨ msg.messageType = .ddeath

/-- Only a birth of the node has something to do when it succeeds. -/
structure Publish.Built (node : EdgeNodeDescriptor) (p : Publish) : Prop where
  message : p.message.Built node
  onSuccess : p.onSuccess = .nothing ↔ p.message.messageType ≠ .nbirth
  subscribes : ∀ birth, p.onSuccess = .subscribeAfterNodeBirth birth → birth = p.birth

/-- A body that asks for a birth of the node, under a topic of commands. -/
def RebirthCommanded (topic : Text) (body : Bridge.Body) : Prop :=
  parseStateTopic topic = none ∧ (∃ parsed, parseTopic topic = some parsed ∧ (parsed.messageType = .ncmd ∨ parsed.messageType = .dcmd)) ∧
    ∃ metrics, body.decoded = some metrics ∧ Bridge.isRebirthCommand metrics = true

/-- A device is online only while the node is, and has an identifier that a topic can be built from. -/
def EdgeNodeLifecycle.Sound (node : EdgeNodeDescriptor) (l : EdgeNodeLifecycle) : Prop :=
  ∀ deviceId record, l.devices deviceId = some record → record.state = .online →
    l.nodeState = .online ∧ ∃ topic, buildDeviceTopic node deviceId .dbirth = .ok topic

namespace Bridge

structure Sound (config : SparkplugConfig) (s : Bridge) : Prop where
  started : ∀ client, s.client = some client → s.started = true
  attached : ∀ client, s.client = some client → ∃ record, s.clients[client]? = some record ∧ record.sessionEpoch = some s.sessionEpoch
  named : ∀ client, s.client = some client → ∃ topic, buildNodeTopic config.node .ndeath = .ok topic
  resting : s.client = none → s.lifecycle.nodeState = .offline
  lifecycle : s.lifecycle.Sound config.node
  waiting : ∀ p ∈ s.waiting, p.Built config.node
  armed : ∀ expectedEpoch, s.reconnectTimer = some expectedEpoch → s.started = true ∧ s.client = none ∧ s.sessionEpoch = expectedEpoch
  reconnects : s.started = true → s.client = none → s.reconnectTimer.isSome = true

end Bridge

namespace EdgeNodeLifecycle

theorem Sound.onDisconnect : (l.onDisconnect).Sound node := by
  intro deviceId record hrecord honline
  rw [(reset_offline hrecord).1] at honline
  cases honline

theorem Sound.setDevice (h : l.Sound node) {deviceId : Text} {record : DeviceRecord}
    (hrecord : record.state = .online → l.nodeState = .online ∧ ∃ topic, buildDeviceTopic node deviceId .dbirth = .ok topic) :
    (l.setDevice deviceId record).Sound node := by
  intro other found hfound honline
  rw [setDevice_devices, Function.update_apply] at hfound
  split_ifs at hfound with heq
  · obtain rfl := Option.some.inj hfound
    exact heq ▸ hrecord honline
  · exact h other found hfound honline

end EdgeNodeLifecycle

namespace Bridge

@[simp] theorem withLifecycle_self (s : Bridge) : s.withLifecycle s.lifecycle = s := rfl

@[simp] theorem withLifecycle_withLifecycle (s : Bridge) (l l' : EdgeNodeLifecycle) :
    (s.withLifecycle l).withLifecycle l' = s.withLifecycle l' := rfl

theorem isCurrentBirth_iff {birth : Birth} : s.isCurrentBirth birth = true ↔
    s.started = true ∧ s.client = some birth.client ∧ birth = ⟨birth.client, s.sessionEpoch, s.birthEpoch⟩ := by
  obtain ⟨client, sessionEpoch, birthEpoch⟩ := birth
  simp only [isCurrentBirth, isCurrentSession, Bool.and_eq_true, decide_eq_true_eq, Birth.mk.injEq, true_and]
  constructor
  · rintro ⟨⟨⟨hstarted, hclient⟩, hsession⟩, hbirth⟩
    exact ⟨hstarted, hclient, hsession.symm, hbirth.symm⟩
  · rintro ⟨hstarted, hclient, hsession, hbirth⟩
    exact ⟨⟨⟨hstarted, hclient⟩, hsession.symm⟩, hbirth.symm⟩

/-! ### The steps that leave the bridge without a client -/

/-- The bridge has no client any more, nothing was handed over or answered, and it is stopped or will
try again. -/
structure Detached (s s' : Bridge) : Prop where
  client : s'.client = none
  lifecycle : s'.lifecycle = s.lifecycle.onDisconnect ∨ s'.lifecycle = s.lifecycle.beginSession.onDisconnect
  clients : s'.clients = s.clients ∨ ∃ will, s'.clients = s.clients ++ [⟨will, none⟩]
  waiting : s'.waiting = s.waiting
  subscribing : s'.subscribing = s.subscribing
  log : s'.log = s.log
  timer : s'.reconnectTimer = if s'.started = true then some s'.sessionEpoch else none
  connected : s'.connectedSessionEpoch = s.connectedSessionEpoch
  epoch : s.sessionEpoch ≤ s'.sessionEpoch

def opened (s : Bridge) (willTopic : Text) : Bridge :=
  ({ s with started := true, reconnectTimer := none, sessionEpoch := s.sessionEpoch + 1, lifecycle := s.lifecycle.beginSession } : Bridge).attach
    ⟨willTopic, buildWillPayload ((s.lifecycle.bdSeq + 1) % 256), 1, false⟩ (s.sessionEpoch + 1)

theorem openSession_cases (hclient : s.client = none) (htimer : s.reconnectTimer = none) (hstarted : s.started = true) :
    (∃ willTopic, buildWillTopic config.node = .ok willTopic ∧
      s.openSession config willEncoded result = (s.opened willTopic, true)) ∨
    ∃ s', s.openSession config willEncoded result = (s', false) ∧ s'.client = none ∧ s'.reconnectTimer = none ∧
      s'.lifecycle = s.lifecycle.beginSession.onDisconnect ∧
      (s'.clients = s.clients ∨ ∃ will, s'.clients = s.clients ++ [⟨will, none⟩]) ∧
      s'.waiting = s.waiting ∧ s'.subscribing = s.subscribing ∧ s'.log = s.log ∧
      s'.connectedSessionEpoch = s.connectedSessionEpoch ∧ s.sessionEpoch ≤ s'.sessionEpoch := by
  have hnext : s.sessionEpoch ≤ s.sessionEpoch + 1 := Nat.le_succ _
  unfold openSession
  cases htopic : buildWillTopic config.node with
  | error message => exact .inr ⟨_, rfl, hclient, htimer, rfl, .inl rfl, rfl, rfl, rfl, rfl, hnext⟩
  | ok willTopic =>
    cases willEncoded with
    | false => exact .inr ⟨_, rfl, hclient, htimer, rfl, .inl rfl, rfl, rfl, rfl, rfl, hnext⟩
    | true =>
      obtain ⟨stops, throws⟩ := result
      cases stops <;> cases throws
      · refine .inl ⟨willTopic, rfl, ?_⟩
        simp [opened, attach, hstarted, htimer]
      · exact .inr ⟨_, rfl, hclient, htimer, rfl, .inl rfl, rfl, rfl, rfl, rfl, hnext⟩
      · exact .inr ⟨_, rfl, rfl, rfl, rfl, .inr ⟨_, rfl⟩, rfl, rfl, rfl, rfl, hnext.trans (Nat.le_succ _)⟩
      · refine .inr ⟨_, rfl, rfl, rfl, ?_, .inl rfl, rfl, rfl, rfl, rfl, hnext.trans (Nat.le_succ _)⟩
        exact EdgeNodeLifecycle.onDisconnect_onDisconnect

theorem stop_detached (s : Bridge) : Detached s s.stop := ⟨rfl, .inl rfl, .inl rfl, rfl, rfl, rfl, rfl, rfl, Nat.le_succ _⟩

/-- What a step does, with the guards that it passed. -/
inductive Stepped (config : SparkplugConfig) (s : Bridge) : Action → Bridge → Prop
  | same {a : Action} : Stepped config s a s
  | opened {a : Action} {willTopic : Text} (htopic : buildWillTopic config.node = .ok willTopic) (hclient : s.client = none) :
    Stepped config s a (s.opened willTopic)
  | detached {a : Action} {s' : Bridge} (h : Detached s s') : Stepped config s a s'
  | settings {a : Action} (nodeMetrics : List SparkplugMetric) (hostState : HostState) :
    Stepped config s a (s.withLifecycle { s.lifecycle with nodeMetrics, hostState })
  /-- A birth of a device cannot be built from an identifier with a character that topics use, but has
  begun by then. -/
  | unnamed {definition : DeviceDefinition} {encoded : Bool} (honline : s.lifecycle.nodeState = .online)
    (herror : ∃ error, buildDeviceTopic config.node definition.deviceId .dbirth = .error error) :
    Stepped config s (.birthSite definition encoded)
      (s.withLifecycle (s.lifecycle.begun definition.deviceId ⟨definition, .offline, some ⟨.birth, s.lifecycle.nextTransitionId⟩⟩))
  | birth {definition : DeviceDefinition} {encoded : Bool} {client : ℕ} {msg : OutboundMessage} (hclient : s.client = some client)
    (honline : s.lifecycle.nodeState = .online) (hmsg : msg.Built config.node) (hdevice : msg.deviceId = some definition.deviceId)
    (hkind : msg.messageType = .dbirth) (hid : msg.transitionId = some s.lifecycle.nextTransitionId)
    (hpayload : msg.payload = ⟨some s.lifecycle.seq, definition.metrics⟩) :
    Stepped config s (.birthSite definition encoded)
      ((s.withLifecycle (s.lifecycle.begun definition.deviceId ⟨definition, .offline, some ⟨.birth, s.lifecycle.nextTransitionId⟩⟩)).publishMessage
        msg .nothing encoded)
  | siteData {deviceId : Text} {changed : List SparkplugMetric} {encoded : Bool} {client : ℕ} {record : DeviceRecord} {msg : OutboundMessage}
    (hclient : s.client = some client) (hrecord : s.lifecycle.devices deviceId = some record) (honline : record.state = .online)
    (hpending : record.pending = none) (hcan : s.lifecycle.canPublishData = true) (hchanged : changed ≠ []) (hmsg : msg.Built config.node)
    (hdevice : msg.deviceId = some deviceId) (hkind : msg.messageType = .ddata) (hpayload : msg.payload = ⟨some s.lifecycle.seq, changed⟩) :
    Stepped config s (.publishSiteData deviceId changed encoded)
      ((s.withLifecycle s.lifecycle.advanceSeq).publishMessage msg .nothing encoded)
  | nodeData {changed : List SparkplugMetric} {encoded : Bool} {client : ℕ} {msg : OutboundMessage} (hclient : s.client = some client)
    (hcan : s.lifecycle.canPublishData = true) (hchanged : changed ≠ []) (hmsg : msg.Built config.node) (hkind : msg.messageType = .ndata)
    (hpayload : msg.payload = ⟨some s.lifecycle.seq, changed⟩) :
    Stepped config s (.publishNodeData changed encoded) ((s.withLifecycle s.lifecycle.advanceSeq).publishMessage msg .nothing encoded)
  | death {deviceId : Text} {encoded : Bool} {client : ℕ} {record : DeviceRecord} {msg : OutboundMessage} (hclient : s.client = some client)
    (hrecord : s.lifecycle.devices deviceId = some record) (honline : record.state = .online) (hpending : record.pending = none)
    (hmsg : msg.Built config.node) (hdevice : msg.deviceId = some deviceId) (hkind : msg.messageType = .ddeath)
    (hid : msg.transitionId = some s.lifecycle.nextTransitionId) (hpayload : msg.payload = ⟨some s.lifecycle.seq, []⟩) :
    Stepped config s (.deathSite deviceId encoded)
      ((s.withLifecycle (s.lifecycle.begun deviceId { record with pending := some ⟨.death, s.lifecycle.nextTransitionId⟩ })).publishMessage
        msg .nothing encoded)
  | rebirth {a : Action} {encoded : Bool} (ha : a = .rebirth encoded ∨
      ∃ client topic body, a = .message client topic body encoded ∧ s.client = some client ∧ RebirthCommanded topic body) :
    Stepped config s a (s.rebirth config encoded)
  | strange {client : ℕ} {encoded : Bool} {record : MqttClient} (hrecord : s.clients[client]? = some record) (hsession : record.sessionEpoch = none) :
    Stepped config s (.connect client encoded) { s with log := .connected client :: s.log }
  | connect {client sessionEpoch : ℕ} {encoded : Bool} {record : MqttClient} (hrecord : s.clients[client]? = some record)
    (hsession : record.sessionEpoch = some sessionEpoch) :
    Stepped config s (.connect client encoded)
      (({ s with log := .connected client :: s.log } : Bridge).onConnectEvent config client sessionEpoch encoded)
  | published {sent : Publish} {ok : Bool} (hp : sent ∈ s.waiting) : Stepped config s (.published sent.id ok) (s.published config sent ok)
  | subscribed {ok : Bool} {subscription : Subscription} (hsubscription : subscription ∈ s.subscribing) :
    Stepped config s (.subscribed subscription.id ok) (s.subscribed subscription ok)

theorem start_stepped (h : s.Sound config) (codecAvailable willEncoded : Bool) (result : ConnectResult) :
    Stepped config s (.start codecAvailable willEncoded result) (s.start config codecAvailable willEncoded result) := by
  unfold start
  split_ifs with hstarted henabled hcodec
  · exact .same
  · exact .same
  · exact .same
  · have hclient : s.client = none := Option.eq_none_iff_forall_ne_some.mpr fun client hc => hstarted (h.started client hc)
    have htimer : s.reconnectTimer = none :=
      Option.eq_none_iff_forall_ne_some.mpr fun expectedEpoch he => hstarted (h.armed expectedEpoch he).1
    rcases openSession_cases (s := { s with started := true }) hclient htimer rfl with
      ⟨willTopic, htopic, hopen⟩ | ⟨s', hopen, hclient, htimer, hlifecycle, hclients, hwaiting, hsubscribing, hlog, hconnected, hepoch⟩
    · rw [hopen]
      exact .opened htopic ‹s.client = none›
    · rw [hopen]
      exact .detached ⟨hclient, .inr hlifecycle, hclients, hwaiting, hsubscribing, hlog, htimer, hconnected, hepoch⟩

theorem scheduleReconnect_of_none (htimer : s.reconnectTimer = none) (expectedEpoch : ℕ) :
    s.scheduleReconnect expectedEpoch = { s with reconnectTimer := if s.started = true then some expectedEpoch else none } := by
  obtain ⟨l, client, started, sessionEpoch, birthEpoch, connected, timer, clients, waiting, subscribing, log⟩ := s
  obtain rfl : timer = none := htimer
  cases started <;> rfl

theorem timerFired_stepped (h : s.Sound config) {expectedEpoch : ℕ} (htimer : s.reconnectTimer = some expectedEpoch)
    (willEncoded : Bool) (result : ConnectResult) :
    Stepped config s (.timer willEncoded result) (s.timerFired config expectedEpoch willEncoded result) := by
  obtain ⟨hstarted, hclient, hexpected⟩ := h.armed expectedEpoch htimer
  unfold timerFired
  rw [if_neg (by simp [hstarted, hclient, hexpected])]
  rcases openSession_cases (s := { s with reconnectTimer := none }) hclient rfl hstarted with
    ⟨willTopic, htopic, hopen⟩ | ⟨s', hopen, hclient, htimer, hlifecycle, hclients, hwaiting, hsubscribing, hlog, hconnected, hepoch⟩
  · rw [hopen]
    exact .opened htopic ‹s.client = none›
  · rw [hopen]
    refine .detached ?_
    simp only [Bool.not_false, if_true, scheduleReconnect_of_none htimer]
    exact ⟨hclient, .inr hlifecycle, hclients, hwaiting, hsubscribing, hlog, rfl, hconnected, hepoch⟩

theorem handleSessionLoss_stepped (h : s.Sound config) (client sessionEpoch : ℕ) :
    Stepped config s (.sessionLoss client) (s.handleSessionLoss client sessionEpoch) := by
  unfold handleSessionLoss
  split_ifs with hcurrent
  · exact .same
  · obtain ⟨hstarted, hclient, -⟩ : s.started = true ∧ s.client = some client ∧ s.sessionEpoch = sessionEpoch := by
      simpa [isCurrentSession, and_assoc] using hcurrent
    have htimer : s.reconnectTimer = none := by
      refine Option.eq_none_iff_forall_ne_some.mpr fun expectedEpoch he => ?_
      rw [(h.armed expectedEpoch he).2.1] at hclient
      cases hclient
    have hlost : s.lost.reconnectTimer = none := htimer
    rw [scheduleReconnect_of_none hlost]
    exact .detached ⟨rfl, .inl rfl, .inl rfl, rfl, rfl, rfl, rfl, rfl, Nat.le_succ _⟩

theorem handleMessage_stepped {client : ℕ} (hclient : s.client = some client) (topic : Text) (body : Body) (encoded : Bool) :
    Stepped config s (.message client topic body encoded) (s.handleMessage config topic body encoded) := by
  unfold handleMessage
  cases hstate : parseStateTopic topic with
  | some hostApplicationId =>
    dsimp only
    split_ifs
    · exact .same
    · exact .settings s.lifecycle.nodeMetrics _
  | none =>
    dsimp only
    cases hparsed : parseTopic topic with
    | none => exact .same
    | some parsed =>
      dsimp only
      split_ifs with hcommand
      · cases hdecoded : body.decoded with
        | none => exact .same
        | some metrics =>
          dsimp only
          split_ifs with hrebirth
          · have hcommand : parsed.messageType = .ncmd ∨ parsed.messageType = .dcmd := by simpa using hcommand
            exact .rebirth (.inr ⟨client, topic, body, rfl, hclient, hstate, ⟨parsed, hparsed, hcommand⟩, metrics, hdecoded, hrebirth⟩)
          · exact .same
      · exact .same

/-- What a message that is handed over now is handed over for. -/
def current (s : Bridge) : Option Birth := s.client.map fun client => ⟨client, s.sessionEpoch, s.birthEpoch⟩

theorem isCurrentBirth_current (h : s.Sound config) {birth : Birth} : s.isCurrentBirth birth = true ↔ s.current = some birth := by
  rw [isCurrentBirth_iff]
  constructor
  · rintro ⟨-, hclient, hbirth⟩
    rw [current, hclient, hbirth]
    rfl
  · intro hcurrent
    obtain ⟨client, hclient, rfl⟩ := Option.map_eq_some_iff.mp hcurrent
    exact ⟨h.started client hclient, hclient, rfl⟩

/-! ### What is handed over -/

theorem Sound.held (h : s.Sound config) (hstate : s.lifecycle.nodeState ≠ .offline) : ∃ client, s.client = some client := by
  cases hclient : s.client with
  | none => exact absurd (h.resting hclient) hstate
  | some client => exact ⟨client, rfl⟩

theorem canPublishData_online (h : l.canPublishData = true) : l.nodeState = .online := by
  unfold EdgeNodeLifecycle.canPublishData at h
  exact of_decide_eq_true (Bool.and_eq_true_iff.mp h).1

theorem built_device (msg : OutboundMessage) {deviceId : Text} (htopic : buildDeviceTopic node deviceId msg.messageType = .ok msg.topic)
    (hkind : msg.messageType ∈ [.dbirth, .ddata, .ddeath])
    (htransition : msg.transitionId.isSome ↔ msg.messageType = .dbirth ∨ msg.messageType = .ddeath) :
    msg.Built node ∧ msg.deviceId = some deviceId := by
  refine ⟨⟨?_, fun _ => ⟨deviceId, htopic⟩, htransition⟩, ?_⟩
  · simp only [List.mem_cons, List.not_mem_nil, or_false] at hkind ⊢
    exact .inr (.inr hkind)
  · unfold OutboundMessage.deviceId
    rw [parseTopic_device htopic]
    rfl

theorem built_node (hkind : msg.messageType = .nbirth ∨ msg.messageType = .ndata) (htransition : msg.transitionId = none) :
    msg.Built node := by
  refine ⟨?_, fun hdevice => ?_, ?_⟩
  · rcases hkind with hkind | hkind <;> simp [hkind]
  · rcases hkind with hkind | hkind <;> simp [hkind, deviceScopedMessageTypes] at hdevice
  · rcases hkind with hkind | hkind <;> simp [hkind, htransition]

theorem Built.deviceId_eq (h : msg.Built node) (hdevice : msg.messageType ∈ deviceScopedMessageTypes) :
    ∃ deviceId, msg.deviceId = some deviceId ∧ ∃ topic, buildDeviceTopic node deviceId .dbirth = .ok topic := by
  obtain ⟨deviceId, htopic⟩ := h.device hdevice
  refine ⟨deviceId, ?_, buildDeviceTopic_isOk htopic .dbirth (by decide)⟩
  unfold OutboundMessage.deviceId
  rw [parseTopic_device htopic]
  rfl

theorem publishMessage_held {client : ℕ} (hclient : s.client = some client) (msg : OutboundMessage) (onSuccess : OnSuccess) :
    s.publishMessage msg onSuccess encoded = if encoded = true then s.handOver client msg onSuccess else s.handlePublishFailure msg := by
  rw [publishMessage, hclient]

section
variable (h : s.Sound config)
include h

theorem publishNodeData_stepped (changed : List SparkplugMetric) (encoded : Bool) :
    Stepped config s (.publishNodeData changed encoded) (s.publishNodeData config changed encoded) := by
  unfold publishNodeData
  by_cases hcan : s.lifecycle.canPublishData = true
  · have hstate : s.lifecycle.nodeState ≠ .offline := by simp [canPublishData_online hcan]
    obtain ⟨client, hclient⟩ := h.held hstate
    obtain ⟨topic, htopic⟩ := h.named client hclient
    rcases EdgeNodeLifecycle.publishNodeData_cases (l := s.lifecycle) htopic changed with
      hnone | ⟨-, hchanged, msg, hbuilt, hkind, htransition, hpayload⟩
    · rw [hnone]
      exact .same
    · rw [hbuilt]
      exact .nodeData hclient hcan hchanged (built_node (.inr hkind) htransition) hkind hpayload
  · have hnone : s.lifecycle.publishNodeData config.node changed = (s.lifecycle, .ok none) := by
      simp [EdgeNodeLifecycle.publishNodeData, hcan]
    rw [hnone]
    exact .same

theorem publishSiteData_stepped (deviceId : Text) (changed : List SparkplugMetric) (encoded : Bool) :
    Stepped config s (.publishSiteData deviceId changed encoded) (s.publishSiteData config deviceId changed encoded) := by
  unfold publishSiteData
  rcases EdgeNodeLifecycle.publishDeviceData_cases config.node s.lifecycle deviceId changed with
    hnone | ⟨record, hrecord, honline, hpending, hcan, hchanged, hbuilt⟩
  · rw [hnone]
    exact .same
  · obtain ⟨hstate, topic, htopic⟩ := h.lifecycle deviceId record hrecord honline
    obtain ⟨client, hclient⟩ := h.held (by simp [hstate])
    obtain ⟨topic', htopic'⟩ := buildDeviceTopic_isOk htopic .ddata (by decide)
    obtain ⟨hmsg, hdevice⟩ := built_device ⟨topic', ⟨some s.lifecycle.seq, changed⟩, 0, false, .ddata, none⟩ htopic' (by simp) (by simp)
    rw [hbuilt, htopic']
    exact .siteData hclient hrecord honline hpending hcan hchanged hmsg hdevice rfl rfl

theorem deathSite_stepped (deviceId : Text) (encoded : Bool) :
    Stepped config s (.deathSite deviceId encoded) (s.deathSite config deviceId encoded) := by
  unfold deathSite
  rcases EdgeNodeLifecycle.deathDevice_cases config.node s.lifecycle deviceId with hnone | ⟨record, hrecord, honline, hpending, hbuilt⟩
  · rw [hnone]
    exact .same
  · obtain ⟨hstate, topic, htopic⟩ := h.lifecycle deviceId record hrecord honline
    obtain ⟨client, hclient⟩ := h.held (by simp [hstate])
    obtain ⟨topic', htopic'⟩ := buildDeviceTopic_isOk htopic .ddeath (by decide)
    obtain ⟨hmsg, hdevice⟩ := built_device
      ⟨topic', ⟨some s.lifecycle.seq, []⟩, 1, false, .ddeath, some s.lifecycle.nextTransitionId⟩ htopic' (by simp) (by simp)
    rw [hbuilt, htopic']
    exact .death hclient hrecord honline hpending hmsg hdevice rfl rfl rfl

theorem birthSite_stepped (definition : DeviceDefinition) (encoded : Bool) :
    Stepped config s (.birthSite definition encoded) (s.birthSite config definition encoded) := by
  unfold birthSite
  split_ifs with hstate
  · exact .same
  · have honline : s.lifecycle.nodeState = .online := not_not.mp hstate
    obtain ⟨client, hclient⟩ := h.held (by simp [honline])
    rw [EdgeNodeLifecycle.birthDevice_online honline]
    cases htopic : buildDeviceTopic config.node definition.deviceId .dbirth with
    | error error => exact .unnamed honline ⟨error, htopic⟩
    | ok topic =>
      obtain ⟨hmsg, hdevice⟩ := built_device
        ⟨topic, ⟨some s.lifecycle.seq, definition.metrics⟩, 1, false, .dbirth, some s.lifecycle.nextTransitionId⟩ htopic (by simp) (by simp)
      exact .birth hclient honline hmsg hdevice rfl rfl rfl

/-- Each step is one of them: a callback finds what waits for it, and a client its session. -/
theorem Sound.stepped {a : Action} (hstep : step config s a = some s') : Stepped config s a s' := by
  cases a with
  | start codecAvailable willEncoded result =>
    obtain rfl := Option.some.inj hstep
    exact start_stepped h codecAvailable willEncoded result
  | stop =>
    obtain rfl := Option.some.inj hstep
    exact .detached (stop_detached s)
  | timer willEncoded result =>
    obtain ⟨expectedEpoch, harmed, rfl⟩ := Option.map_eq_some_iff.mp hstep
    exact timerFired_stepped h harmed willEncoded result
  | setNodeMetrics metrics =>
    obtain rfl := Option.some.inj hstep
    exact .settings metrics s.lifecycle.hostState
  | birthSite definition encoded =>
    obtain rfl := Option.some.inj hstep
    exact birthSite_stepped h definition encoded
  | publishSiteData deviceId changed encoded =>
    obtain rfl := Option.some.inj hstep
    exact publishSiteData_stepped h deviceId changed encoded
  | publishNodeData changed encoded =>
    obtain rfl := Option.some.inj hstep
    exact publishNodeData_stepped h changed encoded
  | deathSite deviceId encoded =>
    obtain rfl := Option.some.inj hstep
    exact deathSite_stepped h deviceId encoded
  | rebirth encoded =>
    obtain rfl := Option.some.inj hstep
    exact .rebirth (.inl rfl)
  | connect client encoded =>
    obtain ⟨record, hrecord, rfl⟩ := Option.map_eq_some_iff.mp hstep
    cases hsession : record.sessionEpoch with
    | none => exact .strange hrecord hsession
    | some sessionEpoch => exact .connect hrecord hsession
  | sessionLoss client =>
    obtain ⟨record, hrecord, rfl⟩ := Option.map_eq_some_iff.mp hstep
    cases record.sessionEpoch with
    | none => exact .same
    | some sessionEpoch => exact handleSessionLoss_stepped h client sessionEpoch
  | message client topic body encoded =>
    obtain ⟨record, hrecord, rfl⟩ := Option.map_eq_some_iff.mp hstep
    cases record.sessionEpoch with
    | none => exact .same
    | some sessionEpoch =>
      dsimp only
      -- a message of a session that has ended is dropped
      split_ifs with hcurrent
      · exact .same
      · obtain ⟨-, hclient, -⟩ : s.started = true ∧ s.client = some client ∧ s.sessionEpoch = sessionEpoch := by
          simpa [isCurrentSession, and_assoc] using hcurrent
        exact handleMessage_stepped hclient topic body encoded
  | published id ok =>
    unfold Sparkplug.step at hstep
    dsimp only at hstep
    cases hfound : s.waiting.find? (·.id = id) with
    | none =>
      rw [hfound] at hstep
      obtain rfl := Option.some.inj hstep
      exact .same
    | some p =>
      rw [hfound] at hstep
      obtain rfl := Option.some.inj hstep
      obtain rfl : p.id = id := by simpa using List.find?_some hfound
      exact .published (List.mem_of_find?_eq_some hfound)
  | subscribed id ok =>
    unfold Sparkplug.step at hstep
    dsimp only at hstep
    cases hfound : s.subscribing.find? (·.id = id) with
    | none =>
      rw [hfound] at hstep
      obtain rfl := Option.some.inj hstep
      exact .same
    | some subscription =>
      rw [hfound] at hstep
      obtain rfl := Option.some.inj hstep
      obtain rfl : subscription.id = id := by simpa using List.find?_some hfound
      exact .subscribed (List.mem_of_find?_eq_some hfound)

theorem onConnectEvent_cases (client sessionEpoch : ℕ) (encoded : Bool) :
    (s.isCurrentSession client sessionEpoch = false ∨ s.connectedSessionEpoch = some sessionEpoch) ∧
        s.onConnectEvent config client sessionEpoch encoded = s ∨
      s.client = some client ∧ s.sessionEpoch = sessionEpoch ∧ s.connectedSessionEpoch ≠ some sessionEpoch ∧
        ∃ msg, msg.Built config.node ∧ msg.messageType = .nbirth ∧
          msg.payload = ⟨some 0, bdSeqMetric s.lifecycle.bdSeq :: rebirthControlMetric :: s.lifecycle.nodeMetrics⟩ ∧
          s.onConnectEvent config client sessionEpoch encoded =
            ({ s with
                connectedSessionEpoch := some sessionEpoch, birthEpoch := s.birthEpoch + 1
                lifecycle := s.lifecycle.reborn } : Bridge).publishMessage
              msg (.subscribeAfterNodeBirth ⟨client, sessionEpoch, s.birthEpoch + 1⟩) encoded := by
  unfold onConnectEvent
  split_ifs with hignored
  · refine .inl ⟨?_, rfl⟩
    simpa using hignored
  · obtain ⟨hcurrent, hfresh⟩ : s.isCurrentSession client sessionEpoch = true ∧ s.connectedSessionEpoch ≠ some sessionEpoch := by
      simpa using hignored
    obtain ⟨hstarted, hclient, hsession⟩ : s.started = true ∧ s.client = some client ∧ s.sessionEpoch = sessionEpoch := by
      simpa [isCurrentSession, and_assoc] using hcurrent
    obtain ⟨topic, htopic⟩ := h.named client hclient
    obtain ⟨msg, hbuilt, hkind, htransition, hpayload⟩ := EdgeNodeLifecycle.onConnect_ok (l := s.lifecycle) htopic
    refine .inr ⟨hclient, hsession, hfresh, msg, built_node (.inl hkind) htransition, hkind, hpayload, ?_⟩
    dsimp only
    rw [hbuilt]
    rfl

theorem rebirth_cases (encoded : Bool) :
    s.lifecycle.nodeState ≠ .online ∧ s.rebirth config encoded = s ∨
      ∃ client msg, s.client = some client ∧ s.lifecycle.nodeState = .online ∧ msg.Built config.node ∧ msg.messageType = .nbirth ∧
        msg.payload = ⟨some 0, bdSeqMetric s.lifecycle.bdSeq :: rebirthControlMetric :: s.lifecycle.nodeMetrics⟩ ∧
        s.rebirth config encoded =
          ({ s with birthEpoch := s.birthEpoch + 1, lifecycle := s.lifecycle.reborn } : Bridge).publishMessage msg .confirmNodeBirth encoded := by
  unfold rebirth
  split_ifs with hstate
  · exact .inl ⟨hstate, rfl⟩
  · have honline : s.lifecycle.nodeState = .online := not_not.mp hstate
    obtain ⟨client, hclient⟩ := h.held (by simp [honline])
    obtain ⟨topic, htopic⟩ := h.named client hclient
    obtain ⟨msg, hbuilt, hkind, htransition, hpayload⟩ := EdgeNodeLifecycle.onConnect_ok (l := s.lifecycle.resetSeq) htopic
    refine .inr ⟨client, msg, hclient, honline, built_node (.inl hkind) htransition, hkind, hpayload, ?_⟩
    dsimp only
    rw [hbuilt]
    rfl

end

/-! ### What a callback does -/

theorem handlePublishFailure_cases (h : msg.Built node) (s : Bridge) :
    (msg.messageType = .nbirth ∨ msg.messageType = .ndata) ∧ s.handlePublishFailure msg = s.withLifecycle s.lifecycle.onDisconnect ∨
    ∃ deviceId, msg.deviceId = some deviceId ∧
      (msg.messageType = .ddata ∧ s.handlePublishFailure msg = s.withLifecycle (s.lifecycle.failDeviceBirth deviceId none) ∨
        ∃ id, msg.transitionId = some id ∧
          (msg.messageType = .dbirth ∧ s.handlePublishFailure msg = s.withLifecycle (s.lifecycle.failDeviceBirth deviceId (some id)) ∨
            msg.messageType = .ddeath ∧ s.handlePublishFailure msg = s.withLifecycle (s.lifecycle.failDeviceDeath deviceId (some id)))) := by
  have hkind := h.kind
  have htransition := h.transition
  simp only [List.mem_cons, List.not_mem_nil, or_false] at hkind
  unfold handlePublishFailure
  rcases hkind with hkind | hkind | hkind | hkind | hkind
  · exact .inl ⟨.inl hkind, by rw [hkind]; rfl⟩
  · exact .inl ⟨.inr hkind, by rw [hkind]; rfl⟩
  · obtain ⟨deviceId, hdevice, -⟩ := Built.deviceId_eq h (by simp [hkind, deviceScopedMessageTypes])
    obtain ⟨id, hid⟩ := Option.isSome_iff_exists.mp (htransition.mpr (.inl hkind))
    exact .inr ⟨deviceId, hdevice, .inr ⟨id, hid, .inl ⟨hkind, by rw [hkind, hdevice, hid]⟩⟩⟩
  · obtain ⟨deviceId, hdevice, -⟩ := Built.deviceId_eq h (by simp [hkind, deviceScopedMessageTypes])
    have hnone : msg.transitionId = none := by simpa [hkind] using htransition
    exact .inr ⟨deviceId, hdevice, .inl ⟨hkind, by rw [hkind, hdevice, hnone]⟩⟩
  · obtain ⟨deviceId, hdevice, -⟩ := Built.deviceId_eq h (by simp [hkind, deviceScopedMessageTypes])
    obtain ⟨id, hid⟩ := Option.isSome_iff_exists.mp (htransition.mpr (.inr hkind))
    exact .inr ⟨deviceId, hdevice, .inr ⟨id, hid, .inr ⟨hkind, by rw [hkind, hdevice, hid]⟩⟩⟩

/-- A failure takes the node offline, resets a device, takes back a death or changes nothing. -/
theorem handlePublishFailure_changes (h : msg.Built node) (s : Bridge) :
    (msg.messageType = .nbirth ∨ msg.messageType = .ndata) ∧ s.handlePublishFailure msg = s.withLifecycle s.lifecycle.onDisconnect ∨
    s.handlePublishFailure msg = s ∨ ∃ deviceId record, s.lifecycle.devices deviceId = some record ∧
      (s.handlePublishFailure msg = s.withLifecycle (s.lifecycle.setDevice deviceId record.reset) ∨
        ∃ id, msg.messageType = .ddeath ∧ msg.transitionId = some id ∧ record.pending = some ⟨.death, id⟩ ∧
          s.handlePublishFailure msg = s.withLifecycle (s.lifecycle.setDevice deviceId { record with pending := none })) := by
  rcases handlePublishFailure_cases h s with hnode | ⟨deviceId, -, hfail⟩
  · exact .inl hnode
  right
  cases hrecord : s.lifecycle.devices deviceId with
  | none =>
    left
    rcases hfail with ⟨-, heq⟩ | ⟨id, -, ⟨-, heq⟩ | ⟨-, heq⟩⟩
    · rw [heq, (EdgeNodeLifecycle.settling_unknown hrecord _).2.1]
      rfl
    · rw [heq, (EdgeNodeLifecycle.settling_unknown hrecord _).2.1]
      rfl
    · rw [heq, (EdgeNodeLifecycle.settling_unknown hrecord _).2.2.2]
      rfl
  | some record =>
    rcases hfail with ⟨-, heq⟩ | ⟨id, hid, ⟨-, heq⟩ | ⟨hkind, heq⟩⟩
    · rw [EdgeNodeLifecycle.failDeviceBirth_data hrecord] at heq
      split_ifs at heq
      · exact .inr ⟨deviceId, record, hrecord, .inl heq⟩
      · exact .inl heq
    · rw [EdgeNodeLifecycle.failDeviceBirth_eq hrecord] at heq
      split_ifs at heq
      · exact .inr ⟨deviceId, record, hrecord, .inl heq⟩
      · exact .inl heq
    · rw [EdgeNodeLifecycle.failDeviceDeath_eq hrecord] at heq
      split_ifs at heq with hpending
      · exact .inr ⟨deviceId, record, hrecord, .inr ⟨id, hkind, hid, hpending, heq⟩⟩
      · exact .inl heq

theorem settled_isCurrentBirth (s : Bridge) (p : Publish) (ok : Bool) (birth : Birth) :
    (s.settled p ok).isCurrentBirth birth = s.isCurrentBirth birth := rfl

theorem published_cases (h : p.Built config.node) (hnamed : ∀ client, s.client = some client → ∃ topic, buildNodeTopic config.node .ndeath = .ok topic)
    (ok : Bool) :
    s.isCurrentBirth p.birth = false ∧ s.published config p ok = s.settled p ok ∨
    s.isCurrentBirth p.birth = true ∧
      (ok = false ∧ s.published config p ok = (s.settled p ok).handlePublishFailure p.message ∨
       ok = true ∧
        (p.message.messageType = .nbirth ∧
            (p.onSuccess = .confirmNodeBirth ∧
                s.published config p ok = (s.settled p ok).withLifecycle s.lifecycle.confirmNodeBirth.1 ∨
              p.onSuccess = .subscribeAfterNodeBirth p.birth ∧ ∃ filters, buildCommandSubscriptionFilters config.node = .ok filters ∧
                s.published config p ok = (s.settled p ok).asked ⟨s.log.length + 1, p.birth, filters⟩) ∨
         (p.message.messageType = .ndata ∨ p.message.messageType = .ddata) ∧ s.published config p ok = s.settled p ok ∨
         ∃ deviceId id, p.message.deviceId = some deviceId ∧ p.message.transitionId = some id ∧
          (p.message.messageType = .dbirth ∧
              s.published config p ok = (s.settled p ok).withLifecycle (s.lifecycle.confirmDeviceBirth deviceId (some id)).1 ∨
            p.message.messageType = .ddeath ∧
              s.published config p ok = (s.settled p ok).withLifecycle (s.lifecycle.confirmDeviceDeath deviceId (some id)).1))) := by
  unfold published
  dsimp only
  rw [settled_isCurrentBirth]
  cases hcurrent : s.isCurrentBirth p.birth with
  | false => exact .inl ⟨rfl, rfl⟩
  | true =>
    refine .inr ⟨rfl, ?_⟩
    cases ok with
    | false => exact .inl ⟨rfl, rfl⟩
    | true =>
      refine .inr ⟨rfl, ?_⟩
      have hkind := h.message.kind
      have htransition := h.message.transition
      simp only [List.mem_cons, List.not_mem_nil, or_false] at hkind
      unfold handlePublishSuccess
      rcases hkind with hkind | hkind | hkind | hkind | hkind
      · refine .inl ⟨hkind, ?_⟩
        cases hsuccess : p.onSuccess with
        | nothing => exact absurd hkind (h.onSuccess.mp hsuccess)
        | confirmNodeBirth =>
          refine .inl ⟨rfl, ?_⟩
          rw [hkind]
          rfl
        | subscribeAfterNodeBirth birth =>
          obtain rfl := h.subscribes birth hsuccess
          obtain ⟨-, hclient, -⟩ := isCurrentBirth_iff.mp hcurrent
          obtain ⟨topic, htopic⟩ := hnamed _ hclient
          obtain ⟨filters, hfilters⟩ : ∃ filters, buildCommandSubscriptionFilters config.node = .ok filters := by
            cases hcase : buildCommandSubscriptionFilters config.node with
            | error error => simpa [hcase, Except.isOk, Except.toBool] using filters_isOk htopic
            | ok filters => exact ⟨filters, rfl⟩
          refine .inr ⟨rfl, filters, hfilters, ?_⟩
          rw [hkind]
          simp [runOnSuccess, subscribeAfterNodeBirth, settled_isCurrentBirth, hcurrent, hfilters, Except.map]
      · have hnothing := h.onSuccess.mpr (by simp [hkind])
        refine .inr (.inl ⟨.inl hkind, ?_⟩)
        rw [hkind, hnothing]
        rfl
      · obtain ⟨deviceId, hdevice, -⟩ := Built.deviceId_eq h.message (by simp [hkind, deviceScopedMessageTypes])
        obtain ⟨id, hid⟩ := Option.isSome_iff_exists.mp (htransition.mpr (.inl hkind))
        have hnothing := h.onSuccess.mpr (by simp [hkind])
        refine .inr (.inr ⟨deviceId, id, hdevice, hid, .inl ⟨hkind, ?_⟩⟩)
        rw [hkind, hdevice, hid, hnothing]
        simp [runOnSuccess]
      · have hnothing := h.onSuccess.mpr (by simp [hkind])
        refine .inr (.inl ⟨.inr hkind, ?_⟩)
        rw [hkind, hnothing]
        rfl
      · obtain ⟨deviceId, hdevice, -⟩ := Built.deviceId_eq h.message (by simp [hkind, deviceScopedMessageTypes])
        obtain ⟨id, hid⟩ := Option.isSome_iff_exists.mp (htransition.mpr (.inr hkind))
        have hnothing := h.onSuccess.mpr (by simp [hkind])
        refine .inr (.inr ⟨deviceId, id, hdevice, hid, .inr ⟨hkind, ?_⟩⟩)
        rw [hkind, hdevice, hid, hnothing]
        simp [runOnSuccess]

theorem subscribed_cases (s : Bridge) (subscription : Subscription) (ok : Bool) :
    s.isCurrentBirth subscription.birth = false ∧ s.subscribed subscription ok = s.answered subscription ok ∨
    s.isCurrentBirth subscription.birth = true ∧
      (ok = false ∧ s.subscribed subscription ok = (s.answered subscription ok).withLifecycle s.lifecycle.onDisconnect ∨
       ok = true ∧ s.subscribed subscription ok = (s.answered subscription ok).withLifecycle s.lifecycle.confirmNodeBirth.1) := by
  have hsame : (s.answered subscription ok).isCurrentBirth subscription.birth = s.isCurrentBirth subscription.birth := rfl
  unfold subscribed
  dsimp only
  rw [hsame]
  cases s.isCurrentBirth subscription.birth <;> cases ok
  · exact .inl ⟨rfl, rfl⟩
  · exact .inl ⟨rfl, rfl⟩
  · exact .inr ⟨rfl, .inl ⟨rfl, rfl⟩⟩
  · exact .inr ⟨rfl, .inr ⟨rfl, rfl⟩⟩

/-! ### Every step keeps it -/

theorem reborn_sound (s : Bridge) (config : SparkplugConfig) : (s.lifecycle.reborn).Sound config.node := by
  intro deviceId record hrecord honline
  rw [(EdgeNodeLifecycle.reset_offline hrecord).1] at honline
  cases honline

theorem Sound.init (config : SparkplugConfig) (nodeMetrics : List SparkplugMetric) : (init nodeMetrics).Sound config := by
  constructor <;> simp [Bridge.init, EdgeNodeLifecycle.init, EdgeNodeLifecycle.Sound]

section
variable (h : s.Sound config)
include h

theorem Sound.detached (hdetached : Detached s s') : s'.Sound config where
  started client hclient := by
    rw [hdetached.client] at hclient
    cases hclient
  attached client hclient := by
    rw [hdetached.client] at hclient
    cases hclient
  named client hclient := by
    rw [hdetached.client] at hclient
    cases hclient
  resting _ := by rcases hdetached.lifecycle with heq | heq <;> rw [heq] <;> rfl
  lifecycle := by rcases hdetached.lifecycle with heq | heq <;> rw [heq] <;> exact EdgeNodeLifecycle.Sound.onDisconnect
  waiting := hdetached.waiting ▸ h.waiting
  armed expectedEpoch harmed := by
    rw [hdetached.timer] at harmed
    split_ifs at harmed with hstarted
    exact ⟨hstarted, hdetached.client, Option.some.inj harmed⟩
  reconnects hstarted _ := by rw [hdetached.timer, if_pos hstarted, Option.isSome_some]

theorem Sound.opened (hclient : s.client = none) {willTopic : Text}
    (htopic : buildWillTopic config.node = .ok willTopic) : (s.opened willTopic).Sound config where
  started _ _ := rfl
  attached client hheld := by
    obtain rfl : s.clients.length = client := Option.some.inj hheld
    exact ⟨_, List.getElem?_concat_length, rfl⟩
  named _ _ := ⟨willTopic, htopic⟩
  resting hnone := by cases hnone
  lifecycle deviceId record hrecord honline := by
    have hstate := (h.lifecycle deviceId record hrecord honline).1
    rw [h.resting hclient] at hstate
    cases hstate
  waiting := h.waiting
  armed expectedEpoch harmed := by cases harmed
  reconnects _ hnone := by cases hnone

theorem Sound.withState {birthEpoch : ℕ} {connectedSessionEpoch : Option ℕ} {log : List Event}
    {subscribing : List Subscription} {waiting : List Publish} (hresting : s.client = none → l.nodeState = .offline)
    (hlifecycle : l.Sound config.node) (hwaiting : ∀ p ∈ waiting, p.Built config.node) :
    Sound config { s with lifecycle := l, birthEpoch, connectedSessionEpoch, log, subscribing, waiting } where
  started := h.started
  attached := h.attached
  named := h.named
  resting := hresting
  lifecycle := hlifecycle
  waiting := hwaiting
  armed := h.armed
  reconnects := h.reconnects

theorem Sound.withLifecycle (hresting : s.client = none → l.nodeState = .offline) (hlifecycle : l.Sound config.node) :
    (s.withLifecycle l).Sound config :=
  h.withState hresting hlifecycle h.waiting

theorem Sound.settled (p : Publish) (ok : Bool) : (s.settled p ok).Sound config :=
  h.withState h.resting h.lifecycle fun q hq => h.waiting q (List.mem_of_mem_filter hq)

theorem Sound.disconnected : (s.withLifecycle s.lifecycle.onDisconnect).Sound config :=
  h.withLifecycle (fun _ => rfl) .onDisconnect

theorem Sound.setDevice {deviceId : Text} {record : DeviceRecord}
    (hrecord : record.state = .online → s.lifecycle.nodeState = .online ∧ ∃ topic, buildDeviceTopic config.node deviceId .dbirth = .ok topic) :
    (s.withLifecycle (s.lifecycle.setDevice deviceId record)).Sound config :=
  h.withLifecycle h.resting (h.lifecycle.setDevice hrecord)

theorem Sound.advanced : (s.withLifecycle s.lifecycle.advanceSeq).Sound config := h.withState h.resting h.lifecycle h.waiting

theorem Sound.begun {deviceId : Text} {record : DeviceRecord}
    (hrecord : record.state = .online → s.lifecycle.nodeState = .online ∧ ∃ topic, buildDeviceTopic config.node deviceId .dbirth = .ok topic) :
    (s.withLifecycle (s.lifecycle.begun deviceId record)).Sound config := by
  have hset : (s.lifecycle.setDevice deviceId record).Sound config.node := h.lifecycle.setDevice hrecord
  exact h.withLifecycle h.resting hset

theorem Sound.confirmed (hclient : s.client ≠ none) : (s.withLifecycle s.lifecycle.confirmNodeBirth.1).Sound config := by
  rcases EdgeNodeLifecycle.confirmNodeBirth_eq (l := s.lifecycle) with heq | ⟨hstate, heq⟩
  · rw [heq]
    exact h
  · rw [heq]
    refine h.withLifecycle (fun hnone => absurd hnone hclient) fun deviceId record hrecord honline => ?_
    obtain ⟨hcontra, -⟩ := h.lifecycle deviceId record hrecord honline
    rw [hstate] at hcontra
    cases hcontra

theorem Sound.failed (hmsg : msg.Built config.node) : (s.handlePublishFailure msg).Sound config := by
  rcases handlePublishFailure_changes hmsg s with ⟨-, heq⟩ | heq | ⟨deviceId, record, hrecord, heq | ⟨id, -, -, -, heq⟩⟩
  · rw [heq]
    exact h.disconnected
  · rw [heq]
    exact h
  · rw [heq]
    exact h.setDevice fun hcontra => by cases hcontra
  · rw [heq]
    exact h.setDevice fun honline => h.lifecycle deviceId record hrecord honline

theorem Sound.publishMessage (hmsg : msg.Built config.node) {onSuccess : OnSuccess}
    (hsuccess : onSuccess = .nothing ↔ msg.messageType ≠ .nbirth)
    (hsubscribes : ∀ birth, onSuccess = .subscribeAfterNodeBirth birth → s.client = some birth.client ∧
      birth = ⟨birth.client, s.sessionEpoch, s.birthEpoch⟩) : (s.publishMessage msg onSuccess encoded).Sound config := by
  cases hclient : s.client with
  | none =>
    unfold Bridge.publishMessage
    rw [hclient]
    exact h.failed hmsg
  | some client =>
    rw [publishMessage_held hclient]
    split_ifs
    · refine h.withState h.resting h.lifecycle ?_
      rw [List.forall_mem_cons]
      refine ⟨⟨hmsg, hsuccess, fun birth hbirth => ?_⟩, h.waiting⟩
      obtain ⟨hheld, heq⟩ := hsubscribes birth hbirth
      rw [hclient] at hheld
      rw [heq, ← Option.some.inj hheld]
    · exact h.failed hmsg

theorem Sound.publishPlain (hmsg : msg.Built config.node) (hkind : msg.messageType ≠ .nbirth) :
    (s.publishMessage msg .nothing encoded).Sound config :=
  h.publishMessage hmsg ⟨fun _ => hkind, fun _ => rfl⟩ fun _ hcontra => by cases hcontra

theorem Sound.rebirth : (s.rebirth config encoded).Sound config := by
  rcases rebirth_cases h encoded with ⟨-, heq⟩ | ⟨client, msg, hclient, -, hmsg, hkind, -, heq⟩
  · rw [heq]
    exact h
  · rw [heq]
    refine Sound.publishMessage (h.withState (fun hnone => ?_) (s.reborn_sound config) h.waiting) hmsg ?_ fun birth hcontra => by cases hcontra
    · rw [hclient] at hnone
      cases hnone
    · simp [hkind]

theorem Sound.published (hp : p.Built config.node) (ok : Bool) : (s.published config p ok).Sound config := by
  have hsettled := h.settled p ok
  rcases published_cases hp h.named ok with ⟨-, heq⟩ | ⟨hcurrent, ⟨-, heq⟩ | ⟨-, hok⟩⟩
  · rw [heq]
    exact hsettled
  · rw [heq]
    exact hsettled.failed hp.message
  · obtain ⟨-, hclient, -⟩ := isCurrentBirth_iff.mp hcurrent
    rcases hok with ⟨-, ⟨-, heq⟩ | ⟨-, filters, -, heq⟩⟩ | ⟨-, heq⟩ | ⟨deviceId, id, hdevice, -, ⟨hkind, heq⟩ | ⟨hkind, heq⟩⟩
    · rw [heq]
      exact hsettled.confirmed (by simp [hclient])
    · rw [heq]
      exact hsettled.withState hsettled.resting hsettled.lifecycle hsettled.waiting
    · rw [heq]
      exact hsettled
    · obtain ⟨found, hfound, htopic⟩ := Built.deviceId_eq hp.message (by simp [hkind, deviceScopedMessageTypes])
      obtain rfl : deviceId = found := Option.some.inj (hdevice.symm.trans hfound)
      cases hrecord : s.lifecycle.devices deviceId with
      | none =>
        rw [heq, (EdgeNodeLifecycle.settling_unknown hrecord _).1]
        exact hsettled
      | some record =>
        rw [heq, EdgeNodeLifecycle.confirmDeviceBirth_eq hrecord]
        split_ifs with hpending
        · exact hsettled.setDevice fun _ => ⟨hpending.1, htopic⟩
        · exact hsettled
    · cases hrecord : s.lifecycle.devices deviceId with
      | none =>
        rw [heq, (EdgeNodeLifecycle.settling_unknown hrecord _).2.2.1]
        exact hsettled
      | some record =>
        rw [heq, EdgeNodeLifecycle.confirmDeviceDeath_eq hrecord]
        split_ifs
        · exact hsettled.setDevice fun hcontra => by cases hcontra
        · exact hsettled

theorem Sound.subscribed (subscription : Subscription) (ok : Bool) : (s.subscribed subscription ok).Sound config := by
  have hanswered : (s.answered subscription ok).Sound config := h.withState h.resting h.lifecycle h.waiting
  rcases subscribed_cases s subscription ok with ⟨-, heq⟩ | ⟨hcurrent, ⟨-, heq⟩ | ⟨-, heq⟩⟩
  · rw [heq]
    exact hanswered
  · rw [heq]
    exact hanswered.disconnected
  · obtain ⟨-, hclient, -⟩ := isCurrentBirth_iff.mp hcurrent
    rw [heq]
    exact hanswered.confirmed (by simp [hclient])

theorem Sound.logged (client : ℕ) : Sound config { s with log := .connected client :: s.log } :=
  h.withState h.resting h.lifecycle h.waiting

theorem Sound.connected {client sessionEpoch : ℕ} : (s.onConnectEvent config client sessionEpoch encoded).Sound config := by
  rcases onConnectEvent_cases h client sessionEpoch encoded with ⟨-, heq⟩ | ⟨hclient, hepoch, -, msg, hmsg, hkind, -, heq⟩
  · rw [heq]
    exact h
  · rw [heq]
    refine Sound.publishMessage (h.withState (fun hnone => ?_) (s.reborn_sound config) h.waiting) hmsg (by simp [hkind]) ?_
    · rw [hclient] at hnone
      cases hnone
    · rintro birth hbirth
      obtain rfl := OnSuccess.subscribeAfterNodeBirth.inj hbirth
      exact ⟨hclient, by rw [← hepoch]⟩

theorem Sound.step {a : Action} (hstep : step config s a = some s') : s'.Sound config := by
  cases h.stepped hstep with
  | same => exact h
  | opened htopic hclient => exact h.opened hclient htopic
  | detached hdetached => exact h.detached hdetached
  | settings nodeMetrics hostState => exact h.withLifecycle h.resting h.lifecycle
  | unnamed => exact h.begun fun hcontra => by cases hcontra
  | birth _ _ hmsg _ hkind =>
    exact Sound.publishPlain (h.begun fun hcontra => by cases hcontra) hmsg (by simp [hkind])
  | siteData _ _ _ _ _ _ hmsg _ hkind => exact h.advanced.publishPlain hmsg (by simp [hkind])
  | nodeData _ _ _ hmsg hkind => exact h.advanced.publishPlain hmsg (by simp [hkind])
  | death _ hrecord honline _ hmsg _ hkind =>
    exact (h.begun fun _ => h.lifecycle _ _ hrecord honline).publishPlain hmsg (by simp [hkind])
  | rebirth => exact h.rebirth
  | strange => exact h.logged _
  | connect => exact (h.logged _).connected
  | published hp => exact h.published (h.waiting _ hp) _
  | subscribed => exact h.subscribed _ _

end

end Bridge

end OxScada.Sparkplug
