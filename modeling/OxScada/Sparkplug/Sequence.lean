import OxScada.Sparkplug.Gating

/-! The numbers on the wire. A birth of the node carries the `bdSeq` of the Will of its client. The
messages since a birth are numbered without a gap as long as no message of a device is dropped after
its number was consumed. -/

namespace OxScada.Sparkplug
open OxScada.Bytes OxScada.Runs

variable {config : SparkplugConfig} {s s' : Bridge} {p : Publish} {log : List Event} {client : ℕ} {ok encoded : Bool}

def SparkplugPayload.bdSeq (payload : SparkplugPayload) : Option MetricValue :=
  (payload.metrics.find? (·.name = "bdSeq".toList)).map (·.value)

def handings (log : List Event) : List Publish :=
  log.filterMap fun
    | .publish p => some p
    | _ => none

def handedTo (client : ℕ) (log : List Event) : List Publish := (handings log).filter (·.birth.client = client)

def Publish.isBirth (p : Publish) : Bool := p.message.messageType = .nbirth

def Publish.seq (p : Publish) : ℕ := p.message.payload.seq.getD 0

/-- A message of a device is dropped though its number is consumed: its payload cannot be encoded, or
its topic cannot be built from the identifier. -/
def SkipsSeq (config : SparkplugConfig) (s : Bridge) : Action → Prop
  | .birthSite definition encoded => s.lifecycle.nodeState = .online ∧
      (encoded = false ∨ ∃ error, buildDeviceTopic config.node definition.deviceId .dbirth = .error error)
  | .publishSiteData deviceId changed encoded => encoded = false ∧ s.lifecycle.canPublishData = true ∧ changed ≠ [] ∧
      ∃ record, s.lifecycle.devices deviceId = some record ∧ record.state = .online ∧ record.pending = none
  | .deathSite deviceId encoded => encoded = false ∧
      ∃ record, s.lifecycle.devices deviceId = some record ∧ record.state = .online ∧ record.pending = none
  | _ => False

theorem mem_handings : p ∈ handings log ↔ .publish p ∈ log := by
  unfold handings
  rw [List.mem_filterMap]
  constructor
  · rintro ⟨e, he, hp⟩
    cases e with
    | publish q =>
      obtain rfl := Option.some.inj hp
      exact he
    | _ => cases hp
  · exact fun hp => ⟨_, hp, rfl⟩

/-! ### What a step does to the numbers -/

inductive Moves (skips : Prop) (s s' : Bridge) : Prop
  | detached (h : Bridge.Detached s s')
  | opened (willTopic : Text) (hclient : s.client = none) (heq : s' = s.opened willTopic)
  | kept (hclient : s'.client = s.client) (hclients : s'.clients = s.clients) (hbdSeq : s'.lifecycle.bdSeq = s.lifecycle.bdSeq)
      (hlog : handings s'.log = handings s.log) (hseq : s'.lifecycle.nodeState = .offline ∨ s'.lifecycle.seq = s.lifecycle.seq ∧
        (s.lifecycle.nodeState = .offline → s'.lifecycle.nodeState = .offline))
  | birth (client : ℕ) (p : Publish) (hheld : s.client = some client) (hclient : s'.client = s.client) (hclients : s'.clients = s.clients)
      (hbdSeq : s'.lifecycle.bdSeq = s.lifecycle.bdSeq) (hlog : handings s'.log = p :: handings s.log) (hp : p.birth.client = client)
      (hkind : p.message.messageType = .nbirth)
      (hpayload : p.message.payload = ⟨some 0, bdSeqMetric s.lifecycle.bdSeq :: rebirthControlMetric :: s.lifecycle.nodeMetrics⟩)
      (hseq : s'.lifecycle.seq = 1)
  | sent (client : ℕ) (p : Publish) (hheld : s.client = some client) (hclient : s'.client = s.client) (hclients : s'.clients = s.clients)
      (hbdSeq : s'.lifecycle.bdSeq = s.lifecycle.bdSeq) (hlog : handings s'.log = p :: handings s.log) (hp : p.birth.client = client)
      (hkind : p.message.messageType ≠ .nbirth) (honline : s.lifecycle.nodeState = .online)
      (hpayload : p.message.payload.seq = some s.lifecycle.seq) (hseq : s'.lifecycle.seq = (s.lifecycle.seq + 1) % 256)
  | skipped (h : skips) (hclient : s'.client = s.client) (hclients : s'.clients = s.clients)
      (hbdSeq : s'.lifecycle.bdSeq = s.lifecycle.bdSeq) (hlog : handings s'.log = handings s.log)

namespace Bridge

theorem isBirth_iff : p.isBirth = true ↔ p.message.messageType = .nbirth := by
  unfold Publish.isBirth
  exact decide_eq_true_iff

@[simp] theorem handings_publish (p : Publish) (log : List Event) : handings (.publish p :: log) = p :: handings log := rfl

@[simp] theorem handings_published (p : Publish) (ok : Bool) (log : List Event) : handings (.published p ok :: log) = handings log := rfl

@[simp] theorem handings_subscribe (subscription : Subscription) (log : List Event) : handings (.subscribe subscription :: log) = handings log := rfl

@[simp] theorem handings_subscribed (subscription : Subscription) (ok : Bool) (log : List Event) :
    handings (.subscribed subscription ok :: log) = handings log := rfl

@[simp] theorem handings_connected (client : ℕ) (log : List Event) : handings (.connected client :: log) = handings log := rfl

variable {msg : OutboundMessage}

/-- A message that cannot be encoded or was not delivered changes the life cycle alone, and there the
state of the node only to offline. -/
theorem handlePublishFailure_keeps {node : EdgeNodeDescriptor} (hmsg : msg.Built node) (s : Bridge) :
    ∃ l, s.handlePublishFailure msg = s.withLifecycle l ∧ l.bdSeq = s.lifecycle.bdSeq ∧ l.seq = s.lifecycle.seq ∧
      ((msg.messageType = .nbirth ∨ msg.messageType = .ndata) ∧ l.nodeState = .offline ∨ l.nodeState = s.lifecycle.nodeState) := by
  rcases handlePublishFailure_changes hmsg s with ⟨hkind, heq⟩ | heq | ⟨deviceId, record, -, heq | ⟨id, -, -, -, heq⟩⟩
  · exact ⟨_, heq, rfl, rfl, .inl ⟨hkind, rfl⟩⟩
  · exact ⟨s.lifecycle, heq, rfl, rfl, .inr rfl⟩
  · exact ⟨_, heq, rfl, rfl, .inr rfl⟩
  · exact ⟨_, heq, rfl, rfl, .inr rfl⟩

theorem confirmNodeBirth_keeps (l : EdgeNodeLifecycle) : l.confirmNodeBirth.1.bdSeq = l.bdSeq ∧ l.confirmNodeBirth.1.seq = l.seq ∧
    (l.nodeState = .offline → l.confirmNodeBirth.1.nodeState = .offline) := by
  rcases EdgeNodeLifecycle.confirmNodeBirth_eq (l := l) with heq | ⟨hstate, heq⟩
  · rw [heq]
    exact ⟨rfl, rfl, id⟩
  · rw [heq]
    refine ⟨rfl, rfl, fun hcontra => ?_⟩
    cases hstate.symm.trans hcontra

theorem confirmDevice_keeps (l : EdgeNodeLifecycle) (deviceId : Text) (id : ℕ) :
    ((l.confirmDeviceBirth deviceId (some id)).1.bdSeq = l.bdSeq ∧ (l.confirmDeviceBirth deviceId (some id)).1.seq = l.seq ∧
      (l.confirmDeviceBirth deviceId (some id)).1.nodeState = l.nodeState) ∧
    (l.confirmDeviceDeath deviceId (some id)).1.bdSeq = l.bdSeq ∧ (l.confirmDeviceDeath deviceId (some id)).1.seq = l.seq ∧
      (l.confirmDeviceDeath deviceId (some id)).1.nodeState = l.nodeState := by
  cases hrecord : l.devices deviceId with
  | none =>
    obtain ⟨hbirth, -, hdeath, -⟩ := EdgeNodeLifecycle.settling_unknown hrecord (some id)
    rw [hbirth, hdeath]
    exact ⟨⟨rfl, rfl, rfl⟩, rfl, rfl, rfl⟩
  | some record =>
    rw [EdgeNodeLifecycle.confirmDeviceBirth_eq hrecord, EdgeNodeLifecycle.confirmDeviceDeath_eq hrecord]
    constructor
    · split_ifs <;> exact ⟨rfl, rfl, rfl⟩
    · split_ifs <;> exact ⟨rfl, rfl, rfl⟩

variable {skips : Prop}

theorem moves_same (s : Bridge) : Moves skips s s := .kept rfl rfl rfl rfl (.inr ⟨rfl, id⟩)

theorem moves_lifecycle {l : EdgeNodeLifecycle} (hclient : s'.client = s.client) (hclients : s'.clients = s.clients)
    (hlog : handings s'.log = handings s.log) (hbdSeq : l.bdSeq = s.lifecycle.bdSeq)
    (hstate : l.nodeState = .offline ∨ l.seq = s.lifecycle.seq ∧ (s.lifecycle.nodeState = .offline → l.nodeState = .offline)) :
    Moves skips s (s'.withLifecycle l) :=
  .kept hclient hclients hbdSeq hlog hstate

theorem moves_birth {prepared : Bridge} {onSuccess : OnSuccess}
    (hheld : s.client = some client) (hmsg : msg.Built config.node) (hkind : msg.messageType = .nbirth)
    (hpayload : msg.payload = ⟨some 0, bdSeqMetric s.lifecycle.bdSeq :: rebirthControlMetric :: s.lifecycle.nodeMetrics⟩)
    (hclient : prepared.client = s.client) (hclients : prepared.clients = s.clients) (hlog : handings prepared.log = handings s.log)
    (hlifecycle : prepared.lifecycle = s.lifecycle.reborn) : Moves skips s (prepared.publishMessage msg onSuccess encoded) := by
  rw [publishMessage_held (hclient.trans hheld)]
  split_ifs
  · refine .birth client _ hheld hclient hclients ?_ (congrArg (_ :: ·) hlog) rfl hkind hpayload ?_
    · show prepared.lifecycle.bdSeq = _
      rw [hlifecycle]
      rfl
    · show prepared.lifecycle.seq = _
      rw [hlifecycle]
      rfl
  · obtain ⟨l, heq, hbdSeq, -, hstate⟩ := handlePublishFailure_keeps hmsg prepared
    rw [heq]
    refine .kept hclient hclients ?_ hlog (.inl ?_)
    · rw [withLifecycle_lifecycle, hbdSeq, hlifecycle]
      rfl
    · rcases handlePublishFailure_cases hmsg prepared with ⟨-, hoffline⟩ | ⟨deviceId, -, ⟨hcontra, -⟩ | ⟨id, -, ⟨hcontra, -⟩ | ⟨hcontra, -⟩⟩⟩
      · rw [← heq, hoffline]
        rfl
      all_goals cases hkind.symm.trans hcontra

theorem moves_sent {l : EdgeNodeLifecycle} (hheld : s.client = some client)
    (hmsg : msg.Built config.node) (hkind : msg.messageType ≠ .nbirth) (honline : s.lifecycle.nodeState = .online)
    (hpayload : msg.payload.seq = some s.lifecycle.seq) (hbdSeq : l.bdSeq = s.lifecycle.bdSeq) (hseq : l.seq = (s.lifecycle.seq + 1) % 256)
    (hskips : encoded = false → msg.messageType ≠ .ndata → skips) : Moves skips s ((s.withLifecycle l).publishMessage msg .nothing encoded) := by
  have hheld' : (s.withLifecycle l).client = some client := hheld
  rw [publishMessage_held hheld']
  split_ifs with hencoded
  · exact .sent client _ hheld rfl rfl hbdSeq rfl rfl hkind honline hpayload hseq
  · obtain ⟨l', heq, hbdSeq', -, -⟩ := handlePublishFailure_keeps hmsg (s.withLifecycle l)
    by_cases hdata : msg.messageType = .ndata
    · rcases handlePublishFailure_cases hmsg (s.withLifecycle l) with ⟨-, hoffline⟩ | ⟨deviceId, -, ⟨hcontra, -⟩ | ⟨id, -, ⟨hcontra, -⟩ | ⟨hcontra, -⟩⟩⟩
      · rw [hoffline]
        exact .kept rfl rfl hbdSeq rfl (.inl rfl)
      all_goals cases hdata.symm.trans hcontra
    · rw [heq]
      exact .skipped (hskips (by simpa using hencoded) hdata) rfl rfl (hbdSeq'.trans hbdSeq) rfl

theorem Sound.moves_rebirth (h : s.Sound config) (encoded : Bool) : Moves skips s (s.rebirth config encoded) := by
  rcases rebirth_cases h encoded with ⟨-, heq⟩ | ⟨client, msg, hclient, honline, hmsg, hkind, hpayload, heq⟩
  · rw [heq]
    exact moves_same s
  · rw [heq]
    exact moves_birth hclient hmsg hkind hpayload rfl rfl rfl rfl

theorem Sound.moves_published (h : s.Sound config) (hp : p.Built config.node) (ok : Bool) : Moves skips s (s.published config p ok) := by
  rcases published_cases hp h.named ok with ⟨-, heq⟩ | ⟨-, ⟨-, heq⟩ | ⟨-, hok⟩⟩
  · rw [heq]
    exact .kept rfl rfl rfl rfl (.inr ⟨rfl, id⟩)
  · obtain ⟨l, hfail, hbdSeq, hseq, hstate⟩ := handlePublishFailure_keeps hp.message (s.settled p ok)
    rw [heq, hfail]
    refine moves_lifecycle rfl rfl rfl hbdSeq ?_
    rcases hstate with ⟨-, hoffline⟩ | hsame
    · exact .inl hoffline
    · exact .inr ⟨hseq, fun hoffline => hsame.trans hoffline⟩
  · rcases hok with ⟨-, ⟨-, heq⟩ | ⟨-, filters, -, heq⟩⟩ | ⟨-, heq⟩ | ⟨deviceId, id, -, -, ⟨-, heq⟩ | ⟨-, heq⟩⟩
    · obtain ⟨hbdSeq, hseq, hstate⟩ := confirmNodeBirth_keeps s.lifecycle
      rw [heq]
      exact moves_lifecycle rfl rfl rfl hbdSeq (.inr ⟨hseq, hstate⟩)
    · rw [heq]
      exact .kept rfl rfl rfl rfl (.inr ⟨rfl, id⟩)
    · rw [heq]
      exact .kept rfl rfl rfl rfl (.inr ⟨rfl, id⟩)
    · obtain ⟨⟨hbdSeq, hseq, hstate⟩, -⟩ := confirmDevice_keeps s.lifecycle deviceId id
      rw [heq]
      exact moves_lifecycle rfl rfl rfl hbdSeq (.inr ⟨hseq, fun hoffline => hstate.trans hoffline⟩)
    · obtain ⟨-, hbdSeq, hseq, hstate⟩ := confirmDevice_keeps s.lifecycle deviceId id
      rw [heq]
      exact moves_lifecycle rfl rfl rfl hbdSeq (.inr ⟨hseq, fun hoffline => hstate.trans hoffline⟩)

theorem moves_subscribed (s : Bridge) (subscription : Subscription) (ok : Bool) :
    Moves skips s (s.subscribed subscription ok) := by
  rcases subscribed_cases s subscription ok with ⟨-, heq⟩ | ⟨-, ⟨-, heq⟩ | ⟨-, heq⟩⟩
  · rw [heq]
    exact .kept rfl rfl rfl rfl (.inr ⟨rfl, id⟩)
  · rw [heq]
    exact .kept rfl rfl rfl rfl (.inl rfl)
  · obtain ⟨hbdSeq, hseq, hstate⟩ := confirmNodeBirth_keeps s.lifecycle
    rw [heq]
    exact moves_lifecycle rfl rfl rfl hbdSeq (.inr ⟨hseq, hstate⟩)

theorem Sound.moves (h : s.Sound config) {a : Action} (hstep : Sparkplug.step config s a = some s') : Moves (SkipsSeq config s a) s s' := by
  cases h.stepped hstep with
  | same => exact moves_same s
  | opened _ hclient => exact .opened _ hclient rfl
  | detached hdetached => exact .detached hdetached
  | settings => exact moves_lifecycle rfl rfl rfl rfl (.inr ⟨rfl, id⟩)
  | unnamed honline herror => exact .skipped ⟨honline, .inr herror⟩ rfl rfl rfl rfl
  | birth hclient honline hmsg _ hkind _ hpayload =>
    exact moves_sent hclient hmsg (by simp [hkind]) honline (by rw [hpayload]) rfl rfl fun hencoded _ => ⟨honline, .inl hencoded⟩
  | siteData hclient hrecord honline hpending hcan hchanged hmsg _ hkind hpayload =>
    exact moves_sent hclient hmsg (by simp [hkind]) (canPublishData_online hcan) (by rw [hpayload]) rfl rfl
      fun hencoded _ => ⟨hencoded, hcan, hchanged, _, hrecord, honline, hpending⟩
  | nodeData hclient hcan _ hmsg hkind hpayload =>
    exact moves_sent hclient hmsg (by simp [hkind]) (canPublishData_online hcan) (by rw [hpayload]) rfl rfl
      fun _ hcontra => absurd hkind hcontra
  | death hclient hrecord honline hnone hmsg _ hkind _ hpayload =>
    exact moves_sent hclient hmsg (by simp [hkind]) (h.lifecycle _ _ hrecord honline).1 (by rw [hpayload]) rfl rfl
      fun hencoded _ => ⟨hencoded, _, hrecord, honline, hnone⟩
  | rebirth => exact h.moves_rebirth _
  | strange => exact .kept rfl rfl rfl rfl (.inr ⟨rfl, id⟩)
  | connect =>
    rcases onConnectEvent_cases (h.logged _) _ _ _ with ⟨-, heq⟩ | ⟨hclient, -, -, msg, hmsg, hkind, hpayload, heq⟩
    · rw [heq]
      exact .kept rfl rfl rfl rfl (.inr ⟨rfl, id⟩)
    · rw [heq]
      exact moves_birth hclient hmsg hkind hpayload rfl rfl rfl rfl
  | published hp => exact h.moves_published (h.waiting _ hp) _
  | subscribed => exact moves_subscribed s _ _

end Bridge

/-! ### The births and the Will -/

/-- The Will of the client that is held, and of each client that a birth was handed to, has the `bdSeq`
of the session. -/
structure Willed (s : Bridge) : Prop where
  held : ∀ client, s.client = some client → ∃ record, s.clients[client]? = some record ∧
    record.will.payload = buildWillPayload s.lifecycle.bdSeq
  births : ∀ p ∈ handings s.log, p.message.messageType = .nbirth → ∃ record, s.clients[p.birth.client]? = some record ∧
    ∃ bdSeq : ℕ, record.will.payload.bdSeq = some (.number (some bdSeq)) ∧ p.message.payload.bdSeq = some (.number (some bdSeq))

theorem willed_init (nodeMetrics : List SparkplugMetric) : Willed (Bridge.init nodeMetrics) := by
  constructor <;> simp [Bridge.init, handings]

theorem buildWillPayload_bdSeq (bdSeq : ℕ) : (buildWillPayload bdSeq).bdSeq = some (.number (some bdSeq)) := by
  simp [SparkplugPayload.bdSeq, buildWillPayload, bdSeqMetric]

theorem Willed.extend (h : Willed s) {extra : List MqttClient} :
    ∀ p ∈ handings s.log, p.message.messageType = .nbirth → ∃ record, (s.clients ++ extra)[p.birth.client]? = some record ∧
      ∃ bdSeq : ℕ, record.will.payload.bdSeq = some (.number (some bdSeq)) ∧ p.message.payload.bdSeq = some (.number (some bdSeq)) := by
  intro p hp hkind
  obtain ⟨record, hrecord, hrest⟩ := h.births p hp hkind
  have hlt : p.birth.client < s.clients.length := (List.getElem?_eq_some_iff.mp hrecord).1
  exact ⟨record, by rw [List.getElem?_append_left hlt, hrecord], hrest⟩

theorem Willed.step (h : Willed s) {skips : Prop} (hmoves : Moves skips s s') : Willed s' := by
  cases hmoves with
  | detached hdetached =>
    refine ⟨fun client hclient => ?_, ?_⟩
    · rw [hdetached.client] at hclient
      cases hclient
    · rw [hdetached.log]
      rcases hdetached.clients with heq | ⟨will, heq⟩
      · rw [heq]
        exact h.births
      · rw [heq]
        exact h.extend
  | opened willTopic hclient heq =>
    rw [heq]
    refine ⟨fun client hheld => ?_, h.extend⟩
    obtain rfl : s.clients.length = client := Option.some.inj hheld
    exact ⟨_, List.getElem?_concat_length, rfl⟩
  | kept hclient hclients hbdSeq hlog _ =>
    refine ⟨?_, ?_⟩
    · rw [hclient, hclients, hbdSeq]
      exact h.held
    · rw [hlog, hclients]
      exact h.births
  | birth client p hheld hclient hclients hbdSeq hlog hp hkind hpayload _ =>
    refine ⟨?_, ?_⟩
    · rw [hclient, hclients, hbdSeq]
      exact h.held
    · rw [hlog, hclients, List.forall_mem_cons]
      refine ⟨fun _ => ?_, h.births⟩
      obtain ⟨record, hrecord, hwill⟩ := h.held client hheld
      refine ⟨record, hp ▸ hrecord, s.lifecycle.bdSeq, ?_, ?_⟩
      · rw [hwill, buildWillPayload_bdSeq]
      · simp [hpayload, SparkplugPayload.bdSeq, bdSeqMetric]
  | sent client p hheld hclient hclients hbdSeq hlog hp hkind _ _ _ =>
    refine ⟨?_, ?_⟩
    · rw [hclient, hclients, hbdSeq]
      exact h.held
    · rw [hlog, hclients, List.forall_mem_cons]
      exact ⟨fun hcontra => absurd hcontra hkind, h.births⟩
  | skipped _ hclient hclients hbdSeq hlog =>
    refine ⟨?_, ?_⟩
    · rw [hclient, hclients, hbdSeq]
      exact h.held
    · rw [hlog, hclients]
      exact h.births

/-! ### The numbers -/

/-- What each client was handed is counted from its births on, and the node counts on from the last
message to the client that is held. -/
structure Gapless (s : Bridge) : Prop where
  counted : ∀ client, Counted Publish.isBirth Publish.seq 256 (handedTo client s.log)
  numbered : ∀ p ∈ handings s.log, p.message.payload.seq.isSome = true
  created : ∀ p ∈ handings s.log, p.birth.client < s.clients.length
  next : ∀ client p older, s.client = some client → s.lifecycle.nodeState ≠ .offline → handedTo client s.log = p :: older →
    s.lifecycle.seq = (p.seq + 1) % 256

theorem gapless_init (nodeMetrics : List SparkplugMetric) : Gapless (Bridge.init nodeMetrics) := by
  constructor
  · exact fun client => .nil
  all_goals simp [Bridge.init, handings]

theorem handedTo_cons_of_eq (h : handings s'.log = p :: handings s.log) (hp : p.birth.client = client) :
    handedTo client s'.log = p :: handedTo client s.log := by
  unfold handedTo
  rw [h, List.filter_cons_of_pos (by simpa using hp)]

theorem handedTo_cons_of_ne (h : handings s'.log = p :: handings s.log) (hp : p.birth.client ≠ client) :
    handedTo client s'.log = handedTo client s.log := by
  unfold handedTo
  rw [h, List.filter_cons_of_neg (by simpa using hp)]

theorem handedTo_congr (h : handings s'.log = handings s.log) (client : ℕ) : handedTo client s'.log = handedTo client s.log := by
  unfold handedTo
  rw [h]

theorem Gapless.handed (h : Gapless s) (hlog : handings s'.log = p :: handings s.log) (hclients : s'.clients = s.clients)
    (hcreated : p.birth.client < s.clients.length) (hnumber : p.message.payload.seq.isSome = true)
    (hcounted : Counted Publish.isBirth Publish.seq 256 (p :: handedTo p.birth.client s.log))
    (hclient : s'.client = some p.birth.client) (hseq : s'.lifecycle.seq = (p.seq + 1) % 256) : Gapless s' where
  counted client := by
    by_cases hp : p.birth.client = client
    · rw [handedTo_cons_of_eq hlog hp, ← hp]
      exact hcounted
    · rw [handedTo_cons_of_ne hlog hp]
      exact h.counted client
  numbered := by
    rw [hlog, List.forall_mem_cons]
    exact ⟨hnumber, h.numbered⟩
  created := by
    rw [hlog, hclients, List.forall_mem_cons]
    exact ⟨hcreated, h.created⟩
  next client q older hheld _ hlast := by
    obtain rfl := Option.some.inj (hclient.symm.trans hheld)
    rw [handedTo_cons_of_eq hlog rfl] at hlast
    rw [← (List.cons.inj hlast).1]
    exact hseq

theorem Gapless.step (h : Gapless s) (hgated : s.Gated config) {skips : Prop} (hmoves : Moves skips s s') (hskips : ¬skips) : Gapless s' := by
  cases hmoves with
  | detached hdetached =>
    have hsame : handings s'.log = handings s.log := by rw [hdetached.log]
    refine ⟨fun client => (handedTo_congr hsame client).symm ▸ h.counted client, hsame.symm ▸ h.numbered, fun p hp => ?_,
      fun client p older hclient => ?_⟩
    · have hlt := h.created p (hsame ▸ hp)
      rcases hdetached.clients with heq | ⟨will, heq⟩
      · rw [heq]
        exact hlt
      · rw [heq, List.length_append]
        omega
    · rw [hdetached.client] at hclient
      cases hclient
  | opened willTopic hclient heq =>
    subst heq
    refine ⟨h.counted, h.numbered, fun p hp => ?_, fun client p older hheld _ hlast => ?_⟩
    · have hlt := h.created p hp
      rw [Bridge.opened, Bridge.attach_clients, List.length_append]
      exact Nat.lt_add_right 1 hlt
    · -- nothing was handed to the client that is new
      obtain rfl : s.clients.length = client := Option.some.inj hheld
      have hmem : p ∈ handedTo s.clients.length s.log := by
        have hlog : handedTo s.clients.length s.log = p :: older := hlast
        rw [hlog]
        exact List.mem_cons_self
      obtain ⟨hp, hcontra⟩ := List.mem_filter.mp hmem
      have hlt := h.created p hp
      have heq : p.birth.client = s.clients.length := of_decide_eq_true hcontra
      omega
  | kept hclient hclients hbdSeq hlog hseq =>
    refine ⟨fun client => (handedTo_congr hlog client).symm ▸ h.counted client, hlog.symm ▸ h.numbered, ?_,
      fun client p older hheld hstate hlast => ?_⟩
    · rw [hlog, hclients]
      exact h.created
    · rw [handedTo_congr hlog] at hlast
      rcases hseq with hoffline | ⟨hseq, hkeeps⟩
      · exact absurd hoffline hstate
      · rw [hseq]
        exact h.next client p older (hclient ▸ hheld) (fun hoffline => hstate (hkeeps hoffline)) hlast
  | birth client p hheld hclient hclients hbdSeq hlog hp hkind hpayload hseq =>
    obtain ⟨record, hrecord, -⟩ := hgated.sound.attached client hheld
    have hlt : client < s.clients.length := (List.getElem?_eq_some_iff.mp hrecord).1
    have hzero : p.seq = 0 := by rw [Publish.seq, hpayload, Option.getD_some]
    refine h.handed hlog hclients (hp ▸ hlt) (by rw [hpayload, Option.isSome_some]) ?_ (by rw [hclient, hheld, hp]) (by rw [hseq, hzero])
    exact (h.counted _).reset (Bridge.isBirth_iff.mpr hkind) hzero
  | sent client p hheld hclient hclients hbdSeq hlog hp hkind honline hpayload hseq =>
    obtain ⟨record, hrecord, -⟩ := hgated.sound.attached client hheld
    have hlt : client < s.clients.length := (List.getElem?_eq_some_iff.mp hrecord).1
    have hnumber : p.seq = s.lifecycle.seq := by rw [Publish.seq, hpayload, Option.getD_some]
    -- the birth that brought the node online was handed to the same client
    obtain ⟨birth, nbirth, hbirth, hborn, -⟩ := hgated.proven.online honline
    have hmem : nbirth ∈ handedTo client s.log := by
      refine List.mem_filter.mpr ⟨mem_handings.mpr (hgated.records.answered nbirth true hborn.acknowledged), decide_eq_true ?_⟩
      rw [Bridge.current, hheld, Option.map_some, Option.some_inj] at hbirth
      rw [hborn.birth, ← hbirth]
    obtain ⟨last, older, hlast⟩ := List.exists_cons_of_ne_nil (List.ne_nil_of_mem hmem)
    have hnext := h.next client last older hheld (by simp [honline]) hlast
    refine h.handed hlog hclients (hp ▸ hlt) (by rw [hpayload, Option.isSome_some]) ?_ (by rw [hclient, hheld, hp]) (by rw [hseq, hnumber])
    rw [hp]
    refine (h.counted client).cons (fun q hq => ?_) fun hcontra => ?_
    · rw [hlast, List.head?_cons, Option.some_inj] at hq
      have hplain : ¬p.isBirth = true := fun hcontra => hkind (Bridge.isBirth_iff.mp hcontra)
      rw [Follows, if_neg hplain, hnumber, hnext, hq]
    · rw [hlast] at hcontra
      cases hcontra
  | skipped hcontra => exact absurd hcontra hskips

/-- In every run a birth of the node carries the `bdSeq` of the Will of the client it is handed to. In
every run in which no message of a device is dropped after its number was consumed, the messages that a
client is handed from a birth up to the next carry 0, 1, 2 and so on modulo 256. -/
theorem numbers_on_the_wire (config : SparkplugConfig) (nodeMetrics : List SparkplugMetric) :
    (∀ s, Reachable (step config) (fun _ _ => True) (Bridge.init nodeMetrics) s → ∀ p, .publish p ∈ s.log → p.message.messageType = .nbirth →
      ∃ record, s.clients[p.birth.client]? = some record ∧
        ∃ bdSeq : ℕ, record.will.payload.bdSeq = some (.number (some bdSeq)) ∧ p.message.payload.bdSeq = some (.number (some bdSeq))) ∧
    ∀ s, Reachable (step config) (fun s a => ¬SkipsSeq config s a) (Bridge.init nodeMetrics) s →
      ∀ client before birth run after, (handedTo client s.log).reverse = before ++ birth :: (run ++ after) → birth.isBirth = true →
        (∀ p ∈ run, p.isBirth = false) →
        (birth :: run).map (·.message.payload.seq) = (List.range (run.length + 1)).map fun k => some (k % 256) := by
  constructor
  · intro s hs p hp hkind
    have hinit : (Bridge.init nodeMetrics).Sound config ∧ Willed (Bridge.init nodeMetrics) :=
      ⟨.init config nodeMetrics, willed_init nodeMetrics⟩
    have hwilled : s.Sound config ∧ Willed s := by
      apply hs.invariant hinit
      rintro s a s' ⟨hsound, hwilled⟩ - hstep
      exact ⟨hsound.step hstep, hwilled.step (hsound.moves hstep)⟩
    exact hwilled.2.births p (mem_handings.mpr hp) hkind
  · intro s hs client before birth run after hsplit hbirth hrun
    have hinit : (Bridge.init nodeMetrics).Gated config ∧ Gapless (Bridge.init nodeMetrics) :=
      ⟨.init config nodeMetrics, gapless_init nodeMetrics⟩
    have hgapless : s.Gated config ∧ Gapless s := by
      apply hs.invariant hinit
      rintro s a s' ⟨hgated, hgapless⟩ hskips hstep
      exact ⟨hgated.step hstep, hgapless.step hgated (hgated.sound.moves hstep) hskips⟩
    obtain ⟨-, hgapless⟩ := hgapless
    have hnewest : handedTo client s.log = after.reverse ++ (run.reverse ++ birth :: before.reverse) := by
      rw [← List.reverse_reverse (handedTo client s.log), hsplit]
      simp
    have hcounted := hgapless.counted client
    rw [hnewest] at hcounted
    have hnumbers := (hcounted.tail after.reverse).run hbirth hrun
    have hsome : ∀ p ∈ birth :: run, p.message.payload.seq = some p.seq := by
      intro p hp
      have hmem : p ∈ handedTo client s.log := by
        rw [hnewest]
        simp only [List.mem_append, List.mem_reverse, List.mem_cons] at hp ⊢
        rcases hp with rfl | hp
        · exact .inr (.inr (.inl rfl))
        · exact .inr (.inl hp)
      obtain ⟨number, hnumber⟩ := Option.isSome_iff_exists.mp (hgapless.numbered p (List.mem_filter.mp hmem).1)
      rw [Publish.seq, hnumber, Option.getD_some]
    calc (birth :: run).map (·.message.payload.seq) = ((birth :: run).map Publish.seq).map some := by
          rw [List.map_map]
          exact List.map_congr_left hsome
      _ = (List.range (run.length + 1)).map fun k => some (k % 256) := by
          rw [hnumbers, List.map_map]
          rfl

theorem birth_first {handed : List Publish} {n : ℕ} (h : handed.map Publish.isBirth = true :: List.replicate n false) :
    ∃ birth run, handed = birth :: run ∧ birth.isBirth = true ∧ (∀ p ∈ run, p.isBirth = false) ∧ run.length = n := by
  cases handed with
  | nil => cases h
  | cons birth run =>
    rw [List.map_cons, List.cons_eq_cons] at h
    refine ⟨birth, run, rfl, h.1, fun p hp => ?_, by simpa using congrArg List.length h.2⟩
    have hmem : p.isBirth ∈ run.map Publish.isBirth := List.mem_map_of_mem hp
    rw [h.2] at hmem
    exact List.eq_of_mem_replicate hmem

theorem numbers_on_the_wire_value : ∃ s, Reachable (step plant) (fun s a => ¬SkipsSeq plant s a) (Bridge.init []) s ∧
    ∃ birth run, (handedTo 0 s.log).reverse = birth :: run ∧ birth.isBirth = true ∧ (∀ p ∈ run, p.isBirth = false) ∧
      (birth :: run).map (·.message.payload.seq) = [some 0, some 1, some 2] := by
  have hexec := eq_some_getD (show (exec (step plant) (Bridge.init []) deviceValue).isSome by decide) (Bridge.init [])
  have hkept : ∀ s, ∀ a ∈ deviceValue, ¬SkipsSeq plant s a := by
    intro s a ha hskips
    have htopic : (buildDeviceTopic plant.node ['d'] .dbirth).isOk = true := by decide
    simp only [deviceValue, goOnline, List.cons_append, List.nil_append, List.mem_cons, List.not_mem_nil, or_false] at ha
    rcases ha with rfl | rfl | rfl | rfl | rfl | rfl | rfl
    case inr.inr.inr.inr.inl =>
      obtain ⟨-, hencoded | ⟨error, herror⟩⟩ := hskips
      · cases hencoded
      · rw [herror] at htopic
        cases htopic
    case inr.inr.inr.inr.inr.inr => cases hskips.1
    all_goals exact hskips
  have hrun := Reachable.start.of_exec deviceValue hkept hexec
  have hbirths : (handedTo 0 ((exec (step plant) (Bridge.init []) deviceValue).getD (Bridge.init [])).log).reverse.map Publish.isBirth =
      true :: List.replicate 2 false := by decide
  obtain ⟨birth, run, hhanded, hbirth, hplain, hlength⟩ := birth_first hbirths
  refine ⟨_, hrun, birth, run, hhanded, hbirth, hplain, ?_⟩
  have hnumbers := (numbers_on_the_wire plant []).2 _ hrun 0 [] birth run [] (by simpa using hhanded) hbirth hplain
  rw [hlength] at hnumbers
  exact hnumbers

/-- A value of a device cannot be encoded, and the device is born again. -/
def valueDropped : List Action :=
  goOnline ++ [.birthSite ⟨['d'], [level]⟩ true, .published 5 true, .publishSiteData ['d'] [level] false, .birthSite ⟨['d'], [level]⟩ true]

theorem number_skipped : ∃ s, Reachable (step plant) (fun _ _ => True) (Bridge.init []) s ∧
    ∃ birth run, (handedTo 0 s.log).reverse = birth :: run ∧ birth.isBirth = true ∧ (∀ p ∈ run, p.isBirth = false) ∧
      (birth :: run).map (·.message.payload.seq) = [some 0, some 1, some 3] := by
  have hrun : (exec (step plant) (Bridge.init []) valueDropped).isSome := by decide
  have hexec := eq_some_getD hrun (Bridge.init [])
  refine ⟨_, .of_exec .start valueDropped (fun _ _ _ => trivial) hexec, ?_⟩
  generalize hhanded : (handedTo 0 ((exec (step plant) (Bridge.init []) valueDropped).getD (Bridge.init [])).log).reverse = handed
  have hnumbers : handed.map (·.message.payload.seq) = [some 0, some 1, some 3] := by
    rw [← hhanded]
    decide
  have hbirths : handed.map Publish.isBirth = true :: List.replicate 2 false := by
    rw [← hhanded]
    decide
  obtain ⟨birth, run, rfl, hbirth, hplain, -⟩ := birth_first hbirths
  exact ⟨birth, run, rfl, hbirth, hplain, hnumbers⟩

end OxScada.Sparkplug
