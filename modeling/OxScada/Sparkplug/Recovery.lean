import OxScada.Sparkplug.Sequence

/-! Whether the bridge comes back. Without a client the reconnect timer is armed. A client that has
connected is online, or a birth or a subscription of the current birth waits for its callback, as long
as neither of them fails and no data of the node does: those failures take the node offline and keep
the client, and nothing is left that would try again. -/

namespace OxScada.Sparkplug
open OxScada.Bytes OxScada.Runs

variable {config : SparkplugConfig} {s s' : Bridge} {p : Publish} {subscription : Subscription} {msg : OutboundMessage}
  {onSuccess : OnSuccess} {client next : ℕ} {ids : List ℕ} {ok encoded : Bool}

/-- The birth of the node, its subscription or data of the node fails: the payload cannot be encoded,
or the callback brings an error while it still speaks for the bridge. -/
def NodeFails (s : Bridge) : Action → Prop
  | .connect client encoded => encoded = false ∧ s.client = some client ∧ s.connectedSessionEpoch ≠ some s.sessionEpoch
  | .rebirth encoded => encoded = false ∧ s.lifecycle.nodeState = .online
  | .message client topic body encoded =>
    encoded = false ∧ s.lifecycle.nodeState = .online ∧ s.client = some client ∧ RebirthCommanded topic body
  | .publishNodeData changed encoded => encoded = false ∧ s.lifecycle.canPublishData = true ∧ changed ≠ []
  | .published id ok => ok = false ∧ ∃ p ∈ s.waiting, p.id = id ∧
      (p.message.messageType = .nbirth ∨ p.message.messageType = .ndata) ∧ s.isCurrentBirth p.birth = true
  | .subscribed id ok => ok = false ∧ ∃ subscription ∈ s.subscribing, subscription.id = id ∧ s.isCurrentBirth subscription.birth = true
  | _ => False

namespace Bridge

/-- A birth or a subscription of the current birth waits for its callback. -/
def Outstanding (s : Bridge) : Prop :=
  (∃ p ∈ s.waiting, p.message.messageType = .nbirth ∧ s.isCurrentBirth p.birth = true) ∨
    ∃ subscription ∈ s.subscribing, s.isCurrentBirth subscription.birth = true

def Underway (s : Bridge) : Prop :=
  s.lifecycle.nodeState = .online ∨ s.lifecycle.nodeState = .connecting ∧ s.Outstanding

def Numbered (next : ℕ) (ids : List ℕ) : Prop := (next :: ids).Pairwise (· > ·)

/-- Which clients have connected is what the bridge remembers, and callbacks are told apart. -/
structure Tracked (s : Bridge) : Prop where
  created : ∀ client, .connected client ∈ s.log → client < s.clients.length
  connected : ∀ client, s.client = some client → .connected client ∈ s.log → s.connectedSessionEpoch = some s.sessionEpoch
  remembered : ∀ sessionEpoch, s.connectedSessionEpoch = some sessionEpoch → sessionEpoch ≤ s.sessionEpoch
  publishes : Numbered s.log.length (s.waiting.map (·.id))
  subscriptions : Numbered s.log.length (s.subscribing.map (·.id))

/-- A client that the bridge holds is underway once it has connected. -/
structure Recovering (config : SparkplugConfig) (s : Bridge) : Prop where
  sound : s.Sound config
  tracked : s.Tracked
  underway : ∀ client, s.client = some client → s.connectedSessionEpoch = some s.sessionEpoch → s.Underway

/-! ### Which callbacks wait -/

theorem Numbered.later (h : Numbered next ids) : Numbered (next + 1) ids := by
  obtain ⟨hbelow, hids⟩ := List.pairwise_cons.mp h
  exact List.pairwise_cons.mpr ⟨fun id hid => Nat.lt_succ_of_lt (hbelow id hid), hids⟩

theorem Numbered.push (h : Numbered next ids) : Numbered (next + 1) (next :: ids) := by
  have hbelow : ∀ id ∈ next :: ids, next + 1 > id := by
    intro id hid
    rcases List.mem_cons.mp hid with rfl | hid
    · exact Nat.lt_succ_self _
    · exact Nat.lt_succ_of_lt (List.rel_of_pairwise_cons h hid)
  exact List.pairwise_cons.mpr ⟨hbelow, h⟩

theorem Numbered.sublist {fewer : List ℕ} (h : Numbered next ids) (hfewer : fewer.Sublist ids) : Numbered next fewer :=
  List.Pairwise.sublist (hfewer.cons_cons next) h

theorem Numbered.eq {α : Type*} {f : α → ℕ} {xs : List α} (h : Numbered next (xs.map f)) {x y : α} (hx : x ∈ xs) (hy : y ∈ xs)
    (heq : f x = f y) : x = y := by
  have hnodup : (xs.map f).Nodup := (List.pairwise_cons.mp h).2.imp fun hgt => Nat.ne_of_gt hgt
  exact List.inj_on_of_nodup_map hnodup hx hy heq

/-! ### What is tracked -/

theorem Tracked.init (nodeMetrics : List SparkplugMetric) : (init nodeMetrics).Tracked := by
  constructor <;> simp [Bridge.init, Numbered]

section
variable (h : s.Tracked)
include h

theorem Tracked.detached (hdetached : Detached s s') : s'.Tracked where
  created client hlogged := by
    rw [hdetached.log] at hlogged
    have hcreated := h.created client hlogged
    rcases hdetached.clients with heq | ⟨will, heq⟩
    · rw [heq]
      exact hcreated
    · rw [heq, List.length_append]
      exact hcreated.trans_le (Nat.le_add_right _ _)
  connected client hclient := by
    rw [hdetached.client] at hclient
    cases hclient
  remembered sessionEpoch hconnected := by
    rw [hdetached.connected] at hconnected
    exact (h.remembered sessionEpoch hconnected).trans hdetached.epoch
  publishes := by
    rw [hdetached.log, hdetached.waiting]
    exact h.publishes
  subscriptions := by
    rw [hdetached.log, hdetached.subscribing]
    exact h.subscriptions

theorem Tracked.opened (willTopic : Text) : (s.opened willTopic).Tracked where
  created client hlogged := by
    have hcreated : client < s.clients.length := h.created client hlogged
    show client < (s.clients ++ [_]).length
    rw [List.length_append]
    exact hcreated.trans_le (Nat.le_add_right _ _)
  connected client hclient hlogged := by
    obtain rfl : s.clients.length = client := Option.some.inj hclient
    exact absurd (h.created s.clients.length hlogged) (lt_irrefl _)
  remembered sessionEpoch hconnected := (h.remembered sessionEpoch hconnected).trans (Nat.le_succ _)
  publishes := h.publishes
  subscriptions := h.subscriptions

theorem Tracked.withLifecycle (l : EdgeNodeLifecycle) : (s.withLifecycle l).Tracked :=
  ⟨h.created, h.connected, h.remembered, h.publishes, h.subscriptions⟩

theorem Tracked.handed (hid : p.id = s.log.length) : (s.handed p).Tracked where
  created client hlogged := h.created client (by simpa using hlogged)
  connected client hclient hlogged := h.connected client hclient (by simpa using hlogged)
  remembered := h.remembered
  publishes := by
    show Numbered (s.log.length + 1) (p.id :: s.waiting.map (·.id))
    rw [hid]
    exact h.publishes.push
  subscriptions := h.subscriptions.later

theorem Tracked.settled (p : Publish) (ok : Bool) : (s.settled p ok).Tracked where
  created client hlogged := h.created client (by simpa using hlogged)
  connected client hclient hlogged := h.connected client hclient (by simpa using hlogged)
  remembered := h.remembered
  publishes := h.publishes.later.sublist (List.filter_sublist.map _)
  subscriptions := h.subscriptions.later

theorem Tracked.asked (hid : subscription.id = s.log.length) : (s.asked subscription).Tracked where
  created client hlogged := h.created client (by simpa using hlogged)
  connected client hclient hlogged := h.connected client hclient (by simpa using hlogged)
  remembered := h.remembered
  publishes := h.publishes.later
  subscriptions := by
    show Numbered (s.log.length + 1) (subscription.id :: s.subscribing.map (·.id))
    rw [hid]
    exact h.subscriptions.push

theorem Tracked.answered (subscription : Subscription) (ok : Bool) : (s.answered subscription ok).Tracked where
  created client hlogged := h.created client (by simpa using hlogged)
  connected client hclient hlogged := h.connected client hclient (by simpa using hlogged)
  remembered := h.remembered
  publishes := h.publishes.later
  subscriptions := h.subscriptions.later.sublist (List.filter_sublist.map _)

theorem Tracked.logConnected (hcreated : client < s.clients.length) (remembered : Option ℕ) (birthEpoch : ℕ)
    (lifecycle : EdgeNodeLifecycle) (hkept : remembered = s.connectedSessionEpoch ∨ remembered = some s.sessionEpoch)
    (hconnected : s.client = some client → remembered = some s.sessionEpoch) :
    Tracked { s with log := .connected client :: s.log, connectedSessionEpoch := remembered, birthEpoch, lifecycle } where
  created other hlogged := by
    rcases List.mem_cons.mp hlogged with heq | hlogged
    · obtain rfl := Event.connected.inj heq
      exact hcreated
    · exact h.created other hlogged
  connected other hclient hlogged := by
    rcases List.mem_cons.mp hlogged with heq | hlogged
    · obtain rfl := Event.connected.inj heq
      exact hconnected hclient
    · rcases hkept with heq | heq
      · exact heq.trans (h.connected other hclient hlogged)
      · exact heq
  remembered sessionEpoch hsome := by
    have hsome : remembered = some sessionEpoch := hsome
    rcases hkept with heq | heq
    · exact h.remembered sessionEpoch (heq.symm.trans hsome)
    · exact (Option.some.inj (heq.symm.trans hsome)).ge
  publishes := h.publishes.later
  subscriptions := h.subscriptions.later

theorem Tracked.failed (hmsg : msg.Built config.node) : (s.handlePublishFailure msg).Tracked := by
  obtain ⟨l, heq, -, -, -⟩ := handlePublishFailure_keeps hmsg s
  rw [heq]
  exact h.withLifecycle l

theorem Tracked.publishMessage (hmsg : msg.Built config.node) : (s.publishMessage msg onSuccess encoded).Tracked := by
  unfold Bridge.publishMessage
  cases s.client with
  | none => exact h.failed hmsg
  | some client =>
    dsimp only
    split_ifs
    · exact h.handed rfl
    · exact h.failed hmsg

end

/-! ### What stays underway -/

theorem Outstanding.mono (h : s.Outstanding) (hcurrent : ∀ birth, s'.isCurrentBirth birth = s.isCurrentBirth birth)
    (hwaiting : ∀ p ∈ s.waiting, p ∈ s'.waiting) (hsubscribing : ∀ subscription ∈ s.subscribing, subscription ∈ s'.subscribing) :
    s'.Outstanding := by
  rcases h with ⟨p, hp, hkind, hbirth⟩ | ⟨subscription, hmem, hbirth⟩
  · exact .inl ⟨p, hwaiting p hp, hkind, (hcurrent p.birth).trans hbirth⟩
  · exact .inr ⟨subscription, hsubscribing subscription hmem, (hcurrent subscription.birth).trans hbirth⟩

theorem Underway.mono (h : s.Underway) (hstate : s'.lifecycle.nodeState = s.lifecycle.nodeState)
    (hcurrent : ∀ birth, s'.isCurrentBirth birth = s.isCurrentBirth birth)
    (hwaiting : ∀ p ∈ s.waiting, p ∈ s'.waiting) (hsubscribing : ∀ subscription ∈ s.subscribing, subscription ∈ s'.subscribing) :
    s'.Underway := by
  rcases h with honline | ⟨hconnecting, houtstanding⟩
  · exact .inl (hstate.trans honline)
  · exact .inr ⟨hstate.trans hconnecting, houtstanding.mono hcurrent hwaiting hsubscribing⟩

variable {l : EdgeNodeLifecycle}

theorem Underway.withState (h : s.Underway) (hstate : l.nodeState = s.lifecycle.nodeState) :
    (s.withLifecycle l).Underway :=
  h.mono hstate (fun _ => rfl) (fun _ hp => hp) fun _ hsubscription => hsubscription

/-- A callback of a publish that is not a birth that still speaks for the bridge takes nothing away. -/
theorem Underway.settled (h : s.Underway) (ht : s.Tracked) (hp : p ∈ s.waiting)
    (hother : p.message.messageType = .nbirth → s.isCurrentBirth p.birth = false) (ok : Bool) : (s.settled p ok).Underway := by
  rcases h with honline | ⟨hconnecting, hbirth | hsubscription⟩
  · exact .inl honline
  · obtain ⟨q, hq, hkind, hcurrent⟩ := hbirth
    have hne : q.id ≠ p.id := by
      intro heq
      obtain rfl := ht.publishes.eq hq hp heq
      rw [hother hkind] at hcurrent
      cases hcurrent
    have hwaits : q ∈ (s.settled p ok).waiting := List.mem_filter.mpr ⟨hq, by simpa using hne⟩
    exact .inr ⟨hconnecting, .inl ⟨q, hwaits, hkind, hcurrent⟩⟩
  · exact .inr ⟨hconnecting, .inr hsubscription⟩

theorem Underway.answered (h : s.Underway) (ht : s.Tracked) (hsubscription : subscription ∈ s.subscribing)
    (hother : s.isCurrentBirth subscription.birth = false) (ok : Bool) : (s.answered subscription ok).Underway := by
  rcases h with honline | ⟨hconnecting, hbirth | ⟨other, hmem, hcurrent⟩⟩
  · exact .inl honline
  · exact .inr ⟨hconnecting, .inl hbirth⟩
  · have hne : other.id ≠ subscription.id := by
      intro heq
      obtain rfl := ht.subscriptions.eq hmem hsubscription heq
      rw [hother] at hcurrent
      cases hcurrent
    have hwaits : other ∈ (s.answered subscription ok).subscribing := List.mem_filter.mpr ⟨hmem, by simpa using hne⟩
    exact .inr ⟨hconnecting, .inr ⟨other, hwaits, hcurrent⟩⟩

theorem Underway.publishMessage (h : s.Underway) (hheld : s.client = some client) (hmsg : msg.Built config.node)
    (hkind : msg.messageType ≠ .nbirth) (hdata : encoded = false → msg.messageType ≠ .ndata) :
    (s.publishMessage msg onSuccess encoded).Underway := by
  rw [publishMessage_held hheld]
  split_ifs with hencoded
  · exact h.mono rfl (fun _ => rfl) (fun _ hp => List.mem_cons_of_mem _ hp) fun _ hsubscription => hsubscription
  · obtain ⟨l, heq, -, -, ⟨hcontra | hcontra, -⟩ | hstate⟩ := handlePublishFailure_keeps hmsg s
    · exact absurd hcontra hkind
    · exact absurd hcontra (hdata (Bool.eq_false_iff.mpr hencoded))
    · rw [heq]
      exact h.withState hstate

theorem Underway.confirmed (h : s.Underway) : s.lifecycle.confirmNodeBirth.1.nodeState = .online := by
  rcases h with honline | ⟨hconnecting, -⟩
  · simp [EdgeNodeLifecycle.confirmNodeBirth, honline]
  · simp [EdgeNodeLifecycle.confirmNodeBirth, hconnecting]

theorem underway_birth (hsound : s.Sound config) (hheld : s.client = some client) (hstate : s.lifecycle.nodeState = .connecting)
    (hkind : msg.messageType = .nbirth) : (s.publishMessage msg onSuccess true).Underway := by
  rw [publishMessage_held hheld, if_pos rfl]
  have hcurrent : s.isCurrentBirth ⟨client, s.sessionEpoch, s.birthEpoch⟩ = true :=
    isCurrentBirth_iff.mpr ⟨hsound.started client hheld, hheld, rfl⟩
  exact .inr ⟨hstate, .inl ⟨_, List.mem_cons_self .., hkind, hcurrent⟩⟩

/-! ### Every step without such a failure keeps it -/

theorem Recovering.init (config : SparkplugConfig) (nodeMetrics : List SparkplugMetric) : (init nodeMetrics).Recovering config :=
  ⟨.init config nodeMetrics, .init nodeMetrics, fun _ hcontra => by cases hcontra⟩

section
variable (h : s.Recovering config)
include h

theorem Recovering.detached (hdetached : Detached s s') : s'.Recovering config := by
  refine ⟨h.sound.detached hdetached, h.tracked.detached hdetached, fun client hclient => ?_⟩
  rw [hdetached.client] at hclient
  cases hclient

theorem Recovering.opened (hclient : s.client = none) {willTopic : Text}
    (htopic : buildWillTopic config.node = .ok willTopic) : (s.opened willTopic).Recovering config := by
  refine ⟨h.sound.opened hclient htopic, h.tracked.opened willTopic, fun client _ hconnected => ?_⟩
  have hcontra : s.sessionEpoch + 1 ≤ s.sessionEpoch := h.tracked.remembered (s.sessionEpoch + 1) hconnected
  exact absurd hcontra (Nat.not_succ_le_self _)

theorem Recovering.withState (hsound : (s.withLifecycle l).Sound config)
    (hstate : l.nodeState = s.lifecycle.nodeState) : (s.withLifecycle l).Recovering config :=
  ⟨hsound, h.tracked.withLifecycle l, fun client hclient hconnected => (h.underway client hclient hconnected).withState hstate⟩

/-- A message that is not a birth of the node, after a change of the life cycle that keeps the state of the node. -/
theorem Recovering.publishMessage (hheld : s.client = some client)
    (hstate : l.nodeState = s.lifecycle.nodeState) (hmsg : msg.Built config.node) (hkind : msg.messageType ≠ .nbirth)
    (hdata : encoded = false → msg.messageType ≠ .ndata) (hsound : ((s.withLifecycle l).publishMessage msg onSuccess encoded).Sound config) :
    ((s.withLifecycle l).publishMessage msg onSuccess encoded).Recovering config := by
  have hheld' : (s.withLifecycle l).client = some client := hheld
  refine ⟨hsound, (h.tracked.withLifecycle l).publishMessage hmsg, fun other hother hconnected => ?_⟩
  have hbefore : s.connectedSessionEpoch = some s.sessionEpoch := by
    rw [publishMessage_held hheld'] at hconnected
    split_ifs at hconnected with hencoded
    · exact hconnected
    · obtain ⟨l', heq, -⟩ := handlePublishFailure_keeps hmsg (s.withLifecycle l)
      rw [heq] at hconnected
      exact hconnected
  exact ((h.underway client hheld hbefore).withState hstate).publishMessage hheld' hmsg hkind hdata

end

theorem Recovering.birth (ht : s.Tracked) (hheld : s.client = some client) (hstarted : s.Sound config) (hstate : s.lifecycle.nodeState = .connecting)
    (hmsg : msg.Built config.node) (hkind : msg.messageType = .nbirth) (hsound : (s.publishMessage msg onSuccess true).Sound config) :
    (s.publishMessage msg onSuccess true).Recovering config :=
  ⟨hsound, ht.publishMessage hmsg, fun _ _ _ => underway_birth hstarted hheld hstate hkind⟩

section
variable (h : s.Recovering config)
include h

theorem Recovering.rebirth (hencoded : encoded = false → s.lifecycle.nodeState ≠ .online) :
    (s.rebirth config encoded).Recovering config := by
  have hsound : (s.rebirth config encoded).Sound config := h.sound.rebirth
  rcases rebirth_cases h.sound encoded with ⟨-, heq⟩ | ⟨client, msg, hclient, honline, hmsg, hkind, -, heq⟩
  · rw [heq]
    exact h
  · obtain rfl : encoded = true := by
      rw [← Bool.not_eq_false]
      exact fun hfalse => hencoded hfalse honline
    rw [heq] at hsound ⊢
    have hborn : Sound config { s with birthEpoch := s.birthEpoch + 1, lifecycle := s.lifecycle.reborn } :=
      h.sound.withState (fun hnone => absurd (hnone.symm.trans hclient) (by simp)) (s.reborn_sound config) h.sound.waiting
    have htracked : Tracked { s with birthEpoch := s.birthEpoch + 1, lifecycle := s.lifecycle.reborn } :=
      ⟨h.tracked.created, h.tracked.connected, h.tracked.remembered, h.tracked.publishes, h.tracked.subscriptions⟩
    exact .birth htracked hclient hborn rfl hmsg hkind hsound

theorem Recovering.connect {record : MqttClient} (hrecord : s.clients[client]? = some record)
    {sessionEpoch : ℕ} (hsession : record.sessionEpoch = some sessionEpoch)
    (hencoded : encoded = false → s.client = some client → s.connectedSessionEpoch = some s.sessionEpoch) :
    (Bridge.onConnectEvent config { s with log := .connected client :: s.log } client sessionEpoch encoded).Recovering config := by
  have hcreated : client < s.clients.length := (List.getElem?_eq_some_iff.mp hrecord).1
  have hlogged := h.sound.logged client
  have hsame : s.client = some client → sessionEpoch = s.sessionEpoch := by
    intro hclient
    obtain ⟨found, hfound, hattached⟩ := h.sound.attached client hclient
    obtain rfl := Option.some.inj (hfound.symm.trans hrecord)
    exact Option.some.inj (hsession.symm.trans hattached)
  rcases onConnectEvent_cases hlogged client sessionEpoch encoded with
    ⟨hignored, heq⟩ | ⟨hclient, hepoch, hfresh, msg, hmsg, hkind, -, heq⟩
  · rw [heq]
    refine ⟨hlogged, h.tracked.logConnected hcreated s.connectedSessionEpoch s.birthEpoch s.lifecycle (.inl rfl) fun hclient => ?_, fun other hclient hconnected => ?_⟩
    · rcases hignored with hother | hconnected
      · have hcurrent : s.isCurrentSession client sessionEpoch = true := by
          simp [isCurrentSession, h.sound.started client hclient, hclient, hsame hclient]
        have hsession' : s.isCurrentSession client sessionEpoch = false := hother
        rw [hcurrent] at hsession'
        cases hsession'
      · exact hconnected.trans (congrArg some (hsame hclient))
    · exact (h.underway other hclient hconnected).mono rfl (fun _ => rfl) (fun _ hp => hp) fun _ hmem => hmem
  · have hclient : s.client = some client := hclient
    have hepoch : s.sessionEpoch = sessionEpoch := hepoch
    obtain rfl : encoded = true := by
      rw [← Bool.not_eq_false]
      intro hfalse
      exact hfresh ((hencoded hfalse hclient).trans (congrArg some hepoch))
    have hborn : Sound config { s with
        log := .connected client :: s.log, connectedSessionEpoch := some sessionEpoch
        birthEpoch := s.birthEpoch + 1, lifecycle := s.lifecycle.reborn } :=
      h.sound.withState (fun hnone => absurd (hnone.symm.trans hclient) (by simp)) (s.reborn_sound config) h.sound.waiting
    have htracked := h.tracked.logConnected hcreated (some sessionEpoch) (s.birthEpoch + 1) s.lifecycle.reborn
      (.inr (congrArg some hepoch.symm)) fun _ => congrArg some hepoch.symm
    rw [heq]
    refine .birth htracked hclient hborn rfl hmsg hkind (hborn.publishMessage hmsg (by simp [hkind]) fun birth hbirth => ?_)
    obtain rfl := OnSuccess.subscribeAfterNodeBirth.inj hbirth
    exact ⟨hclient, by rw [← hepoch]⟩

theorem Recovering.published (hp : p ∈ s.waiting)
    (hfails : ok = false → (p.message.messageType = .nbirth ∨ p.message.messageType = .ndata) → s.isCurrentBirth p.birth = false) :
    (s.published config p ok).Recovering config := by
  have hbuilt := h.sound.waiting p hp
  have hsound := h.sound.published hbuilt ok
  have hsettled := h.tracked.settled p ok
  -- a callback that is not of a birth that speaks for the bridge
  have hother : ∀ l : EdgeNodeLifecycle, l.nodeState = s.lifecycle.nodeState → (p.message.messageType = .nbirth → s.isCurrentBirth p.birth = false) →
      ∀ client, s.client = some client → s.connectedSessionEpoch = some s.sessionEpoch → ((s.settled p ok).withLifecycle l).Underway :=
    fun l hstate hnot client hclient hconnected => ((h.underway client hclient hconnected).settled h.tracked hp hnot ok).withState hstate
  rcases published_cases hbuilt h.sound.named ok with ⟨hstale, heq⟩ | ⟨hcurrent, ⟨hok, heq⟩ | ⟨-, hok⟩⟩
  · rw [heq] at hsound ⊢
    exact ⟨hsound, hsettled, hother s.lifecycle rfl fun _ => hstale⟩
  · have hkind : ¬(p.message.messageType = .nbirth ∨ p.message.messageType = .ndata) := by
      intro hkind
      rw [hfails hok hkind] at hcurrent
      cases hcurrent
    obtain ⟨l, hfailed, -, -, ⟨hcontra, -⟩ | hstate⟩ := handlePublishFailure_keeps hbuilt.message (s.settled p ok)
    · exact absurd hcontra hkind
    · rw [heq, hfailed] at hsound ⊢
      exact ⟨hsound, hsettled.withLifecycle l, hother l hstate fun hcontra => absurd (.inl hcontra) hkind⟩
  · rcases hok with ⟨hkind, ⟨-, heq⟩ | ⟨-, filters, -, heq⟩⟩ | ⟨hkind, heq⟩ | ⟨deviceId, id, -, -, ⟨hkind, heq⟩ | ⟨hkind, heq⟩⟩
    · rw [heq] at hsound ⊢
      exact ⟨hsound, hsettled.withLifecycle _, fun client hclient hconnected => .inl (h.underway client hclient hconnected).confirmed⟩
    · rw [heq] at hsound ⊢
      refine ⟨hsound, hsettled.asked rfl, fun client hclient hconnected => ?_⟩
      rcases h.underway client hclient hconnected with honline | ⟨hconnecting, -⟩
      · exact .inl honline
      · exact .inr ⟨hconnecting, .inr ⟨_, List.mem_cons_self .., hcurrent⟩⟩
    · rw [heq] at hsound ⊢
      refine ⟨hsound, hsettled, hother s.lifecycle rfl fun hcontra => ?_⟩
      rcases hkind with hkind | hkind <;> cases hkind.symm.trans hcontra
    · rw [heq] at hsound ⊢
      exact ⟨hsound, hsettled.withLifecycle _, hother _ (confirmDevice_keeps _ _ _).1.2.2 fun hcontra => by cases hkind.symm.trans hcontra⟩
    · rw [heq] at hsound ⊢
      exact ⟨hsound, hsettled.withLifecycle _, hother _ (confirmDevice_keeps _ _ _).2.2.2 fun hcontra => by cases hkind.symm.trans hcontra⟩

theorem Recovering.subscribed (hsubscription : subscription ∈ s.subscribing)
    (hfails : ok = false → s.isCurrentBirth subscription.birth = false) : (s.subscribed subscription ok).Recovering config := by
  have hsound := h.sound.subscribed subscription ok
  have hanswered := h.tracked.answered subscription ok
  rcases subscribed_cases s subscription ok with ⟨hstale, heq⟩ | ⟨hcurrent, ⟨hok, -⟩ | ⟨-, heq⟩⟩
  · rw [heq] at hsound ⊢
    exact ⟨hsound, hanswered, fun client hclient hconnected =>
      (h.underway client hclient hconnected).answered h.tracked hsubscription hstale ok⟩
  · rw [hfails hok] at hcurrent
    cases hcurrent
  · rw [heq] at hsound ⊢
    exact ⟨hsound, hanswered.withLifecycle _, fun client hclient hconnected => .inl (h.underway client hclient hconnected).confirmed⟩

theorem Recovering.step {a : Action} (hfails : ¬NodeFails s a) (hstep : step config s a = some s') :
    s'.Recovering config := by
  have hsound := h.sound.step hstep
  cases h.sound.stepped hstep with
  | same => exact h
  | opened htopic hclient => exact h.opened hclient htopic
  | detached hdetached => exact h.detached hdetached
  | settings | unnamed => exact h.withState hsound rfl
  | birth hclient _ hmsg _ hkind => exact h.publishMessage hclient rfl hmsg (by simp [hkind]) (by simp [hkind]) hsound
  | siteData hclient _ _ _ _ _ hmsg _ hkind => exact h.publishMessage hclient rfl hmsg (by simp [hkind]) (by simp [hkind]) hsound
  | nodeData hclient hcan hchanged hmsg hkind =>
    exact h.publishMessage hclient rfl hmsg (by simp [hkind]) (fun hencoded => absurd ⟨hencoded, hcan, hchanged⟩ hfails) hsound
  | death hclient _ _ _ hmsg _ hkind => exact h.publishMessage hclient rfl hmsg (by simp [hkind]) (by simp [hkind]) hsound
  | rebirth ha =>
    refine h.rebirth fun hencoded honline => ?_
    rcases ha with rfl | ⟨client, topic, body, rfl, hclient, hcommanded⟩
    · exact hfails ⟨hencoded, honline⟩
    · exact hfails ⟨hencoded, honline, hclient, hcommanded⟩
  | strange hrecord hsession =>
    have hcreated := (List.getElem?_eq_some_iff.mp hrecord).1
    refine ⟨hsound, h.tracked.logConnected hcreated s.connectedSessionEpoch s.birthEpoch s.lifecycle (.inl rfl) fun hclient => ?_,
      fun other hclient hconnected => ?_⟩
    · obtain ⟨found, hfound, hattached⟩ := h.sound.attached _ hclient
      obtain rfl := Option.some.inj (hfound.symm.trans hrecord)
      cases hsession.symm.trans hattached
    · exact (h.underway other hclient hconnected).mono rfl (fun _ => rfl) (fun _ hp => hp) fun _ hmem => hmem
  | connect hrecord hsession =>
    refine h.connect hrecord hsession fun hencoded hclient => ?_
    by_contra hfresh
    exact hfails ⟨hencoded, hclient, hfresh⟩
  | published hp =>
    refine h.published hp fun hok hkind => ?_
    by_contra hcurrent
    exact hfails ⟨hok, _, hp, rfl, hkind, by simpa using hcurrent⟩
  | subscribed hsubscription =>
    refine h.subscribed hsubscription fun hok => ?_
    by_contra hcurrent
    exact hfails ⟨hok, _, hsubscription, rfl, by simpa using hcurrent⟩

end

/-- What the bridge waits for: the node is online or a callback of the current birth is outstanding once
its client has connected, and without a client the timer is armed. -/
structure NotDead (s : Bridge) : Prop where
  underway : ∀ client, s.client = some client → .connected client ∈ s.log → s.lifecycle.nodeState = .online ∨ s.Outstanding
  armed : s.client = none → s.reconnectTimer.isSome = true

end Bridge

/-- In every run in which no birth of the node, no subscription and no data of the node fails, a bridge
that is started is not dead. -/
theorem never_dead (config : SparkplugConfig) (nodeMetrics : List SparkplugMetric) :
    ∀ s, Reachable (step config) (fun s a => ¬NodeFails s a) (Bridge.init nodeMetrics) s → s.started = true → s.NotDead := by
  intro s hs hstarted
  have hrecovering : s.Recovering config := hs.invariant (.init config nodeMetrics) fun _ _ _ h hfails hstep => h.step hfails hstep
  refine ⟨fun client hclient hlogged => ?_, hrecovering.sound.reconnects hstarted⟩
  have hconnected : s.connectedSessionEpoch = some s.sessionEpoch := hrecovering.tracked.connected client hclient hlogged
  rcases hrecovering.underway client hclient hconnected with honline | ⟨-, houtstanding⟩
  · exact .inl honline
  · exact .inr houtstanding

theorem never_dead_online : ∃ s, exec (step plant) (Bridge.init []) goOnline = some s ∧ s.started = true ∧ s.NotDead := by
  have hrun : (exec (step plant) (Bridge.init []) goOnline).isSome := by decide
  have hexec := eq_some_getD hrun (Bridge.init [])
  have hok : ∀ s, ∀ a ∈ goOnline, ¬NodeFails s a := by
    intro s a ha
    simp only [goOnline, List.mem_cons, List.not_mem_nil, or_false] at ha
    rcases ha with rfl | rfl | rfl | rfl <;> simp [NodeFails]
  have hs : Reachable (step plant) (fun s a => ¬NodeFails s a) (Bridge.init []) _ := .of_exec .start goOnline hok hexec
  have hstarted : ((exec (step plant) (Bridge.init []) goOnline).getD (Bridge.init [])).started = true := by decide
  exact ⟨_, hexec, hstarted, never_dead plant [] _ hs hstarted⟩

/-- In every run the timer is armed for the current session just while a started bridge has no client, and then no device is online. -/
theorem reconnects_exactly {nodeMetrics : List SparkplugMetric} (hs : Reachable (step config) (fun _ _ => True) (Bridge.init nodeMetrics) s) :
    s.reconnectTimer = (if s.started = true ∧ s.client = none then some s.sessionEpoch else none) ∧
      (s.client = none → ∀ deviceId record, s.lifecycle.devices deviceId = some record → record.state ≠ .online) := by
  have h : s.Sound config := hs.invariant (.init config nodeMetrics) fun _ _ _ h _ hstep => h.step hstep
  constructor
  · cases htimer : s.reconnectTimer with
    | none => exact (if_neg fun ⟨hstarted, hclient⟩ => by simpa [htimer] using h.reconnects hstarted hclient).symm
    | some expectedEpoch =>
      obtain ⟨hstarted, hclient, rfl⟩ := h.armed expectedEpoch htimer
      exact (if_pos ⟨hstarted, hclient⟩).symm
  · intro hclient deviceId record hrecord honline
    have hnode := (h.lifecycle deviceId record hrecord honline).1
    rw [h.resting hclient] at hnode
    cases hnode

/-- The client loses the session in which the node was born. -/
theorem reconnects_exactly_lost : ∃ s, exec (step plant) (Bridge.init []) (goOnline ++ [.sessionLoss 0]) = some s ∧ s.started = true ∧
    s.reconnectTimer = (if s.started = true ∧ s.client = none then some s.sessionEpoch else none) := by
  have hexec := eq_some_getD (show (exec (step plant) (Bridge.init []) (goOnline ++ [.sessionLoss 0])).isSome by decide) (Bridge.init [])
  exact ⟨_, hexec, by decide, (reconnects_exactly (.of_exec .start _ (fun _ _ _ => trivial) hexec)).1⟩

/-- The broker does not take a value of the node, and the application asks for a birth. -/
def valueRefused : List Action := goOnline ++ [.publishNodeData [level] true, .published 5 false, .rebirth true]

/-- The client is held and nothing is outstanding. -/
theorem dead_after_value : ∃ s, Reachable (step plant) (fun _ _ => True) (Bridge.init []) s ∧ s.started = true ∧ ¬s.NotDead := by
  have hrun : (exec (step plant) (Bridge.init []) valueRefused).isSome := by decide
  have hexec := eq_some_getD hrun (Bridge.init [])
  refine ⟨_, .of_exec .start valueRefused (fun _ _ _ => trivial) hexec, by decide, fun hlive => ?_⟩
  rcases hlive.underway 0 (by decide) (by decide) with honline | ⟨p, hp, -⟩ | ⟨subscription, hmem, -⟩
  · exact absurd honline (by decide)
  · have hnone : ((exec (step plant) (Bridge.init []) valueRefused).getD (Bridge.init [])).waiting = [] := by decide
    rw [hnone] at hp
    cases hp
  · have hnone : ((exec (step plant) (Bridge.init []) valueRefused).getD (Bridge.init [])).subscribing = [] := by decide
    rw [hnone] at hmem
    cases hmem

end OxScada.Sparkplug
