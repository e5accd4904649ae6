import OxScada.Sparkplug.Lifecycle

/-! Whole runs of the life cycle, with callbacks that are late, repeated or without a number. A device
is born or has a transition that waits only while the node is online, as long as no session begins
with such a device. -/

namespace OxScada.Sparkplug
open OxScada.Bytes OxScada.Runs

inductive Operation where
  | registerDevice (definition : DeviceDefinition)
  | beginSession
  | onConnect
  | confirmNodeBirth
  | failNodeBirth
  | birthDevice (definition : DeviceDefinition)
  | confirmDeviceBirth (deviceId : Text) (transitionId : Option ℕ)
  | failDeviceBirth (deviceId : Text) (transitionId : Option ℕ)
  | publishNodeData (changed : List SparkplugMetric)
  | publishDeviceData (deviceId : Text) (changed : List SparkplugMetric)
  | deathDevice (deviceId : Text)
  | confirmDeviceDeath (deviceId : Text) (transitionId : Option ℕ)
  | failDeviceDeath (deviceId : Text) (transitionId : Option ℕ)
  | onDisconnect
  | onHostState (online : Bool)

namespace EdgeNodeLifecycle
variable (node : EdgeNodeDescriptor) (l : EdgeNodeLifecycle)

def apply : Operation → EdgeNodeLifecycle × Option OutboundMessage
  | .registerDevice definition => (l.registerDevice definition, none)
  | .beginSession => (l.beginSession, none)
  | .onConnect => ((l.onConnect node).1, (l.onConnect node).2.toOption)
  | .confirmNodeBirth => (l.confirmNodeBirth.1, none)
  | .failNodeBirth => (l.failNodeBirth, none)
  | .birthDevice definition => ((l.birthDevice node definition).1, (l.birthDevice node definition).2.toOption)
  | .confirmDeviceBirth deviceId transitionId => ((l.confirmDeviceBirth deviceId transitionId).1, none)
  | .failDeviceBirth deviceId transitionId => (l.failDeviceBirth deviceId transitionId, none)
  | .publishNodeData changed => ((l.publishNodeData node changed).1, (l.publishNodeData node changed).2.toOption.join)
  | .publishDeviceData deviceId changed =>
    ((l.publishDeviceData node deviceId changed).1, (l.publishDeviceData node deviceId changed).2.toOption.join)
  | .deathDevice deviceId => ((l.deathDevice node deviceId).1, (l.deathDevice node deviceId).2.toOption.join)
  | .confirmDeviceDeath deviceId transitionId => ((l.confirmDeviceDeath deviceId transitionId).1, none)
  | .failDeviceDeath deviceId transitionId => (l.failDeviceDeath deviceId transitionId, none)
  | .onDisconnect => (l.onDisconnect, none)
  | .onHostState online => ((l.onHostState online).1, none)

def pendingId (deviceId : Text) : Option ℕ := (l.devices deviceId).bind fun record => record.pending.map (·.id)

def endedAt (after : EdgeNodeLifecycle) (deviceId : Text) : List ℕ :=
  if after.pendingId deviceId = none then (l.pendingId deviceId).toList else []

/-- The transition that a callback for a device puts an end to. -/
def settledBy (after : EdgeNodeLifecycle) : Operation → List ℕ
  | .confirmDeviceBirth deviceId _ | .failDeviceBirth deviceId _ | .confirmDeviceDeath deviceId _ | .failDeviceDeath deviceId _ =>
    l.endedAt after deviceId
  | _ => []

end EdgeNodeLifecycle

def DeviceRecord.Active (record : DeviceRecord) : Prop := record.state = .online ∨ record.pending.isSome = true

def EdgeNodeLifecycle.Gated (l : EdgeNodeLifecycle) : Prop :=
  ∀ deviceId record, l.devices deviceId = some record → record.Active → l.nodeState = .online

structure Traced where
  lifecycle : EdgeNodeLifecycle
  issued : List ℕ := []
  settled : List ℕ := []
  built : List (NodeState × OutboundMessage) := []

def Traced.record (t : Traced) (op : Operation) (after : EdgeNodeLifecycle) (msg : Option OutboundMessage) : Traced where
  lifecycle := after
  issued := if after.nextTransitionId = t.lifecycle.nextTransitionId then t.issued else t.lifecycle.nextTransitionId :: t.issued
  settled := t.lifecycle.settledBy after op ++ t.settled
  built := (msg.map fun msg => (t.lifecycle.nodeState, msg)).toList ++ t.built

def Traced.step (node : EdgeNodeDescriptor) (t : Traced) (op : Operation) : Option Traced :=
  let (after, msg) := t.lifecycle.apply node op
  some (t.record op after msg)

structure Traced.Lawful (t : Traced) : Prop where
  gated : t.lifecycle.Gated
  issued : t.issued.Nodup
  settled : t.settled.Nodup
  pending : ∀ deviceId id, t.lifecycle.pendingId deviceId = some id → id ∈ t.issued ∧ id ∉ t.settled
  built : ∀ entry ∈ t.built, entry.2.messageType = .nbirth ∨ entry.1 = .online

structure Traced.Tracked (t : Traced) : Prop extends t.Lawful where
  below : ∀ id ∈ t.issued, id < t.lifecycle.nextTransitionId
  known : ∀ id ∈ t.settled, id ∈ t.issued
  own : ∀ deviceId other id, t.lifecycle.pendingId deviceId = some id → t.lifecycle.pendingId other = some id → deviceId = other

namespace EdgeNodeLifecycle
variable {node : EdgeNodeDescriptor} {l after : EdgeNodeLifecycle} {deviceId : Text} {record : DeviceRecord}

/-! ### What an operation changes -/

/-- What waits afterwards waited before, or is the one transition that was issued. -/
structure Evolves (l after : EdgeNodeLifecycle) : Prop where
  next : after.nextTransitionId = l.nextTransitionId ∨ after.nextTransitionId = l.nextTransitionId + 1
  pending : ∃ issuedFor, ∀ deviceId id, after.pendingId deviceId = some id → l.pendingId deviceId = some id ∨
    deviceId = issuedFor ∧ id = l.nextTransitionId ∧ after.nextTransitionId = l.nextTransitionId + 1
  gated : l.Gated → after.Gated

theorem pendingId_setDevice (other : Text) : (l.setDevice deviceId record).pendingId other =
    if other = deviceId then record.pending.map (·.id) else l.pendingId other := by
  unfold pendingId
  rw [setDevice_devices, Function.update_apply]
  split_ifs <;> rfl

theorem Evolves.kept (hdevices : after.devices = l.devices) (hnext : after.nextTransitionId = l.nextTransitionId)
    (hstate : l.nodeState = .online → after.nodeState = .online) : Evolves l after := by
  refine ⟨.inl hnext, ⟨[], fun deviceId id hid => .inl ?_⟩, fun h deviceId record hrecord hactive => ?_⟩
  · rwa [pendingId, hdevices] at hid
  · rw [hdevices] at hrecord
    exact hstate (h deviceId record hrecord hactive)

theorem Evolves.refl (l : EdgeNodeLifecycle) : Evolves l l := .kept rfl rfl id

theorem Evolves.quiet (hnext : after.nextTransitionId = l.nextTransitionId)
    (hquiet : ∀ deviceId record, after.devices deviceId = some record → ¬record.Active) : Evolves l after := by
  refine ⟨.inl hnext, ⟨[], fun deviceId id hid => ?_⟩, fun _ deviceId record hrecord hactive => absurd hactive (hquiet deviceId record hrecord)⟩
  obtain ⟨record, hrecord, hpending⟩ := Option.bind_eq_some_iff.mp hid
  obtain ⟨transition, htransition, -⟩ := Option.map_eq_some_iff.mp hpending
  exact absurd (.inr (by rw [htransition]; rfl)) (hquiet deviceId record hrecord)

theorem Evolves.reset (hnext : after.nextTransitionId = l.nextTransitionId)
    (hdevices : after.devices = fun deviceId => (l.devices deviceId).map DeviceRecord.reset) : Evolves l after := by
  refine .quiet hnext fun deviceId record hrecord hactive => ?_
  rw [hdevices] at hrecord
  obtain ⟨before, -, rfl⟩ := Option.map_eq_some_iff.mp hrecord
  rcases hactive with hstate | hpending
  · cases hstate
  · cases hpending

theorem Gated.setDevice (h : l.Gated) (hactive : record.Active → l.nodeState = .online) : (l.setDevice deviceId record).Gated := by
  intro other found hfound hfoundActive
  rw [setDevice_devices, Function.update_apply] at hfound
  split_ifs at hfound
  · obtain rfl := Option.some.inj hfound
    exact hactive hfoundActive
  · exact h other found hfound hfoundActive

theorem Evolves.setDevice (hactive : l.Gated → record.Active → l.nodeState = .online)
    (hpending : record.pending = none ∨ record.pending.map (·.id) = l.pendingId deviceId) : Evolves l (l.setDevice deviceId record) := by
  refine ⟨.inl rfl, ⟨[], fun other id hid => .inl ?_⟩, fun h => h.setDevice (hactive h)⟩
  rw [pendingId_setDevice] at hid
  split_ifs at hid with heq
  · rcases hpending with hnone | hsame
    · rw [hnone] at hid
      cases hid
    · rwa [heq, ← hsame]
  · exact hid

theorem Evolves.begun (honline : l.Gated → l.nodeState = .online) {kind : TransitionKind}
    (hpending : record.pending = some ⟨kind, l.nextTransitionId⟩) : Evolves l (l.begun deviceId record) := by
  refine ⟨.inr rfl, ⟨deviceId, fun other id hid => ?_⟩, fun h => h.setDevice fun _ => honline h⟩
  have hid : (l.setDevice deviceId record).pendingId other = some id := hid
  rw [pendingId_setDevice] at hid
  split_ifs at hid with heq
  · rw [hpending] at hid
    exact .inr ⟨heq, (Option.some.inj hid).symm, rfl⟩
  · exact .inl hid

theorem Evolves.settle (hrecord : l.devices deviceId = some record) {settled : DeviceRecord}
    (hstate : settled.state = .online → record.state = .online ∨ l.nodeState = .online)
    (hpending : settled.pending = none ∨ settled.pending = record.pending) : Evolves l (l.setDevice deviceId settled) := by
  refine .setDevice (fun h hactive => ?_) (hpending.imp_right fun hsame => ?_)
  · rcases hactive with honline | hsome
    · exact (hstate honline).elim (fun hbefore => h deviceId record hrecord (.inl hbefore)) id
    · rcases hpending with hnone | hsame
      · rw [hnone] at hsome
        cases hsome
      · exact h deviceId record hrecord (.inr (hsame ▸ hsome))
  · rw [pendingId, hrecord, hsame, Option.bind_some]

theorem evolves (op : Operation) (hbegin : op = .beginSession → ∀ deviceId record, l.devices deviceId = some record → ¬record.Active) :
    Evolves l (l.apply node op).1 := by
  cases op with
  | registerDevice definition =>
    dsimp only [apply, registerDevice]
    cases hrecord : l.devices definition.deviceId with
    | none => exact .setDevice (fun _ hactive => hactive.elim (fun h => by cases h) fun h => by cases h) (.inl rfl)
    | some record => exact .settle hrecord .inl (.inr rfl)
  | beginSession => exact .quiet rfl (hbegin rfl)
  | onConnect =>
    dsimp only [apply, onConnect]
    split_ifs <;> exact .reset rfl rfl
  | confirmNodeBirth =>
    rcases confirmNodeBirth_eq (l := l) with hsame | ⟨-, honline⟩
    · simpa only [apply, hsame] using Evolves.refl l
    · have hborn : Evolves l { l with nodeState := .online } := .kept rfl rfl fun _ => rfl
      simpa only [apply, honline] using hborn
  | failNodeBirth | onDisconnect => exact .reset rfl rfl
  | birthDevice definition =>
    dsimp only [apply]
    by_cases honline : l.nodeState = .online
    · rw [birthDevice_online honline]
      exact .begun (fun _ => honline) rfl
    · rw [birthDevice, if_pos honline]
      exact .refl l
  | confirmDeviceBirth deviceId transitionId =>
    dsimp only [apply, confirmDeviceBirth]
    cases hrecord : l.devices deviceId with
    | none => exact .refl l
    | some record =>
      dsimp only
      split_ifs with hrefused
      · exact .refl l
      -- a birth is refused that is confirmed after the session of its node
      · have honline : l.nodeState = .online := by
          simp only [Bool.or_eq_true, not_or, decide_eq_true_eq, not_not] at hrefused
          exact hrefused.1
        exact .settle hrecord (fun _ => .inr honline) (.inl rfl)
  | failDeviceBirth deviceId transitionId =>
    dsimp only [apply, failDeviceBirth]
    cases hrecord : l.devices deviceId with
    | none => exact .refl l
    | some record =>
      have hreset : Evolves l (l.setDevice deviceId record.reset) := .settle hrecord (fun h => by cases h) (.inl rfl)
      cases transitionId with
      | none | some =>
        dsimp only
        split_ifs
        · exact .refl l
        · exact hreset
  | publishNodeData changed =>
    dsimp only [apply, publishNodeData]
    split_ifs
    · exact .refl l
    · exact .kept rfl rfl id
  | publishDeviceData deviceId changed =>
    dsimp only [apply]
    rcases publishDeviceData_cases node l deviceId changed with hnone | ⟨record, -, -, -, -, -, hsent⟩
    · rw [hnone]
      exact .refl l
    · rw [hsent]
      exact .kept rfl rfl id
  | deathDevice deviceId =>
    dsimp only [apply]
    rcases deathDevice_cases node l deviceId with hnone | ⟨record, hrecord, honline, -, hbegun⟩
    · rw [hnone]
      exact .refl l
    · rw [hbegun]
      exact .begun (fun h => h deviceId record hrecord (.inl honline)) rfl
  | confirmDeviceDeath deviceId transitionId =>
    dsimp only [apply, confirmDeviceDeath]
    cases hrecord : l.devices deviceId with
    | none => exact .refl l
    | some record =>
      dsimp only
      split_ifs
      · exact .refl l
      · exact .settle hrecord (fun h => by cases h) (.inl rfl)
  | failDeviceDeath deviceId transitionId =>
    dsimp only [apply, failDeviceDeath]
    cases hrecord : l.devices deviceId with
    | none => exact .refl l
    | some record =>
      dsimp only
      split_ifs
      · exact .refl l
      · exact .settle hrecord .inl (.inl rfl)
  | onHostState online => exact .kept rfl rfl id

theorem apply_built (h : l.Gated) {op : Operation} {msg : OutboundMessage} (hmsg : (l.apply node op).2 = some msg) :
    msg.messageType = .nbirth ∨ l.nodeState = .online := by
  cases op with
  | onConnect =>
    left
    dsimp only [apply, onConnect, outbound] at hmsg
    cases htopic : buildNodeTopic node .nbirth with
    | error e =>
      rw [htopic] at hmsg
      cases hmsg
    | ok topic =>
      rw [htopic] at hmsg
      rw [← Option.some.inj hmsg]
  | birthDevice definition =>
    right
    by_contra hstate
    dsimp only [apply] at hmsg
    rw [birthDevice, if_pos hstate] at hmsg
    cases hmsg
  | publishNodeData changed =>
    right
    dsimp only [apply, publishNodeData] at hmsg
    split_ifs at hmsg with hquiet
    · cases hmsg
    · simp only [canPublishData, Bool.or_eq_true, not_or, Bool.not_eq_true', Bool.not_eq_false, Bool.and_eq_true, decide_eq_true_eq] at hquiet
      exact hquiet.1.1
  | publishDeviceData deviceId changed =>
    right
    dsimp only [apply] at hmsg
    rcases publishDeviceData_cases node l deviceId changed with hnone | ⟨record, hrecord, honline, -⟩
    · rw [hnone] at hmsg
      cases hmsg
    · exact h deviceId record hrecord (.inl honline)
  | deathDevice deviceId =>
    right
    dsimp only [apply] at hmsg
    rcases deathDevice_cases node l deviceId with hnone | ⟨record, hrecord, honline, -⟩
    · rw [hnone] at hmsg
      cases hmsg
    · exact h deviceId record hrecord (.inl honline)
  | _ => cases hmsg

theorem settledBy_spec (l after : EdgeNodeLifecycle) (op : Operation) : (l.settledBy after op).Nodup ∧
    ∀ id ∈ l.settledBy after op, ∃ deviceId, l.pendingId deviceId = some id ∧ after.pendingId deviceId = none := by
  have hended : ∀ deviceId, (l.endedAt after deviceId).Nodup ∧
      ∀ id ∈ l.endedAt after deviceId, ∃ deviceId, l.pendingId deviceId = some id ∧ after.pendingId deviceId = none := by
    intro deviceId
    unfold endedAt
    split_ifs with hnone
    · refine ⟨?_, fun id hid => ⟨deviceId, Option.mem_toList.mp hid, hnone⟩⟩
      cases l.pendingId deviceId <;> simp
    · simp
  cases op with
  | confirmDeviceBirth deviceId | failDeviceBirth deviceId | confirmDeviceDeath deviceId | failDeviceDeath deviceId => exact hended deviceId
  | _ => exact ⟨List.nodup_nil, fun id hid => by cases hid⟩

end EdgeNodeLifecycle

/-! ### Runs -/

namespace Traced
variable {node : EdgeNodeDescriptor} {t t' : Traced} {op : Operation}

/-- A session does not begin while a device is online or has a transition that waits. -/
def Begins (t : Traced) (op : Operation) : Prop :=
  op = .beginSession → ∀ deviceId record, t.lifecycle.devices deviceId = some record → ¬record.Active

theorem Tracked.init (nodeMetrics : List SparkplugMetric) : Tracked ⟨.init nodeMetrics, [], [], []⟩ := by
  constructor
  · constructor <;> simp [EdgeNodeLifecycle.Gated, EdgeNodeLifecycle.init, EdgeNodeLifecycle.pendingId]
  all_goals simp [EdgeNodeLifecycle.init, EdgeNodeLifecycle.pendingId]

theorem Tracked.record (h : t.Tracked) {after : EdgeNodeLifecycle} (hevolves : t.lifecycle.Evolves after) {msg : Option OutboundMessage}
    (hbuilt : ∀ built, msg = some built → built.messageType = .nbirth ∨ t.lifecycle.nodeState = .online) :
    (t.record op after msg).Tracked := by
  obtain ⟨issuedFor, hpending⟩ := hevolves.pending
  have hfresh : ∀ deviceId, t.lifecycle.pendingId deviceId ≠ some t.lifecycle.nextTransitionId := fun deviceId hid =>
    lt_irrefl _ (h.below _ (h.pending deviceId _ hid).1)
  have hissued : ∀ id ∈ t.issued, id ∈ if after.nextTransitionId = t.lifecycle.nextTransitionId then t.issued
      else t.lifecycle.nextTransitionId :: t.issued := by
    intro id hid
    split_ifs
    · exact hid
    · exact List.mem_cons_of_mem _ hid
  obtain ⟨hnodup, hsettles⟩ := EdgeNodeLifecycle.settledBy_spec t.lifecycle after op
  refine ⟨⟨hevolves.gated h.gated, ?_, ?_, fun deviceId id hid => ?_, fun entry hentry => ?_⟩, fun id hid => ?_, fun id hid => ?_,
    fun deviceId other id hid hother => ?_⟩
  · unfold Traced.record
    dsimp only
    split_ifs
    · exact h.issued
    · exact List.nodup_cons.mpr ⟨fun hmem => lt_irrefl _ (h.below _ hmem), h.issued⟩
  · refine hnodup.append h.settled fun id hid hsettled => ?_
    obtain ⟨deviceId, hwas, -⟩ := hsettles id hid
    exact (h.pending deviceId id hwas).2 hsettled
  · rcases hpending deviceId id hid with hwas | ⟨-, rfl, hnext⟩
    · refine ⟨hissued id (h.pending deviceId id hwas).1, fun hmem => ?_⟩
      rcases List.mem_append.mp hmem with hmem | hmem
      · -- it would still wait for the device whose transition was settled
        obtain ⟨settled, hsettled, hnone⟩ := hsettles id hmem
        rw [h.own settled deviceId id hsettled hwas] at hnone
        cases hnone.symm.trans hid
      · exact (h.pending deviceId id hwas).2 hmem
    · unfold Traced.record
      dsimp only
      rw [if_neg (by omega)]
      refine ⟨List.mem_cons_self, fun hmem => ?_⟩
      rcases List.mem_append.mp hmem with hmem | hmem
      · obtain ⟨settled, hsettled, -⟩ := hsettles _ hmem
        exact hfresh settled hsettled
      · exact lt_irrefl _ (h.below _ (h.known _ hmem))
  · rcases List.mem_append.mp hentry with hmem | hmem
    · obtain ⟨msg, hmsg, rfl⟩ := Option.map_eq_some_iff.mp (Option.mem_toList.mp hmem)
      exact hbuilt msg hmsg
    · exact h.built entry hmem
  · unfold Traced.record at hid ⊢
    dsimp only at hid ⊢
    split_ifs at hid with hsame
    · exact (h.below id hid).trans_eq hsame.symm
    · have hnext := hevolves.next.resolve_left hsame
      rcases List.mem_cons.mp hid with rfl | hid
      · omega
      · exact (h.below id hid).trans (by omega)
  · rcases List.mem_append.mp hid with hmem | hmem
    · obtain ⟨settled, hsettled, -⟩ := hsettles id hmem
      exact hissued id (h.pending settled id hsettled).1
    · exact hissued id (h.known id hmem)
  · rcases hpending deviceId id hid with hwas | ⟨rfl, rfl, -⟩
    · rcases hpending other id hother with hwas' | ⟨-, rfl, -⟩
      · exact h.own deviceId other id hwas hwas'
      · exact absurd hwas (hfresh deviceId)
    · rcases hpending other _ hother with hwas' | ⟨rfl, -, -⟩
      · exact absurd hwas' (hfresh other)
      · rfl

theorem Tracked.step (h : t.Tracked) (hbegins : t.Begins op) (hstep : t.step node op = some t') : t'.Tracked := by
  obtain rfl := Option.some.inj hstep
  exact h.record (EdgeNodeLifecycle.evolves op hbegins) fun _ => EdgeNodeLifecycle.apply_built h.gated

end Traced

/-- In every run in which a session begins only without a device that is online or has a transition that
waits, the life cycle is lawful all along. -/
theorem lifecycle_lawful (node : EdgeNodeDescriptor) (nodeMetrics : List SparkplugMetric) :
    ∀ t, Reachable (Traced.step node) Traced.Begins ⟨.init nodeMetrics, [], [], []⟩ t → t.Lawful := by
  intro t ht
  have htracked : t.Tracked := ht.invariant (.init nodeMetrics) fun _ _ _ h hbegins hstep => h.step hbegins hstep
  exact htracked.toLawful

def born : List Operation := [.onConnect, .confirmNodeBirth, .birthDevice ⟨['d'], []⟩, .confirmDeviceBirth ['d'] none]

theorem lifecycle_lawful_born : ∃ t, exec (Traced.step ⟨['g'], ['e']⟩) ⟨.init [], [], [], []⟩ born = some t ∧ t.Lawful := by
  refine ⟨_, rfl, lifecycle_lawful ⟨['g'], ['e']⟩ [] _ (.of_exec .start born (fun t op hop => ?_) rfl)⟩
  rintro rfl
  simp [born] at hop

theorem lifecycle_not_lawful : ¬∀ node nodeMetrics t,
    Reachable (Traced.step node) (fun _ _ => True) ⟨.init nodeMetrics, [], [], []⟩ t → t.Lawful := by
  intro h
  have hrun := h ⟨['g'], ['e']⟩ [] _ (.of_exec .start (born ++ [.beginSession]) (fun _ _ _ => trivial) rfl)
  cases hrun.gated ['d'] ⟨⟨['d'], []⟩, .online, none⟩ rfl (.inl rfl)

end OxScada.Sparkplug
