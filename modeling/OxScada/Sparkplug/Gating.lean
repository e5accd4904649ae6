import OxScada.Runs.Log
import OxScada.Sparkplug.Sessions

/-! When data may leave. Data of the node is handed to a client only after that client took the
birth of the node and the subscription of its session, and data of a device only after it took a
birth of the device, and no transition of the device since then is open or was its death. -/

namespace OxScada.Sparkplug
open OxScada.Bytes OxScada.Runs

variable {config : SparkplugConfig} {s s' : Bridge} {l l' : EdgeNodeLifecycle} {p q t nbirth dbirth : Publish} {log : List Event}
  {waiting : List Publish} {subscribing : List Subscription} {next : ℕ} {birth : Birth} {current : Option Birth} {deviceId : Text}
  {e : Event} {ok encoded : Bool}

/-- `nbirth` is the birth of the node for `birth`, and was acknowledged. -/
structure NodeBorn (birth : Birth) (nbirth : Publish) (log : List Event) : Prop where
  kind : nbirth.message.messageType = .nbirth
  birth : nbirth.birth = birth
  acknowledged : .published nbirth true ∈ log

/-- The commands were subscribed in the session of `birth`, by its client. -/
def CommandsSubscribed (config : SparkplugConfig) (birth : Birth) (log : List Event) : Prop :=
  ∃ subscription, .subscribed subscription true ∈ log ∧ buildCommandSubscriptionFilters config.node = .ok subscription.filters ∧
    subscription.birth.client = birth.client ∧ subscription.birth.sessionEpoch = birth.sessionEpoch

def Publish.IsTransition (deviceId : Text) (p : Publish) : Prop :=
  (p.message.messageType = .dbirth ∨ p.message.messageType = .ddeath) ∧ p.message.deviceId = some deviceId

/-- `dbirth` is a birth of the device that was handed over after `nbirth` was acknowledged, and was
acknowledged itself. -/
structure DeviceBorn (nbirth dbirth : Publish) (deviceId : Text) (log : List Event) : Prop where
  kind : dbirth.message.messageType = .dbirth
  device : dbirth.message.deviceId = some deviceId
  birth : dbirth.birth = nbirth.birth
  handed : LoggedWhen (fun older => .published nbirth true ∈ older) (.publish dbirth) log
  acknowledged : .published dbirth true ∈ log

/-- Of the transitions of the device that were handed over after `dbirth` none is a death that was
acknowledged, and each was answered. -/
structure DeviceAlive (dbirth : Publish) (deviceId : Text) (log : List Event) : Prop where
  noDeath : ∀ t, t.message.messageType = .ddeath → t.message.deviceId = some deviceId → dbirth.id < t.id → .published t true ∉ log
  nothingPending : ∀ t, .publish t ∈ log → t.IsTransition deviceId → dbirth.id < t.id → ∃ ok, .published t ok ∈ log

def Gate (config : SparkplugConfig) (p : Publish) (log : List Event) : Prop :=
  ∃ nbirth, NodeBorn p.birth nbirth log ∧ CommandsSubscribed config p.birth log ∧
    (p.message.messageType = .ddata → ∃ deviceId dbirth, p.message.deviceId = some deviceId ∧
      DeviceBorn nbirth dbirth deviceId log ∧ DeviceAlive dbirth deviceId log)

def Publish.IsData (p : Publish) : Prop := p.message.messageType = .ndata ∨ p.message.messageType = .ddata

/-! ### The records of what was handed over and answered -/

structure Records (config : SparkplugConfig) (waiting : List Publish) (subscribing : List Subscription) (log : List Event) (next : ℕ) : Prop where
  handed : ∀ p ∈ waiting, .publish p ∈ log
  answered : ∀ p ok, .published p ok ∈ log → .publish p ∈ log
  unanswered : ∀ p ∈ waiting, ∀ ok, .published p ok ∉ log
  numbered : ∀ p, .publish p ∈ log → p.id < log.length
  transitions : ∀ p id, .publish p ∈ log → p.message.transitionId = some id → id < next
  unique : ∀ p q id, .publish p ∈ log → .publish q ∈ log → p.message.transitionId = some id → q.message.transitionId = some id → p = q
  confirming : ∀ p ∈ waiting, p.onSuccess = .confirmNodeBirth → CommandsSubscribed config p.birth log
  asked : ∀ subscription ∈ subscribing, buildCommandSubscriptionFilters config.node = .ok subscription.filters ∧
    ∃ nbirth, NodeBorn subscription.birth nbirth log
  births : ∀ p ∈ waiting, p.message.messageType = .dbirth →
    ∃ nbirth, NodeBorn p.birth nbirth log ∧ LoggedWhen (fun older => .published nbirth true ∈ older) (.publish p) log
  gated : ∀ p, .publish p ∈ log → p.IsData → LoggedWhen (Gate config p) (.publish p) log

theorem NodeBorn.cons (h : NodeBorn birth nbirth log) (e : Event) : NodeBorn birth nbirth (e :: log) :=
  ⟨h.kind, h.birth, List.mem_cons_of_mem _ h.acknowledged⟩

theorem CommandsSubscribed.cons (h : CommandsSubscribed config birth log) (e : Event) : CommandsSubscribed config birth (e :: log) := by
  obtain ⟨subscription, hsubscribed, hrest⟩ := h
  exact ⟨subscription, List.mem_cons_of_mem _ hsubscribed, hrest⟩

theorem DeviceBorn.cons (h : DeviceBorn nbirth dbirth deviceId log) (e : Event) : DeviceBorn nbirth dbirth deviceId (e :: log) where
  kind := h.kind
  device := h.device
  birth := h.birth
  handed := h.handed.cons e
  acknowledged := List.mem_cons_of_mem _ h.acknowledged

namespace Records

theorem init (config : SparkplugConfig) : Records config [] [] [] next := by
  constructor <;> simp

section
variable (h : Records config waiting subscribing log next)
include h

theorem mono {next' : ℕ} (hle : next ≤ next') :
    Records config waiting subscribing log next' :=
  { h with transitions := fun p id hp hid => (h.transitions p id hp hid).trans_le hle }

theorem other (hpublish : ∀ p, e ≠ .publish p) (hpublished : ∀ p ok, e ≠ .published p ok) :
    Records config waiting subscribing (e :: log) next where
  handed p hp := List.mem_cons_of_mem _ (h.handed p hp)
  answered p ok hp := by
    rcases List.mem_cons.mp hp with heq | hp
    · exact absurd heq.symm (hpublished p ok)
    · exact List.mem_cons_of_mem _ (h.answered p ok hp)
  unanswered p hp ok hmem := by
    rcases List.mem_cons.mp hmem with heq | hmem
    · exact hpublished p ok heq.symm
    · exact h.unanswered p hp ok hmem
  numbered p hp := by
    rcases List.mem_cons.mp hp with heq | hp
    · exact absurd heq.symm (hpublish p)
    · exact (h.numbered p hp).trans (Nat.lt_succ_self _)
  transitions p id hp hid := by
    rcases List.mem_cons.mp hp with heq | hp
    · exact absurd heq.symm (hpublish p)
    · exact h.transitions p id hp hid
  unique p q id hp hq := by
    rcases List.mem_cons.mp hp with heq | hp
    · exact absurd heq.symm (hpublish p)
    rcases List.mem_cons.mp hq with heq | hq
    · exact absurd heq.symm (hpublish q)
    exact h.unique p q id hp hq
  confirming p hp hconfirm := (h.confirming p hp hconfirm).cons e
  asked subscription hsubscription := by
    obtain ⟨hfilters, nbirth, hborn⟩ := h.asked subscription hsubscription
    exact ⟨hfilters, nbirth, hborn.cons e⟩
  births p hp hkind := by
    obtain ⟨nbirth, hborn, hlogged⟩ := h.births p hp hkind
    exact ⟨nbirth, hborn.cons e, hlogged.cons e⟩
  gated p hp hdata := by
    rcases List.mem_cons.mp hp with heq | hp
    · exact absurd heq.symm (hpublish p)
    · exact (h.gated p hp hdata).cons e

theorem publish {next' : ℕ} (hid : p.id = log.length) (hnext : next ≤ next')
    (hnew : ∀ id, p.message.transitionId = some id → next ≤ id ∧ id < next')
    (hconfirm : p.onSuccess = .confirmNodeBirth → CommandsSubscribed config p.birth log)
    (hbirth : p.message.messageType = .dbirth → ∃ nbirth, NodeBorn p.birth nbirth log)
    (hdata : p.IsData → Gate config p log) : Records config (p :: waiting) subscribing (.publish p :: log) next' := by
  have hfresh : ∀ ok, .published p ok ∉ log := fun ok hmem => by
    have hlt := h.numbered p (h.answered p ok hmem)
    omega
  refine ⟨?_, fun q ok hq => ?_, ?_, fun q hq => ?_, fun q id hq hqid => ?_, fun q r id hq hr hqid hrid => ?_, ?_,
    fun subscription hsubscription => ?_, ?_, fun q hq hqdata => ?_⟩
  · rw [List.forall_mem_cons]
    exact ⟨List.mem_cons_self, fun q hq => List.mem_cons_of_mem _ (h.handed q hq)⟩
  · rcases List.mem_cons.mp hq with heq | hq
    · cases heq
    · exact List.mem_cons_of_mem _ (h.answered q ok hq)
  · intro q hq ok hmem
    rcases List.mem_cons.mp hmem with heq | hlogged
    · cases heq
    rcases List.mem_cons.mp hq with rfl | hwaits
    · exact hfresh ok hlogged
    · exact h.unanswered q hwaits ok hlogged
  · rcases List.mem_cons.mp hq with heq | hq
    · obtain rfl := Event.publish.inj heq
      rw [hid]
      exact Nat.lt_succ_self _
    · exact (h.numbered q hq).trans (Nat.lt_succ_self _)
  · rcases List.mem_cons.mp hq with heq | hq
    · obtain rfl := Event.publish.inj heq
      exact (hnew id hqid).2
    · exact (h.transitions q id hq hqid).trans_le hnext
  · rcases List.mem_cons.mp hq with hqnew | hqold <;> rcases List.mem_cons.mp hr with hrnew | hrold
    · exact (Event.publish.inj hqnew).trans (Event.publish.inj hrnew).symm
    · have hle := (hnew id (Event.publish.inj hqnew ▸ hqid)).1
      have hlt := h.transitions r id hrold hrid
      omega
    · have hle := (hnew id (Event.publish.inj hrnew ▸ hrid)).1
      have hlt := h.transitions q id hqold hqid
      omega
    · exact h.unique q r id hqold hrold hqid hrid
  · rw [List.forall_mem_cons]
    exact ⟨fun hp => (hconfirm hp).cons _, fun q hq hqconfirm => (h.confirming q hq hqconfirm).cons _⟩
  · obtain ⟨hfilters, nbirth, hborn⟩ := h.asked subscription hsubscription
    exact ⟨hfilters, nbirth, hborn.cons _⟩
  · rw [List.forall_mem_cons]
    refine ⟨fun hkind => ?_, fun q hq hkind => ?_⟩
    · obtain ⟨nbirth, hborn⟩ := hbirth hkind
      exact ⟨nbirth, hborn.cons _, .here hborn.acknowledged⟩
    · obtain ⟨nbirth, hborn, hlogged⟩ := h.births q hq hkind
      exact ⟨nbirth, hborn.cons _, hlogged.cons _⟩
  · rcases List.mem_cons.mp hq with heq | hq
    · obtain rfl := Event.publish.inj heq
      exact .here (hdata hqdata)
    · exact (h.gated q hq hqdata).cons _

theorem settle (hp : p ∈ waiting) (ok : Bool) :
    Records config (waiting.filter (·.id ≠ p.id)) subscribing (.published p ok :: log) next := by
  have hwaits : ∀ q ∈ waiting.filter (·.id ≠ p.id), q ∈ waiting ∧ q ≠ p := by
    intro q hq
    obtain ⟨hq, hne⟩ := List.mem_filter.mp hq
    exact ⟨hq, fun heq => of_decide_eq_true hne (congrArg Publish.id heq)⟩
  have hpublish : ∀ q, .publish q ∈ (.published p ok :: log : List Event) → .publish q ∈ log := by
    intro q hq
    rcases List.mem_cons.mp hq with heq | hq
    · cases heq
    · exact hq
  refine ⟨fun q hq => ?_, fun q ok' hq => ?_, fun q hq ok' hmem => ?_, fun q hq => ?_, fun q id hq => ?_, fun q r id hq hr => ?_,
    fun q hq hconfirm => ?_, fun subscription hsubscription => ?_, fun q hq hkind => ?_, fun q hq hdata => ?_⟩
  · exact List.mem_cons_of_mem _ (h.handed q (hwaits q hq).1)
  · rcases List.mem_cons.mp hq with heq | hq
    · obtain ⟨rfl, -⟩ := Event.published.inj heq
      exact List.mem_cons_of_mem _ (h.handed q hp)
    · exact List.mem_cons_of_mem _ (h.answered q ok' hq)
  · rcases List.mem_cons.mp hmem with heq | hmem
    · exact (hwaits q hq).2 (Event.published.inj heq).1
    · exact h.unanswered q (hwaits q hq).1 ok' hmem
  · exact (h.numbered q (hpublish q hq)).trans (Nat.lt_succ_self _)
  · exact h.transitions q id (hpublish q hq)
  · exact h.unique q r id (hpublish q hq) (hpublish r hr)
  · exact (h.confirming q (hwaits q hq).1 hconfirm).cons _
  · obtain ⟨hfilters, nbirth, hborn⟩ := h.asked subscription hsubscription
    exact ⟨hfilters, nbirth, hborn.cons _⟩
  · obtain ⟨nbirth, hborn, hlogged⟩ := h.births q (hwaits q hq).1 hkind
    exact ⟨nbirth, hborn.cons _, hlogged.cons _⟩
  · exact (h.gated q (hpublish q hq) hdata).cons _

theorem ask {subscription : Subscription}
    (hfilters : buildCommandSubscriptionFilters config.node = .ok subscription.filters) (hborn : NodeBorn subscription.birth nbirth log) :
    Records config waiting (subscription :: subscribing) (.subscribe subscription :: log) next := by
  have hother := h.other (e := .subscribe subscription) (by simp) (by simp)
  refine { hother with asked := ?_ }
  rw [List.forall_mem_cons]
  exact ⟨⟨hfilters, nbirth, hborn.cons _⟩, hother.asked⟩

theorem answer (subscription : Subscription) (ok : Bool) :
    Records config waiting (subscribing.filter (·.id ≠ subscription.id)) (.subscribed subscription ok :: log) next := by
  have hother := h.other (e := .subscribed subscription ok) (by simp) (by simp)
  exact { hother with asked := fun other hmem => hother.asked other (List.mem_of_mem_filter hmem) }

end

end Records

/-! ### What the life cycle rests on -/

/-- The transitions of a device since its birth are deaths that failed, or the one that is pending. -/
def OnlyDeathsFailed (dbirth : Publish) (pending : Option Transition) (deviceId : Text) (log : List Event) : Prop :=
  ∀ t, .publish t ∈ log → t.IsTransition deviceId → dbirth.id < t.id →
    t.message.messageType = .ddeath ∧ t.birth = dbirth.birth ∧ .published t true ∉ log ∧
      (.published t false ∈ log ∨ ∃ id, t.message.transitionId = some id ∧ pending = some ⟨.death, id⟩)

structure Proven (config : SparkplugConfig) (l : EdgeNodeLifecycle) (current : Option Birth) (log : List Event) : Prop where
  online : l.nodeState = .online → ∃ birth nbirth, current = some birth ∧ NodeBorn birth nbirth log ∧ CommandsSubscribed config birth log
  devices : ∀ deviceId record, l.devices deviceId = some record → record.state = .online →
    ∃ birth nbirth dbirth, current = some birth ∧ NodeBorn birth nbirth log ∧ DeviceBorn nbirth dbirth deviceId log ∧
      OnlyDeathsFailed dbirth record.pending deviceId log
  latest : ∀ deviceId record kind id, l.devices deviceId = some record → record.pending = some ⟨kind, id⟩ →
    ∀ p t, .publish p ∈ log → p.IsTransition deviceId → p.message.transitionId = some id → .publish t ∈ log → t.IsTransition deviceId →
      t.id ≤ p.id

namespace Proven

theorem quiet (hstate : l.nodeState ≠ .online)
    (hdevices : ∀ deviceId record, l.devices deviceId = some record → record.state = .offline ∧ record.pending = none) :
    Proven config l current log where
  online honline := absurd honline hstate
  devices deviceId record hrecord honline := by
    rw [(hdevices deviceId record hrecord).1] at honline
    cases honline
  latest deviceId record kind id hrecord hpending := by
    rw [(hdevices deviceId record hrecord).2] at hpending
    cases hpending

/-- An entry that is no transition of a device, and no death of one that is online and waits for it. -/
theorem logged (h : Proven config l current log) (hpublish : ∀ p, e = .publish p → ∀ deviceId, ¬p.IsTransition deviceId)
    (hpublished : ∀ p, e = .published p true → p.message.messageType = .ddeath → .published p false ∉ log ∧
      (current = some p.birth → ∀ deviceId record id, p.message.deviceId = some deviceId → p.message.transitionId = some id →
        l.devices deviceId = some record → record.state = .online → record.pending ≠ some ⟨.death, id⟩)) :
    Proven config l current (e :: log) where
  online honline := by
    obtain ⟨birth, nbirth, hcurrent, hborn, hsubscribed⟩ := h.online honline
    exact ⟨birth, nbirth, hcurrent, hborn.cons e, hsubscribed.cons e⟩
  devices deviceId record hrecord honline := by
    obtain ⟨birth, nbirth, dbirth, hcurrent, hborn, hdevice, hsince⟩ := h.devices deviceId record hrecord honline
    refine ⟨birth, nbirth, dbirth, hcurrent, hborn.cons e, hdevice.cons e, fun t ht htransition hlater => ?_⟩
    rcases List.mem_cons.mp ht with heq | ht
    · exact absurd htransition (hpublish t heq.symm deviceId)
    · obtain ⟨hkind, hbirth, hunanswered, hend⟩ := hsince t ht htransition hlater
      refine ⟨hkind, hbirth, fun hmem => ?_, hend.imp_left (List.mem_cons_of_mem _)⟩
      rcases List.mem_cons.mp hmem with heq | hmem
      · obtain ⟨hnotFailed, hnotPending⟩ := hpublished t heq.symm hkind
        have hcurrent' : current = some t.birth := by rw [hcurrent, hbirth, hdevice.birth, hborn.birth]
        rcases hend with hfailed | ⟨id, hid, hpending⟩
        · exact hnotFailed hfailed
        · exact hnotPending hcurrent' deviceId record id htransition.2 hid hrecord honline hpending
      · exact hunanswered hmem
  latest deviceId record kind id hrecord hpending p t hp hptransition hid ht httransition := by
    rcases List.mem_cons.mp hp with heq | hp
    · exact absurd hptransition (hpublish p heq.symm deviceId)
    rcases List.mem_cons.mp ht with heq | ht
    · exact absurd httransition (hpublish t heq.symm deviceId)
    exact h.latest deviceId record kind id hrecord hpending p t hp hptransition hid ht httransition

variable {record : DeviceRecord} {id : ℕ}

section
variable (h : Proven config l current log)
include h

theorem setDevice (honline : record.state = .online → ∃ birth nbirth dbirth, current = some birth ∧ NodeBorn birth nbirth log ∧
      DeviceBorn nbirth dbirth deviceId log ∧ OnlyDeathsFailed dbirth record.pending deviceId log)
    (hlatest : ∀ kind id, record.pending = some ⟨kind, id⟩ → ∀ p t, .publish p ∈ log → p.IsTransition deviceId →
      p.message.transitionId = some id → .publish t ∈ log → t.IsTransition deviceId → t.id ≤ p.id) :
    Proven config (l.setDevice deviceId record) current log where
  online := h.online
  devices other found hfound hstate := by
    rw [EdgeNodeLifecycle.setDevice_devices, Function.update_apply] at hfound
    split_ifs at hfound with heq
    · obtain rfl := Option.some.inj hfound
      exact heq ▸ honline hstate
    · exact h.devices other found hfound hstate
  latest other found kind id hfound hpending := by
    rw [EdgeNodeLifecycle.setDevice_devices, Function.update_apply] at hfound
    split_ifs at hfound with heq
    · obtain rfl := Option.some.inj hfound
      exact heq ▸ hlatest kind id hpending
    · exact h.latest other found kind id hfound hpending

theorem resetDevice (deviceId : Text) (record : DeviceRecord) :
    Proven config (l.setDevice deviceId record.reset) current log :=
  h.setDevice (fun hcontra => by cases hcontra) fun _ _ hcontra => by cases hcontra

theorem begun {kind : TransitionKind}
    (hpending : record.pending = some ⟨kind, id⟩) (hfresh : ∀ q, .publish q ∈ log → q.message.transitionId ≠ some id)
    (honline : record.state = .online → ∃ before, l.devices deviceId = some before ∧ before.state = .online ∧ before.pending = none) :
    Proven config (l.setDevice deviceId record) current log := by
  refine h.setDevice (fun hstate => ?_) fun kind' id' hpending' p t hp _ hid => ?_
  · obtain ⟨before, hbefore, hwas, hnone⟩ := honline hstate
    obtain ⟨birth, nbirth, dbirth, hcurrent, hborn, hdevice, hsince⟩ := h.devices deviceId before hbefore hwas
    refine ⟨birth, nbirth, dbirth, hcurrent, hborn, hdevice, fun t ht htransition hlater => ?_⟩
    obtain ⟨hkind, hbirth, hunanswered, hend⟩ := hsince t ht htransition hlater
    refine ⟨hkind, hbirth, hunanswered, .inl ?_⟩
    rcases hend with hfailed | ⟨id', -, hcontra⟩
    · exact hfailed
    · rw [hnone] at hcontra
      cases hcontra
  · rw [hpending] at hpending'
    obtain ⟨rfl, rfl⟩ := Transition.mk.inj (Option.some.inj hpending')
    exact absurd hid (hfresh p hp)

theorem transition {record : DeviceRecord} {kind : TransitionKind} {id : ℕ}
    (hnumbered : ∀ q, .publish q ∈ log → q.id < p.id) (hunanswered : ∀ ok, .published p ok ∉ log)
    (htransition : p.IsTransition deviceId) (hrecord : l.devices deviceId = some record) (hpending : record.pending = some ⟨kind, id⟩)
    (hid : p.message.transitionId = some id) (hfresh : ∀ q, .publish q ∈ log → q.message.transitionId ≠ some id)
    (hcurrent : current = some p.birth) (honline : record.state = .online → p.message.messageType = .ddeath ∧ kind = .death) :
    Proven config l current (.publish p :: log) where
  online hstate := by
    obtain ⟨birth, nbirth, hcurrent, hborn, hsubscribed⟩ := h.online hstate
    exact ⟨birth, nbirth, hcurrent, hborn.cons _, hsubscribed.cons _⟩
  devices other found hfound hstate := by
    obtain ⟨birth, nbirth, dbirth, hbirth, hborn, hdevice, hsince⟩ := h.devices other found hfound hstate
    refine ⟨birth, nbirth, dbirth, hbirth, hborn.cons _, hdevice.cons _, fun t ht httransition hlater => ?_⟩
    have hnot : ∀ ok, .published t ok ∈ (.publish p :: log : List Event) → .published t ok ∈ log := by
      intro ok hmem
      rcases List.mem_cons.mp hmem with heq | hmem
      · cases heq
      · exact hmem
    rcases List.mem_cons.mp ht with heq | ht
    · obtain rfl := Event.publish.inj heq
      obtain rfl : deviceId = other := Option.some.inj (htransition.2.symm.trans httransition.2)
      obtain rfl : record = found := Option.some.inj (hrecord.symm.trans hfound)
      obtain ⟨hkind, rfl⟩ := honline hstate
      have hsame : t.birth = birth := Option.some.inj (hcurrent.symm.trans hbirth)
      refine ⟨hkind, ?_, fun hmem => hunanswered true (hnot true hmem), .inr ⟨id, hid, hpending⟩⟩
      rw [hsame, hdevice.birth, hborn.birth]
    · obtain ⟨hkind, hbirth', hun, hend⟩ := hsince t ht httransition hlater
      exact ⟨hkind, hbirth', fun hmem => hun (hnot true hmem), hend.imp_left (List.mem_cons_of_mem _)⟩
  latest other found kind' id' hfound hpending' q t hq hqtransition hqid ht httransition := by
    by_cases hother : other = deviceId
    · subst hother
      obtain rfl : record = found := Option.some.inj (hrecord.symm.trans hfound)
      rw [hpending] at hpending'
      obtain ⟨rfl, rfl⟩ := Transition.mk.inj (Option.some.inj hpending')
      -- the pending transition is the one that is handed over, since its number is new
      obtain rfl : q = p := by
        rcases List.mem_cons.mp hq with heq | hq
        · exact Event.publish.inj heq
        · exact absurd hqid (hfresh q hq)
      rcases List.mem_cons.mp ht with heq | ht
      · exact (congrArg Publish.id (Event.publish.inj heq)).le
      · exact (hnumbered t ht).le
    · have hold : ∀ r, .publish r ∈ (.publish p :: log : List Event) → r.IsTransition other → .publish r ∈ log := by
        intro r hr hrtransition
        rcases List.mem_cons.mp hr with heq | hr
        · obtain rfl := Event.publish.inj heq
          exact absurd (Option.some.inj (hrtransition.2.symm.trans htransition.2)) hother
        · exact hr
      exact h.latest other found kind' id' hfound hpending' q t (hold q hq hqtransition) hqtransition hqid (hold t ht httransition) httransition

theorem deathFailed (hrecord : l.devices deviceId = some record)
    (hpending : record.pending = some ⟨.death, id⟩)
    (hfailed : ∀ t, .publish t ∈ log → t.message.transitionId = some id → .published t false ∈ log) :
    Proven config (l.setDevice deviceId { record with pending := none }) current log := by
  refine h.setDevice (fun hstate => ?_) fun _ _ hcontra => by cases hcontra
  obtain ⟨birth, nbirth, dbirth, hcurrent, hborn, hdevice, hsince⟩ := h.devices deviceId record hrecord hstate
  refine ⟨birth, nbirth, dbirth, hcurrent, hborn, hdevice, fun t ht htransition hlater => ?_⟩
  obtain ⟨hkind, hbirth, hunanswered, hend⟩ := hsince t ht htransition hlater
  refine ⟨hkind, hbirth, hunanswered, .inl ?_⟩
  rcases hend with hdone | ⟨id', hid, hpending'⟩
  · exact hdone
  · rw [hpending] at hpending'
    obtain ⟨-, rfl⟩ := Transition.mk.inj (Option.some.inj hpending')
    exact hfailed t ht hid

theorem deviceBorn (hrecord : l.devices deviceId = some record)
    (hpending : record.pending = some ⟨.birth, id⟩) (hp : .publish p ∈ log) (hkind : p.message.messageType = .dbirth)
    (hdevice : p.message.deviceId = some deviceId) (hid : p.message.transitionId = some id) (hcurrent : current = some p.birth)
    (hborn : NodeBorn p.birth nbirth log) (hhanded : LoggedWhen (fun older => .published nbirth true ∈ older) (.publish p) log)
    (hanswered : .published p true ∈ log) :
    Proven config (l.setDevice deviceId { record with state := .online, pending := none }) current log := by
  refine h.setDevice (fun _ => ?_) fun _ _ hcontra => by cases hcontra
  refine ⟨p.birth, nbirth, p, hcurrent, hborn, ⟨hkind, hdevice, hborn.birth.symm, hhanded, hanswered⟩, fun t ht htransition hlater => ?_⟩
  have hle := h.latest deviceId record .birth id hrecord hpending p t hp ⟨.inl hkind, hdevice⟩ hid ht htransition
  omega

theorem confirmed (hcurrent : current = some birth) (hborn : NodeBorn birth nbirth log)
    (hsubscribed : CommandsSubscribed config birth log) : Proven config l.confirmNodeBirth.1 current log := by
  rcases EdgeNodeLifecycle.confirmNodeBirth_eq (l := l) with heq | ⟨-, heq⟩
  · rw [heq]
    exact h
  · rw [heq]
    exact ⟨fun _ => ⟨birth, nbirth, hcurrent, hborn, hsubscribed⟩, h.devices, h.latest⟩

theorem gate_node (hstate : l.nodeState = .online) (hcurrent : current = some p.birth)
    (hkind : p.message.messageType = .ndata) : Gate config p log := by
  obtain ⟨birth, nbirth, hbirth, hborn, hsubscribed⟩ := h.online hstate
  obtain rfl : birth = p.birth := Option.some.inj (hbirth.symm.trans hcurrent)
  refine ⟨nbirth, hborn, hsubscribed, fun hcontra => ?_⟩
  cases hkind.symm.trans hcontra

theorem gate_device (hstate : l.nodeState = .online)
    (hcurrent : current = some p.birth) (hid : p.message.deviceId = some deviceId) (hrecord : l.devices deviceId = some record)
    (honline : record.state = .online) (hpending : record.pending = none)
    (hanswered : ∀ t ok, .published t ok ∈ log → .publish t ∈ log) : Gate config p log := by
  obtain ⟨birth, -, hbirth, -, hsubscribed⟩ := h.online hstate
  obtain rfl : birth = p.birth := Option.some.inj (hbirth.symm.trans hcurrent)
  obtain ⟨birth', nbirth, dbirth, hbirth', hborn, hdborn, hsince⟩ := h.devices deviceId record hrecord honline
  obtain rfl : birth' = p.birth := Option.some.inj (hbirth'.symm.trans hcurrent)
  refine ⟨nbirth, hborn, hsubscribed, fun _ => ⟨deviceId, dbirth, hid, hdborn, fun t hdeath htdevice hlater hmem => ?_,
    fun t ht htransition hlater => ?_⟩⟩
  · exact (hsince t (hanswered t true hmem) ⟨.inr hdeath, htdevice⟩ hlater).2.2.1 hmem
  · obtain ⟨-, -, -, hfailed | ⟨id, -, hcontra⟩⟩ := hsince t ht htransition hlater
    · exact ⟨false, hfailed⟩
    · rw [hpending] at hcontra
      cases hcontra

end

end Proven

namespace Bridge

structure Gated (config : SparkplugConfig) (s : Bridge) : Prop where
  sound : s.Sound config
  records : Records config s.waiting s.subscribing s.log s.lifecycle.nextTransitionId
  proven : Proven config s.lifecycle s.current s.log

theorem quiet_onDisconnect : Proven config l.onDisconnect current log := by
  refine .quiet (by simp) fun deviceId record hrecord => ?_
  exact EdgeNodeLifecycle.reset_offline hrecord

theorem quiet_reborn : Proven config l.reborn current log := by
  refine .quiet (by simp) fun deviceId record hrecord => ?_
  exact EdgeNodeLifecycle.reset_offline hrecord

theorem Gated.init (config : SparkplugConfig) (nodeMetrics : List SparkplugMetric) : (init nodeMetrics).Gated config :=
  ⟨.init config nodeMetrics, Records.init config,
    .quiet (by simp [Bridge.init, EdgeNodeLifecycle.init]) fun _ _ hcontra => by simp [Bridge.init, EdgeNodeLifecycle.init] at hcontra⟩

theorem Gated.detached (h : s.Gated config) (hdetached : Detached s s') : s'.Gated config := by
  refine ⟨h.sound.detached hdetached, ?_, ?_⟩
  · rw [hdetached.waiting, hdetached.subscribing, hdetached.log]
    rcases hdetached.lifecycle with heq | heq <;> rw [heq] <;> exact h.records
  · rcases hdetached.lifecycle with heq | heq <;> rw [heq] <;> exact quiet_onDisconnect

theorem Gated.opened (h : s.Gated config) (hclient : s.client = none) {willTopic : Text}
    (htopic : buildWillTopic config.node = .ok willTopic) : (s.opened willTopic).Gated config := by
  refine ⟨h.sound.opened hclient htopic, h.records, ⟨fun hcontra => ?_, fun deviceId record hrecord honline => ?_, h.proven.latest⟩⟩
  · cases hcontra
  · have hstate := (h.sound.lifecycle deviceId record hrecord honline).1
    rw [h.sound.resting hclient] at hstate
    cases hstate

theorem Gated.other (h : s.Gated config) (e : Event) (hpublish : ∀ p, e ≠ .publish p) (hpublished : ∀ p ok, e ≠ .published p ok) :
    Proven config s.lifecycle s.current (e :: s.log) :=
  h.proven.logged (fun p heq => absurd heq (hpublish p)) fun p heq => absurd heq (hpublished p true)

variable {msg : OutboundMessage}

theorem Gated.failed (h : s.Gated config) (hmsg : msg.Built config.node)
    (hdeath : ∀ id, msg.messageType = .ddeath → msg.transitionId = some id →
      ∀ t, .publish t ∈ s.log → t.message.transitionId = some id → .published t false ∈ s.log) :
    (s.handlePublishFailure msg).Gated config := by
  have hsound := h.sound.failed hmsg
  rcases handlePublishFailure_changes hmsg s with ⟨-, heq⟩ | heq | ⟨deviceId, record, hrecord, heq | ⟨id, hkind, hid, hpending, heq⟩⟩
  · rw [heq] at hsound ⊢
    exact ⟨hsound, h.records, quiet_onDisconnect⟩
  · rw [heq]
    exact h
  · rw [heq] at hsound ⊢
    exact ⟨hsound, h.records, h.proven.resetDevice deviceId record⟩
  · rw [heq] at hsound ⊢
    exact ⟨hsound, h.records, h.proven.deathFailed hrecord hpending (hdeath id hkind hid)⟩

theorem Gated.publishMessage (h : s.Gated config) {onSuccess : OnSuccess} (hmsg : msg.Built config.node)
    (hsound : (s.publishMessage msg onSuccess encoded).Sound config) (hkind : msg.messageType ≠ .dbirth ∧ msg.messageType ≠ .ddeath)
    (hconfirm : onSuccess = .confirmNodeBirth → ∀ birth, s.current = some birth → CommandsSubscribed config birth s.log)
    (hdata : ∀ p : Publish, p.message = msg → s.current = some p.birth → p.IsData → Gate config p s.log) :
    (s.publishMessage msg onSuccess encoded).Gated config := by
  have htransition : msg.transitionId = none := by
    simpa [hkind.1, hkind.2] using hmsg.transition
  have hfails : (s.handlePublishFailure msg).Gated config := h.failed hmsg fun id hdeath => absurd hdeath hkind.2
  cases hclient : s.client with
  | none =>
    have heq : s.publishMessage msg onSuccess encoded = s.handlePublishFailure msg := by rw [Bridge.publishMessage, hclient]
    rw [heq]
    exact hfails
  | some client =>
    have hcurrent : s.current = some ⟨client, s.sessionEpoch, s.birthEpoch⟩ := by rw [current, hclient, Option.map_some]
    rw [publishMessage_held hclient] at hsound ⊢
    split_ifs at hsound ⊢
    · refine ⟨hsound, h.records.publish rfl le_rfl (fun id hid => ?_) (fun hsuccess => hconfirm hsuccess _ hcurrent)
        (fun hbirth => absurd hbirth hkind.1) (hdata _ rfl hcurrent), h.proven.logged (fun p heq deviceId hcontra => ?_) fun p heq => ?_⟩
      · rw [htransition] at hid
        cases hid
      · obtain rfl := Event.publish.inj heq
        exact hcontra.1.elim hkind.1 hkind.2
      · cases heq
    · exact hfails

theorem Gated.reborn (h : s.Gated config) {connectedSessionEpoch : Option ℕ} {birthEpoch : ℕ}
    (hclient : s.client ≠ none) : Gated config { s with connectedSessionEpoch, birthEpoch, lifecycle := s.lifecycle.reborn } where
  sound := h.sound.withState (fun hnone => absurd hnone hclient) (s.reborn_sound config) h.sound.waiting
  records := h.records
  proven := quiet_reborn

theorem not_isData (h : p.message.messageType = .nbirth) : ¬p.IsData := by
  rintro (hcontra | hcontra)
  · rw [h] at hcontra
    cases hcontra
  · rw [h] at hcontra
    cases hcontra

section
variable (h : s.Gated config)
include h

theorem Gated.rebirth (encoded : Bool) : (s.rebirth config encoded).Gated config := by
  have hsound : (s.rebirth config encoded).Sound config := h.sound.rebirth
  rcases rebirth_cases h.sound encoded with ⟨-, heq⟩ | ⟨client, msg, hclient, honline, hmsg, hkind, -, heq⟩
  · rw [heq]
    exact h
  · rw [heq] at hsound ⊢
    refine Gated.publishMessage (h.reborn (by simp [hclient])) hmsg hsound (by simp [hkind]) (fun _ birth hcurrent => ?_)
      fun p hp _ hdata => absurd hdata (not_isData (hp ▸ hkind))
    -- the subscription of the session is that of the birth before
    obtain ⟨before, nbirth, hbefore, -, subscription, hsubscribed, hfilters, hsame, hsession⟩ := h.proven.online honline
    rw [current, hclient, Option.map_some, Option.some_inj] at hbefore hcurrent
    rw [← hbefore] at hsame hsession
    rw [← hcurrent]
    exact ⟨subscription, hsubscribed, hfilters, hsame, hsession⟩

theorem Gated.data (hmsg : msg.Built config.node) (hcan : s.lifecycle.canPublishData = true)
    (hkind : msg.messageType = .ndata ∨ ∃ deviceId record, msg.messageType = .ddata ∧ msg.deviceId = some deviceId ∧
      s.lifecycle.devices deviceId = some record ∧ record.state = .online ∧ record.pending = none) (encoded : Bool) :
    ((s.withLifecycle s.lifecycle.advanceSeq).publishMessage msg .nothing encoded).Gated config := by
  have hstate := canPublishData_online hcan
  have hadvanced : (s.withLifecycle s.lifecycle.advanceSeq).Gated config :=
    ⟨h.sound.advanced, h.records, ⟨h.proven.online, h.proven.devices, h.proven.latest⟩⟩
  have hplain : msg.messageType ≠ .nbirth ∧ msg.messageType ≠ .dbirth ∧ msg.messageType ≠ .ddeath := by
    rcases hkind with hkind | ⟨deviceId, record, hkind, -⟩ <;> simp [hkind]
  refine hadvanced.publishMessage hmsg (hadvanced.sound.publishPlain hmsg hplain.1) hplain.2 (fun hcontra => by cases hcontra)
    fun p hp hcurrent _ => ?_
  have hcurrent : s.current = some p.birth := hcurrent
  rcases hkind with hkind | ⟨deviceId, record, -, hdevice, hrecord, honline, hpending⟩
  · exact h.proven.gate_node hstate hcurrent (hp ▸ hkind)
  · exact h.proven.gate_device hstate hcurrent (hp ▸ hdevice) hrecord honline hpending h.records.answered

theorem Gated.transition {record : DeviceRecord} {kind : TransitionKind}
    (hmsg : msg.Built config.node) (hsound : ((s.withLifecycle (s.lifecycle.begun deviceId record)).publishMessage msg .nothing encoded).Sound config)
    (hbegun : (s.withLifecycle (s.lifecycle.begun deviceId record)).Gated config) (hkind : msg.messageType = .dbirth ∨ msg.messageType = .ddeath)
    (hdevice : msg.deviceId = some deviceId) (hid : msg.transitionId = some s.lifecycle.nextTransitionId)
    (hpending : record.pending = some ⟨kind, s.lifecycle.nextTransitionId⟩)
    (honline : record.state = .online → msg.messageType = .ddeath ∧ kind = .death)
    (hstate : msg.messageType = .dbirth → s.lifecycle.nodeState = .online) :
    ((s.withLifecycle (s.lifecycle.begun deviceId record)).publishMessage msg .nothing encoded).Gated config := by
  have hfresh : ∀ q, .publish q ∈ s.log → q.message.transitionId ≠ some s.lifecycle.nextTransitionId := fun q hq hcontra =>
    (h.records.transitions q _ hq hcontra).ne rfl
  have hfails : ((s.withLifecycle (s.lifecycle.begun deviceId record)).handlePublishFailure msg).Gated config := by
    refine hbegun.failed hmsg fun id _ hid' t ht hcontra => ?_
    rw [hid] at hid'
    rw [← hid'] at hcontra
    exact absurd hcontra (hfresh t ht)
  cases hclient : s.client with
  | none =>
    rw [Bridge.publishMessage, withLifecycle_client, hclient]
    exact hfails
  | some client =>
    have hcurrent : s.current = some ⟨client, s.sessionEpoch, s.birthEpoch⟩ := by rw [current, hclient, Option.map_some]
    have hheld : (s.withLifecycle (s.lifecycle.begun deviceId record)).client = some client := hclient
    rw [publishMessage_held hheld] at hsound ⊢
    split_ifs at hsound ⊢
    · have hrecord : (s.withLifecycle (s.lifecycle.begun deviceId record)).lifecycle.devices deviceId = some record := by
        simp
      have hunanswered : ∀ ok, .published ⟨s.log.length, ⟨client, s.sessionEpoch, s.birthEpoch⟩, msg, .nothing⟩ ok ∉ s.log := fun ok hmem =>
        (h.records.numbered _ (h.records.answered _ ok hmem)).ne rfl
      refine ⟨hsound, h.records.publish rfl (Nat.le_succ _) (fun id hid' => ?_) (fun hcontra => by cases hcontra) (fun hbirth => ?_)
        (fun hdata => ?_),
        hbegun.proven.transition h.records.numbered hunanswered ⟨hkind, hdevice⟩ hrecord hpending hid hfresh hcurrent honline⟩
      · obtain rfl := Option.some.inj (hid.symm.trans hid')
        exact ⟨le_rfl, Nat.lt_succ_self _⟩
      · obtain ⟨birth, nbirth, hbirth', hborn, -⟩ := h.proven.online (hstate hbirth)
        rw [hcurrent, Option.some_inj] at hbirth'
        exact ⟨nbirth, hbirth' ▸ hborn⟩
      · rcases hkind with hkind | hkind <;> rcases hdata with hcontra | hcontra <;> cases hkind.symm.trans hcontra
    · exact hfails

theorem Gated.published (hp : p ∈ s.waiting) (ok : Bool) : (s.published config p ok).Gated config := by
  have hbuilt := h.sound.waiting p hp
  have hsound := h.sound.published hbuilt ok
  have hrecords := h.records.settle hp ok
  have hunanswered := h.records.unanswered p hp
  have hdeath : ∀ q, (.published p ok : Event) = .published q true → q = p ∧ ok = true := by
    intro q heq
    obtain ⟨rfl, rfl⟩ := Event.published.inj heq
    exact ⟨rfl, rfl⟩
  -- the answer alone, which matters only when it is that of the death that a device waits for
  have hplain : (ok = true → p.message.messageType = .ddeath → s.current = some p.birth → ∀ deviceId record id, p.message.deviceId = some deviceId →
      p.message.transitionId = some id → s.lifecycle.devices deviceId = some record → record.state = .online →
      record.pending ≠ some ⟨.death, id⟩) → (s.settled p ok).Gated config := by
    intro hcond
    refine ⟨h.sound.settled p ok, hrecords, h.proven.logged (fun q heq => by cases heq) fun q heq hkind => ?_⟩
    obtain ⟨rfl, hok⟩ := hdeath q heq
    exact ⟨hunanswered false, hcond hok hkind⟩
  rcases published_cases hbuilt h.sound.named ok with ⟨hstale, heq⟩ | ⟨hcurrent, ⟨rfl, heq⟩ | ⟨rfl, hok⟩⟩
  · rw [heq]
    refine hplain fun _ _ hcontra => ?_
    rw [(isCurrentBirth_current h.sound).mpr hcontra] at hstale
    cases hstale
  · rw [heq]
    refine (hplain fun hcontra => by cases hcontra).failed hbuilt.message fun id _ hid t ht htid => ?_
    have ht : .publish t ∈ s.log := by
      rcases List.mem_cons.mp ht with hcontra | ht
      · cases hcontra
      · exact ht
    rw [h.records.unique t p id ht (h.records.handed p hp) htid hid]
    exact List.mem_cons_self
  · have hbirth := (isCurrentBirth_current h.sound).mp hcurrent
    rcases hok with ⟨hkind, ⟨hconfirm, heq⟩ | ⟨-, filters, hfilters, heq⟩⟩ | ⟨hkind, heq⟩ | ⟨deviceId, id, hdevice, hid, ⟨hkind, heq⟩ | ⟨hkind, heq⟩⟩
    · have hsettled := hplain fun _ hcontra => by cases hkind.symm.trans hcontra
      have hborn : NodeBorn p.birth p (.published p true :: s.log) := ⟨hkind, rfl, List.mem_cons_self⟩
      rw [heq] at hsound ⊢
      refine ⟨hsound, ?_, hsettled.proven.confirmed hbirth hborn ((h.records.confirming p hp hconfirm).cons _)⟩
      rcases EdgeNodeLifecycle.confirmNodeBirth_eq (l := s.lifecycle) with hsame | ⟨-, hsame⟩ <;> rw [hsame] <;> exact hrecords
    · have hsettled := hplain fun _ hcontra => by cases hkind.symm.trans hcontra
      have hborn : NodeBorn p.birth p (.published p true :: s.log) := ⟨hkind, rfl, List.mem_cons_self⟩
      rw [heq] at hsound ⊢
      exact ⟨hsound, hrecords.ask hfilters hborn, hsettled.other _ (by simp) (by simp)⟩
    · rw [heq]
      refine hplain fun _ hcontra => ?_
      rcases hkind with hkind | hkind <;> cases hkind.symm.trans hcontra
    · have hsettled := hplain fun _ hcontra => by cases hkind.symm.trans hcontra
      rw [heq] at hsound ⊢
      cases hrecord : s.lifecycle.devices deviceId with
      | none =>
        rw [(EdgeNodeLifecycle.settling_unknown hrecord _).1]
        exact hsettled
      | some record =>
        rw [EdgeNodeLifecycle.confirmDeviceBirth_eq hrecord] at hsound ⊢
        split_ifs at hsound ⊢ with hpending
        · obtain ⟨nbirth, hborn, hhanded⟩ := h.records.births p hp hkind
          exact ⟨hsound, hrecords, hsettled.proven.deviceBorn hrecord hpending.2 (List.mem_cons_of_mem _ (h.records.handed p hp)) hkind
            hdevice hid hbirth (hborn.cons _) (hhanded.cons _) List.mem_cons_self⟩
        · exact hsettled
    · rw [heq] at hsound ⊢
      cases hrecord : s.lifecycle.devices deviceId with
      | none =>
        rw [(EdgeNodeLifecycle.settling_unknown hrecord _).2.2.1]
        refine hplain fun _ _ _ other record' _ hother _ hcontra => ?_
        obtain rfl := Option.some.inj (hdevice.symm.trans hother)
        cases hrecord.symm.trans hcontra
      | some record =>
        rw [EdgeNodeLifecycle.confirmDeviceDeath_eq hrecord] at hsound ⊢
        split_ifs at hsound ⊢ with hpending
        · refine ⟨hsound, hrecords, (h.proven.resetDevice deviceId record).logged (fun q hq => by cases hq) fun q hq _ => ?_⟩
          obtain ⟨rfl, -⟩ := hdeath q hq
          refine ⟨hunanswered false, fun _ other record' _ hother _ hfound honline => ?_⟩
          obtain rfl := Option.some.inj (hdevice.symm.trans hother)
          rw [EdgeNodeLifecycle.setDevice_devices, Function.update_self] at hfound
          obtain rfl := Option.some.inj hfound
          cases honline
        · refine hplain fun _ _ _ other record' id' hother hid' hfound _ => ?_
          obtain rfl := Option.some.inj (hdevice.symm.trans hother)
          obtain rfl := Option.some.inj (hrecord.symm.trans hfound)
          obtain rfl := Option.some.inj (hid.symm.trans hid')
          exact hpending

theorem Gated.subscribed {subscription : Subscription} (hsubscription : subscription ∈ s.subscribing) (ok : Bool) :
    (s.subscribed subscription ok).Gated config := by
  have hsound := h.sound.subscribed subscription ok
  have hrecords := h.records.answer subscription ok
  have hproven := h.other (.subscribed subscription ok) (by simp) (by simp)
  rcases subscribed_cases s subscription ok with ⟨-, heq⟩ | ⟨hcurrent, ⟨-, heq⟩ | ⟨rfl, heq⟩⟩
  · rw [heq] at hsound ⊢
    exact ⟨hsound, hrecords, hproven⟩
  · rw [heq] at hsound ⊢
    exact ⟨hsound, hrecords, quiet_onDisconnect⟩
  · obtain ⟨hfilters, nbirth, hborn⟩ := h.records.asked subscription hsubscription
    have hsubscribed : CommandsSubscribed config subscription.birth (.subscribed subscription true :: s.log) :=
      ⟨subscription, List.mem_cons_self, hfilters, rfl, rfl⟩
    rw [heq] at hsound ⊢
    refine ⟨hsound, ?_, hproven.confirmed ((isCurrentBirth_current h.sound).mp hcurrent) (hborn.cons _) hsubscribed⟩
    rcases EdgeNodeLifecycle.confirmNodeBirth_eq (l := s.lifecycle) with hsame | ⟨-, hsame⟩ <;> rw [hsame] <;> exact hrecords

theorem Gated.begun {deviceId : Text} {record : DeviceRecord} {kind : TransitionKind}
    (hpending : record.pending = some ⟨kind, s.lifecycle.nextTransitionId⟩)
    (honline : record.state = .online → ∃ before, s.lifecycle.devices deviceId = some before ∧ before.state = .online ∧ before.pending = none) :
    (s.withLifecycle (s.lifecycle.begun deviceId record)).Gated config := by
  have hfresh : ∀ q, .publish q ∈ s.log → q.message.transitionId ≠ some s.lifecycle.nextTransitionId := fun q hq hcontra =>
    (h.records.transitions q _ hq hcontra).ne rfl
  have hproven : Proven config (s.lifecycle.setDevice deviceId record) s.current s.log := h.proven.begun hpending hfresh honline
  refine ⟨h.sound.begun fun hstate => ?_, h.records.mono (Nat.le_succ _), ⟨hproven.online, hproven.devices, hproven.latest⟩⟩
  obtain ⟨before, hbefore, hstate, -⟩ := honline hstate
  exact h.sound.lifecycle deviceId before hbefore hstate

theorem Gated.step {a : Action} (hstep : step config s a = some s') : s'.Gated config := by
  have hsound := h.sound.step hstep
  cases h.sound.stepped hstep with
  | same => exact h
  | opened htopic hclient => exact h.opened hclient htopic
  | detached hdetached => exact h.detached hdetached
  | settings => exact ⟨hsound, h.records, ⟨h.proven.online, h.proven.devices, h.proven.latest⟩⟩
  | unnamed => exact h.begun rfl fun hcontra => by cases hcontra
  | birth _ honline hmsg hdevice hkind hid =>
    exact h.transition hmsg hsound (h.begun rfl fun hcontra => by cases hcontra) (.inl hkind) hdevice hid rfl
      (fun hcontra => by cases hcontra) fun _ => honline
  | siteData _ hrecord honline hpending hcan _ hmsg hdevice hkind =>
    exact h.data hmsg hcan (.inr ⟨_, _, hkind, hdevice, hrecord, honline, hpending⟩) _
  | nodeData _ hcan _ hmsg hkind => exact h.data hmsg hcan (.inl hkind) _
  | death _ hrecord honline hnone hmsg hdevice hkind hid =>
    exact h.transition hmsg hsound (h.begun rfl fun _ => ⟨_, hrecord, honline, hnone⟩) (.inr hkind) hdevice hid rfl
      (fun _ => ⟨hkind, rfl⟩) fun hcontra => by cases hkind.symm.trans hcontra
  | rebirth => exact h.rebirth _
  | strange => exact ⟨hsound, h.records.other (by simp) (by simp), h.other _ (by simp) (by simp)⟩
  | @connect client =>
    have hlogged : Gated config { s with log := .connected client :: s.log } :=
      ⟨h.sound.logged client, h.records.other (by simp) (by simp),
        h.other _ (by simp) (by simp)⟩
    rcases onConnectEvent_cases hlogged.sound _ _ _ with ⟨-, heq⟩ | ⟨hclient, -, -, msg, hmsg, hkind, -, heq⟩
    · rw [heq]
      exact hlogged
    · rw [heq] at hsound ⊢
      refine Gated.publishMessage (hlogged.reborn ?_) hmsg hsound (by simp [hkind]) (fun hcontra => by cases hcontra)
        fun p hp _ hdata => absurd hdata (not_isData (hp ▸ hkind))
      have hheld : s.client = some client := hclient
      simp [hheld]
  | published hp => exact h.published hp _
  | subscribed hsubscription => exact h.subscribed hsubscription _

end

end Bridge

/-- Data is handed to a client only after that client acknowledged the birth of the node for which the
data is, and the subscription of the session. For data of a device it also acknowledged a birth of the
device that was handed over after it acknowledged that of the node, and of the transitions of the
device handed over since then none is a death that was acknowledged and none is unanswered. -/
theorem data_gated {nodeMetrics : List SparkplugMetric} (hs : Reachable (step config) (fun _ _ => True) (Bridge.init nodeMetrics) s)
    (hhanded : .publish p ∈ s.log) (hdata : p.IsData) : LoggedWhen (Gate config p) (.publish p) s.log := by
  have hgated : s.Gated config := hs.invariant (Bridge.Gated.init config nodeMetrics) fun _ _ _ h _ hstep => h.step hstep
  exact hgated.records.gated p hhanded hdata

def plant : SparkplugConfig := ⟨['g'], ['e'], none, true⟩

/-- The bridge is started, its client connects, and the birth of the node and the subscription are
acknowledged. -/
def goOnline : List Action := [.start true true ⟨false, false⟩, .connect 0 true, .published 1 true, .subscribed 3 true]

def level : SparkplugMetric := ⟨['x'], .double, .number (some 1)⟩

/-- The birth of a device, that is acknowledged, and a value of it. -/
def deviceValue : List Action :=
  goOnline ++ [.birthSite ⟨['d'], [level]⟩ true, .published 5 true, .publishSiteData ['d'] [level] true]

def valueHanded : Publish :=
  ⟨7, ⟨0, 1, 1⟩, ⟨"spBv1.0/g/DDATA/e/d".toList, ⟨some 2, [level]⟩, 0, false, .ddata, none⟩, .nothing⟩

theorem data_gated_device : ∃ s, exec (step plant) (Bridge.init []) deviceValue = some s ∧ .publish valueHanded ∈ s.log ∧
    LoggedWhen (Gate plant valueHanded) (.publish valueHanded) s.log := by
  have hrun : (exec (step plant) (Bridge.init []) deviceValue).isSome := by decide
  have hexec := eq_some_getD hrun (Bridge.init [])
  have hs : Reachable (step plant) (fun _ _ => True) (Bridge.init []) _ := .of_exec .start deviceValue (fun _ _ _ => trivial) hexec
  have hhanded : .publish valueHanded ∈ ((exec (step plant) (Bridge.init []) deviceValue).getD (Bridge.init [])).log := by decide
  exact ⟨_, hexec, hhanded, data_gated hs hhanded (.inr rfl)⟩

end OxScada.Sparkplug
