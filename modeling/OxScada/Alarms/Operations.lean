import OxScada.Runs.Reachable
import OxScada.Alarms.Coherence

/-! The operations of the engine and its runs. Rules and equipment are edited while the engine runs, and after an
edit of the equipment the groups are reconciled. -/

namespace OxScada.Alarms
open OxScada.Bytes OxScada.Order

variable {localeCompare : Text → Text → ℤ} {clock : Clock} {policy policy' : SuppressionPolicy} {topology topology' : EquipmentTopology}

namespace AlarmGroup

variable {g : AlarmGroup}

theorem Settled.of_closed (h : g.Settled policy topology) (hclosed : g.state = .closed) : g.Settled policy' topology' where
  recorded := h.recorded
  rooted hopen := by cases hclosed.symm.trans hopen
  canonical hopen := by cases hclosed.symm.trans hopen
  visible := h.visible

theorem Settled.suppressedAlarmIds_eq_nil (h : g.Settled policy topology) (hclosed : g.state = .closed) : g.suppressedAlarmIds = [] := by
  refine List.eq_nil_iff_forall_not_mem.mpr fun id hid => ?_
  obtain ⟨a, ha, rfl⟩ := List.mem_map.mp (h.recorded.known id hid)
  exact h.visible hclosed a ha ((h.recorded.matches_state a ha).mpr hid)

end AlarmGroup

namespace Correlation

open AlarmGroup (Alike Settled Recorded Rooted)

variable {c c' : Correlation} {g g' : AlarmGroup} {alarm : CorrelatedAlarm} {id groupId : Text}

/-! ### Lifecycle -/

theorem Coherent.put (h : c.Coherent) (hg : g ∈ c.groups) (halike : Alike g g') (hsettled : g'.Settled c.suppressionPolicy c.topology) :
    (c.put g').Coherent where
  toTracked := h.toTracked.put hg halike
  settled x hx := by
    rcases (mem_put hg halike.id x).mp hx with rfl | ⟨hx, -⟩
    · exact hsettled
    · exact h.settled x hx
  waiting := h.waiting

theorem Coherent.setPending (h : c.Coherent) {change : CorrelatedAlarm → CorrelatedAlarm} (hraw : ∀ a, (change a).raw = a.raw)
    (hstate : ∀ a, (change a).state ≠ .suppressed) : (c.setPending id change).Coherent where
  toTracked := h.toTracked.setPending fun a => by
    show (change a).raw.id = a.raw.id
    rw [hraw]
  settled := h.settled
  waiting a' ha' := by
    obtain ⟨a, ha, rfl⟩ := List.mem_map.mp ha'
    split_ifs
    · exact hstate a
    · exact h.waiting a ha

variable (actor : Option Text)
variable (a : CorrelatedAlarm)

theorem clear_raw : (clear actor a).raw = a.raw := rfl

theorem acknowledge_raw : (acknowledge actor a).raw = a.raw := rfl

theorem clear_state : (clear actor a).state ≠ .active ∧ (clear actor a).state ≠ .suppressed := by
  simp [clear]

theorem acknowledge_state :
    (acknowledge actor a).state ≠ .active ∧ (acknowledge actor a).state ≠ .suppressed := by simp [acknowledge]

theorem Coherent.clearPending (h : c.Coherent) (alarmId : Text) (actor : Option Text) : (c.clearPending alarmId actor).1.Coherent := by
  unfold Correlation.clearPending
  cases c.pendingAlarm alarmId with
  | none => exact h
  | some a =>
    dsimp only
    split_ifs
    · exact h
    · exact h.setPending (clear_raw actor) fun a => (clear_state actor a).2

theorem Coherent.clearMember (h : c.Coherent) (hg : g ∈ c.groups) (alarmId : Text) (actor : Option Text) :
    (c.clearMember clock g alarmId actor).1.Coherent := by
  unfold Correlation.clearMember
  cases g.member alarmId with
  | none => exact h
  | some a =>
    have halike := AlarmGroup.setMember_alike (clear_raw actor) g alarmId
    dsimp only
    split_ifs with hcleared hclosed hroot
    · exact h
    · exact h
    · -- The root cause is cleared, and the group is closed.
      have hrestored := halike.trans (AlarmGroup.unsuppressActiveMembers_alike _)
      refine h.put hg (hrestored.trans (AlarmGroup.closeGroup_alike clock .rootCauseCleared _)) ?_
      refine AlarmGroup.closeGroup_settled fun hclosed => ?_
      cases hroot.1.symm.trans hclosed
    · exact h.put hg halike (AlarmGroup.setMember_settled (h.settled g hg) (clear_raw actor) (clear_state actor)
        fun hopen hself => absurd ⟨hopen, hself⟩ hroot)

theorem Coherent.alarmCleared (h : c.Coherent) (alarmId : Text) (actor : Option Text) : (c.alarmCleared clock alarmId actor).1.Coherent := by
  unfold Correlation.alarmCleared
  split
  · exact h
  · exact h.clearPending alarmId actor
  · cases hgroup : c.getGroup _ with
    | none => exact h
    | some g => exact h.clearMember (h.getGroup_iff.mp hgroup).1 alarmId actor

theorem Coherent.alarmAcknowledged (h : c.Coherent) (alarmId : Text) (actor : Option Text) : (c.alarmAcknowledged alarmId actor).1.Coherent := by
  unfold Correlation.alarmAcknowledged
  split
  · exact h
  · cases c.pendingAlarm alarmId with
    | none => exact h
    | some a =>
      dsimp only
      cases acknowledgement a with
      | some done => exact h
      | none => exact h.setPending (acknowledge_raw actor) fun a => (acknowledge_state actor a).2
  · cases hgroup : c.getGroup _ with
    | none => exact h
    | some g =>
      dsimp only
      cases g.member alarmId with
      | none => exact h
      | some a =>
        dsimp only
        cases acknowledgement a with
        | some done => exact h
        | none =>
          have hg := (h.getGroup_iff.mp hgroup).1
          refine h.put hg (AlarmGroup.setMember_alike (acknowledge_raw actor) g alarmId) ?_
          exact AlarmGroup.setMember_settled (h.settled g hg) (acknowledge_raw actor) (acknowledge_state actor) fun _ _ _ => rfl

/-! ### Housekeeping and policy -/

theorem Tracked.eachGroup_coherent (h : c.Tracked) {treat : AlarmGroup → AlarmGroup × List EngineEffect} (halike : ∀ g ∈ c.groups, Alike g (treat g).1)
    (hsettled : ∀ g ∈ c.groups, (treat g).1.Settled c.suppressionPolicy c.topology) (hwaiting : ∀ a ∈ c.pending, a.state ≠ .suppressed) :
    (c.eachGroup treat).1.Coherent where
  toTracked := h.eachGroup halike
  settled g' hg' := by
    obtain ⟨g, hg, rfl⟩ := List.mem_map.mp hg'
    exact hsettled g hg
  waiting := hwaiting

theorem prunePendingByProcessingTime_shrunk (c : Correlation) (touchedAt : Text → Option ℚ) (nowMs : ℚ) :
    Shrunk c (c.prunePendingByProcessingTime touchedAt nowMs).1 := ⟨rfl, .refl _, List.filter_sublist⟩

theorem Coherent.closed (h : c.Coherent) (clock : Clock) (groupTouchedAt : Text → Option ℚ) (nowMs : ℚ) :
    (c.eachGroup fun g => if c.isIdle groupTouchedAt nowMs g then g.closeGroup clock .idleTimeout else (g, [])).1.Coherent := by
  refine h.toTracked.eachGroup_coherent (fun g hg => ?_) (fun g hg => ?_) h.waiting
  · split_ifs
    · exact AlarmGroup.closeGroup_alike clock .idleTimeout g
    · exact .refl g
  · split_ifs
    · exact AlarmGroup.closeGroup_settled fun _ => h.settled g hg
    · exact h.settled g hg

theorem Coherent.swept (h : c.Coherent) (clock : Clock) (groupTouchedAt pendingTouchedAt : Text → Option ℚ) (nowMs : ℚ) :
    ((c.eachGroup fun g => if c.isIdle groupTouchedAt nowMs g then g.closeGroup clock .idleTimeout else (g, [])).1.prunePendingByProcessingTime
      pendingTouchedAt nowMs).1.Coherent := by
  have hclosed := h.closed clock groupTouchedAt nowMs
  exact hclosed.shrunk (prunePendingByProcessingTime_shrunk ..) (hclosed.prunePendingByProcessingTime pendingTouchedAt nowMs)

theorem Coherent.sweep (h : c.Coherent) (groupTouchedAt pendingTouchedAt : Text → Option ℚ) (nowMs : ℚ) :
    (c.sweep clock groupTouchedAt pendingTouchedAt nowMs).1.Coherent := (enforceGroupCap_shrunk clock (h.swept clock groupTouchedAt pendingTouchedAt nowMs)).1

theorem resuppress_settled (policy : SuppressionPolicy) (h : g.Settled policy' topology) (hsound : ∃ options, g.Sound options) :
    Alike g (resuppress policy topology g).1 ∧ (resuppress policy topology g).1.Settled policy topology := by
  obtain ⟨options, hsound⟩ := hsound
  unfold resuppress
  split_ifs with hopen
  · exact ⟨AlarmGroup.applySuppression_alike .., AlarmGroup.applySuppression_settled hopen (hsound.ids ▸ hsound.nodup) h.recorded (h.rooted hopen)⟩
  · have hclosed : g.state = .closed := by
      cases hstate : g.state with
      | opened => exact absurd hstate hopen
      | closed => rfl
    exact ⟨.refl g, h.of_closed hclosed⟩

theorem reelect_settled (policy : SuppressionPolicy) (topology : EquipmentTopology) (h : g.Settled policy' topology') (hsound : ∃ options, g.Sound options) :
    Alike g (reelect policy topology g).1 ∧ (reelect policy topology g).1.Settled policy topology := by
  obtain ⟨options, hsound⟩ := hsound
  have halike := AlarmGroup.electRootCause_alike topology g
  have helected := hsound.alike halike
  unfold reelect
  split_ifs with hopen
  · refine ⟨halike.trans (AlarmGroup.applySuppression_alike ..), AlarmGroup.applySuppression_settled ?_ (helected.ids ▸ helected.nodup) ?_ ?_⟩
    · rw [AlarmGroup.electRootCause_state]
      exact hopen
    · exact AlarmGroup.electRootCause_recorded h.recorded
    · obtain ⟨r, hr, -, heligible⟩ := h.rooted hopen
      exact AlarmGroup.electRootCause_rooted ⟨r, hr, heligible⟩
  · have hclosed : g.state = .closed := by
      cases hstate : g.state with
      | opened => exact absurd hstate hopen
      | closed => rfl
    exact ⟨.refl g, h.of_closed hclosed⟩

theorem Coherent.setSuppressionPolicy (h : c.Coherent) (request : PolicyRequest) : (c.setSuppressionPolicy request).1.Coherent := by
  unfold Correlation.setSuppressionPolicy
  split_ifs
  · exact h
  · have htracked : ({ c with suppressionPolicy := request.over c.suppressionPolicy } : Correlation).Tracked :=
      ⟨h.groupIds, h.pendingIds, h.pendingIndex, h.groupIndex, h.sound⟩
    have heach : ∀ g ∈ c.groups, _ := fun g hg =>
      resuppress_settled (request.over c.suppressionPolicy) (h.settled g hg) ⟨_, h.sound g hg⟩
    exact htracked.eachGroup_coherent (fun g hg => (heach g hg).1) (fun g hg => (heach g hg).2) h.waiting

theorem Coherent.reconcileTopology (h : c.Coherent) (topology : EquipmentTopology) :
    ({ c with topology } : Correlation).reconcileTopology.1.Coherent := by
  have htracked : ({ c with topology } : Correlation).Tracked := ⟨h.groupIds, h.pendingIds, h.pendingIndex, h.groupIndex, h.sound⟩
  have heach : ∀ g ∈ c.groups, _ := fun g hg =>
    reelect_settled c.suppressionPolicy topology (h.settled g hg) ⟨_, h.sound g hg⟩
  exact htracked.eachGroup_coherent (fun g hg => (heach g hg).1) (fun g hg => (heach g hg).2) h.waiting

/-! ### Recovery -/

theorem recovered_eq (h : g.Settled policy topology) (hsound : ∃ options, g.Sound options) : recovered g = g := by
  obtain ⟨options, hsound⟩ := hsound
  have hids : g.alarms.map (·.id) = g.alarmIds := hsound.ids.symm
  unfold recovered
  rw [hids]
  dsimp only
  split_ifs with hclosed
  · have hvisible : g.alarms.map (fun a => if a.state = .suppressed then { a with state := .active } else a) = g.alarms := by
      refine (List.map_congr_left fun a ha => ?_).trans (List.map_id g.alarms)
      exact if_neg (h.visible hclosed a ha)
    rw [hvisible, ← h.suppressedAlarmIds_eq_nil hclosed]
  · have hknown : (g.suppressedAlarmIds.filter fun id => id ∈ g.alarmIds) = g.suppressedAlarmIds := by
      refine List.filter_eq_self.mpr fun id hid => ?_
      rw [← hids]
      exact decide_eq_true (h.recorded.known id hid)
    rw [hknown]

theorem raised_eq (h : alarm.state ≠ .suppressed) : raised alarm = alarm := if_neg h

theorem Coherent.takeGroups (h : c.Coherent) {taken later : List AlarmGroup} (hall : c.groups = taken ++ later)
    (htracked : c'.Tracked) (hgroups : c'.groups = taken) (hpending : c'.pending = []) (hsetup : c'.setup = c.setup) :
    (later.foldl takeGroup c').Tracked ∧ (later.foldl takeGroup c').groups = c.groups ∧ (later.foldl takeGroup c').pending = [] ∧
      (later.foldl takeGroup c').setup = c.setup := by
  induction later generalizing c' taken with
  | nil => exact ⟨htracked, hgroups.trans (by simp [hall]), hpending, hsetup⟩
  | cons g later ih =>
    have hg : g ∈ c.groups := by simp [hall]
    have hrecovered := recovered_eq (h.settled g hg) ⟨_, h.sound g hg⟩
    have hids := h.groupIds
    rw [hall, List.map_append, List.map_cons] at hids
    have hfresh : c'.getGroup g.id = none := by
      rw [getGroup_eq_none, hgroups]
      intro hmem
      exact (List.nodup_append.mp hids).2.2 g.id hmem g.id List.mem_cons_self rfl
    have htaken : (c'.takeGroup g).groups = taken ++ [g] := by
      unfold takeGroup setGroup
      simp only [hrecovered]
      simp [hfresh, hgroups]
    have hindex : ∀ id, (c'.takeGroup g).alarmIndex id = if id ∈ g.alarmIds then some (some g.id) else c'.alarmIndex id := by
      intro id
      unfold takeGroup
      rw [hrecovered]
    have hpending' : (c'.takeGroup g).pending = [] := by
      unfold takeGroup setGroup
      rw [hrecovered]
      simp [hfresh, hpending]
    have hsetup' : (c'.takeGroup g).setup = c.setup := by
      rw [← hsetup]
      unfold takeGroup setGroup
      rw [hrecovered]
      simp [hfresh, setup]
    have hsplit : c.groups = (taken ++ [g]) ++ later := by rw [hall, List.append_assoc, List.singleton_append]
    -- the groups share no member, so those of this one are in no group that was taken before
    have hfree : ∀ id ∈ g.alarmIds, ∀ groupId, c'.alarmIndex id ≠ some (some groupId) := by
      intro id hid groupId hplace
      obtain ⟨x, hx, rfl, hmem⟩ := (htracked.groupIndex id groupId).mp hplace
      rw [hgroups] at hx
      have hx' : x ∈ c.groups := hall ▸ List.mem_append_left _ hx
      have hsame : some (some x.id) = some (some g.id) := (h.place_of_member hx' hmem).symm.trans (h.place_of_member hg hid)
      refine getGroup_eq_none.mp hfresh ?_
      rw [hgroups, ← Option.some.inj (Option.some.inj hsame)]
      exact List.mem_map_of_mem hx
    have hnodup : ((taken ++ [g]).map (·.id)).Nodup := by
      have hprefix := h.groupIds
      rw [hsplit, List.map_append] at hprefix
      exact (List.nodup_append.mp hprefix).1
    have hadmits : c'.Admits g.alarmIds g (c'.takeGroup g) := {
      options := (setup_options hsetup').trans (setup_options hsetup).symm
      free := hfree
      groups := by
        intro x
        rw [htaken, hgroups, List.mem_append, List.mem_singleton]
        constructor
        · rintro (hx | hx)
          · refine .inr ⟨hx, fun hsame => getGroup_eq_none.mp hfresh ?_⟩
            rw [hgroups]
            exact List.mem_map.mpr ⟨x, hx, hsame⟩
          · exact .inl hx
        · rintro (hx | ⟨hx, -⟩)
          · exact .inr hx
          · exact .inl hx
      groupIds := by rw [htaken]; exact hnodup
      pending := by rw [hpending', hpending]; rfl
      index := hindex
      members := by
        intro id
        refine ⟨.inl, fun hid => hid.elim (fun hmem => hmem) fun hplace => ?_⟩
        obtain ⟨x, hx, hsame, -⟩ := (htracked.groupIndex id g.id).mp hplace
        exact absurd (List.mem_map.mpr ⟨x, hx, hsame⟩) (getGroup_eq_none.mp hfresh)
      sound := by
        rw [setup_options hsetup]
        exact h.sound g hg }
    exact ih hsplit (htracked.admits hadmits) htaken hpending' hsetup'

theorem Coherent.takePendings (h : c.Coherent) {taken later : List CorrelatedAlarm} (hall : c.pending = taken ++ later)
    (htracked : c'.Tracked) (hgroups : c'.groups = c.groups) (hpending : c'.pending = taken) (hsetup : c'.setup = c.setup) :
    (later.foldl takePending c').Tracked ∧ (later.foldl takePending c').groups = c.groups ∧ (later.foldl takePending c').pending = c.pending ∧
      (later.foldl takePending c').setup = c.setup := by
  induction later generalizing c' taken with
  | nil => exact ⟨htracked, hgroups, hpending.trans (by simp [hall]), hsetup⟩
  | cons a later ih =>
    have ha : a ∈ c.pending := by simp [hall]
    have hids := h.pendingIds
    rw [hall, List.map_append, List.map_cons] at hids
    have hnew : c'.alarmIndex a.id = none := by
      have hwaiting : c'.alarmIndex a.id ≠ some none := by
        rw [ne_eq, htracked.pendingIndex, hpending]
        intro hmem
        exact (List.nodup_append.mp hids).2.2 a.id hmem a.id List.mem_cons_self rfl
      have hmember : ∀ groupId, c'.alarmIndex a.id ≠ some (some groupId) := by
        intro groupId
        rw [ne_eq, htracked.groupIndex, hgroups, ← h.groupIndex, h.place_of_pending ha]
        simp
      cases hplace : c'.alarmIndex a.id with
      | none => rfl
      | some place =>
        cases place with
        | none => exact absurd hplace hwaiting
        | some groupId => exact absurd hplace (hmember groupId)
    have hstep : c'.takePending a = { c'.index a.id (some none) with pending := c'.pending ++ [a] } := by
      unfold takePending
      rw [hnew, raised_eq (h.waiting a ha)]
      rfl
    have hsplit : c.pending = (taken ++ [a]) ++ later := by rw [hall, List.append_assoc, List.singleton_append]
    rw [List.foldl_cons, hstep]
    exact ih hsplit (htracked.wait hnew) hgroups (by rw [← hpending]) hsetup

theorem Coherent.hydrate_self (h : c.Coherent) : c.hydrate c.groups c.pending = c := by
  have hempty : ({ c with groups := [], pending := [], alarmIndex := fun _ => none } : Correlation).Tracked := by
    refine ⟨List.nodup_nil, List.nodup_nil, ?_, ?_, ?_⟩
    · simp
    · simp
    · simp
  obtain ⟨hgroups, hall, hnone, hsetup⟩ := h.takeGroups (List.nil_append _).symm hempty rfl rfl rfl
  obtain ⟨htracked, hgroups', hpending, hsetup'⟩ := h.takePendings (List.nil_append _).symm hgroups hall hnone hsetup
  have hindex := h.toTracked.index_eq htracked hgroups' hpending
  change (c.hydrate c.groups c.pending).groups = _ at hgroups'
  change (c.hydrate c.groups c.pending).pending = _ at hpending
  change (c.hydrate c.groups c.pending).setup = _ at hsetup'
  change (c.hydrate c.groups c.pending).alarmIndex = _ at hindex
  generalize c.hydrate c.groups c.pending = out at *
  obtain ⟨options, topology, rules, policy, groups, pending, alarmIndex⟩ := out
  obtain ⟨rfl, rfl, rfl, rfl⟩ : options = c.options ∧ topology = c.topology ∧ rules = c.rules ∧ policy = c.suppressionPolicy :=
    ⟨setup_options hsetup', setup_topology hsetup', setup_rules hsetup', setup_policy hsetup'⟩
  obtain ⟨rfl, rfl, rfl⟩ : groups = c.groups ∧ pending = c.pending ∧ alarmIndex = c.alarmIndex := ⟨hgroups', hpending, hindex⟩
  rfl

end Correlation

/-! ### Runs -/

inductive RuleEdit where
  | upsert (rule : CorrelationRule)
  | remove (id : Text)
  | setEnabled (id : Text) (enabled : Bool)
  deriving DecidableEq

def RuleEdit.apply (rules : CorrelationRulesEngine) : RuleEdit → CorrelationRulesEngine
  | upsert rule => (rules.upsert rule).toOption.getD rules
  | remove id => rules.remove id
  | setEnabled id enabled => rules.setEnabled id enabled

inductive EquipmentEdit where
  | upsertMany (nodes : List EquipmentNode)
  | remove (equipmentId : Text)
  deriving DecidableEq

def EquipmentEdit.apply (topology : EquipmentTopology) : EquipmentEdit → EquipmentTopology
  | upsertMany nodes => (topology.upsertMany nodes).toOption.getD topology
  | remove equipmentId => topology.remove equipmentId

inductive AlarmOp where
  | ingest (input : CorrelatedAlarm) (groupId : Text)
  | alarmCleared (alarmId : Text) (actor : Option Text)
  | alarmAcknowledged (alarmId : Text) (actor : Option Text)
  | setSuppressionPolicy (request : PolicyRequest)

inductive EngineOp where
  | alarm (op : AlarmOp)
  | sweep (nowMs : ℚ)
  | editRules (edit : RuleEdit)
  | editEquipment (edit : EquipmentEdit)
  | reconcileTopology
  | restart (now : ℚ)

inductive OpResult where
  | ingested (result : Except Text IngestResult)
  | cleared (result : ClearResult)
  | acknowledged (done : Bool)
  | policy (result : Except Text SuppressionPolicy)

def Correlation.perform (localeCompare : Text → Text → ℤ) (clock : Clock) (c : Correlation) : AlarmOp → Correlation × List EngineEffect × OpResult
  | .ingest input groupId =>
    let (c, effects, result) := c.ingest localeCompare clock input groupId
    (c, effects, .ingested result)
  | .alarmCleared alarmId actor =>
    let (c, effects, result) := c.alarmCleared clock alarmId actor
    (c, effects, .cleared result)
  | .alarmAcknowledged alarmId actor =>
    let (c, effects, done) := c.alarmAcknowledged alarmId actor
    (c, effects, .acknowledged done)
  | .setSuppressionPolicy request =>
    let (c, effects, result) := c.setSuppressionPolicy request
    (c, effects, .policy result)

theorem Correlation.Coherent.perform {c : Correlation} (h : c.Coherent) (op : AlarmOp) : (c.perform localeCompare clock op).1.Coherent := by
  cases op with
  | ingest input groupId => exact h.ingest input
  | alarmCleared alarmId actor => exact h.alarmCleared alarmId actor
  | alarmAcknowledged alarmId actor => exact h.alarmAcknowledged alarmId actor
  | setSuppressionPolicy request => exact h.setSuppressionPolicy request

namespace AlarmCorrelationEngine

def performAlarm (localeCompare : Text → Text → ℤ) (clock : Clock) (e : AlarmCorrelationEngine) (op : AlarmOp) : AlarmCorrelationEngine × OpResult :=
  let (c, effects, result) := e.toCorrelation.perform localeCompare clock op
  (e.after clock c effects, result)

def perform (localeCompare : Text → Text → ℤ) (clock : Clock) (e : AlarmCorrelationEngine) : EngineOp → AlarmCorrelationEngine
  | .alarm op => (e.performAlarm localeCompare clock op).1
  | .sweep nowMs => (e.sweep clock nowMs).1
  | .editRules edit => { e with rules := edit.apply e.rules }
  | .editEquipment edit => ({ e with topology := edit.apply e.topology } : AlarmCorrelationEngine).reconcileTopology clock
  | .reconcileTopology => e.reconcileTopology clock
  | .restart now => e.hydrate e.exportState now

def step (localeCompare : Text → Text → ℤ) (e : AlarmCorrelationEngine) (action : Clock × EngineOp) : Option AlarmCorrelationEngine :=
  some (e.perform localeCompare action.1 action.2)

def Run (localeCompare : Text → Text → ℤ) (e e' : AlarmCorrelationEngine) : Prop := Runs.Reachable (step localeCompare) (fun _ _ => True) e e'

variable {e e' : AlarmCorrelationEngine}

theorem perform_coherent (h : e.toCorrelation.Coherent) (op : EngineOp) : (e.perform localeCompare clock op).toCorrelation.Coherent := by
  cases op with
  | alarm op => exact h.perform op
  | sweep nowMs => exact h.sweep _ _ nowMs
  | editRules edit => exact ⟨⟨h.groupIds, h.pendingIds, h.pendingIndex, h.groupIndex, h.sound⟩, h.settled, h.waiting⟩
  | editEquipment edit => exact h.reconcileTopology (edit.apply e.topology)
  | reconcileTopology => exact h.reconcileTopology e.topology
  | restart now =>
    show (e.toCorrelation.hydrate e.groups e.pending).Coherent
    rw [h.hydrate_self]
    exact h

theorem create_coherent {options : CorrelationEngineOptions} {rules : CorrelationRulesEngine} {request : PolicyRequest}
    (h : create options topology rules request = .ok e) : e.toCorrelation.Coherent := by
  unfold create at h
  split_ifs at h
  obtain rfl := Except.ok.inj h
  have htracked : ({ options, topology, rules, suppressionPolicy := request.over {}, groups := [], pending := [], alarmIndex := fun _ => none } :
      Correlation).Tracked := by
    refine ⟨List.nodup_nil, List.nodup_nil, ?_, ?_, ?_⟩
    · simp
    · simp
    · simp
  exact ⟨htracked, by simp, by simp⟩

theorem Run.invariant {P : AlarmCorrelationEngine → Prop} (hrun : Run localeCompare e e') (hstart : P e)
    (hstep : ∀ s clock op, P s → P (s.perform localeCompare clock op)) : P e' := by
  refine Runs.Reachable.invariant hrun hstart fun s action s' hs _ hnext => ?_
  obtain rfl := Option.some.inj hnext
  exact hstep s action.1 action.2 hs

theorem Run.coherent (hrun : Run localeCompare e e') (h : e.toCorrelation.Coherent) : e'.toCorrelation.Coherent := by
  exact hrun.invariant (P := fun e => e.toCorrelation.Coherent) h fun _ _ op hs => perform_coherent hs op

end AlarmCorrelationEngine

end OxScada.Alarms
