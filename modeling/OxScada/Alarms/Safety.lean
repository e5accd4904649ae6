import OxScada.Alarms.Operations

/-! What holds in every state that the engine gets into: nothing is hidden that nothing restores, and every alarm
is in one place within the limits. -/

namespace OxScada.Alarms
open OxScada.Bytes OxScada.Order

variable {localeCompare : Text → Text → ℤ} {clock : Clock} {options : CorrelationEngineOptions} {topology : EquipmentTopology}
  {rules : CorrelationRulesEngine} {request : PolicyRequest}

namespace Correlation

variable {c c' : Correlation} {g : AlarmGroup} {alarm peer : CorrelatedAlarm} {rule : CorrelationRule} {groupId : Text}

def Tracks (c : Correlation) (a : CorrelatedAlarm) : Prop := a ∈ c.pending ∨ ∃ g ∈ c.groups, a ∈ g.alarms

/-! ### Suppression -/

structure SuppressionSafe (c : Correlation) : Prop where
  recorded : ∀ a, c.Tracks a → (a.state = .suppressed ↔ ∃ g ∈ c.groups, g.state = .opened ∧ a ∈ g.alarms ∧ a.id ∈ g.suppressedAlarmIds)
  restorable : ∀ g ∈ c.groups, ∀ id ∈ g.suppressedAlarmIds, g.state = .opened ∧ ∃ a ∈ g.alarms, a.id = id ∧ a.state = .suppressed
  rootMember : ∀ g ∈ c.groups, g.state = .opened → ∃ r ∈ g.alarms, r.id = g.rootCauseAlarmId
  rootVisible : ∀ g ∈ c.groups, g.state = .opened → ∀ r ∈ g.alarms, r.id = g.rootCauseAlarmId → r.state ≠ .suppressed ∧ r.state ≠ .cleared ∧ r.state ≠ .shelved
  floor : ∀ a, c.Tracks a → a.state = .suppressed → a.severity.rank < c.suppressionPolicy.neverSuppressAtOrAbove.rank
  enabled : ∀ a, c.Tracks a → a.state = .suppressed → c.suppressionPolicy.enabled = true
  sites : ∀ g ∈ c.groups, ∀ a ∈ g.alarms, a.state = .suppressed → ∀ r ∈ g.alarms, r.id = g.rootCauseAlarmId → areSitesCompatible c.topology r a = true

theorem Coherent.suppressed (h : c.Coherent) (hg : g ∈ c.groups) (ha : alarm ∈ g.alarms) (hsuppressed : alarm.state = .suppressed) :
    g.state = .opened ∧ c.suppressionPolicy.enabled = true ∧ g.shouldSuppress c.suppressionPolicy c.topology alarm = true := by
  have hsettled := h.settled g hg
  cases hstate : g.state with
  | closed => exact absurd hsuppressed (hsettled.visible hstate alarm ha)
  | opened =>
    obtain ⟨henabled, hshould⟩ := (hsettled.canonical hstate alarm ha).mp hsuppressed
    exact ⟨rfl, henabled, hshould⟩

theorem Coherent.tracked_suppressed (h : c.Coherent) (ha : c.Tracks alarm) (hsuppressed : alarm.state = .suppressed) :
    ∃ g ∈ c.groups, alarm ∈ g.alarms ∧ g.state = .opened ∧ c.suppressionPolicy.enabled = true ∧
      g.shouldSuppress c.suppressionPolicy c.topology alarm = true := by
  rcases ha with hpending | ⟨g, hg, ha⟩
  · exact absurd hsuppressed (h.waiting alarm hpending)
  · exact ⟨g, hg, ha, h.suppressed hg ha hsuppressed⟩

theorem shouldSuppress_facts {policy : SuppressionPolicy} (h : g.shouldSuppress policy topology alarm = true) :
    alarm.severity.rank < policy.neverSuppressAtOrAbove.rank ∧
      ∃ r, g.alarms.find? (fun r => r.id = g.rootCauseAlarmId) = some r ∧ areSitesCompatible topology r alarm = true := by
  unfold AlarmGroup.shouldSuppress at h
  simp only [Bool.and_eq_true, decide_eq_true_eq, Option.any_eq_true] at h
  obtain ⟨⟨⟨-, r, hroot, hsites⟩, -⟩, hfloor⟩ := h
  exact ⟨hfloor, r, hroot, hsites⟩

theorem Coherent.suppressionSafe (h : c.Coherent) : c.SuppressionSafe where
  recorded a ha := by
    constructor
    · intro hsuppressed
      obtain ⟨g, hg, hmem, hopen, -⟩ := h.tracked_suppressed ha hsuppressed
      exact ⟨g, hg, hopen, hmem, ((h.settled g hg).recorded.matches_state a hmem).mp hsuppressed⟩
    · rintro ⟨g, hg, -, hmem, hid⟩
      exact ((h.settled g hg).recorded.matches_state a hmem).mpr hid
  restorable g hg id hid := by
    have hsettled := h.settled g hg
    obtain ⟨a, ha, rfl⟩ := List.mem_map.mp (hsettled.recorded.known id hid)
    have hsuppressed := (hsettled.recorded.matches_state a ha).mpr hid
    exact ⟨(h.suppressed hg ha hsuppressed).1, a, ha, rfl, hsuppressed⟩
  rootMember g hg hopen := by
    obtain ⟨r, hr, hid, -⟩ := (h.settled g hg).rooted hopen
    exact ⟨r, hr, hid⟩
  rootVisible g hg hopen r hr hid := by
    obtain ⟨root, hroot, hsame, heligible⟩ := (h.settled g hg).rooted hopen
    have hsound := h.sound g hg
    obtain rfl := key_injective (hsound.ids ▸ hsound.nodup) hr hroot (hid.trans hsame.symm)
    refine ⟨fun hsuppressed => ?_, by simpa [CorrelatedAlarm.eligible] using heligible⟩
    have hshould := (h.suppressed hg hr hsuppressed).2.2
    rw [AlarmGroup.shouldSuppress_root hid] at hshould
    cases hshould
  floor a ha hsuppressed := by
    obtain ⟨g, -, -, -, -, hshould⟩ := h.tracked_suppressed ha hsuppressed
    exact (shouldSuppress_facts hshould).1
  enabled a ha hsuppressed := by
    obtain ⟨g, -, -, -, henabled, -⟩ := h.tracked_suppressed ha hsuppressed
    exact henabled
  sites g hg a ha hsuppressed r hr hid := by
    obtain ⟨-, root, hroot, hsites⟩ := shouldSuppress_facts (h.suppressed hg ha hsuppressed).2.2
    have hsound := h.sound g hg
    obtain ⟨hmem, hsame⟩ := (find?_key (hsound.ids ▸ hsound.nodup)).mp hroot
    obtain rfl := key_injective (hsound.ids ▸ hsound.nodup) hmem hr (hsame.trans hid.symm)
    exact hsites

/-! ### Places and limits -/

structure TrackingExact (options : CorrelationEngineOptions) (c : Correlation) : Prop where
  placed : ∀ id place, c.alarmIndex id = some place →
    (place = none ∧ (c.pending.map (·.id)).count id = 1 ∧ ∀ g ∈ c.groups, id ∉ g.alarmIds) ∨
      ∃ g ∈ c.groups, place = some g.id ∧ g.alarmIds.count id = 1 ∧ id ∉ c.pending.map (·.id) ∧ ∀ g' ∈ c.groups, id ∈ g'.alarmIds → g' = g
  indexed : ∀ a, c.Tracks a → c.alarmIndex a.id ≠ none
  alarmIds : ∀ g ∈ c.groups, g.alarmIds = g.alarms.map (·.id)
  createdAt : ∀ g ∈ c.groups, IsLeast {t | ∃ a ∈ g.alarms, a.timestamp = t} g.createdAt
  lastAlarmAt : ∀ g ∈ c.groups, IsGreatest {t | ∃ a ∈ g.alarms, a.timestamp = t} g.lastAlarmAt
  maxSeverity : ∀ g ∈ c.groups, (∃ a ∈ g.alarms, a.severity = g.maxSeverity) ∧ ∀ a ∈ g.alarms, a.severity.rank ≤ g.maxSeverity.rank
  span : ∀ g ∈ c.groups, g.lastAlarmAt - g.createdAt ≤ options.maxGroupSpanMs
  groupSize : ∀ g ∈ c.groups, g.alarms.length ≤ options.maxAlarmsPerGroup
  groupCount : c.groups.length ≤ options.maxGroups
  pendingCount : c.pending.length ≤ options.maxPendingAlarms

structure Capped (options : CorrelationEngineOptions) (c : Correlation) : Prop where
  sameOptions : c.options = options
  groups : c.groups.length ≤ options.maxGroups
  pending : c.pending.length ≤ options.maxPendingAlarms

theorem Coherent.trackingExact (h : c.Coherent) (hcapped : c.Capped options) : c.TrackingExact options where
  placed id place hplace := by
    cases place with
    | none =>
      refine .inl ⟨rfl, List.count_eq_one_of_mem h.pendingIds ((h.pendingIndex id).mp hplace), fun g hg hid => ?_⟩
      rw [h.place_of_member hg hid] at hplace
      cases hplace
    | some groupId =>
      obtain ⟨g, hg, rfl, hid⟩ := (h.groupIndex id groupId).mp hplace
      refine .inr ⟨g, hg, rfl, List.count_eq_one_of_mem (h.sound g hg).nodup hid, fun hpending => ?_, fun g' hg' hid' => ?_⟩
      · rw [(h.pendingIndex id).mpr hpending] at hplace
        cases hplace
      · rw [h.place_of_member hg' hid'] at hplace
        exact key_injective h.groupIds hg' hg (Option.some.inj (Option.some.inj hplace))
  indexed a ha := by
    rcases ha with hpending | ⟨g, hg, ha⟩
    · simp [h.place_of_pending hpending]
    · have hid : a.id ∈ g.alarmIds := (h.sound g hg).ids ▸ List.mem_map_of_mem ha
      simp [h.place_of_member hg hid]
  alarmIds g hg := (h.sound g hg).ids
  createdAt g hg := (h.sound g hg).created
  lastAlarmAt g hg := (h.sound g hg).last
  maxSeverity g hg := (h.sound g hg).severity
  span g hg := hcapped.sameOptions ▸ (h.sound g hg).span
  groupSize g hg := hcapped.sameOptions ▸ (h.sound g hg).size
  groupCount := hcapped.groups
  pendingCount := hcapped.pending

theorem Capped.grown (h : c.Capped options) (hgrown : Grown c c') : c'.Capped options where
  sameOptions := (setup_options hgrown.setup).trans h.sameOptions
  groups := by
    have hlength := congrArg List.length hgrown.groupIds
    rw [List.length_map, List.length_map] at hlength
    exact hlength ▸ h.groups
  pending := hgrown.pending.length_le.trans h.pending

structure Shaped (c c' : Correlation) : Prop where
  options : c'.options = c.options
  groups : c'.groups.length = c.groups.length
  pending : c'.pending.length = c.pending.length

theorem Capped.shaped (h : c.Capped options) (hshaped : Shaped c c') : c'.Capped options :=
  ⟨hshaped.options.trans h.sameOptions, hshaped.groups ▸ h.groups, hshaped.pending ▸ h.pending⟩

theorem put_shaped (c : Correlation) (g : AlarmGroup) : Shaped c (c.put g) := ⟨rfl, List.length_map _, rfl⟩

theorem setPending_shaped (c : Correlation) (alarmId : Text) (change : CorrelatedAlarm → CorrelatedAlarm) : Shaped c (c.setPending alarmId change) :=
  ⟨rfl, rfl, List.length_map _⟩

theorem eachGroup_shaped (c : Correlation) (treat : AlarmGroup → AlarmGroup × List EngineEffect) : Shaped c (c.eachGroup treat).1 :=
  ⟨rfl, List.length_map _, rfl⟩

theorem alarmCleared_shaped (c : Correlation) (alarmId : Text) (actor : Option Text) : Shaped c (c.alarmCleared clock alarmId actor).1 := by
  have hsame : Shaped c c := ⟨rfl, rfl, rfl⟩
  unfold alarmCleared clearPending clearMember
  split
  · exact hsame
  · cases c.pendingAlarm alarmId with
    | none => exact hsame
    | some a =>
      dsimp only
      split_ifs
      · exact hsame
      · exact setPending_shaped ..
  · cases c.getGroup _ with
    | none => exact hsame
    | some g =>
      dsimp only
      cases g.member alarmId with
      | none => exact hsame
      | some a =>
        dsimp only
        split_ifs
        · exact hsame
        · exact hsame
        · exact put_shaped ..
        · exact put_shaped ..

theorem alarmAcknowledged_shaped (c : Correlation) (alarmId : Text) (actor : Option Text) : Shaped c (c.alarmAcknowledged alarmId actor).1 := by
  have hsame : Shaped c c := ⟨rfl, rfl, rfl⟩
  unfold alarmAcknowledged
  split
  · exact hsame
  · cases c.pendingAlarm alarmId with
    | none => exact hsame
    | some a =>
      dsimp only
      cases acknowledgement a with
      | some done => exact hsame
      | none => exact setPending_shaped ..
  · cases c.getGroup _ with
    | none => exact hsame
    | some g =>
      dsimp only
      cases g.member alarmId with
      | none => exact hsame
      | some a =>
        dsimp only
        cases acknowledgement a with
        | some done => exact hsame
        | none => exact put_shaped ..

theorem Capped.founded (h : c.Capped options) (hcoherent : c.Coherent) (hpairs : Pairs c alarm peer) (hfree : c.getGroup groupId = none) :
    ((c.withFounded alarm peer rule groupId).enforceGroupCap clock).1.Capped options := by
  obtain ⟨hfounded, hpending⟩ := hcoherent.withFounded hpairs rule hfree
  obtain ⟨-, hshrunk, hlength⟩ := enforceGroupCap_shrunk clock hfounded
  have hoptions : (c.withFounded alarm peer rule groupId).options = options := h.sameOptions
  exact ⟨(setup_options hshrunk.setup).trans hoptions, hoptions ▸ hlength, (hshrunk.pending.trans hpending).length_le.trans h.pending⟩

theorem Capped.ingest (h : c.Capped options) (hcoherent : c.Coherent) (input : CorrelatedAlarm) :
    (c.ingest localeCompare clock input groupId).1.Capped options := by
  cases hplace : c.alarmIndex (raised input).id with
  | some place =>
    unfold Correlation.ingest
    simp only [hplace]
    exact h
  | none =>
    have hways : Ingested localeCompare clock c (raised input) groupId _ _ := hcoherent.ingested input hplace
    generalize (c.ingest localeCompare clock input groupId).1 = after at hways ⊢
    generalize (c.ingest localeCompare clock input groupId).2.2 = result at hways
    cases hways with
    | joined hfits hrule hgone hplace => exact h.grown hgone.grown
    | refused => exact h
    | evicted hpairs hfree hcap hid hgone => exact hcap ▸ h.founded hcoherent hpairs hfree
    | formed hpairs hrule hfree hcap hkept hg hgone =>
      subst hcap
      exact (h.founded hcoherent hpairs hfree).grown hgone.grown
    | standalone hnew =>
      obtain ⟨hshrunk, hpending⟩ := prunePending_shrunk
        ({ c.index (raised input).id (some none) with pending := c.pending ++ [raised input] } : Correlation) (raised input).timestamp
      have hoptions : c.options = options := h.sameOptions
      exact ⟨hoptions, h.groups, hoptions ▸ hpending⟩

theorem Capped.sweep (h : c.Capped options) (hcoherent : c.Coherent) (groupTouchedAt pendingTouchedAt : Text → Option ℚ) (nowMs : ℚ) :
    (c.sweep clock groupTouchedAt pendingTouchedAt nowMs).1.Capped options := by
  have hclosed := h.shaped (eachGroup_shaped c fun g => if c.isIdle groupTouchedAt nowMs g then g.closeGroup clock .idleTimeout else (g, []))
  have hpruned := hcoherent.swept clock groupTouchedAt pendingTouchedAt nowMs
  obtain ⟨-, hshrunk, hlength⟩ := enforceGroupCap_shrunk clock hpruned
  have hoptions : c.options = options := h.sameOptions
  exact ⟨(setup_options hshrunk.setup).trans hoptions, hoptions ▸ hlength,
    hshrunk.pending.length_le.trans (List.filter_sublist.length_le.trans hclosed.pending)⟩

/-! ### A group that does not outlive its formation -/

theorem evictAny_of_fits {l : List AlarmGroup} (hfits : c.groups.length ≤ c.options.maxGroups) : evictAny clock c l = (c, []) := by
  cases l with
  | nil => rfl
  | cons g later => rw [evictAny, if_pos hfits]

theorem evictAny_one_over (h : c.Tracked) (hg : g ∈ c.groups) (hover : c.groups.length = c.options.maxGroups + 1) (later : List AlarmGroup) :
    (evictAny clock c (g :: later)).1 = (c.evictGroup (g.closeGroup clock .evicted).1).1 ∧
      (c.evictGroup (g.closeGroup clock .evicted).1).1.groups.length ≤ c.options.maxGroups := by
  have hless : (c.evictGroup (g.closeGroup clock .evicted).1).1.groups.length = c.groups.length - 1 := by
    show (c.groups.filter fun old => old.id ≠ (g.closeGroup clock .evicted).1.id).length = _
    rw [(AlarmGroup.closeGroup_alike clock .evicted g).id]
    exact length_filter_key h.groupIds hg
  have hfits : (c.evictGroup (g.closeGroup clock .evicted).1).1.groups.length ≤ c.options.maxGroups := by omega
  refine ⟨?_, hfits⟩
  rw [evictAny_cons_of_over (by omega), evictAny_of_fits hfits]

theorem mem_evictGroup {x : AlarmGroup} (hx : x ∈ c.groups) (hother : x.id ≠ g.id) : x ∈ (c.evictGroup (g.closeGroup clock .evicted).1).1.groups := by
  refine List.mem_filter.mpr ⟨hx, ?_⟩
  rw [(AlarmGroup.closeGroup_alike clock .evicted g).id]
  simpa using hother

theorem Coherent.enforceGroupCap_last (h : c.Coherent) {others : List AlarmGroup} (hgroups : c.groups = others ++ [g]) (hopen : g.state = .opened)
    (hcap : others.length ≤ c.options.maxGroups) (hgone : (c.enforceGroupCap clock).1.getGroup g.id = none) :
    others.length = c.options.maxGroups ∧ ∀ x ∈ others, x.state = .opened ∧ g.lastAlarmAt < x.lastAlarmAt := by
  have hhere : g ∈ c.groups := by simp [hgroups]
  have hlost : g ∉ (c.enforceGroupCap clock).1.groups := fun hg => getGroup_eq_none.mp hgone (List.mem_map_of_mem hg)
  have hlength : c.groups.length = others.length + 1 := by simp [hgroups]
  by_cases hfits : c.groups.length ≤ c.options.maxGroups
  · unfold enforceGroupCap at hlost
    rw [show evictClosed c (oldestFirst (c.groups.filter fun x => x.state = .closed)) = (c, []) by
      cases oldestFirst (c.groups.filter fun x => x.state = .closed) with
      | nil => rfl
      | cons x later => rw [evictClosed, if_pos hfits]] at hlost
    dsimp only at hlost
    rw [evictAny_of_fits hfits] at hlost
    exact absurd hhere hlost
  · have hover : c.groups.length = c.options.maxGroups + 1 := by omega
    have hclosed : ∀ x ∈ oldestFirst (c.groups.filter fun x => x.state = .closed), x ∈ c.groups ∧ x.state = .closed := by
      intro x hx
      simpa using List.mem_filter.mp ((List.mem_insertionSort _).mp hx)
    unfold enforceGroupCap at hlost
    rw [evictClosed_eq clock c fun x hx => (hclosed x hx).2] at hlost
    dsimp only at hlost
    cases hlist : oldestFirst (c.groups.filter fun x => x.state = .closed) with
    | cons y later =>
      -- A closed group makes room.
      obtain ⟨hy, hstate⟩ := hclosed y (hlist ▸ List.mem_cons_self)
      obtain ⟨hone, hfits'⟩ := evictAny_one_over h.toTracked hy hover later
      rw [hlist, hone, evictAny_of_fits hfits'] at hlost
      refine absurd (mem_evictGroup hhere fun hsame => ?_) hlost
      obtain rfl := key_injective h.groupIds hhere hy hsame
      cases hopen.symm.trans hstate
    | nil =>
      rw [hlist] at hlost
      change g ∉ (evictAny clock c (oldestFirst c.groups)).1.groups at hlost
      have hnone : ∀ x ∈ c.groups, x.state = .opened := by
        intro x hx
        cases hstate : x.state with
        | opened => rfl
        | closed =>
          have hmem : x ∈ oldestFirst (c.groups.filter fun x => x.state = .closed) :=
            (List.mem_insertionSort _).mpr (List.mem_filter.mpr ⟨hx, by simp [hstate]⟩)
          rw [hlist] at hmem
          cases hmem
      cases hall : oldestFirst c.groups with
      | nil =>
        have hmem : g ∈ oldestFirst c.groups := (List.mem_insertionSort _).mpr hhere
        rw [hall] at hmem
        cases hmem
      | cons y later =>
        have hy : y ∈ c.groups := (List.mem_insertionSort _).mp (hall ▸ List.mem_cons_self : y ∈ oldestFirst c.groups)
        have hyg : y = g := by
          by_contra hne
          rw [hall, (evictAny_one_over h.toTracked hy hover later).1] at hlost
          exact hlost (mem_evictGroup hhere fun hsame => hne (key_injective h.groupIds hy hhere hsame.symm))
        refine ⟨by omega, fun x hx => ⟨hnone x (by simp [hgroups, hx]), ?_⟩⟩
        -- The sort is stable: an older group that is no more recent would come first.
        by_contra hle
        have hpair : [x, g].Sublist c.groups := by
          rw [hgroups]
          exact (List.singleton_sublist.mpr hx).append (.refl [g])
        have hsorted : [x, g].Sublist (oldestFirst c.groups) :=
          List.pair_sublist_insertionSort (r := fun a b : AlarmGroup => a.lastAlarmAt ≤ b.lastAlarmAt) (not_lt.mp hle) hpair
        have hnodup : (oldestFirst c.groups).Nodup := (List.perm_insertionSort _ _).nodup_iff.mpr (List.Nodup.of_map _ h.groupIds)
        have hne : x ≠ g := by
          intro hsame
          have hid := hpair.nodup (List.Nodup.of_map _ h.groupIds)
          simp [hsame] at hid
        rw [hall, hyg] at hsorted hnodup
        cases hsorted with
        | cons _ hrest => exact (List.nodup_cons.mp hnodup).1 (hrest.subset (by simp))
        | cons_cons _ hrest => exact hne rfl

theorem Tracked.place_of_shrunk (h : c.Tracked) (h' : c'.Tracked) (hshrunk : Shrunk c c') {id : Text} {place : Option Text}
    (hplace : c'.alarmIndex id = some place) : c.alarmIndex id = some place := by
  cases place with
  | none =>
    have hmem := (h'.pendingIndex id).mp hplace
    exact (h.pendingIndex id).mpr ((hshrunk.pending.map _).subset hmem)
  | some groupId =>
    obtain ⟨g, hg, hid, hmem⟩ := (h'.groupIndex id groupId).mp hplace
    exact (h.groupIndex id groupId).mpr ⟨g, hshrunk.groups.subset hg, hid, hmem⟩

def Retains (c : Correlation) (alarmId groupId : Text) : Prop := ∃ g ∈ c.groups, g.id = groupId ∧ alarmId ∈ g.alarmIds

/-- The new group was evicted at once, since all groups were open and more recently active. -/
structure EvictedAtOnce (options : CorrelationEngineOptions) (c c' : Correlation) (alarm : CorrelatedAlarm) (groupId : Text) : Prop where
  groupGone : c'.getGroup groupId = none
  alarmGone : c'.alarmIndex alarm.id = none
  full : c.groups.length = options.maxGroups
  openLater : ∀ g ∈ c.groups, g.state = .opened ∧ alarm.timestamp < g.lastAlarmAt

theorem raised_id (input : CorrelatedAlarm) : (raised input).id = input.id := by
  unfold raised
  split_ifs <;> rfl

theorem raised_timestamp (input : CorrelatedAlarm) : (raised input).timestamp = input.timestamp := by
  unfold raised
  split_ifs <;> rfl

theorem Coherent.evictedAtOnce (h : c.Coherent) (hcapped : c.Capped options) (hpairs : Pairs c alarm peer) (hfree : c.getGroup groupId = none)
    (hgone : ((c.withFounded alarm peer rule groupId).enforceGroupCap clock).1.getGroup groupId = none) :
    EvictedAtOnce options c ((c.withFounded alarm peer rule groupId).enforceGroupCap clock).1 alarm groupId := by
  obtain ⟨hfounded, -⟩ := h.withFounded hpairs rule hfree
  obtain ⟨hkept, hshrunk, -⟩ := enforceGroupCap_shrunk clock hfounded
  have hid : (c.founded alarm peer rule groupId).id = groupId := (founded_alike ..).id
  have hmember : alarm.id ∈ (c.founded alarm peer rule groupId).alarmIds := ((h.founded_settled hpairs rule groupId).2.2 alarm.id).mpr (.inl rfl)
  have hhere : c.founded alarm peer rule groupId ∈ (c.withFounded alarm peer rule groupId).groups := List.mem_append_right _ (by simp)
  have hplace := hfounded.place_of_member hhere hmember
  obtain ⟨hfull, hothers⟩ := hfounded.enforceGroupCap_last rfl (founded_state ..)
    (by exact hcapped.sameOptions ▸ hcapped.groups) (by rw [hid]; exact hgone)
  have hlast : alarm.timestamp ≤ (c.founded alarm peer rule groupId).lastAlarmAt := by
    obtain ⟨a, ha, hsame⟩ : ∃ a ∈ (newGroup alarm peer rule groupId).alarms, a.timestamp = alarm.timestamp := by
      obtain ⟨first, last, hwho, -, halarms, -⟩ := AlarmGroup.newGroup_members alarm peer rule groupId
      refine ⟨alarm, ?_, rfl⟩
      rw [halarms]
      rcases hwho with ⟨-, rfl⟩ | ⟨rfl, -⟩ <;> simp
    have hexists := ((founded_alike c alarm peer rule groupId).exists_iff (p := fun a => a.timestamp = alarm.timestamp) fun _ => Iff.rfl).mpr ⟨a, ha, hsame⟩
    exact (h.founded_settled hpairs rule groupId).1.last.2 hexists
  refine ⟨hgone, ?_, hcapped.sameOptions ▸ hfull, fun g hg => ⟨(hothers g hg).1, hlast.trans_lt (hothers g hg).2⟩⟩
  cases hafter : ((c.withFounded alarm peer rule groupId).enforceGroupCap clock).1.alarmIndex alarm.id with
  | none => rfl
  | some place =>
    have hsame := hfounded.toTracked.place_of_shrunk hkept.toTracked hshrunk hafter
    rw [hplace, hid] at hsame
    obtain rfl := Option.some.inj hsame
    obtain ⟨g, hg, hgid, -⟩ := (hkept.groupIndex alarm.id groupId).mp hafter
    exact absurd (List.mem_map.mpr ⟨g, hg, hgid⟩) (getGroup_eq_none.mp hgone)

theorem Coherent.ingest_names (h : c.Coherent) (hcapped : c.Capped options) (input : CorrelatedAlarm) {result : IngestResult} {named : Text}
    (hresult : (c.ingest localeCompare clock input groupId).2.2 = .ok result) (haction : result.action ≠ .duplicate) (hnamed : result.groupId = some named) :
    (c.ingest localeCompare clock input groupId).1.Retains input.id named ∨
      result.action = .formedGroup ∧ EvictedAtOnce options c (c.ingest localeCompare clock input groupId).1 input named := by
  cases hplace : c.alarmIndex (raised input).id with
  | some place =>
    unfold Correlation.ingest at hresult
    simp only [hplace] at hresult
    obtain rfl := Except.ok.inj hresult
    exact absurd rfl haction
  | none =>
    have hways : Ingested localeCompare clock c (raised input) groupId _ _ := h.ingested input hplace
    rw [hresult] at hways
    generalize (c.ingest localeCompare clock input groupId).1 = after at hways ⊢
    have hid := raised_id input
    generalize hok : (Except.ok result : Except Text IngestResult) = out at hways
    cases hways with
    | joined hfits hrule hgone hplace =>
      obtain rfl := Except.ok.inj hok
      obtain rfl := Option.some.inj hnamed
      left
      rw [hid, hgone.coherent.groupIndex] at hplace
      rw [hgone.id]
      exact hplace
    | refused => cases hok
    | evicted hpairs hfree hcap hgid hgone =>
      obtain rfl := Except.ok.inj hok
      obtain rfl := Option.some.inj hnamed
      right
      subst hcap
      have hevicted := h.evictedAtOnce hcapped hpairs hfree hgone
      rw [hgid]
      refine ⟨rfl, hevicted.groupGone, hid ▸ hevicted.alarmGone, hevicted.full, ?_⟩
      have htimestamp := raised_timestamp input
      exact htimestamp ▸ hevicted.openLater
    | @formed peer g g' rule kept after hpairs hrule hfree hcap hkept hg hgone =>
      obtain rfl := Except.ok.inj hok
      obtain rfl := Option.some.inj hnamed
      left
      have hcoherent : kept.Coherent := hcap ▸ (enforceGroupCap_shrunk clock (h.withFounded hpairs rule hfree).1).1
      have hmember : (raised input).id ∈ g.alarmIds := hg ▸ ((h.founded_settled hpairs rule groupId).2.2 (raised input).id).mpr (.inl rfl)
      have hplace := hgone.grown.kept _ _ (hcoherent.place_of_member (hcoherent.getGroup_iff.mp hkept).1 hmember)
      rw [hid, hgone.coherent.groupIndex] at hplace
      show after.Retains input.id g'.id
      rw [hgone.id]
      exact hplace
    | standalone hnew =>
      obtain rfl := Except.ok.inj hok
      cases hnamed

end Correlation

namespace AlarmCorrelationEngine

variable {e e' : AlarmCorrelationEngine}

theorem performAlarm_capped (h : e.toCorrelation.Capped options) (hcoherent : e.toCorrelation.Coherent) (op : AlarmOp) :
    (e.performAlarm localeCompare clock op).1.toCorrelation.Capped options := by
  cases op with
  | ingest input groupId => exact h.ingest hcoherent input
  | alarmCleared alarmId actor => exact h.shaped (Correlation.alarmCleared_shaped ..)
  | alarmAcknowledged alarmId actor => exact h.shaped (Correlation.alarmAcknowledged_shaped ..)
  | setSuppressionPolicy request =>
    show (e.toCorrelation.setSuppressionPolicy request).1.Capped options
    unfold Correlation.setSuppressionPolicy
    split_ifs
    · exact h
    · have hpolicy : ({ e.toCorrelation with suppressionPolicy := request.over e.suppressionPolicy } : Correlation).Capped options :=
        ⟨h.sameOptions, h.groups, h.pending⟩
      exact hpolicy.shaped (Correlation.eachGroup_shaped ..)

theorem perform_capped (h : e.toCorrelation.Capped options) (hcoherent : e.toCorrelation.Coherent) (op : EngineOp) :
    (e.perform localeCompare clock op).toCorrelation.Capped options := by
  cases op with
  | alarm op => exact performAlarm_capped h hcoherent op
  | sweep nowMs => exact h.sweep hcoherent _ _ nowMs
  | editRules edit => exact ⟨h.sameOptions, h.groups, h.pending⟩
  | editEquipment edit =>
    have htopology : ({ e.toCorrelation with topology := edit.apply e.topology } : Correlation).Capped options := ⟨h.sameOptions, h.groups, h.pending⟩
    exact htopology.shaped (Correlation.eachGroup_shaped ..)
  | reconcileTopology => exact h.shaped (Correlation.eachGroup_shaped ..)
  | restart now =>
    show (e.toCorrelation.hydrate e.groups e.pending).Capped options
    rw [hcoherent.hydrate_self]
    exact h

theorem create_capped (h : create options topology rules request = .ok e) : e.toCorrelation.Capped options := by
  unfold create at h
  split_ifs at h
  obtain rfl := Except.ok.inj h
  exact ⟨rfl, Nat.zero_le _, Nat.zero_le _⟩

theorem Run.capped (hrun : Run localeCompare e e') (h : e.toCorrelation.Capped options) (hcoherent : e.toCorrelation.Coherent) :
    e'.toCorrelation.Capped options := by
  refine (hrun.invariant (P := fun e => e.toCorrelation.Capped options ∧ e.toCorrelation.Coherent) ⟨h, hcoherent⟩ ?_).1
  rintro s clock op ⟨hcapped, hs⟩
  exact ⟨perform_capped hcapped hs op, perform_coherent hs op⟩

/-! ### A run with chattering tags -/

def chatter (id tagId : String) (timestamp : ℚ) : CorrelatedAlarm := { id := id.toList, tagId := tagId.toList, timestamp }

def narrow : AlarmCorrelationEngine where
  options := { maxGroups := 1 }
  topology := {}
  rules := {}
  suppressionPolicy := { enabled := true }
  groups := []
  pending := []
  alarmIndex := fun _ => none
  books := {}

def afterAlarms (e : AlarmCorrelationEngine) (inputs : List (CorrelatedAlarm × String)) : AlarmCorrelationEngine :=
  inputs.foldl (fun e input => (e.ingest (fun _ _ => 0) (fun _ => 0) input.1 input.2.toList).1) e

theorem create_narrow : create { maxGroups := 1 } {} {} { enabled := some true } = .ok narrow := rfl

/-- Two alarms of one tag, and an earlier one of another tag. -/
def chattering : AlarmCorrelationEngine :=
  afterAlarms narrow [(chatter "a" "x" 10000, "g"), (chatter "b" "x" 10001, "g"), (chatter "c" "y" 0, "h")]

theorem run_afterAlarms (e : AlarmCorrelationEngine) (inputs : List (CorrelatedAlarm × String)) : Run (fun _ _ => 0) e (afterAlarms e inputs) := by
  induction inputs generalizing e with
  | nil => exact .start
  | cons input later ih =>
    have hfirst : Run (fun _ _ => 0) e (e.ingest (fun _ _ => 0) (fun _ => 0) input.1 input.2.toList).1 :=
      Runs.Reachable.step (a := (fun _ => 0, .alarm (.ingest input.1 input.2.toList))) .start trivial rfl
    exact hfirst.trans (ih _)

example : (chattering.groups.flatMap (·.alarms)).map (·.state) = [.active, .suppressed] := by decide +kernel

/-! ### Every state -/

/-- In every state of a run nothing is hidden that nothing restores. -/
theorem run_suppressionSafe (hcreate : create options topology rules request = .ok e) (hrun : Run localeCompare e e') :
    e'.toCorrelation.SuppressionSafe := (hrun.coherent (create_coherent hcreate)).suppressionSafe

theorem chattering_suppressionSafe : chattering.toCorrelation.SuppressionSafe :=
  run_suppressionSafe create_narrow (run_afterAlarms narrow _)

/-- In every state of a run every alarm is in one place within the limits, and a result names a group that has the alarm
or that was evicted at once. -/
theorem run_trackingExact (hcreate : create options topology rules request = .ok e) (hrun : Run localeCompare e e') :
    e'.toCorrelation.TrackingExact options ∧
      ∀ clock input groupId result named, (e'.ingest localeCompare clock input groupId).2 = .ok result → result.action ≠ .duplicate →
        result.groupId = some named →
        (e'.ingest localeCompare clock input groupId).1.toCorrelation.Retains input.id named ∨
          result.action = .formedGroup ∧
            Correlation.EvictedAtOnce options e'.toCorrelation (e'.ingest localeCompare clock input groupId).1.toCorrelation input named := by
  have hcoherent := hrun.coherent (create_coherent hcreate)
  have hcapped := hrun.capped (create_capped hcreate) (create_coherent hcreate)
  refine ⟨hcoherent.trackingExact hcapped, ?_⟩
  intro clock input groupId result named hresult haction hnamed
  exact hcoherent.ingest_names hcapped input hresult haction hnamed

/-- The new group of the earlier alarms is evicted at once. -/
theorem chattering_evicted :
    create { maxGroups := 1 } {} {} { enabled := some true } = .ok narrow ∧ Run (fun _ _ => 0) narrow chattering ∧
      ∃ result, (chattering.ingest (fun _ _ => 0) (fun _ => 0) (chatter "d" "y" 1) "h".toList).2 = .ok result ∧ result.action ≠ .duplicate ∧
        result.groupId = some "h".toList ∧
        ¬ (chattering.ingest (fun _ _ => 0) (fun _ => 0) (chatter "d" "y" 1) "h".toList).1.toCorrelation.Retains "d".toList "h".toList := by
  have hresult : ((chattering.ingest (fun _ _ => 0) (fun _ => 0) (chatter "d" "y" 1) "h".toList).2.toOption.map fun r => (r.action, r.groupId)) =
      some (.formedGroup, some "h".toList) := by decide +kernel
  have hgroups : (chattering.ingest (fun _ _ => 0) (fun _ => 0) (chatter "d" "y" 1) "h".toList).1.groups.map (·.id) = ["g".toList] := by
    decide +kernel
  generalize chattering.ingest (fun _ _ => 0) (fun _ => 0) (chatter "d" "y" 1) "h".toList = out at hresult hgroups ⊢
  refine ⟨rfl, run_afterAlarms narrow _, ?_⟩
  obtain ⟨result, hok, hfacts⟩ := Option.map_eq_some_iff.mp hresult
  obtain ⟨haction, hnamed⟩ := Prod.mk.inj hfacts
  refine ⟨result, ?_, by simp [haction], hnamed, ?_⟩
  · cases hout : out.2 with
    | ok r => rw [hout] at hok; exact congrArg _ (Option.some.inj hok)
    | error e => rw [hout] at hok; cases hok
  · rintro ⟨g, hg, hid, -⟩
    have hmem := List.mem_map_of_mem (f := (·.id)) hg
    rw [hgroups, hid] at hmem
    simp at hmem

theorem chattering_trackingExact : chattering.toCorrelation.TrackingExact { maxGroups := 1 } ∧
    ∀ clock input groupId result named, (chattering.ingest (fun _ _ => 0) clock input groupId).2 = .ok result → result.action ≠ .duplicate →
      result.groupId = some named →
      (chattering.ingest (fun _ _ => 0) clock input groupId).1.toCorrelation.Retains input.id named ∨
        result.action = .formedGroup ∧
          Correlation.EvictedAtOnce { maxGroups := 1 } chattering.toCorrelation (chattering.ingest (fun _ _ => 0) clock input groupId).1.toCorrelation
            input named :=
  run_trackingExact create_narrow (run_afterAlarms narrow _)

end AlarmCorrelationEngine

end OxScada.Alarms
