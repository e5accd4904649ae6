import OxScada.Alarms.Lifecycle

/-! What holds of a group of alarms: its bounds are those of its members, and its members are suppressed as the
policy asks for. -/

namespace OxScada.Alarms
open OxScada.Bytes

variable {options : CorrelationEngineOptions} {policy : SuppressionPolicy} {topology : EquipmentTopology} {clock : Clock}

def CorrelatedAlarm.raw (alarm : CorrelatedAlarm) : CorrelatedAlarm := { alarm with state := .active, acknowledgedBy := none, clearedBy := none }

namespace AlarmGroup

variable {g g' g'' : AlarmGroup} {alarm : CorrelatedAlarm}

/-- The same alarms in the same group, maybe in other states and under another root cause. -/
structure Alike (g g' : AlarmGroup) : Prop where
  id : g'.id = g.id
  alarms : g'.alarms.map CorrelatedAlarm.raw = g.alarms.map CorrelatedAlarm.raw
  alarmIds : g'.alarmIds = g.alarmIds
  maxSeverity : g'.maxSeverity = g.maxSeverity
  createdAt : g'.createdAt = g.createdAt
  lastAlarmAt : g'.lastAlarmAt = g.lastAlarmAt

structure Sound (options : CorrelationEngineOptions) (g : AlarmGroup) : Prop where
  ids : g.alarmIds = g.alarms.map (·.id)
  nodup : g.alarmIds.Nodup
  created : IsLeast {t | ∃ a ∈ g.alarms, a.timestamp = t} g.createdAt
  last : IsGreatest {t | ∃ a ∈ g.alarms, a.timestamp = t} g.lastAlarmAt
  severity : (∃ a ∈ g.alarms, a.severity = g.maxSeverity) ∧ ∀ a ∈ g.alarms, a.severity.rank ≤ g.maxSeverity.rank
  span : g.lastAlarmAt - g.createdAt ≤ options.maxGroupSpanMs
  size : g.alarms.length ≤ options.maxAlarmsPerGroup

theorem Alike.refl (g : AlarmGroup) : Alike g g := ⟨rfl, rfl, rfl, rfl, rfl, rfl⟩

theorem Alike.trans (h : Alike g g') (h' : Alike g' g'') : Alike g g'' where
  id := h'.id.trans h.id
  alarms := h'.alarms.trans h.alarms
  alarmIds := h'.alarmIds.trans h.alarmIds
  maxSeverity := h'.maxSeverity.trans h.maxSeverity
  createdAt := h'.createdAt.trans h.createdAt
  lastAlarmAt := h'.lastAlarmAt.trans h.lastAlarmAt

theorem Alike.map_eq (h : Alike g g') {β : Type} (f : CorrelatedAlarm → β) (hf : ∀ a, f a.raw = f a) : g'.alarms.map f = g.alarms.map f := by
  have hraw : ∀ alarms : List CorrelatedAlarm, alarms.map f = (alarms.map CorrelatedAlarm.raw).map f := by
    intro alarms
    rw [List.map_map]
    exact List.map_congr_left fun a _ => (hf a).symm
  rw [hraw, h.alarms, ← hraw]

variable {p : CorrelatedAlarm → Prop} {change : CorrelatedAlarm → CorrelatedAlarm} {a : CorrelatedAlarm}

theorem Alike.exists_iff (h : Alike g g') (hp : ∀ a, p a.raw ↔ p a) : (∃ a ∈ g'.alarms, p a) ↔ ∃ a ∈ g.alarms, p a := by
  have hraw : ∀ alarms : List CorrelatedAlarm, (∃ a ∈ alarms, p a) ↔ ∃ a ∈ alarms.map CorrelatedAlarm.raw, p a := by
    intro alarms
    simp [hp]
  rw [hraw, h.alarms, ← hraw]

theorem Alike.forall_iff (h : Alike g g') (hp : ∀ a, p a.raw ↔ p a) : (∀ a ∈ g'.alarms, p a) ↔ ∀ a ∈ g.alarms, p a := by
  have hraw : ∀ alarms : List CorrelatedAlarm, (∀ a ∈ alarms, p a) ↔ ∀ a ∈ alarms.map CorrelatedAlarm.raw, p a := by
    intro alarms
    simp [hp]
  rw [hraw, h.alarms, ← hraw]

theorem Sound.alike (h : g.Sound options) (halike : Alike g g') : g'.Sound options := by
  have htimes : {t | ∃ a ∈ g'.alarms, a.timestamp = t} = {t | ∃ a ∈ g.alarms, a.timestamp = t} := by
    ext t
    exact halike.exists_iff fun _ => Iff.rfl
  have hlength : g'.alarms.length = g.alarms.length := by simpa using congrArg List.length halike.alarms
  exact {
    ids := by rw [halike.alarmIds, h.ids, halike.map_eq (·.id) fun _ => rfl]
    nodup := halike.alarmIds ▸ h.nodup
    created := by rw [htimes, halike.createdAt]; exact h.created
    last := by rw [htimes, halike.lastAlarmAt]; exact h.last
    severity := by
      rw [halike.maxSeverity, halike.exists_iff (p := fun a => a.severity = g.maxSeverity) fun _ => Iff.rfl,
        halike.forall_iff (p := fun a => a.severity.rank ≤ g.maxSeverity.rank) fun _ => Iff.rfl]
      exact h.severity
    span := by rw [halike.lastAlarmAt, halike.createdAt]; exact h.span
    size := hlength ▸ h.size }

/-! ### What the operations change -/

theorem alike_change (hchange : ∀ a, (change a).raw = a.raw) (alarms : List CorrelatedAlarm) :
    (alarms.map change).map CorrelatedAlarm.raw = alarms.map CorrelatedAlarm.raw := by
  rw [List.map_map]
  exact List.map_congr_left fun a _ => hchange a

theorem electRootCause_cases (topology : EquipmentTopology) (g : AlarmGroup) :
    g.electRootCause topology = g ∨ ∃ a ∈ g.alarms, a.eligible = true ∧ g.electRootCause topology = { g with rootCauseAlarmId := a.id } := by
  unfold electRootCause
  cases hscored : g.scored topology with
  | nil => exact .inl rfl
  | cons first later =>
    right
    have hmem : first ∈ g.scored topology := hscored ▸ List.mem_cons_self
    unfold scored at hmem
    obtain ⟨a, ha, rfl⟩ := List.mem_map.mp ((List.mem_insertionSort _).mp hmem)
    obtain ⟨hmember, heligible⟩ := List.mem_filter.mp ha
    exact ⟨a, hmember, heligible, rfl⟩

theorem electRootCause_alike (topology : EquipmentTopology) (g : AlarmGroup) : Alike g (g.electRootCause topology) := by
  rcases electRootCause_cases topology g with h | ⟨a, -, -, h⟩
  · rw [h]
    exact .refl g
  · rw [h]
    exact ⟨rfl, rfl, rfl, rfl, rfl, rfl⟩

theorem unsuppressActiveMembers_alike (g : AlarmGroup) : Alike g g.unsuppressActiveMembers.1 := by
  refine ⟨rfl, alike_change ?_ g.alarms, rfl, rfl, rfl, rfl⟩
  intro a
  split_ifs <;> rfl

theorem suppressEach_alarms (groupId rootId : Text) (should : CorrelatedAlarm → Bool) (alarms : List CorrelatedAlarm) (ids : List Text) :
    (suppressEach groupId rootId should alarms ids).1.map CorrelatedAlarm.raw = alarms.map CorrelatedAlarm.raw := by
  induction alarms generalizing ids with
  | nil => rfl
  | cons alarm later ih =>
    rw [suppressEach]
    split_ifs
    · exact congrArg (List.cons alarm.raw) (ih _)
    · exact congrArg (List.cons alarm.raw) (ih _)
    · exact congrArg (List.cons alarm.raw) (ih _)

theorem applySuppression_alike (policy : SuppressionPolicy) (topology : EquipmentTopology) (g : AlarmGroup) :
    Alike g (g.applySuppression policy topology).1 := by
  unfold applySuppression
  split_ifs
  · exact unsuppressActiveMembers_alike g
  · exact ⟨rfl, suppressEach_alarms .., rfl, rfl, rfl, rfl⟩

theorem closeGroup_alike (clock : Clock) (reason : CloseReason) (g : AlarmGroup) : Alike g (g.closeGroup clock reason).1 := by
  unfold closeGroup
  split_ifs
  · exact .refl g
  · exact (unsuppressActiveMembers_alike g).trans ⟨rfl, rfl, rfl, rfl, rfl, rfl⟩

theorem setMember_alike (hchange : ∀ a, (change a).raw = a.raw) (g : AlarmGroup) (alarmId : Text) :
    Alike g ((g.removeSuppressionRecord alarmId).setMember alarmId change) := by
  refine ⟨rfl, alike_change ?_ g.alarms, rfl, rfl, rfl, rfl⟩
  intro a
  split_ifs
  · exact hchange a
  · rfl

/-! ### Suppression -/

structure Recorded (g : AlarmGroup) : Prop where
  matches_state : ∀ a ∈ g.alarms, a.state = .suppressed ↔ a.id ∈ g.suppressedAlarmIds
  known : ∀ id ∈ g.suppressedAlarmIds, id ∈ g.alarms.map (·.id)

def Rooted (g : AlarmGroup) : Prop := ∃ r ∈ g.alarms, r.id = g.rootCauseAlarmId ∧ r.eligible = true

/-- Members are suppressed exactly where the policy asks for it. -/
def Canonical (policy : SuppressionPolicy) (topology : EquipmentTopology) (g : AlarmGroup) : Prop :=
  ∀ a ∈ g.alarms, a.state = .suppressed ↔ policy.enabled = true ∧ g.shouldSuppress policy topology a = true

structure Settled (policy : SuppressionPolicy) (topology : EquipmentTopology) (g : AlarmGroup) : Prop where
  recorded : g.Recorded
  rooted : g.state = .opened → g.Rooted
  canonical : g.state = .opened → g.Canonical policy topology
  visible : g.state = .closed → ∀ a ∈ g.alarms, a.state ≠ .suppressed

theorem areSitesCompatible_raw (topology : EquipmentTopology) (a b : CorrelatedAlarm) :
    areSitesCompatible topology a.raw b.raw = areSitesCompatible topology a b := rfl

theorem shouldSuppress_congr (halike : Alike g g') (hroot : g'.rootCauseAlarmId = g.rootCauseAlarmId) (policy : SuppressionPolicy)
    (topology : EquipmentTopology) (a : CorrelatedAlarm) : g'.shouldSuppress policy topology a = g.shouldSuppress policy topology a := by
  have hfind : ∀ alarms : List CorrelatedAlarm, ((alarms.find? fun r => r.id = g.rootCauseAlarmId).any fun r => areSitesCompatible topology r a) =
      (((alarms.map CorrelatedAlarm.raw).find? fun r => r.id = g.rootCauseAlarmId).any fun r => areSitesCompatible topology r a) := by
    intro alarms
    rw [List.find?_map, Option.any_map]
    rfl
  unfold shouldSuppress
  rw [hroot, hfind g'.alarms, halike.alarms, ← hfind]

theorem unsuppressActiveMembers_visible (g : AlarmGroup) : ∀ a ∈ g.unsuppressActiveMembers.1.alarms, a.state ≠ .suppressed := by
  intro a ha
  obtain ⟨b, -, rfl⟩ := List.mem_map.mp ha
  split_ifs with h
  · exact fun h' => by cases h'
  · exact h

theorem recorded_of_visible (hvisible : ∀ a ∈ g.alarms, a.state ≠ .suppressed) (hnone : g.suppressedAlarmIds = []) : g.Recorded where
  matches_state a ha := by simp [hvisible a ha, hnone]
  known := by simp [hnone]

theorem unsuppressActiveMembers_recorded (g : AlarmGroup) : g.unsuppressActiveMembers.1.Recorded :=
  recorded_of_visible (unsuppressActiveMembers_visible g) rfl

def settle (should : CorrelatedAlarm → Bool) (a : CorrelatedAlarm) : CorrelatedAlarm :=
  { a with state := if should a then .suppressed else if a.state = .suppressed then .active else a.state }

theorem suppressEach_cons {groupId rootId : Text} {should : CorrelatedAlarm → Bool} (later : List CorrelatedAlarm) {ids : List Text}
    (hrecorded : alarm.state = .suppressed ↔ alarm.id ∈ ids) :
    ∃ ids', (suppressEach groupId rootId should (alarm :: later) ids).1 = settle should alarm :: (suppressEach groupId rootId should later ids').1 ∧
      (suppressEach groupId rootId should (alarm :: later) ids).2.1 = (suppressEach groupId rootId should later ids').2.1 ∧
      (∀ id, id ≠ alarm.id → (id ∈ ids' ↔ id ∈ ids)) ∧ (alarm.id ∈ ids' ↔ should alarm = true) := by
  rw [suppressEach]
  split_ifs with hrestore hsuppress
  · refine ⟨ids.filter fun id => id ≠ alarm.id, ?_, rfl, ?_, ?_⟩
    · simp only [settle, hrestore.1, hrestore.2, Bool.false_eq_true, if_false, if_true]
    · intro id hne
      simp [hne]
    · simp [hrestore.1]
  · refine ⟨ids ++ [alarm.id], ?_, rfl, ?_, ?_⟩
    · simp only [settle, hsuppress.2, if_true]
    · intro id hne
      simp [hne]
    · simp [hsuppress.2]
  · -- The member is already as it should be.
    have hright : alarm.id ∈ ids ↔ should alarm = true := by
      by_cases hmem : alarm.id ∈ ids
      · have hkept : should alarm ≠ false := fun hfalse => hrestore ⟨hfalse, hrecorded.mpr hmem⟩
        simpa [hmem] using hkept
      · have hleft : should alarm ≠ true := fun htrue => hsuppress ⟨hmem, htrue⟩
        simpa [hmem] using hleft
    refine ⟨ids, ?_, rfl, fun _ _ => Iff.rfl, hright⟩
    have hsame : settle should alarm = alarm := by
      unfold settle
      by_cases hshould : should alarm = true
      · rw [if_pos hshould, ← hrecorded.mpr (hright.mpr hshould)]
      · have hvisible : alarm.state ≠ .suppressed := fun h => hshould (hright.mp (hrecorded.mp h))
        rw [if_neg hshould, if_neg hvisible]
    rw [hsame]

/-- The loop leaves each member as the policy asks for it, and the list of the suppressed members is right. -/
theorem suppressEach_spec (groupId rootId : Text) (should : CorrelatedAlarm → Bool) {alarms : List CorrelatedAlarm} {ids : List Text}
    (hnodup : (alarms.map (·.id)).Nodup) (hrecorded : ∀ a ∈ alarms, a.state = .suppressed ↔ a.id ∈ ids) :
    (suppressEach groupId rootId should alarms ids).1 = alarms.map (settle should) ∧
      (∀ a ∈ alarms, a.id ∈ (suppressEach groupId rootId should alarms ids).2.1 ↔ should a = true) ∧
      ∀ id, id ∉ alarms.map (·.id) → (id ∈ (suppressEach groupId rootId should alarms ids).2.1 ↔ id ∈ ids) := by
  induction alarms generalizing ids with
  | nil => exact ⟨rfl, by simp, fun _ _ => Iff.rfl⟩
  | cons alarm later ih =>
    obtain ⟨hnew, hlater⟩ := List.nodup_cons.mp hnodup
    obtain ⟨ids', halarms, hids, hothers, hself⟩ := suppressEach_cons later
      (hrecorded alarm List.mem_cons_self)
    have hne : ∀ a ∈ later, a.id ≠ alarm.id := by
      intro a ha hsame
      exact hnew (List.mem_map.mpr ⟨a, ha, hsame⟩)
    obtain ⟨hrest, hrestIds, hrestOthers⟩ := ih hlater fun a ha => (hrecorded a (List.mem_cons_of_mem _ ha)).trans (hothers a.id (hne a ha)).symm
    rw [halarms, hids, hrest]
    refine ⟨rfl, ?_, ?_⟩
    · intro a ha
      rcases List.mem_cons.mp ha with rfl | ha
      · rw [hrestOthers a.id hnew, hself]
      · exact hrestIds a ha
    · intro id hid
      obtain ⟨hid₁, hid₂⟩ : id ≠ alarm.id ∧ id ∉ later.map (·.id) := by simpa using hid
      rw [hrestOthers id hid₂, hothers id hid₁]

/-- Whether a member is suppressed depends on its state only as far as it is active or suppressed. -/
theorem shouldSuppress_raw {b : CorrelatedAlarm} (hraw : a.raw = b.raw)
    (hlive : (a.state = .active ∨ a.state = .suppressed) ↔ (b.state = .active ∨ b.state = .suppressed)) (policy : SuppressionPolicy)
    (topology : EquipmentTopology) (g : AlarmGroup) : g.shouldSuppress policy topology a = g.shouldSuppress policy topology b := by
  have hid : a.raw.id = b.raw.id := congrArg CorrelatedAlarm.id hraw
  have hseverity : a.raw.severity = b.raw.severity := congrArg CorrelatedAlarm.severity hraw
  change a.id = b.id at hid
  change a.severity = b.severity at hseverity
  have hsite : ∀ r, areSitesCompatible topology r a = areSitesCompatible topology r b := by
    intro r
    rw [← areSitesCompatible_raw topology r a, hraw, areSitesCompatible_raw]
  have hstate : (decide (a.state = .active) || decide (a.state = .suppressed)) = (decide (b.state = .active) || decide (b.state = .suppressed)) := by
    rw [← Bool.decide_or, ← Bool.decide_or]
    exact decide_eq_decide.mpr hlive
  unfold shouldSuppress
  rw [hid, hseverity, hstate]
  simp only [hsite]

theorem not_shouldSuppress (h : a.state ≠ .active ∧ a.state ≠ .suppressed) : g.shouldSuppress policy topology a = false := by
  simp [shouldSuppress, h.1, h.2]

theorem shouldSuppress_root (h : a.id = g.rootCauseAlarmId) : g.shouldSuppress policy topology a = false := by
  simp [shouldSuppress, h]

theorem shouldSuppress_live (h : g.shouldSuppress policy topology a = true) : a.state = .active ∨ a.state = .suppressed := by
  by_contra hstate
  rw [not_shouldSuppress (not_or.mp hstate)] at h
  cases h

theorem settle_suppressed {should : CorrelatedAlarm → Bool} : (settle should a).state = .suppressed ↔ should a = true := by
  unfold settle
  split_ifs with hshould hstate
  · simp [hshould]
  · simp [hshould]
  · simp [hshould, hstate]

theorem eligible_unsuppressed (h : a.eligible = true) :
    (if a.state = .suppressed then { a with state := .active } else a : CorrelatedAlarm).eligible = true := by
  split_ifs
  · rfl
  · exact h

theorem unsuppressActiveMembers_rooted (h : g.Rooted) : g.unsuppressActiveMembers.1.Rooted := by
  obtain ⟨r, hr, hid, heligible⟩ := h
  refine ⟨_, List.mem_map_of_mem hr, ?_, eligible_unsuppressed heligible⟩
  split_ifs <;> exact hid

theorem applySuppression_settled (hopen : g.state = .opened) (hids : (g.alarms.map (·.id)).Nodup) (hrecorded : g.Recorded) (hrooted : g.Rooted) :
    (g.applySuppression policy topology).1.Settled policy topology := by
  have halike := applySuppression_alike policy topology g
  unfold applySuppression at halike ⊢
  split_ifs at halike ⊢ with hdisabled
  · refine ⟨unsuppressActiveMembers_recorded g, fun _ => unsuppressActiveMembers_rooted hrooted, ?_, ?_⟩
    · intro _ a ha
      simp [unsuppressActiveMembers_visible g a ha, hdisabled]
    · intro hclosed
      cases hopen.symm.trans hclosed
  · obtain ⟨halarms, hown, hothers⟩ := suppressEach_spec g.id g.rootCauseAlarmId (g.shouldSuppress policy topology) hids hrecorded.matches_state
    generalize suppressEach g.id g.rootCauseAlarmId (g.shouldSuppress policy topology) g.alarms g.suppressedAlarmIds = out at *
    obtain ⟨alarms, ids, effects⟩ := out
    subst halarms
    have hmem : ∀ a' ∈ g.alarms.map (settle (g.shouldSuppress policy topology)), ∃ a ∈ g.alarms, settle (g.shouldSuppress policy topology) a = a' :=
      fun a' ha' => List.mem_map.mp ha'
    refine ⟨⟨?_, ?_⟩, ?_, ?_, ?_⟩
    · intro a' ha'
      obtain ⟨a, ha, rfl⟩ := hmem a' ha'
      exact settle_suppressed.trans (hown a ha).symm
    · intro id hid
      have hsame : (g.alarms.map (settle (g.shouldSuppress policy topology))).map (·.id) = g.alarms.map (·.id) := by
        rw [List.map_map]
        rfl
      rw [hsame]
      by_contra hout
      exact hout (hrecorded.known id ((hothers id hout).mp hid))
    · intro _
      obtain ⟨r, hr, hid, heligible⟩ := hrooted
      refine ⟨_, List.mem_map_of_mem hr, hid, ?_⟩
      unfold settle
      rw [shouldSuppress_root hid, if_neg Bool.false_ne_true]
      split_ifs
      · rfl
      · exact heligible
    · intro _ a' ha'
      obtain ⟨a, ha, rfl⟩ := hmem a' ha'
      have hlive : ((settle (g.shouldSuppress policy topology) a).state = .active ∨ (settle (g.shouldSuppress policy topology) a).state = .suppressed) ↔
          (a.state = .active ∨ a.state = .suppressed) := by
        unfold settle
        split_ifs with hshould hstate
        · simp [shouldSuppress_live hshould]
        · simp [hstate]
        · exact Iff.rfl
      have hraw : (settle (g.shouldSuppress policy topology) a).raw = a.raw := rfl
      rw [settle_suppressed, shouldSuppress_congr halike rfl, shouldSuppress_raw hraw hlive]
      simp [hdisabled]
    · intro hclosed
      cases hopen.symm.trans hclosed

theorem electRootCause_state (topology : EquipmentTopology) (g : AlarmGroup) : (g.electRootCause topology).state = g.state := by
  rcases electRootCause_cases topology g with h | ⟨a, -, -, h⟩ <;> rw [h]

theorem electRootCause_recorded (h : g.Recorded) : (g.electRootCause topology).Recorded := by
  rcases electRootCause_cases topology g with hsame | ⟨a, -, -, hsame⟩
  · rw [hsame]
    exact h
  · rw [hsame]
    exact ⟨h.matches_state, h.known⟩

theorem electRootCause_rooted (h : ∃ a ∈ g.alarms, a.eligible = true) : (g.electRootCause topology).Rooted := by
  obtain ⟨a, ha, heligible⟩ := h
  unfold electRootCause
  cases hscored : g.scored topology with
  | nil =>
    have hlength := congrArg List.length hscored
    unfold scored at hlength
    rw [List.length_insertionSort, List.length_map, List.length_nil, List.length_eq_zero_iff] at hlength
    have hmem : a ∈ g.alarms.filter (·.eligible) := List.mem_filter.mpr ⟨ha, heligible⟩
    rw [hlength] at hmem
    cases hmem
  | cons first later =>
    have hmem : first ∈ g.scored topology := hscored ▸ List.mem_cons_self
    unfold scored at hmem
    obtain ⟨r, hr, rfl⟩ := List.mem_map.mp ((List.mem_insertionSort _).mp hmem)
    obtain ⟨hmember, hroot⟩ := List.mem_filter.mp hr
    exact ⟨r, hmember, rfl, hroot⟩

theorem closeGroup_settled {reason : CloseReason} (h : g.state = .closed → g.Settled policy topology) : (g.closeGroup clock reason).1.Settled policy topology := by
  unfold closeGroup
  split_ifs with hclosed
  · exact h hclosed
  · refine ⟨recorded_of_visible (unsuppressActiveMembers_visible g) rfl, ?_, ?_, fun _ => unsuppressActiveMembers_visible g⟩
    · exact fun hopen => by cases hopen
    · exact fun hopen => by cases hopen

/-- A member that is acknowledged or cleared is not suppressed any more. A root cause that is still open stays one. -/
theorem setMember_settled {alarmId : Text} (h : g.Settled policy topology)
    (hraw : ∀ a, (change a).raw = a.raw) (hstate : ∀ a, (change a).state ≠ .active ∧ (change a).state ≠ .suppressed)
    (hroot : g.state = .opened → g.rootCauseAlarmId = alarmId → ∀ a, (change a).eligible = true) :
    ((g.removeSuppressionRecord alarmId).setMember alarmId change).Settled policy topology := by
  have halike := setMember_alike hraw g alarmId
  have hid : ∀ a, (change a).id = a.id := by
    intro a
    show (change a).raw.id = a.raw.id
    rw [hraw]
  refine ⟨⟨?_, ?_⟩, ?_, ?_, ?_⟩
  · intro a' ha'
    obtain ⟨a, ha, rfl⟩ := List.mem_map.mp ha'
    show _ ↔ _ ∈ g.suppressedAlarmIds.filter fun id => id ≠ alarmId
    split_ifs with hself
    · simp [hid, hself, (hstate a).2]
    · rw [h.recorded.matches_state a ha]
      simp [hself]
  · intro id hmem
    obtain ⟨hknown, -⟩ := List.mem_filter.mp hmem
    have hids := halike.map_eq (·.id) fun _ => rfl
    rw [hids]
    exact h.recorded.known id hknown
  · intro hopen
    obtain ⟨r, hr, hrid, heligible⟩ := h.rooted hopen
    refine ⟨_, List.mem_map_of_mem hr, ?_, ?_⟩
    · split_ifs
      · exact (hid r).trans hrid
      · exact hrid
    · split_ifs with hself
      · exact hroot hopen (hrid.symm.trans hself) r
      · exact heligible
  · intro hopen a' ha'
    obtain ⟨a, ha, rfl⟩ := List.mem_map.mp ha'
    rw [shouldSuppress_congr halike rfl]
    split_ifs with hself
    · simp [not_shouldSuppress (hstate a), (hstate a).2]
    · exact h.canonical hopen a ha
  · intro hclosed a' ha'
    obtain ⟨a, ha, rfl⟩ := List.mem_map.mp ha'
    split_ifs
    · exact (hstate a).2
    · exact h.visible hclosed a ha

/-! ### New members -/

theorem exists_mem_concat {alarms : List CorrelatedAlarm} : (∃ a ∈ alarms ++ [alarm], p a) ↔ (∃ a ∈ alarms, p a) ∨ p alarm := by
  simp [or_and_right, exists_or]

theorem withMember_sound (h : g.Sound options) {rule : CorrelationRule} (hnew : alarm.id ∉ g.alarmIds)
    (hspan : max g.lastAlarmAt alarm.timestamp - min g.createdAt alarm.timestamp ≤ options.maxGroupSpanMs)
    (hsize : g.alarmIds.length < options.maxAlarmsPerGroup) : (g.withMember alarm rule).Sound options := by
  have htimes : {t | ∃ a ∈ g.alarms ++ [alarm], a.timestamp = t} = {t | ∃ a ∈ g.alarms, a.timestamp = t} ∪ {alarm.timestamp} := by
    ext t
    refine exists_mem_concat.trans (or_congr Iff.rfl ?_)
    exact eq_comm
  exact {
    ids := by simp [withMember, h.ids]
    nodup := by
      refine List.nodup_append.mpr ⟨h.nodup, List.nodup_singleton _, ?_⟩
      intro x hx y hy hsame
      obtain rfl := List.mem_singleton.mp hy
      exact hnew (hsame ▸ hx)
    created := by
      show IsLeast {t | ∃ a ∈ g.alarms ++ [alarm], a.timestamp = t} (min g.createdAt alarm.timestamp)
      rw [htimes]
      exact h.created.union isLeast_singleton
    last := by
      show IsGreatest {t | ∃ a ∈ g.alarms ++ [alarm], a.timestamp = t} (max g.lastAlarmAt alarm.timestamp)
      rw [htimes]
      exact h.last.union isGreatest_singleton
    severity := by
      obtain ⟨⟨a, ha, hmax⟩, hle⟩ := h.severity
      show (∃ a ∈ g.alarms ++ [alarm], a.severity = ite _ _ _) ∧ ∀ a ∈ g.alarms ++ [alarm], a.severity.rank ≤ (ite _ _ _ : AlarmSeverity).rank
      split_ifs with hgreater
      · refine ⟨⟨alarm, by simp, rfl⟩, ?_⟩
        intro b hb
        rcases List.mem_append.mp hb with hb | hb
        · exact (hle b hb).trans hgreater.le
        · rw [List.mem_singleton.mp hb]
      · refine ⟨⟨a, by simp [ha], hmax⟩, ?_⟩
        intro b hb
        rcases List.mem_append.mp hb with hb | hb
        · exact hle b hb
        · rw [List.mem_singleton.mp hb]
          exact not_lt.mp hgreater
    span := hspan
    size := by
      have hlength : g.alarmIds.length = g.alarms.length := by rw [h.ids, List.length_map]
      simp only [withMember, List.length_append, List.length_singleton]
      omega }

theorem withMember_recorded (h : g.Recorded) {rule : CorrelationRule} (hids : g.alarmIds = g.alarms.map (·.id)) (hnew : alarm.id ∉ g.alarmIds)
    (hstate : alarm.state ≠ .suppressed) : (g.withMember alarm rule).Recorded where
  matches_state a ha := by
    rcases List.mem_append.mp ha with ha | ha
    · exact h.matches_state a ha
    · rw [List.mem_singleton.mp ha]
      refine ⟨fun hsame => absurd hsame hstate, fun hmem => ?_⟩
      rw [hids] at hnew
      exact absurd (h.known _ hmem) hnew
  known id hmem := by
    have hknown := h.known id hmem
    simp only [withMember, List.map_append, List.mem_append]
    exact .inl hknown

theorem byTimestamp_cases (a b : CorrelatedAlarm) :
    byTimestamp a b = (a, b) ∧ a.timestamp ≤ b.timestamp ∨ byTimestamp a b = (b, a) ∧ b.timestamp ≤ a.timestamp := by
  unfold byTimestamp
  split_ifs with h
  · exact .inl ⟨rfl, h⟩
  · exact .inr ⟨rfl, (not_le.mp h).le⟩

theorem newGroup_members (alarm peer : CorrelatedAlarm) (rule : CorrelationRule) (groupId : Text) :
    ∃ first last : CorrelatedAlarm, (first = peer ∧ last = alarm ∨ first = alarm ∧ last = peer) ∧ first.timestamp ≤ last.timestamp ∧
      (newGroup alarm peer rule groupId).alarms = [first, last] ∧ (newGroup alarm peer rule groupId).alarmIds = [first.id, last.id] ∧
      (newGroup alarm peer rule groupId).createdAt = first.timestamp ∧ (newGroup alarm peer rule groupId).lastAlarmAt = last.timestamp ∧
      (newGroup alarm peer rule groupId).maxSeverity = greatestSeverity [first, last] := by
  unfold newGroup
  rcases byTimestamp_cases peer alarm with ⟨h, hle⟩ | ⟨h, hle⟩
  · rw [h]
    exact ⟨peer, alarm, .inl ⟨rfl, rfl⟩, hle, rfl, rfl, rfl, rfl, rfl⟩
  · rw [h]
    exact ⟨alarm, peer, .inr ⟨rfl, rfl⟩, hle, rfl, rfl, rfl, rfl, rfl⟩

theorem rank_eq_zero {severity : AlarmSeverity} (h : severity.rank = 0) : severity = .info := by
  cases severity <;> first | rfl | cases h

theorem greatestSeverity_pair (first last : CorrelatedAlarm) :
    (∃ a ∈ [first, last], a.severity = greatestSeverity [first, last]) ∧ ∀ a ∈ [first, last], a.severity.rank ≤ (greatestSeverity [first, last]).rank := by
  have hinfo : AlarmSeverity.info.rank = 0 := rfl
  -- After the first alarm the greatest severity is its own.
  have hfirst : (if AlarmSeverity.info.rank < first.severity.rank then first.severity else .info) = first.severity := by
    split_ifs with h
    · rfl
    · exact (rank_eq_zero (by omega)).symm
  have hlast : greatestSeverity [first, last] = if first.severity.rank < last.severity.rank then last.severity else first.severity := by
    simp only [greatestSeverity, List.foldl_cons, List.foldl_nil, hfirst]
  rw [hlast]
  simp only [List.mem_cons, List.not_mem_nil, or_false, exists_eq_or_imp, exists_eq_left, forall_eq_or_imp, forall_eq]
  split_ifs with h
  · exact ⟨.inr rfl, h.le, le_rfl⟩
  · exact ⟨.inl rfl, le_rfl, not_lt.mp h⟩

theorem newGroup_sound {peer : CorrelatedAlarm} (rule : CorrelationRule) (groupId : Text) (hne : alarm.id ≠ peer.id)
    (hspan : |alarm.timestamp - peer.timestamp| ≤ options.maxGroupSpanMs) : (newGroup alarm peer rule groupId).Sound options := by
  obtain ⟨first, last, hwho, hle, halarms, hids, hcreated, hlast, hseverity⟩ := newGroup_members alarm peer rule groupId
  have hdifferent : first.id ≠ last.id := by
    rcases hwho with ⟨rfl, rfl⟩ | ⟨rfl, rfl⟩
    · exact hne.symm
    · exact hne
  have hnear : last.timestamp - first.timestamp ≤ options.maxGroupSpanMs := by
    rcases hwho with ⟨rfl, rfl⟩ | ⟨rfl, rfl⟩
    · exact (le_abs_self _).trans hspan
    · rw [abs_sub_comm] at hspan
      exact (le_abs_self _).trans hspan
  exact {
    ids := by rw [halarms, hids]; rfl
    nodup := by simp [hids, hdifferent]
    created := by
      rw [halarms, hcreated]
      refine ⟨⟨first, List.mem_cons_self, rfl⟩, ?_⟩
      rintro t ⟨a, ha, rfl⟩
      rcases List.mem_cons.mp ha with rfl | ha
      · exact le_rfl
      · exact (List.mem_singleton.mp ha) ▸ hle
    last := by
      rw [halarms, hlast]
      refine ⟨⟨last, by simp, rfl⟩, ?_⟩
      rintro t ⟨a, ha, rfl⟩
      rcases List.mem_cons.mp ha with rfl | ha
      · exact hle
      · exact (List.mem_singleton.mp ha) ▸ le_rfl
    severity := by
      rw [halarms, hseverity]
      exact greatestSeverity_pair first last
    span := by rw [hlast, hcreated]; exact hnear
    size := by rw [halarms]; exact options.maxAlarmsPerGroup_pos }

end AlarmGroup

end OxScada.Alarms
