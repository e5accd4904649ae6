import OxScada.Order.Keys
import OxScada.Alarms.Groups

/-! Every alarm that the engine tracks is in one place: it waits for peers, or it is a member of one group, and the
index says which. -/

namespace OxScada.Alarms
open OxScada.Bytes OxScada.Order

namespace Correlation

open AlarmGroup (Alike)

variable {c c' c'' : Correlation} {g g' : AlarmGroup} {alarm peer : CorrelatedAlarm} {id groupId : Text}

def setup (c : Correlation) : CorrelationEngineOptions × EquipmentTopology × CorrelationRulesEngine × SuppressionPolicy :=
  (c.options, c.topology, c.rules, c.suppressionPolicy)

structure Tracked (c : Correlation) : Prop where
  groupIds : (c.groups.map (·.id)).Nodup
  pendingIds : (c.pending.map (·.id)).Nodup
  pendingIndex : ∀ id, c.alarmIndex id = some none ↔ id ∈ c.pending.map (·.id)
  groupIndex : ∀ id groupId, c.alarmIndex id = some (some groupId) ↔ ∃ g ∈ c.groups, g.id = groupId ∧ id ∈ g.alarmIds
  sound : ∀ g ∈ c.groups, g.Sound c.options

theorem Tracked.getGroup_iff (h : c.Tracked) : c.getGroup groupId = some g ↔ g ∈ c.groups ∧ g.id = groupId := find?_key h.groupIds

theorem getGroup_eq_none : c.getGroup groupId = none ↔ groupId ∉ c.groups.map (·.id) := find?_key_none

section
variable (h : c.Tracked)
include h

theorem Tracked.place_of_member (hg : g ∈ c.groups) (hid : id ∈ g.alarmIds) : c.alarmIndex id = some (some g.id) :=
  (h.groupIndex id g.id).mpr ⟨g, hg, rfl, hid⟩

theorem Tracked.place_of_pending (ha : alarm ∈ c.pending) : c.alarmIndex alarm.id = some none :=
  (h.pendingIndex alarm.id).mpr (List.mem_map_of_mem ha)

theorem Tracked.index_eq (h' : c'.Tracked) (hgroups : c'.groups = c.groups) (hpending : c'.pending = c.pending) :
    c'.alarmIndex = c.alarmIndex := by
  funext id
  have hwaiting : c'.alarmIndex id = some none ↔ c.alarmIndex id = some none := by rw [h'.pendingIndex, h.pendingIndex, hpending]
  have hmember : ∀ groupId, c'.alarmIndex id = some (some groupId) ↔ c.alarmIndex id = some (some groupId) := by
    intro groupId
    rw [h'.groupIndex, h.groupIndex, hgroups]
  cases hplace : c.alarmIndex id with
  | none =>
    cases hplace' : c'.alarmIndex id with
    | none => rfl
    | some place =>
      cases place with
      | none => simp [hplace, hplace'] at hwaiting
      | some groupId => simp [hplace, hplace'] at hmember
  | some place =>
    cases place with
    | none => exact hwaiting.mpr hplace
    | some groupId => exact (hmember groupId).mpr hplace

/-! ### Alarms that stay where they are -/

theorem Tracked.alike {f : AlarmGroup → AlarmGroup} (hf : ∀ g ∈ c.groups, Alike g (f g)) (hoptions : c'.options = c.options)
    (hgroups : c'.groups = c.groups.map f) (hpending : c'.pending.map (·.id) = c.pending.map (·.id)) (hindex : c'.alarmIndex = c.alarmIndex) :
    c'.Tracked where
  groupIds := by
    have hids : (c.groups.map f).map (·.id) = c.groups.map (·.id) := by
      rw [List.map_map]
      exact List.map_congr_left fun g hg => (hf g hg).id
    rw [hgroups, hids]
    exact h.groupIds
  pendingIds := hpending ▸ h.pendingIds
  pendingIndex id := by rw [hindex, hpending, h.pendingIndex]
  groupIndex id groupId := by
    rw [hindex, hgroups, h.groupIndex]
    constructor
    · rintro ⟨g, hg, hgid, hid⟩
      exact ⟨f g, List.mem_map_of_mem hg, (hf g hg).id.trans hgid, (hf g hg).alarmIds ▸ hid⟩
    · rintro ⟨g', hg', hgid, hid⟩
      obtain ⟨g, hg, rfl⟩ := List.mem_map.mp hg'
      exact ⟨g, hg, (hf g hg).id.symm.trans hgid, (hf g hg).alarmIds ▸ hid⟩
  sound g' hg' := by
    obtain ⟨g, hg, rfl⟩ := List.mem_map.mp (hgroups ▸ hg')
    rw [hoptions]
    exact (h.sound g hg).alike (hf g hg)

theorem Tracked.eachGroup {treat : AlarmGroup → AlarmGroup × List EngineEffect} (htreat : ∀ g ∈ c.groups, Alike g (treat g).1) :
    (c.eachGroup treat).1.Tracked := h.alike htreat rfl rfl rfl rfl

theorem Tracked.put (hg : g ∈ c.groups) (halike : Alike g g') : (c.put g').Tracked := by
  refine h.alike (f := fun old => if old.id = g'.id then g' else old) ?_ rfl rfl rfl rfl
  intro old hold
  split_ifs with hsame
  · rw [key_injective h.groupIds hold hg (hsame.trans halike.id)]
    exact halike
  · exact .refl old

theorem Tracked.setPending {change : CorrelatedAlarm → CorrelatedAlarm} (hchange : ∀ a, (change a).id = a.id) :
    (c.setPending id change).Tracked := by
  refine h.alike (f := fun g => g) (fun g _ => .refl g) rfl (List.map_id' _).symm ?_ rfl
  show (c.pending.map _).map _ = _
  rw [List.map_map]
  refine List.map_congr_left fun a _ => ?_
  show (ite _ _ _ : CorrelatedAlarm).id = a.id
  split_ifs
  · exact hchange a
  · rfl

/-! ### Alarms that are forgotten -/

theorem Tracked.evictGroup (hg : g ∈ c.groups) (halike : Alike g g') : (c.evictGroup g').1.Tracked where
  groupIds := h.groupIds.sublist (List.filter_sublist.map _)
  pendingIds := h.pendingIds
  pendingIndex id := by
    show (if id ∈ g'.alarmIds then none else c.alarmIndex id) = some none ↔ id ∈ c.pending.map (·.id)
    rw [halike.alarmIds]
    split_ifs with hmember
    · have hplace := h.place_of_member hg hmember
      rw [← h.pendingIndex, hplace]
      simp
    · exact h.pendingIndex id
  groupIndex id groupId := by
    show (if id ∈ g'.alarmIds then none else c.alarmIndex id) = some (some groupId) ↔
      ∃ x ∈ c.groups.filter (fun old => old.id ≠ g'.id), x.id = groupId ∧ id ∈ x.alarmIds
    rw [halike.alarmIds, halike.id]
    split_ifs with hmember
    · refine ⟨fun hnone => (by cases hnone), ?_⟩
      rintro ⟨x, hx, -, hid⟩
      obtain ⟨hx, hother⟩ := List.mem_filter.mp hx
      have hsame : some (some x.id) = some (some g.id) := (h.place_of_member hx hid).symm.trans (h.place_of_member hg hmember)
      exact absurd (Option.some.inj (Option.some.inj hsame)) (by simpa using hother)
    · rw [h.groupIndex]
      constructor
      · rintro ⟨x, hx, hxid, hid⟩
        have hother : x.id ≠ g.id := by
          intro hsame
          exact hmember (key_injective h.groupIds hx hg hsame ▸ hid)
        exact ⟨x, List.mem_filter.mpr ⟨hx, by simpa using hother⟩, hxid, hid⟩
      · rintro ⟨x, hx, hxid, hid⟩
        exact ⟨x, (List.mem_filter.mp hx).1, hxid, hid⟩
  sound x hx := h.sound x (List.mem_filter.mp hx).1

theorem Tracked.prune {removed kept : List CorrelatedAlarm} (hsplit : (removed ++ kept).Perm c.pending) :
    ({ c.forget (removed.map (·.id)) with pending := kept } : Correlation).Tracked := by
  have hids : (removed.map (·.id) ++ kept.map (·.id)).Perm (c.pending.map (·.id)) := by
    have hmap := hsplit.map (·.id)
    rwa [List.map_append] at hmap
  have hnodup := hids.nodup_iff.mpr h.pendingIds
  obtain ⟨-, hkept, hdisjoint⟩ := List.nodup_append.mp hnodup
  exact {
    groupIds := h.groupIds
    pendingIds := hkept
    pendingIndex := by
      intro id
      show (if id ∈ removed.map (·.id) then none else c.alarmIndex id) = some none ↔ id ∈ kept.map (·.id)
      split_ifs with hremoved
      · refine ⟨fun hnone => (by cases hnone), fun hid => ?_⟩
        exact absurd rfl (hdisjoint id hremoved id hid)
      · rw [h.pendingIndex, ← hids.mem_iff, List.mem_append, or_iff_right hremoved]
    groupIndex := by
      intro id groupId
      show (if id ∈ removed.map (·.id) then none else c.alarmIndex id) = some (some groupId) ↔ ∃ g ∈ c.groups, g.id = groupId ∧ id ∈ g.alarmIds
      rw [← h.groupIndex]
      split_ifs with hremoved
      · have hplace := (h.pendingIndex id).mpr (hids.mem_iff.mp (List.mem_append_left _ hremoved))
        simp [hplace]
      · exact Iff.rfl
    sound := h.sound }

end

theorem split_filter (p : CorrelatedAlarm → Bool) (l : List CorrelatedAlarm) : (l.filter (fun a => !p a) ++ l.filter p).Perm l :=
  List.perm_append_comm.trans (List.filter_append_perm p l)

theorem split_prunePending (c : Correlation) (referenceMs : ℚ) :
    ((c.pending.filter fun a => a.timestamp < referenceMs - c.maxEnabledRuleWindowMs * 2) ++
      (c.pending.filter fun a => referenceMs - c.maxEnabledRuleWindowMs * 2 ≤ a.timestamp).take
        ((c.pending.filter fun a => referenceMs - c.maxEnabledRuleWindowMs * 2 ≤ a.timestamp).length - c.options.maxPendingAlarms) ++
      (c.prunePending referenceMs).1.pending).Perm c.pending := by
  show (_ ++ _ ++ List.drop _ _).Perm _
  rw [List.append_assoc, List.take_append_drop]
  have hold : ∀ a : CorrelatedAlarm, decide (a.timestamp < referenceMs - c.maxEnabledRuleWindowMs * 2) =
      !decide (referenceMs - c.maxEnabledRuleWindowMs * 2 ≤ a.timestamp) := by
    intro a
    simp [← not_le]
  simp only [hold]
  exact split_filter _ c.pending

theorem Tracked.prunePending (h : c.Tracked) (referenceMs : ℚ) : (c.prunePending referenceMs).1.Tracked := h.prune (split_prunePending c referenceMs)

theorem split_prunePendingByProcessingTime (c : Correlation) (touchedAt : Text → Option ℚ) (nowMs : ℚ) :
    ((c.pending.filter fun a => (touchedAt a.id).getD nowMs < nowMs - c.maxEnabledRuleWindowMs * 2) ++
      (c.prunePendingByProcessingTime touchedAt nowMs).1.pending).Perm c.pending := by
  have hold : ∀ a : CorrelatedAlarm, decide ((touchedAt a.id).getD nowMs < nowMs - c.maxEnabledRuleWindowMs * 2) =
      !decide (nowMs - c.maxEnabledRuleWindowMs * 2 ≤ (touchedAt a.id).getD nowMs) := by
    intro a
    simp [← not_le]
  simp only [hold]
  exact split_filter _ c.pending

theorem Tracked.prunePendingByProcessingTime (h : c.Tracked) (touchedAt : Text → Option ℚ) (nowMs : ℚ) :
    (c.prunePendingByProcessingTime touchedAt nowMs).1.Tracked := h.prune (split_prunePendingByProcessingTime c touchedAt nowMs)

/-! ### Alarms that arrive -/

theorem Tracked.wait (h : c.Tracked) (hnew : c.alarmIndex alarm.id = none) :
    ({ c.index alarm.id (some none) with pending := c.pending ++ [alarm] } : Correlation).Tracked where
  groupIds := h.groupIds
  pendingIds := by
    rw [List.map_append]
    refine List.nodup_append.mpr ⟨h.pendingIds, List.nodup_singleton _, ?_⟩
    intro x hx y hy hsame
    obtain rfl := List.mem_singleton.mp hy
    have hplace := (h.pendingIndex x).mpr hx
    rw [hsame, hnew] at hplace
    cases hplace
  pendingIndex id := by
    show Function.update c.alarmIndex alarm.id (some none) id = some none ↔ id ∈ (c.pending ++ [alarm]).map (·.id)
    by_cases hself : id = alarm.id
    · simp [hself]
    · rw [Function.update_of_ne hself, h.pendingIndex]
      simp [hself]
  groupIndex id groupId := by
    show Function.update c.alarmIndex alarm.id (some none) id = some (some groupId) ↔ ∃ g ∈ c.groups, g.id = groupId ∧ id ∈ g.alarmIds
    by_cases hself : id = alarm.id
    · have hnone := h.groupIndex alarm.id groupId
      rw [hnew] at hnone
      rw [hself, Function.update_self, ← hnone]
      simp
    · rw [Function.update_of_ne hself, h.groupIndex]
  sound := h.sound

/-- Alarms that are in no group become members of one that is there or that is new. -/
structure Admits (c : Correlation) (moved : List Text) (g : AlarmGroup) (c' : Correlation) : Prop where
  options : c'.options = c.options
  free : ∀ id ∈ moved, ∀ groupId, c.alarmIndex id ≠ some (some groupId)
  groups : ∀ x, x ∈ c'.groups ↔ x = g ∨ x ∈ c.groups ∧ x.id ≠ g.id
  groupIds : (c'.groups.map (·.id)).Nodup
  pending : c'.pending = c.pending.filter fun a => a.id ∉ moved
  index : ∀ id, c'.alarmIndex id = if id ∈ moved then some (some g.id) else c.alarmIndex id
  members : ∀ id, id ∈ g.alarmIds ↔ id ∈ moved ∨ c.alarmIndex id = some (some g.id)
  sound : g.Sound c.options

theorem Tracked.admits (h : c.Tracked) {moved : List Text} (hadmits : c.Admits moved g c') : c'.Tracked where
  groupIds := hadmits.groupIds
  pendingIds := by
    rw [hadmits.pending]
    exact h.pendingIds.sublist (List.filter_sublist.map _)
  pendingIndex id := by
    rw [hadmits.index, hadmits.pending]
    split_ifs with hmoved
    · constructor
      · intro hnone
        cases hnone
      · intro hid
        obtain ⟨a, ha, rfl⟩ := List.mem_map.mp hid
        exact absurd hmoved (by simpa using (List.mem_filter.mp ha).2)
    · rw [h.pendingIndex]
      simp only [List.mem_map, List.mem_filter]
      constructor
      · rintro ⟨a, ha, rfl⟩
        exact ⟨a, ⟨ha, by simpa using hmoved⟩, rfl⟩
      · rintro ⟨a, ⟨ha, -⟩, rfl⟩
        exact ⟨a, ha, rfl⟩
  groupIndex id groupId := by
    rw [hadmits.index]
    split_ifs with hmoved
    · constructor
      · intro hplace
        have hid := Option.some.inj (Option.some.inj hplace)
        exact ⟨g, (hadmits.groups g).mpr (.inl rfl), hid, (hadmits.members id).mpr (.inl hmoved)⟩
      · rintro ⟨x, hx, rfl, hid⟩
        rcases (hadmits.groups x).mp hx with rfl | ⟨hx, -⟩
        · rfl
        · exact absurd (h.place_of_member hx hid) (hadmits.free id hmoved x.id)
    · rw [h.groupIndex]
      constructor
      · rintro ⟨x, hx, rfl, hid⟩
        have hplace := h.place_of_member hx hid
        by_cases hsame : x.id = g.id
        · exact ⟨g, (hadmits.groups g).mpr (.inl rfl), hsame.symm, (hadmits.members id).mpr (.inr (hsame ▸ hplace))⟩
        · exact ⟨x, (hadmits.groups x).mpr (.inr ⟨hx, hsame⟩), rfl, hid⟩
      · rintro ⟨x, hx, rfl, hid⟩
        rcases (hadmits.groups x).mp hx with rfl | ⟨hx, -⟩
        · exact (h.groupIndex id x.id).mp (((hadmits.members id).mp hid).resolve_left hmoved)
        · exact ⟨x, hx, rfl, hid⟩
  sound x hx := by
    rw [hadmits.options]
    rcases (hadmits.groups x).mp hx with rfl | ⟨hx, -⟩
    · exact hadmits.sound
    · exact h.sound x hx

theorem mem_put (hg : g ∈ c.groups) (hid : g'.id = g.id) (x : AlarmGroup) :
    x ∈ (c.put g').groups ↔ x = g' ∨ x ∈ c.groups ∧ x.id ≠ g'.id := by
  show x ∈ c.groups.map _ ↔ _
  rw [List.mem_map]
  constructor
  · rintro ⟨old, hold, rfl⟩
    split_ifs with hsame
    · exact .inl rfl
    · exact .inr ⟨hold, hsame⟩
  · rintro (rfl | ⟨hx, hother⟩)
    · exact ⟨g, hg, if_pos hid.symm⟩
    · exact ⟨x, hx, if_neg hother⟩

theorem put_groupIds (c : Correlation) (g : AlarmGroup) : (c.put g).groups.map (·.id) = c.groups.map (·.id) := by
  show (c.groups.map _).map _ = _
  rw [List.map_map]
  refine List.map_congr_left fun old _ => ?_
  show (ite _ _ _ : AlarmGroup).id = old.id
  split_ifs with hsame
  · exact hsame.symm
  · rfl

theorem Tracked.admits_join (h : c.Tracked) (hg : g ∈ c.groups) (hfree : ∀ groupId, c.alarmIndex alarm.id ≠ some (some groupId))
    (hid : g'.id = g.id) (halarmIds : g'.alarmIds = g.alarmIds ++ [alarm.id]) (hsound : g'.Sound c.options) :
    c.Admits [alarm.id] g' (((c.index alarm.id (some (some g.id))).removeFromPending alarm.id).put g') where
  options := rfl
  free id hmoved := List.mem_singleton.mp hmoved ▸ hfree
  groups := mem_put hg hid
  groupIds := by
    rw [put_groupIds]
    exact h.groupIds
  pending := by
    show c.pending.eraseP _ = _
    rw [eraseP_key h.pendingIds]
    simp
  index id := by
    show Function.update c.alarmIndex alarm.id (some (some g.id)) id = _
    rw [hid]
    by_cases hself : id = alarm.id
    · simp [hself]
    · simp [hself]
  members id := by
    rw [halarmIds, List.mem_append, hid, h.groupIndex, List.mem_singleton, or_comm]
    refine or_congr Iff.rfl ⟨fun hmem => ⟨g, hg, rfl, hmem⟩, ?_⟩
    rintro ⟨x, hx, hsame, hmem⟩
    exact key_injective h.groupIds hx hg hsame ▸ hmem
  sound := hsound

theorem Tracked.admits_form (h : c.Tracked) (hpeer : peer ∈ c.pending) (hnew : c.alarmIndex alarm.id = none) (hfree : c.getGroup g.id = none)
    (halarmIds : ∀ id, id ∈ g.alarmIds ↔ id = alarm.id ∨ id = peer.id) (hsound : g.Sound c.options) :
    c.Admits [alarm.id, peer.id] g
      { (((c.index alarm.id (some (some g.id))).index peer.id (some (some g.id))).removeFromPending peer.id).removeFromPending alarm.id with
        groups := c.groups ++ [g] } where
  options := rfl
  free id hmoved groupId := by
    rcases List.mem_cons.mp hmoved with rfl | hmoved
    · simp [hnew]
    · rw [List.mem_singleton.mp hmoved, h.place_of_pending hpeer]
      simp
  groups x := by
    have hother : x ∈ c.groups → x.id ≠ g.id := by
      intro hx hsame
      exact getGroup_eq_none.mp hfree (List.mem_map.mpr ⟨x, hx, hsame⟩)
    simp only [List.mem_append, List.mem_singleton]
    constructor
    · rintro (hx | hx)
      · exact .inr ⟨hx, hother hx⟩
      · exact .inl hx
    · rintro (hx | ⟨hx, -⟩)
      · exact .inr hx
      · exact .inl hx
  groupIds := by
    rw [List.map_append]
    refine List.nodup_append.mpr ⟨h.groupIds, List.nodup_singleton _, ?_⟩
    intro x hx y hy hsame
    rw [hsame, List.mem_singleton.mp hy] at hx
    exact getGroup_eq_none.mp hfree hx
  pending := by
    show (c.pending.eraseP _).eraseP _ = _
    rw [eraseP_key (nodup_eraseP_key h.pendingIds peer.id), eraseP_key h.pendingIds, List.filter_filter]
    refine List.filter_congr fun a _ => ?_
    simp
  index id := by
    show Function.update (Function.update c.alarmIndex alarm.id (some (some g.id))) peer.id (some (some g.id)) id = _
    by_cases hself : id = alarm.id
    · by_cases hpair : id = peer.id
      · simp [hpair]
      · rw [Function.update_of_ne hpair, hself]
        simp
    · by_cases hpair : id = peer.id
      · simp [hpair]
      · simp [hself, hpair]
  members id := by
    have hgone : c.alarmIndex id ≠ some (some g.id) := by
      intro hplace
      obtain ⟨x, hx, hsame, -⟩ := (h.groupIndex id g.id).mp hplace
      exact getGroup_eq_none.mp hfree (List.mem_map.mpr ⟨x, hx, hsame⟩)
    rw [halarmIds]
    simp [hgone]
  sound := hsound

end Correlation

end OxScada.Alarms
