import OxScada.Alarms.Operations

/-! What an operation emits covers what it changes: an alarm and a group that no event names are as they were, and
whoever is suppressed has been counted. -/

namespace OxScada.Alarms
open OxScada.Bytes OxScada.Js OxScada.Order

variable {localeCompare : Text → Text → ℤ} {clock : Clock} {policy : SuppressionPolicy} {topology : EquipmentTopology}

/-! ### Events -/

def EngineEffect.alarmIds : EngineEffect → List Text
  | .alarmUpdated alarm => [alarm.id]
  | .alarmSuppressed _ alarmId _ => [alarmId]
  | .alarmsUnsuppressed _ alarmIds => alarmIds
  | .groupCreated group => group.alarms.map (·.id)
  | .groupUpdated group => group.alarms.map (·.id)
  | .groupClosed group => group.alarms.map (·.id)
  | .groupEvicted _ alarmIds => alarmIds
  | .pendingPruned alarmIds => alarmIds
  | _ => []

def EngineEffect.groupIds : EngineEffect → List Text
  | .groupCreated group => [group.id]
  | .groupUpdated group => [group.id]
  | .groupClosed group => [group.id]
  | .groupEvicted groupId _ => [groupId]
  | _ => []

/-- The alarms that are counted as suppressed after the effect. -/
def EngineEffect.counted (ids : Finset Text) : EngineEffect → Finset Text
  | .alarmSuppressed _ alarmId _ => insert alarmId ids
  | .groupEvicted _ alarmIds => ids.filter fun id => id ∉ alarmIds
  | _ => ids

def EngineEffect.evicts : EngineEffect → Bool
  | .groupEvicted _ _ => true
  | _ => false

theorem Books.record_counted (clock : Clock) (b : Books) (effect : EngineEffect) :
    (b.record clock effect).suppressionCountedAlarmIds = effect.counted b.suppressionCountedAlarmIds := by
  cases effect with
  | alarmSuppressed groupId alarmId rootCauseAlarmId =>
    show (b.countSuppressed alarmId).suppressionCountedAlarmIds = insert alarmId b.suppressionCountedAlarmIds
    unfold Books.countSuppressed
    split_ifs with h
    · exact (Finset.insert_eq_of_mem h).symm
    · rfl
  | _ => rfl

theorem Books.recordAll_counted (clock : Clock) (b : Books) (effects : List EngineEffect) :
    (b.recordAll clock effects).suppressionCountedAlarmIds = effects.foldl EngineEffect.counted b.suppressionCountedAlarmIds := by
  induction effects generalizing b with
  | nil => rfl
  | cons effect later ih =>
    have hlater := ih (b.record clock effect)
    rw [Books.record_counted] at hlater
    exact hlater

variable (effects : List EngineEffect)

def alarmsOf : Set Text := {id | ∃ effect ∈ effects, id ∈ effect.alarmIds}

def groupsOf : Set Text := {id | ∃ effect ∈ effects, id ∈ effect.groupIds}

theorem alarmsOf_append (effects later : List EngineEffect) : alarmsOf (effects ++ later) = alarmsOf effects ∪ alarmsOf later := by
  ext id
  simp [alarmsOf, or_and_right, exists_or]

theorem groupsOf_append (effects later : List EngineEffect) : groupsOf (effects ++ later) = groupsOf effects ∪ groupsOf later := by
  ext id
  simp [groupsOf, or_and_right, exists_or]

def Calm : Prop := ∀ effect ∈ effects, effect.evicts = false

theorem Calm.append {effects later : List EngineEffect} (h : Calm effects) (h' : Calm later) : Calm (effects ++ later) := by
  intro effect heffect
  rcases List.mem_append.mp heffect with heffect | heffect
  · exact h effect heffect
  · exact h' effect heffect

theorem Calm.counted {effects : List EngineEffect} (h : Calm effects) {ids : Finset Text} {id : Text}
    (hid : id ∈ ids ∨ ∃ groupId rootId, .alarmSuppressed groupId id rootId ∈ effects) : id ∈ effects.foldl EngineEffect.counted ids := by
  induction effects generalizing ids with
  | nil => simpa using hid
  | cons effect later ih =>
    have hkeep : ∀ x ∈ ids, x ∈ effect.counted ids := by
      intro x hx
      cases effect with
      | alarmSuppressed groupId alarmId rootId => exact Finset.mem_insert_of_mem hx
      | groupEvicted groupId alarmIds => cases h _ List.mem_cons_self
      | _ => exact hx
    refine ih (fun e he => h e (List.mem_cons_of_mem _ he)) ?_
    rcases hid with hid | ⟨groupId, rootId, hmem⟩
    · exact .inl (hkeep id hid)
    · rcases List.mem_cons.mp hmem with rfl | hmem
      · exact .inl (Finset.mem_insert_self id ids)
      · exact .inr ⟨groupId, rootId, hmem⟩

/-! ### What is named -/

namespace Correlation

open AlarmGroup (Alike)

variable {c c' c'' : Correlation} {g g' : AlarmGroup} {alarm peer : CorrelatedAlarm} {rule : CorrelationRule} {id groupId : Text}
  {effects later : List EngineEffect}

def alarmView (c : Correlation) (alarmId : Text) : Option (CorrelatedAlarm × Option AlarmGroup) :=
  match c.alarmIndex alarmId with
  | none => none
  | some none => (c.pendingAlarm alarmId).map fun a => (a, none)
  | some (some groupId) => (c.getGroup groupId).bind fun g => (g.member alarmId).map fun a => (a, some g)

theorem alarmView_congr (hindex : c'.alarmIndex id = c.alarmIndex id) (hpending : c'.pendingAlarm id = c.pendingAlarm id)
    (hgroup : ∀ groupId, c.alarmIndex id = some (some groupId) → c'.getGroup groupId = c.getGroup groupId) : c'.alarmView id = c.alarmView id := by
  unfold alarmView
  rw [hindex, hpending]
  cases hplace : c.alarmIndex id with
  | none => rfl
  | some place =>
    cases place with
    | none => rfl
    | some groupId => simp only [hgroup groupId hplace]

structure Confined (alarms groups : Set Text) (c c' : Correlation) : Prop where
  alarm : ∀ id, id ∉ alarms → c'.alarmView id = c.alarmView id
  group : ∀ id, id ∉ groups → c'.getGroup id = c.getGroup id

theorem Confined.refl (alarms groups : Set Text) (c : Correlation) : Confined alarms groups c c := ⟨fun _ _ => rfl, fun _ _ => rfl⟩

theorem Confined.mono {alarms groups alarms' groups' : Set Text} (h : Confined alarms groups c c') (halarms : alarms ⊆ alarms') (hgroups : groups ⊆ groups') :
    Confined alarms' groups' c c' :=
  ⟨fun id hid => h.alarm id fun hmem => hid (halarms hmem), fun id hid => h.group id fun hmem => hid (hgroups hmem)⟩

theorem Confined.trans {alarms groups alarms' groups' : Set Text} (h : Confined alarms groups c c') (h' : Confined alarms' groups' c' c'') :
    Confined (alarms ∪ alarms') (groups ∪ groups') c c'' where
  alarm id hid := (h'.alarm id fun hmem => hid (.inr hmem)).trans (h.alarm id fun hmem => hid (.inl hmem))
  group id hid := (h'.group id fun hmem => hid (.inr hmem)).trans (h.group id fun hmem => hid (.inl hmem))

def CountedIn (c : Correlation) (ids : Finset Text) : Prop := ∀ g ∈ c.groups, ∀ id ∈ g.suppressedAlarmIds, id ∈ ids

structure Reports (c : Correlation) (effects : List EngineEffect) (c' : Correlation) : Prop where
  confined : Confined (alarmsOf effects) (groupsOf effects) c c'
  counted : ∀ ids, c.CountedIn ids → c'.CountedIn (effects.foldl EngineEffect.counted ids)

theorem Reports.trans (h : Reports c effects c') (h' : Reports c' later c'') : Reports c (effects ++ later) c'' where
  confined := by
    rw [alarmsOf_append, groupsOf_append]
    exact h.confined.trans h'.confined
  counted ids hids := by
    rw [List.foldl_append]
    exact h'.counted _ (h.counted ids hids)

theorem Calm.countedIn (hcalm : Calm effects) {ids : Finset Text} (h : c.CountedIn ids) : c.CountedIn (effects.foldl EngineEffect.counted ids) :=
  fun g hg id hid => hcalm.counted (.inl (h g hg id hid))

theorem Reports.quiet (c : Correlation) (hcalm : Calm effects) : Reports c effects c := ⟨.refl _ _ c, fun _ hids => Calm.countedIn hcalm hids⟩

theorem Reports.refl (c : Correlation) : Reports c [] c := .quiet c (by simp [Calm])

/-! ### One group -/

theorem Tracked.confined_admits (h : c.Tracked) {moved : List Text} (hadmits : c.Admits moved g c') :
    Confined {id | id ∈ g.alarmIds} {g.id} c c' := by
  have h' := h.admits hadmits
  have hgroup : ∀ groupId, groupId ≠ g.id → c'.getGroup groupId = c.getGroup groupId := by
    intro groupId hne
    refine find?_key_congr h.groupIds h'.groupIds fun x hid => ?_
    have hother : x.id ≠ g.id := hid ▸ hne
    rw [hadmits.groups, or_iff_right fun hself => hother (congrArg _ hself)]
    exact and_iff_left hother
  refine ⟨fun id hid => ?_, fun groupId hne => hgroup groupId hne⟩
  have hmoved : id ∉ moved := fun hmoved => hid ((hadmits.members id).mpr (.inl hmoved))
  refine alarmView_congr ?_ ?_ fun groupId hplace => hgroup groupId fun hsame => hid ((hadmits.members id).mpr (.inr (hsame ▸ hplace)))
  · rw [hadmits.index, if_neg hmoved]
  · unfold pendingAlarm
    rw [hadmits.pending, List.find?_filter]
    refine List.find?_congr fun a _ => ?_
    by_cases hself : a.id = id
    · simp [hself, hmoved]
    · simp [hself]

theorem Tracked.admits_put (h : c.Tracked) (hg : g ∈ c.groups) (halike : Alike g g') : c.Admits [] g' (c.put g') where
  options := rfl
  free := by simp
  groups := mem_put hg halike.id
  groupIds := by
    rw [put_groupIds]
    exact h.groupIds
  pending := by
    show c.pending = _
    simp
  index id := by
    show c.alarmIndex id = _
    simp
  members id := by
    rw [halike.alarmIds, halike.id]
    constructor
    · exact fun hid => .inr (h.place_of_member hg hid)
    · rintro (hid | hid)
      · cases hid
      · obtain ⟨x, hx, hsame, hmem⟩ := (h.groupIndex id g.id).mp hid
        exact key_injective h.groupIds hx hg hsame ▸ hmem
  sound := (h.sound g hg).alike halike

structure Names (g : AlarmGroup) (effects : List EngineEffect) : Prop where
  group : g.id ∈ groupsOf effects
  alarms : ∀ id ∈ g.alarmIds, id ∈ alarmsOf effects

theorem Names.append_right (h : Names g effects) : Names g (later ++ effects) := by
  refine ⟨?_, fun id hid => ?_⟩
  · rw [groupsOf_append]
    exact .inr h.group
  · rw [alarmsOf_append]
    exact .inr (h.alarms id hid)

theorem names_updated (hids : g.alarmIds = g.alarms.map (·.id)) : Names g [.groupUpdated g] := by
  refine ⟨⟨_, List.mem_singleton.mpr rfl, by simp [EngineEffect.groupIds]⟩, fun id hid => ⟨_, List.mem_singleton.mpr rfl, ?_⟩⟩
  rw [hids] at hid
  exact hid

theorem names_closed (hids : g.alarmIds = g.alarms.map (·.id)) : Names g [.groupClosed g] := by
  refine ⟨⟨_, List.mem_singleton.mpr rfl, by simp [EngineEffect.groupIds]⟩, fun id hid => ⟨_, List.mem_singleton.mpr rfl, ?_⟩⟩
  rw [hids] at hid
  exact hid

/-- Whoever is suppressed in the group was so before or has been reported. -/
def Announces (g : AlarmGroup) (effects : List EngineEffect) (g' : AlarmGroup) : Prop :=
  ∀ id ∈ g'.suppressedAlarmIds, id ∈ g.suppressedAlarmIds ∨ ∃ groupId rootId, .alarmSuppressed groupId id rootId ∈ effects

theorem Tracked.reports_admits (h : c.Tracked) {moved : List Text} (hadmits : c.Admits moved g' c') (hnames : Names g' effects) (hcalm : Calm effects)
    (hannounces : ∀ id ∈ g'.suppressedAlarmIds, (∃ g ∈ c.groups, id ∈ g.suppressedAlarmIds) ∨ ∃ groupId rootId, .alarmSuppressed groupId id rootId ∈ effects) :
    Reports c effects c' where
  confined := (h.confined_admits hadmits).mono hnames.alarms (Set.singleton_subset_iff.mpr hnames.group)
  counted ids hids x hx id hid := by
    rcases (hadmits.groups x).mp hx with rfl | ⟨hx, -⟩
    · refine hcalm.counted ((hannounces id hid).imp_left ?_)
      rintro ⟨g, hg, hmem⟩
      exact hids g hg id hmem
    · exact hcalm.counted (.inl (hids x hx id hid))

/-! ### The events of a group -/

theorem suppressEach_events (groupId rootId : Text) (should : CorrelatedAlarm → Bool) (alarms : List CorrelatedAlarm) (ids : List Text) :
    Calm (AlarmGroup.suppressEach groupId rootId should alarms ids).2.2 ∧
      ∀ id ∈ (AlarmGroup.suppressEach groupId rootId should alarms ids).2.1, id ∈ ids ∨
        ∃ groupId' rootId', .alarmSuppressed groupId' id rootId' ∈ (AlarmGroup.suppressEach groupId rootId should alarms ids).2.2 := by
  induction alarms generalizing ids with
  | nil => exact ⟨by simp [AlarmGroup.suppressEach, Calm], fun id hid => .inl hid⟩
  | cons alarm rest ih =>
    rw [AlarmGroup.suppressEach]
    split_ifs
    · obtain ⟨hcalm, hall⟩ := ih (ids.filter fun id => id ≠ alarm.id)
      refine ⟨fun e he => ?_, fun id hid => ?_⟩
      · rcases List.mem_cons.mp he with rfl | he
        · rfl
        · exact hcalm e he
      · rcases hall id hid with hkept | ⟨groupId', rootId', hmem⟩
        · exact .inl (List.mem_filter.mp hkept).1
        · exact .inr ⟨groupId', rootId', List.mem_cons_of_mem _ hmem⟩
    · obtain ⟨hcalm, hall⟩ := ih (ids ++ [alarm.id])
      refine ⟨fun e he => ?_, fun id hid => ?_⟩
      · rcases List.mem_cons.mp he with rfl | he
        · rfl
        · exact hcalm e he
      · rcases hall id hid with hkept | ⟨groupId', rootId', hmem⟩
        · rcases List.mem_append.mp hkept with hkept | hself
          · exact .inl hkept
          · rw [List.mem_singleton.mp hself]
            exact .inr ⟨groupId, rootId, List.mem_cons_self⟩
        · exact .inr ⟨groupId', rootId', List.mem_cons_of_mem _ hmem⟩
    · exact ih ids

theorem unsuppressActiveMembers_events (g : AlarmGroup) : Calm g.unsuppressActiveMembers.2.2 := by
  intro e he
  unfold AlarmGroup.unsuppressActiveMembers at he
  dsimp only at he
  split_ifs at he
  · cases he
  · rw [List.mem_singleton.mp he]
    rfl

theorem applySuppression_events (policy : SuppressionPolicy) (topology : EquipmentTopology) (g : AlarmGroup) :
    Calm (g.applySuppression policy topology).2 ∧ Announces g (g.applySuppression policy topology).2 (g.applySuppression policy topology).1 := by
  unfold AlarmGroup.applySuppression
  split_ifs
  · exact ⟨unsuppressActiveMembers_events g, fun id hid => by cases hid⟩
  · exact suppressEach_events g.id g.rootCauseAlarmId (g.shouldSuppress policy topology) g.alarms g.suppressedAlarmIds

theorem closeGroup_events (clock : Clock) (reason : CloseReason) (g : AlarmGroup) :
    Calm (g.closeGroup clock reason).2 ∧ Announces g (g.closeGroup clock reason).2 (g.closeGroup clock reason).1 ∧
      (g.state = .opened → g.alarmIds = g.alarms.map (·.id) → Names (g.closeGroup clock reason).1 (g.closeGroup clock reason).2) := by
  have halike := AlarmGroup.closeGroup_alike clock reason g
  unfold AlarmGroup.closeGroup at halike ⊢
  split_ifs at halike ⊢ with hclosed
  · refine ⟨by simp [Calm], fun id hid => .inl hid, fun hopen => ?_⟩
    cases hopen.symm.trans hclosed
  · refine ⟨(unsuppressActiveMembers_events g).append ?_, ?_, fun _ hids => ?_⟩
    · intro e he
      rw [List.mem_singleton.mp he]
      rfl
    · intro id hid
      cases hid
    · refine (names_closed ?_).append_right
      rw [halike.alarmIds, hids, halike.map_eq (·.id) fun _ => rfl]

theorem rootChange_events (g elected : AlarmGroup) : Calm (g.rootChange elected) := by
  intro e he
  unfold AlarmGroup.rootChange at he
  split_ifs at he
  · rw [List.mem_singleton.mp he]
    rfl
  · cases he

/-! ### Joining and forming -/

theorem electRootCause_suppressed (topology : EquipmentTopology) (g : AlarmGroup) : (g.electRootCause topology).suppressedAlarmIds = g.suppressedAlarmIds := by
  rcases AlarmGroup.electRootCause_cases topology g with h | ⟨a, -, -, h⟩ <;> rw [h]

theorem Coherent.joinGroup_reports (h : c.Coherent) (hfits : Fits c alarm g) (rule : CorrelationRule) :
    Reports c (c.joinGroup alarm g rule).2.2 (c.joinGroup alarm g rule).1 := by
  have hadmits := h.admits_joinGroup hfits rule
  obtain ⟨hcalm, hannounces⟩ := applySuppression_events c.suppressionPolicy c.topology ((g.withMember alarm rule).electRootCause c.topology)
  have hfirst : Calm [.groupTouched g.id, .pendingForgotten alarm.id] := by simp [Calm, EngineEffect.evicts]
  have hlast : Calm [.groupUpdated (c.joinGroup alarm g rule).2.1] := by simp [Calm, EngineEffect.evicts]
  have hnames : Names (c.joinGroup alarm g rule).2.1 [.groupUpdated (c.joinGroup alarm g rule).2.1] := names_updated hadmits.sound.ids
  refine h.toTracked.reports_admits hadmits hnames.append_right (((hfirst.append (rootChange_events _ _)).append hcalm).append hlast) ?_
  intro id hid
  rcases hannounces id hid with hbefore | ⟨groupId, rootId, hmem⟩
  · rw [electRootCause_suppressed] at hbefore
    exact .inl ⟨g, hfits.here, hbefore⟩
  · exact .inr ⟨groupId, rootId, List.mem_append_left _ (List.mem_append_right _ hmem)⟩

theorem admit_reports {a : Admission} (h : a.correlation.Coherent) (hhere : a.group ∈ a.correlation.groups) (hopen : a.group.state = .opened)
    (hvisible : alarm.state ≠ .suppressed) :
    ∃ effects, (admitCandidate a alarm).effects = a.effects ++ effects ∧ Reports a.correlation effects (admitCandidate a alarm).correlation := by
  rcases admitCandidate_cases a hhere hopen hvisible with hsame | ⟨rule, hfits, hjoined⟩
  · rw [hsame]
    exact ⟨[], by simp, .refl _⟩
  · rw [hjoined]
    exact ⟨_, rfl, h.joinGroup_reports hfits rule⟩

theorem foldl_admit_reports {a : Admission} {candidates : List CorrelatedAlarm} (h : a.correlation.Coherent) (hhere : a.group ∈ a.correlation.groups)
    (hopen : a.group.state = .opened) (hvisible : ∀ x ∈ candidates, x.state ≠ .suppressed) :
    ∃ effects, (candidates.foldl admitCandidate a).effects = a.effects ++ effects ∧ Reports a.correlation effects (candidates.foldl admitCandidate a).correlation := by
  induction candidates generalizing a with
  | nil => exact ⟨[], by simp, .refl _⟩
  | cons x rest ih =>
    have hstep := admit_continued h hhere hopen (hvisible x List.mem_cons_self)
    obtain ⟨effects, heffects, hreports⟩ := admit_reports h hhere hopen (hvisible x List.mem_cons_self)
    obtain ⟨later, hlater, hrest⟩ := ih hstep.coherent hstep.here hstep.opened fun y hy => hvisible y (List.mem_cons_of_mem _ hy)
    refine ⟨effects ++ later, ?_, hreports.trans hrest⟩
    rw [List.foldl_cons, hlater, heffects, List.append_assoc]

theorem reconcilePass_reports (localeCompare : Text → Text → ℤ) (h : c.Coherent) (hhere : g ∈ c.groups) (hopen : g.state = .opened) :
    Reports c (reconcilePass localeCompare c g).effects (reconcilePass localeCompare c g).correlation := by
  obtain ⟨effects, heffects, hreports⟩ := foldl_admit_reports (a := ⟨c, g, [], false⟩) h hhere hopen
    fun x (hx : x ∈ c.candidates localeCompare) => h.waiting x ((List.mem_insertionSort _).mp hx)
  unfold reconcilePass
  rw [heffects]
  exact hreports

theorem reconcileLoop_reports (fuel : ℕ) (h : c.Coherent) (hhere : g ∈ c.groups) (hopen : g.state = .opened) :
    Reports c (reconcileLoop localeCompare fuel c g).2.2 (reconcileLoop localeCompare fuel c g).1 := by
  induction fuel generalizing c g with
  | zero => exact .refl c
  | succ fuel ih =>
    have hpass := reconcilePass_continued localeCompare h hhere hopen
    have hreports := reconcilePass_reports localeCompare h hhere hopen
    rw [reconcileLoop]
    dsimp only
    split_ifs
    · exact hreports.trans (ih hpass.coherent hpass.here hpass.opened)
    · exact hreports
    · exact .refl c

theorem reconcilePending_reports (h : c.Coherent) (hhere : g ∈ c.groups) (hopen : g.state = .opened) :
    Reports c (c.reconcilePending localeCompare g).2.2 (c.reconcilePending localeCompare g).1 := reconcileLoop_reports _ h hhere hopen

/-! ### Forgetting -/

theorem Coherent.evictGroup_reports (h : c.Coherent) (hg : g ∈ c.groups) (halike : Alike g g') (hcalm : Calm effects) :
    Reports c (effects ++ (c.evictGroup g').2) (c.evictGroup g').1 := by
  have h' := h.toTracked.evictGroup hg halike
  have hgroup : ∀ groupId, groupId ≠ g.id → (c.evictGroup g').1.getGroup groupId = c.getGroup groupId := by
    intro groupId hne
    refine find?_key_congr h.groupIds h'.groupIds fun x hid => ?_
    have hother : x.id ≠ g'.id := fun hsame => hne (hid.symm.trans (hsame.trans halike.id))
    exact List.mem_filter.trans (and_iff_left (decide_eq_true hother))
  have hconfined : Confined {id | id ∈ g.alarmIds} {g.id} c (c.evictGroup g').1 := by
    refine ⟨fun id hid => alarmView_congr ?_ rfl fun groupId hplace => hgroup groupId fun hsame => hid ?_, hgroup⟩
    · show (if id ∈ g'.alarmIds then none else c.alarmIndex id) = c.alarmIndex id
      rw [halike.alarmIds]
      exact if_neg hid
    · obtain ⟨x, hx, hxid, hmem⟩ := (h.groupIndex id groupId).mp hplace
      exact key_injective h.groupIds hx hg (hxid.trans hsame) ▸ hmem
  have hevents : (c.evictGroup g').2 = g'.unsuppressActiveMembers.2.2 ++ [.groupEvicted g.id g.alarmIds] := by
    rw [← halike.id, ← halike.alarmIds]
    rfl
  rw [hevents, ← List.append_assoc]
  have hlast : EngineEffect.groupEvicted g.id g.alarmIds ∈ effects ++ g'.unsuppressActiveMembers.2.2 ++ [.groupEvicted g.id g.alarmIds] :=
    List.mem_append_right _ (List.mem_singleton.mpr rfl)
  refine ⟨hconfined.mono (fun id hid => ⟨_, hlast, hid⟩) (Set.singleton_subset_iff.mpr ⟨_, hlast, ?_⟩), ?_⟩
  · simp [EngineEffect.groupIds]
  · intro ids hids x hx id hid
    obtain ⟨hx, hother⟩ := List.mem_filter.mp hx
    rw [List.foldl_append]
    refine Finset.mem_filter.mpr ⟨(hcalm.append (unsuppressActiveMembers_events g')).counted (.inl (hids x hx id hid)), fun hmem => ?_⟩
    have hmember : id ∈ x.alarmIds := (h.sound x hx).ids ▸ (h.settled x hx).recorded.known id hid
    have hsame := (h.place_of_member hx hmember).symm.trans (h.place_of_member hg hmem)
    rw [halike.id] at hother
    simp [Option.some.inj (Option.some.inj hsame)] at hother

theorem evictAny_reports {l : List AlarmGroup} (h : c.Coherent) (hl : c.Lists l) : Reports c (evictAny clock c l).2 (evictAny clock c l).1 := by
  induction l generalizing c with
  | nil => exact .refl c
  | cons g later ih =>
    by_cases hfits : c.groups.length ≤ c.options.maxGroups
    · rw [evictAny, if_pos hfits]
      exact .refl c
    · have hhere := hl.here g List.mem_cons_self
      have halike := AlarmGroup.closeGroup_alike clock .evicted g
      have hreports := h.evictGroup_reports hhere halike (closeGroup_events clock .evicted g).1
      have hcoherent := h.shrunk (evictGroup_shrunk c _) (h.toTracked.evictGroup hhere halike)
      rw [evictAny, if_neg hfits]
      exact hreports.trans (ih hcoherent hl.later)

theorem enforceGroupCap_reports (clock : Clock) (h : c.Coherent) : Reports c (c.enforceGroupCap clock).2 (c.enforceGroupCap clock).1 := by
  have hcoherent := (evictAny_shrunk clock h h.lists_closed).1
  have hall := hcoherent.lists_oldestFirst (List.Sublist.refl _)
  unfold enforceGroupCap
  rw [evictClosed_oldestFirst clock]
  exact (evictAny_reports h h.lists_closed).trans (evictAny_reports hcoherent hall)

theorem Tracked.prune_reports (h : c.Tracked) {removed kept : List CorrelatedAlarm} (hsplit : (removed ++ kept).Perm c.pending) :
    Reports c (prunedEffects (removed.map (·.id))) ({ c.forget (removed.map (·.id)) with pending := kept } : Correlation) := by
  have h' := h.prune hsplit
  have hcalm : Calm (prunedEffects (removed.map (·.id))) := by
    intro e he
    unfold prunedEffects at he
    split_ifs at he
    · cases he
    · rw [List.mem_singleton.mp he]
      rfl
  have halarms : ∀ id, id ∉ alarmsOf (prunedEffects (removed.map (·.id))) → id ∉ removed.map (·.id) := by
    intro id hid hmem
    refine hid ?_
    unfold prunedEffects
    rw [if_neg (List.ne_nil_of_mem hmem)]
    exact ⟨_, List.mem_singleton.mpr rfl, hmem⟩
  refine ⟨⟨fun id hid => alarmView_congr ?_ ?_ fun _ _ => rfl, fun _ _ => rfl⟩, fun ids hids => Calm.countedIn hcalm hids⟩
  · exact if_neg (halarms id hid)
  · have hremoved := halarms id hid
    refine Option.ext fun a => ?_
    have hmap : ∀ x, x ∈ c.pending ↔ x ∈ removed ∨ x ∈ kept := fun x => by rw [← hsplit.mem_iff, List.mem_append]
    show kept.find? _ = some a ↔ c.pending.find? _ = some a
    rw [find?_key h'.pendingIds, find?_key h.pendingIds, hmap]
    constructor
    · rintro ⟨ha, hself⟩
      exact ⟨.inr ha, hself⟩
    · rintro ⟨ha | ha, hself⟩
      · exact absurd (List.mem_map.mpr ⟨a, ha, hself⟩) hremoved
      · exact ⟨ha, hself⟩

theorem Tracked.reports_prunePending (h : c.Tracked) (referenceMs : ℚ) : Reports c (c.prunePending referenceMs).2 (c.prunePending referenceMs).1 :=
  h.prune_reports (split_prunePending c referenceMs)

/-! ### Ingestion -/

theorem Coherent.formGroup_reports (h : c.Coherent) (hpairs : Pairs c alarm peer) {last : AlarmGroup}
    (hform : c.formGroup clock alarm peer rule groupId = .ok (c', last, effects)) : Reports c effects c' := by
  unfold formGroup at hform
  split_ifs at hform with hused
  have hfree : c.getGroup groupId = none := by simpa using hused
  obtain ⟨hsound, -, halarmIds⟩ := h.founded_settled hpairs rule groupId
  obtain ⟨hfounded, -⟩ := h.withFounded hpairs rule hfree
  have hid : (c.founded alarm peer rule groupId).id = groupId := (founded_alike ..).id
  have hadmits := h.admits_withFounded hpairs rule hfree
  have hconfined := h.toTracked.confined_admits hadmits
  have hcap := enforceGroupCap_reports clock hfounded
  obtain ⟨hcalm, hannounces⟩ := applySuppression_events c.suppressionPolicy c.topology ((newGroup alarm peer rule groupId).electRootCause c.topology)
  obtain ⟨rfl, hrest⟩ := Prod.mk.inj (Except.ok.inj hform)
  obtain ⟨rfl, rfl⟩ := Prod.mk.inj hrest
  change Reports c (_ ++ (((newGroup alarm peer rule groupId).electRootCause c.topology).applySuppression c.suppressionPolicy c.topology).2 ++
    ((c.withFounded alarm peer rule groupId).enforceGroupCap clock).2 ++ [.groupCreated ((((c.withFounded alarm peer rule groupId).enforceGroupCap
      clock).1.getGroup groupId).getD ((c.founded alarm peer rule groupId).closeGroup clock .evicted).1)])
    ((c.withFounded alarm peer rule groupId).enforceGroupCap clock).1
  generalize hlast : (((c.withFounded alarm peer rule groupId).enforceGroupCap clock).1.getGroup groupId).getD
    ((c.founded alarm peer rule groupId).closeGroup clock .evicted).1 = last
  -- The group that is announced has the members of the group that was formed.
  have hsame : last.id = groupId ∧ last.alarms.map (·.id) = (c.founded alarm peer rule groupId).alarmIds := by
    cases hgroup : ((c.withFounded alarm peer rule groupId).enforceGroupCap clock).1.getGroup groupId with
    | none =>
      rw [hgroup] at hlast
      subst hlast
      have halike := AlarmGroup.closeGroup_alike clock .evicted (c.founded alarm peer rule groupId)
      exact ⟨halike.id.trans hid, by rw [hsound.ids]; exact halike.map_eq (·.id) fun _ => rfl⟩
    | some g =>
      rw [hgroup] at hlast
      subst hlast
      rw [Option.getD_some, (hfounded.founded_kept hgroup).2]
      exact ⟨hid, hsound.ids.symm⟩
  have hmem : EngineEffect.groupCreated last ∈ [EngineEffect.groupCreated last] := List.mem_singleton.mpr rfl
  refine ⟨?_, ?_⟩
  · refine (hconfined.trans hcap.confined).mono ?_ ?_
    · rw [alarmsOf_append, alarmsOf_append]
      rintro id (hmember | hcapped)
      · refine .inr ⟨_, hmem, ?_⟩
        show id ∈ last.alarms.map (·.id)
        rw [hsame.2]
        exact hmember
      · exact .inl (.inr hcapped)
    · rw [groupsOf_append, groupsOf_append]
      rintro id (hmember | hcapped)
      · refine .inr ⟨_, hmem, ?_⟩
        have hself : id = groupId := hmember.trans hid
        simp [EngineEffect.groupIds, hsame.1, hself]
      · exact .inl (.inr hcapped)
  · intro ids hids
    have hfirst : Calm [.groupTouched groupId, .pendingForgotten peer.id, .pendingForgotten alarm.id] := by simp [Calm, EngineEffect.evicts]
    have hcounted : (c.withFounded alarm peer rule groupId).CountedIn ((([.groupTouched groupId, .pendingForgotten peer.id, .pendingForgotten alarm.id] : List EngineEffect) ++
        (((newGroup alarm peer rule groupId).electRootCause c.topology).applySuppression c.suppressionPolicy c.topology).2).foldl EngineEffect.counted ids) := by
      intro x hx id hmember
      refine (hfirst.append hcalm).counted ?_
      rcases List.mem_append.mp hx with hx | hx
      · exact .inl (hids x hx id hmember)
      · rw [List.mem_singleton.mp hx] at hmember
        rcases hannounces id hmember with hbefore | ⟨groupId', rootId, hsuppressed⟩
        · rw [electRootCause_suppressed] at hbefore
          cases hbefore
        · exact .inr ⟨groupId', rootId, List.mem_append_right _ hsuppressed⟩
    rw [List.foldl_append, List.foldl_append]
    exact hcap.counted _ hcounted

theorem Coherent.ingest_reports (h : c.Coherent) (input : CorrelatedAlarm) :
    Reports c (c.ingest localeCompare clock input groupId).2.1 (c.ingest localeCompare clock input groupId).1 := by
  have hfirst : Calm [.alarmIngested] := by simp [Calm, EngineEffect.evicts]
  have hvisible := raised_visible input
  unfold Correlation.ingest
  dsimp only
  generalize raised input = alarm at *
  cases hnew : c.alarmIndex alarm.id with
  | some place => exact .refl c
  | none =>
    dsimp only
    cases hjoin : c.joinable alarm with
    | some found =>
      obtain ⟨g, rule⟩ := found
      have hfits := (joinable_fits hjoin hnew hvisible).1
      obtain ⟨hstep, -⟩ := h.joinGroup hfits rule
      exact (Reports.quiet c hfirst).trans ((h.joinGroup_reports hfits rule).trans (reconcilePending_reports hstep.coherent hstep.here hstep.opened))
    | none =>
      cases hpair : c.pairable alarm with
      | some found =>
        obtain ⟨peer, rule⟩ := found
        have hpairs := (pairable_pairs hpair hnew hvisible).1
        dsimp only
        rcases formGroup_cases clock c alarm peer rule groupId with ⟨e, herror, -⟩ | ⟨hfree, effects, hok⟩
        · rw [herror]
          exact .quiet c hfirst
        · have hreports := h.formGroup_reports hpairs hok
          obtain ⟨hcoherent, -⟩ := h.withFounded hpairs rule hfree
          have hkept := (enforceGroupCap_shrunk clock hcoherent).1
          rw [hok]
          dsimp only
          cases hlast : ((c.withFounded alarm peer rule groupId).enforceGroupCap clock).1.getGroup groupId with
          | none => exact (Reports.quiet c hfirst).trans hreports
          | some g =>
            obtain ⟨hhere, hg⟩ := hcoherent.founded_kept hlast
            have hopen : g.state = .opened := hg ▸ founded_state ..
            exact (Reports.quiet c hfirst).trans (hreports.trans (reconcilePending_reports hkept hhere hopen))
      | none =>
        have hwait := h.toTracked.wait hnew
        have hprune := hwait.reports_prunePending alarm.timestamp
        have hconfined : Confined {alarm.id} ∅ c { c.index alarm.id (some none) with pending := c.pending ++ [alarm] } := by
          refine ⟨fun id hid => alarmView_congr ?_ ?_ fun _ _ => rfl, fun _ _ => rfl⟩
          · exact Function.update_of_ne hid _ _
          · show (c.pending ++ [alarm]).find? _ = c.pending.find? _
            have hother : decide (alarm.id = id) = false := decide_eq_false fun hsame => hid hsame.symm
            simp [List.find?_append, hother]
        refine ⟨(hconfined.trans hprune.confined).mono ?_ ?_, ?_⟩
        · rw [alarmsOf_append, alarmsOf_append]
          rintro id (hself | hpruned)
          · exact .inr ⟨_, List.mem_singleton.mpr rfl, List.mem_singleton.mpr hself⟩
          · exact .inl (.inr hpruned)
        · rw [groupsOf_append, groupsOf_append]
          rintro id (hself | hpruned)
          · cases hself
          · exact .inl (.inr hpruned)
        · intro ids hids
          rw [List.foldl_append, List.foldl_append]
          exact hprune.counted ids hids

/-! ### Lifecycle and housekeeping -/

theorem Tracked.setPending_reports (h : c.Tracked) {change : CorrelatedAlarm → CorrelatedAlarm} (hchange : ∀ a, (change a).id = a.id) (ha : alarm.id = id) :
    Reports c [.alarmUpdated alarm] (c.setPending id change) := by
  have hcalm : Calm [.alarmUpdated alarm] := by simp [Calm, EngineEffect.evicts]
  refine ⟨⟨fun other hother => alarmView_congr rfl ?_ fun _ _ => rfl, fun _ _ => rfl⟩, fun ids hids => Calm.countedIn hcalm hids⟩
  have hne : other ≠ id := fun hsame => hother ⟨_, List.mem_singleton.mpr rfl, List.mem_singleton.mpr (hsame.trans ha.symm)⟩
  have h' : (c.setPending id change).Tracked := h.setPending hchange
  refine find?_key_congr h.pendingIds h'.pendingIds fun x hself => ?_
  constructor
  · intro hx
    obtain ⟨a, ha, rfl⟩ := List.mem_map.mp hx
    split_ifs at hself ⊢ with hchanged
    · exact absurd (hself.symm.trans ((hchange a).trans hchanged)) hne
    · exact ha
  · intro hx
    exact List.mem_map.mpr ⟨x, hx, if_neg fun hchanged => hne (hself.symm.trans hchanged)⟩

theorem Coherent.put_reports (h : c.Coherent) (hg : g ∈ c.groups) (halike : Alike g g') (hnames : Names g' effects) (hcalm : Calm effects)
    (hannounces : Announces g effects g') : Reports c effects (c.put g') :=
  h.toTracked.reports_admits (h.toTracked.admits_put hg halike) hnames hcalm fun id hid => (hannounces id hid).imp_left fun hmem => ⟨g, hg, hmem⟩

theorem setMember_announces (g : AlarmGroup) (alarmId : Text) (change : CorrelatedAlarm → CorrelatedAlarm) (effects : List EngineEffect) :
    Announces g effects ((g.removeSuppressionRecord alarmId).setMember alarmId change) := fun _ hid => .inl (List.mem_filter.mp hid).1

theorem Coherent.setMember_reports (h : c.Coherent) (hg : g ∈ c.groups) {alarmId : Text} {change : CorrelatedAlarm → CorrelatedAlarm}
    (hraw : ∀ a, (change a).raw = a.raw) :
    Reports c [.groupUpdated ((g.removeSuppressionRecord alarmId).setMember alarmId change)]
      (c.put ((g.removeSuppressionRecord alarmId).setMember alarmId change)) := by
  have halike := AlarmGroup.setMember_alike hraw g alarmId
  refine h.put_reports hg halike (names_updated ((h.sound g hg).alike halike).ids) ?_ (setMember_announces g alarmId change _)
  simp [Calm, EngineEffect.evicts]

theorem Coherent.alarmCleared_reports (h : c.Coherent) (alarmId : Text) (actor : Option Text) :
    Reports c (c.alarmCleared clock alarmId actor).2.1 (c.alarmCleared clock alarmId actor).1 := by
  unfold Correlation.alarmCleared Correlation.clearPending Correlation.clearMember
  split
  · exact .refl c
  · cases hfind : c.pendingAlarm alarmId with
    | none => exact .refl c
    | some a =>
      have hid : a.id = alarmId := ((find?_key h.pendingIds).mp hfind).2
      dsimp only
      split_ifs
      · exact .refl c
      · exact h.toTracked.setPending_reports (fun _ => rfl) hid
  · cases hgroup : c.getGroup _ with
    | none => exact .refl c
    | some g =>
      have hg := (h.getGroup_iff.mp hgroup).1
      dsimp only
      cases g.member alarmId with
      | none => exact .refl c
      | some a =>
        dsimp only
        split_ifs with hcleared hclosed hroot
        · exact .refl c
        · exact .refl c
        · have halike := (AlarmGroup.setMember_alike (clear_raw actor) g alarmId).trans (AlarmGroup.unsuppressActiveMembers_alike _)
          have hids := ((h.sound g hg).alike halike).ids
          generalize hchanged : (g.removeSuppressionRecord alarmId).setMember alarmId (clear actor) = changed at halike hids ⊢
          have hopen : changed.unsuppressActiveMembers.1.state = .opened := hchanged ▸ hroot.1
          obtain ⟨hcalm, hannounces, hnames⟩ := closeGroup_events clock .rootCauseCleared changed.unsuppressActiveMembers.1
          refine h.put_reports hg (halike.trans (AlarmGroup.closeGroup_alike clock .rootCauseCleared _)) (hnames hopen hids).append_right
            ((unsuppressActiveMembers_events changed).append hcalm) fun id hid => ?_
          rcases hannounces id hid with hbefore | ⟨groupId, rootId, hmem⟩
          · cases hbefore
          · exact .inr ⟨groupId, rootId, List.mem_append_right _ hmem⟩
        · exact h.setMember_reports hg (clear_raw actor)

theorem Coherent.alarmAcknowledged_reports (h : c.Coherent) (alarmId : Text) (actor : Option Text) :
    Reports c (c.alarmAcknowledged alarmId actor).2.1 (c.alarmAcknowledged alarmId actor).1 := by
  unfold Correlation.alarmAcknowledged
  split
  · exact .refl c
  · cases hfind : c.pendingAlarm alarmId with
    | none => exact .refl c
    | some a =>
      have hid : a.id = alarmId := ((find?_key h.pendingIds).mp hfind).2
      dsimp only
      cases acknowledgement a with
      | some done => exact .refl c
      | none => exact h.toTracked.setPending_reports (fun _ => rfl) hid
  · cases hgroup : c.getGroup _ with
    | none => exact .refl c
    | some g =>
      have hg := (h.getGroup_iff.mp hgroup).1
      dsimp only
      cases g.member alarmId with
      | none => exact .refl c
      | some a =>
        dsimp only
        cases acknowledgement a with
        | some done => exact .refl c
        | none => exact h.setMember_reports hg (acknowledge_raw actor)

theorem Tracked.eachGroup_reports (h : c.Tracked) {treat : AlarmGroup → AlarmGroup × List EngineEffect} (halike : ∀ g ∈ c.groups, Alike g (treat g).1)
    (hkept : ∀ g ∈ c.groups, (treat g).1 = g ∨ Names (treat g).1 (treat g).2) (hcalm : ∀ g ∈ c.groups, Calm (treat g).2)
    (hannounces : ∀ g ∈ c.groups, Announces g (treat g).2 (treat g).1) : Reports c (c.eachGroup treat).2 (c.eachGroup treat).1 := by
  have h' := h.eachGroup halike
  have hall : Calm (c.eachGroup treat).2 := by
    intro e he
    obtain ⟨g, hg, hmem⟩ := List.mem_flatMap.mp he
    exact hcalm g hg e hmem
  have hnames : ∀ g ∈ c.groups, Names (treat g).1 (treat g).2 → Names (treat g).1 (c.eachGroup treat).2 := by
    intro g hg hnames
    have hsub : ∀ e ∈ (treat g).2, e ∈ (c.eachGroup treat).2 := fun e he => List.mem_flatMap.mpr ⟨g, hg, he⟩
    obtain ⟨e, he, hid⟩ := hnames.group
    refine ⟨⟨e, hsub e he, hid⟩, fun id hid => ?_⟩
    obtain ⟨e, he, hmem⟩ := hnames.alarms id hid
    exact ⟨e, hsub e he, hmem⟩
  have hview : ∀ groupId, (∀ g ∈ c.groups, g.id = groupId → (treat g).1 = g) → (c.eachGroup treat).1.getGroup groupId = c.getGroup groupId := by
    intro groupId hsame
    cases hgroup : c.getGroup groupId with
    | none =>
      have hgone : (c.eachGroup treat).1.getGroup groupId = none := by
        rw [getGroup_eq_none] at hgroup ⊢
        intro hmem
        obtain ⟨g', hg', hid⟩ := List.mem_map.mp hmem
        obtain ⟨g, hg, rfl⟩ := List.mem_map.mp hg'
        exact hgroup (List.mem_map.mpr ⟨g, hg, (halike g hg).id.symm.trans hid⟩)
      rw [hgone]
    | some g =>
      obtain ⟨hg, hid⟩ := h.getGroup_iff.mp hgroup
      have hthere : (c.eachGroup treat).1.getGroup groupId = some (treat g).1 :=
        h'.getGroup_iff.mpr ⟨List.mem_map_of_mem hg, (halike g hg).id.trans hid⟩
      rw [hthere, hsame g hg hid]
  refine ⟨⟨fun id hid => alarmView_congr rfl rfl fun groupId hplace => hview groupId fun g hg hgid => ?_, fun groupId hgroup =>
    hview groupId fun g hg hgid => ?_⟩, ?_⟩
  · refine (hkept g hg).resolve_right fun hnamed => hid ((hnames g hg hnamed).alarms id ?_)
    obtain ⟨x, hx, hxid, hmem⟩ := (h.groupIndex id groupId).mp hplace
    rw [(halike g hg).alarmIds]
    exact key_injective h.groupIds hx hg (hxid.trans hgid.symm) ▸ hmem
  · refine (hkept g hg).resolve_right fun hnamed => hgroup ?_
    have hgroup' := (hnames g hg hnamed).group
    rw [(halike g hg).id, hgid] at hgroup'
    exact hgroup'
  · intro ids hids g' hg' id hid
    obtain ⟨g, hg, rfl⟩ := List.mem_map.mp hg'
    refine hall.counted ?_
    rcases hannounces g hg id hid with hbefore | ⟨groupId, rootId, hmem⟩
    · exact .inl (hids g hg id hbefore)
    · exact .inr ⟨groupId, rootId, List.mem_flatMap.mpr ⟨g, hg, hmem⟩⟩

theorem Coherent.sweep_reports (h : c.Coherent) (groupTouchedAt pendingTouchedAt : Text → Option ℚ) (nowMs : ℚ) :
    Reports c (c.sweep clock groupTouchedAt pendingTouchedAt nowMs).2.1 (c.sweep clock groupTouchedAt pendingTouchedAt nowMs).1 := by
  have hclosed : Reports c _ (c.eachGroup fun g => if c.isIdle groupTouchedAt nowMs g then g.closeGroup clock .idleTimeout else (g, [])).1 :=
    h.toTracked.eachGroup_reports
    (fun g hg => by
      split_ifs
      · exact AlarmGroup.closeGroup_alike clock .idleTimeout g
      · exact .refl g)
    (fun g hg => by
      split_ifs with hidle
      · have hopen : g.state = .opened := by
          unfold isIdle at hidle
          simp only [Bool.and_eq_true, decide_eq_true_eq] at hidle
          exact hidle.1
        exact .inr ((closeGroup_events clock .idleTimeout g).2.2 hopen (h.sound g hg).ids)
      · exact .inl rfl)
    (fun g hg => by
      split_ifs
      · exact (closeGroup_events clock .idleTimeout g).1
      · simp [Calm])
    (fun g hg => by
      split_ifs
      · exact (closeGroup_events clock .idleTimeout g).2.1
      · exact fun id hid => .inl hid)
  have hcoherent := h.closed clock groupTouchedAt nowMs
  have hpruned := hcoherent.toTracked.prune_reports (split_prunePendingByProcessingTime _ pendingTouchedAt nowMs)
  exact (hclosed.trans hpruned).trans (enforceGroupCap_reports clock (h.swept clock groupTouchedAt pendingTouchedAt nowMs))

theorem resuppress_events (policy : SuppressionPolicy) (topology : EquipmentTopology) (g : AlarmGroup) (hids : g.alarmIds = g.alarms.map (·.id)) :
    ((resuppress policy topology g).1 = g ∨ Names (resuppress policy topology g).1 (resuppress policy topology g).2) ∧
      Calm (resuppress policy topology g).2 ∧ Announces g (resuppress policy topology g).2 (resuppress policy topology g).1 := by
  have halike := AlarmGroup.applySuppression_alike policy topology g
  obtain ⟨hcalm, hannounces⟩ := applySuppression_events policy topology g
  have hupdated : Calm [.groupUpdated (g.applySuppression policy topology).1] := by simp [Calm, EngineEffect.evicts]
  unfold resuppress
  split_ifs
  · refine ⟨.inr (names_updated ?_).append_right, hcalm.append hupdated, fun id hid => ?_⟩
    · rw [halike.alarmIds, hids, halike.map_eq (·.id) fun _ => rfl]
    · refine (hannounces id hid).imp_right ?_
      rintro ⟨groupId, rootId, hmem⟩
      exact ⟨groupId, rootId, List.mem_append_left _ hmem⟩
  · exact ⟨.inl rfl, by simp [Calm], fun id hid => .inl hid⟩

theorem reelect_events (policy : SuppressionPolicy) (topology : EquipmentTopology) (g : AlarmGroup) (hids : g.alarmIds = g.alarms.map (·.id)) :
    ((reelect policy topology g).1 = g ∨ Names (reelect policy topology g).1 (reelect policy topology g).2) ∧
      Calm (reelect policy topology g).2 ∧ Announces g (reelect policy topology g).2 (reelect policy topology g).1 := by
  have halike := (AlarmGroup.electRootCause_alike topology g).trans (AlarmGroup.applySuppression_alike policy topology _)
  obtain ⟨hcalm, hannounces⟩ := applySuppression_events policy topology (g.electRootCause topology)
  have hupdated : Calm [.groupUpdated ((g.electRootCause topology).applySuppression policy topology).1] := by simp [Calm, EngineEffect.evicts]
  unfold reelect
  split_ifs
  · refine ⟨.inr (names_updated ?_).append_right, ((rootChange_events g _).append hcalm).append hupdated, fun id hid => ?_⟩
    · rw [halike.alarmIds, hids, halike.map_eq (·.id) fun _ => rfl]
    · have hid' := hannounces id hid
      rw [electRootCause_suppressed] at hid'
      refine hid'.imp_right ?_
      rintro ⟨groupId, rootId, hmem⟩
      exact ⟨groupId, rootId, List.mem_append_left _ (List.mem_append_right _ hmem)⟩
  · exact ⟨.inl rfl, by simp [Calm], fun id hid => .inl hid⟩

theorem Coherent.setSuppressionPolicy_reports (h : c.Coherent) (request : PolicyRequest) :
    Reports c (c.setSuppressionPolicy request).2.1 (c.setSuppressionPolicy request).1 := by
  unfold Correlation.setSuppressionPolicy
  split_ifs
  · exact .refl c
  · have htracked : ({ c with suppressionPolicy := request.over c.suppressionPolicy } : Correlation).Tracked :=
      ⟨h.groupIds, h.pendingIds, h.pendingIndex, h.groupIndex, h.sound⟩
    have hevents := fun g (hg : g ∈ c.groups) => resuppress_events (request.over c.suppressionPolicy) c.topology g (h.sound g hg).ids
    have hreports := htracked.eachGroup_reports
      (fun g hg => (resuppress_settled (request.over c.suppressionPolicy) (h.settled g hg) ⟨_, h.sound g hg⟩).1)
      (fun g hg => (hevents g hg).1) (fun g hg => (hevents g hg).2.1) fun g hg => (hevents g hg).2.2
    exact ⟨⟨hreports.confined.alarm, hreports.confined.group⟩, hreports.counted⟩

theorem Coherent.reconcileTopology_reports (h : c.Coherent) (topology : EquipmentTopology) :
    Reports c ({ c with topology } : Correlation).reconcileTopology.2 ({ c with topology } : Correlation).reconcileTopology.1 := by
  have htracked : ({ c with topology } : Correlation).Tracked := ⟨h.groupIds, h.pendingIds, h.pendingIndex, h.groupIndex, h.sound⟩
  have hevents := fun g (hg : g ∈ c.groups) => reelect_events c.suppressionPolicy topology g (h.sound g hg).ids
  have hreports := htracked.eachGroup_reports
    (fun g hg => (reelect_settled c.suppressionPolicy topology (h.settled g hg) ⟨_, h.sound g hg⟩).1)
    (fun g hg => (hevents g hg).1) (fun g hg => (hevents g hg).2.1) fun g hg => (hevents g hg).2.2
  exact ⟨⟨hreports.confined.alarm, hreports.confined.group⟩, hreports.counted⟩

end Correlation

end OxScada.Alarms
