import OxScada.Alarms.Tracking

/-! A coherent state: every alarm is in its place, every group is settled under the policy, and what waits is
visible. The operations lead from coherent states to coherent states. -/

namespace OxScada.Alarms
open OxScada.Bytes OxScada.Js OxScada.Order

variable {localeCompare : Text → Text → ℤ} {clock : Clock} {policy : SuppressionPolicy} {topology : EquipmentTopology}

namespace Correlation

open AlarmGroup (Alike Settled Recorded Rooted)

variable {c c' c'' : Correlation} {g g' g'' : AlarmGroup} {alarm peer : CorrelatedAlarm} {rule : CorrelationRule} {id groupId : Text}

structure Coherent (c : Correlation) : Prop extends Tracked c where
  settled : ∀ g ∈ c.groups, g.Settled c.suppressionPolicy c.topology
  waiting : ∀ a ∈ c.pending, a.state ≠ .suppressed

/-- The state has gone on, and no member has left its group. -/
structure Grown (c c' : Correlation) : Prop where
  setup : c'.setup = c.setup
  groupIds : c'.groups.map (·.id) = c.groups.map (·.id)
  pending : c'.pending.Sublist c.pending
  kept : ∀ id groupId, c.alarmIndex id = some (some groupId) → c'.alarmIndex id = some (some groupId)

theorem Grown.refl (c : Correlation) : Grown c c := ⟨rfl, rfl, .refl _, fun _ _ h => h⟩

theorem Grown.trans (h : Grown c c') (h' : Grown c' c'') : Grown c c'' where
  setup := h'.setup.trans h.setup
  groupIds := h'.groupIds.trans h.groupIds
  pending := h'.pending.trans h.pending
  kept id groupId hplace := h'.kept id groupId (h.kept id groupId hplace)

structure Continued (c : Correlation) (g : AlarmGroup) (c' : Correlation) (g' : AlarmGroup) : Prop where
  coherent : c'.Coherent
  grown : Grown c c'
  here : g' ∈ c'.groups
  opened : g'.state = .opened
  id : g'.id = g.id

theorem Continued.refl (h : c.Coherent) (hg : g ∈ c.groups) (hopen : g.state = .opened) : Continued c g c g := ⟨h, .refl c, hg, hopen, rfl⟩

theorem Continued.trans (h : Continued c g c' g') (h' : Continued c' g' c'' g'') : Continued c g c'' g'' :=
  ⟨h'.coherent, h.grown.trans h'.grown, h'.here, h'.opened, h'.id.trans h.id⟩

/-! ### Joining -/

theorem joinGroup_alike (c : Correlation) (alarm : CorrelatedAlarm) (g : AlarmGroup) (rule : CorrelationRule) :
    Alike (g.withMember alarm rule) (c.joinGroup alarm g rule).2.1 :=
  (AlarmGroup.electRootCause_alike c.topology _).trans (AlarmGroup.applySuppression_alike ..)

theorem applySuppression_state (policy : SuppressionPolicy) (topology : EquipmentTopology) (g : AlarmGroup) :
    (g.applySuppression policy topology).1.state = g.state := by
  unfold AlarmGroup.applySuppression
  split_ifs <;> rfl

structure Fits (c : Correlation) (alarm : CorrelatedAlarm) (g : AlarmGroup) : Prop where
  here : g ∈ c.groups
  opened : g.state = .opened
  size : g.alarmIds.length < c.options.maxAlarmsPerGroup
  span : max g.lastAlarmAt alarm.timestamp - min g.createdAt alarm.timestamp ≤ c.options.maxGroupSpanMs
  free : ∀ groupId, c.alarmIndex alarm.id ≠ some (some groupId)
  visible : alarm.state ≠ .suppressed

theorem Coherent.not_member (h : c.Coherent) (hfits : Fits c alarm g) : alarm.id ∉ g.alarmIds := fun hmem =>
  hfits.free g.id (h.place_of_member hfits.here hmem)

theorem Coherent.withMember_elected (h : c.Coherent) (hfits : Fits c alarm g) (rule : CorrelationRule) :
    (c.joinGroup alarm g rule).2.1.Settled c.suppressionPolicy c.topology := by
  have hsettled := h.settled g hfits.here
  have hsound := h.sound g hfits.here
  have hnew := h.not_member hfits
  have halike := AlarmGroup.electRootCause_alike c.topology (g.withMember alarm rule)
  have hjoined : (g.withMember alarm rule).Sound c.options := AlarmGroup.withMember_sound hsound hnew hfits.span hfits.size
  have helected := hjoined.alike halike
  refine AlarmGroup.applySuppression_settled ?_ (helected.ids ▸ helected.nodup) ?_ ?_
  · rw [AlarmGroup.electRootCause_state]
    exact hfits.opened
  · exact AlarmGroup.electRootCause_recorded (AlarmGroup.withMember_recorded hsettled.recorded hsound.ids hnew hfits.visible)
  · obtain ⟨r, hr, -, heligible⟩ := hsettled.rooted hfits.opened
    exact AlarmGroup.electRootCause_rooted ⟨r, List.mem_append_left _ hr, heligible⟩

theorem Coherent.admits_joinGroup (h : c.Coherent) (hfits : Fits c alarm g) (rule : CorrelationRule) :
    c.Admits [alarm.id] (c.joinGroup alarm g rule).2.1 (c.joinGroup alarm g rule).1 := by
  have halike := joinGroup_alike c alarm g rule
  have hjoined : (g.withMember alarm rule).Sound c.options :=
    AlarmGroup.withMember_sound (h.sound g hfits.here) (h.not_member hfits) hfits.span hfits.size
  exact h.toTracked.admits_join hfits.here hfits.free halike.id halike.alarmIds (hjoined.alike halike)

theorem joinGroup_state (c : Correlation) (alarm : CorrelatedAlarm) (g : AlarmGroup) (rule : CorrelationRule) :
    (c.joinGroup alarm g rule).2.1.state = g.state := by
  refine (applySuppression_state ..).trans ?_
  rw [AlarmGroup.electRootCause_state]
  rfl

theorem Coherent.joinGroup (h : c.Coherent) (hfits : Fits c alarm g) (rule : CorrelationRule) :
    Continued c g (c.joinGroup alarm g rule).1 (c.joinGroup alarm g rule).2.1 ∧
      (c.joinGroup alarm g rule).1.alarmIndex alarm.id = some (some g.id) := by
  have hid := (joinGroup_alike c alarm g rule).id
  have hsettled := h.withMember_elected hfits rule
  have hadmits := h.admits_joinGroup hfits rule
  have hpending : (c.joinGroup alarm g rule).1.pending = c.pending.filter fun a => a.id ∉ [alarm.id] := hadmits.pending
  refine ⟨⟨⟨h.toTracked.admits hadmits, ?_, ?_⟩, ⟨rfl, ?_, ?_, ?_⟩, ?_, (joinGroup_state ..).trans hfits.opened, hid⟩, ?_⟩
  · intro x hx
    rcases (hadmits.groups x).mp hx with rfl | ⟨hx, -⟩
    · exact hsettled
    · exact h.settled x hx
  · intro a ha
    rw [hpending] at ha
    exact h.waiting a (List.mem_filter.mp ha).1
  · exact put_groupIds _ _
  · rw [hpending]
    exact List.filter_sublist
  · intro id groupId hplace
    refine (hadmits.index id).trans ?_
    split_ifs with hmoved
    · rw [List.mem_singleton.mp hmoved] at hplace
      exact absurd hplace (hfits.free groupId)
    · exact hplace
  · exact (hadmits.groups _).mpr (.inl rfl)
  · refine (hadmits.index alarm.id).trans ?_
    rw [if_pos (List.mem_singleton.mpr rfl), hid]
    rfl

/-! ### The loops that admit pending alarms -/

theorem admitCandidate_cases (a : Admission) (hhere : a.group ∈ a.correlation.groups) (hopen : a.group.state = .opened) (hvisible : alarm.state ≠ .suppressed) :
    admitCandidate a alarm = a ∨ ∃ rule, Fits a.correlation alarm a.group ∧ admitCandidate a alarm =
      ⟨(a.correlation.joinGroup alarm a.group rule).1, (a.correlation.joinGroup alarm a.group rule).2.1,
        a.effects ++ (a.correlation.joinGroup alarm a.group rule).2.2, true⟩ := by
  unfold admitCandidate
  split_ifs with hfull hplace heligible hspan
  · exact .inl rfl
  · exact .inl rfl
  · exact .inl rfl
  · exact .inl rfl
  · cases a.correlation.rules.evaluateJoin alarm a.group.alarms a.correlation.topology with
    | none => exact .inl rfl
    | some rule =>
      have hfree : ∀ groupId, a.correlation.alarmIndex alarm.id ≠ some (some groupId) := by
        intro groupId
        rw [not_not.mp hplace]
        simp
      exact .inr ⟨rule, ⟨hhere, hopen, not_le.mp hfull, by simpa [withinGroupSpan] using hspan, hfree, hvisible⟩, rfl⟩

theorem admit_continued {a : Admission} (h : a.correlation.Coherent) (hhere : a.group ∈ a.correlation.groups) (hopen : a.group.state = .opened)
    (hvisible : alarm.state ≠ .suppressed) : Continued a.correlation a.group (admitCandidate a alarm).correlation (admitCandidate a alarm).group := by
  rcases admitCandidate_cases a hhere hopen hvisible with hsame | ⟨rule, hfits, hjoined⟩
  · rw [hsame]
    exact .refl h hhere hopen
  · rw [hjoined]
    exact (h.joinGroup hfits rule).1

theorem foldl_admit_continued {a : Admission} {candidates : List CorrelatedAlarm} (h : a.correlation.Coherent) (hhere : a.group ∈ a.correlation.groups)
    (hopen : a.group.state = .opened) (hvisible : ∀ x ∈ candidates, x.state ≠ .suppressed) :
    Continued a.correlation a.group (candidates.foldl admitCandidate a).correlation (candidates.foldl admitCandidate a).group := by
  induction candidates generalizing a with
  | nil => exact .refl h hhere hopen
  | cons x rest ih =>
    have hstep := admit_continued h hhere hopen (hvisible x List.mem_cons_self)
    exact hstep.trans (ih hstep.coherent hstep.here hstep.opened fun y hy => hvisible y (List.mem_cons_of_mem _ hy))

theorem reconcilePass_continued (localeCompare : Text → Text → ℤ) (h : c.Coherent) (hhere : g ∈ c.groups) (hopen : g.state = .opened) :
    Continued c g (reconcilePass localeCompare c g).correlation (reconcilePass localeCompare c g).group :=
  foldl_admit_continued (a := ⟨c, g, [], false⟩) h hhere hopen fun x hx => h.waiting x ((List.mem_insertionSort _).mp hx)

theorem reconcileLoop_continued (fuel : ℕ) (h : c.Coherent) (hhere : g ∈ c.groups) (hopen : g.state = .opened) :
    Continued c g (reconcileLoop localeCompare fuel c g).1 (reconcileLoop localeCompare fuel c g).2.1 := by
  induction fuel generalizing c g with
  | zero => exact .refl h hhere hopen
  | succ fuel ih =>
    have hpass := reconcilePass_continued localeCompare h hhere hopen
    rw [reconcileLoop]
    dsimp only
    split_ifs
    · exact hpass.trans (ih hpass.coherent hpass.here hpass.opened)
    · exact hpass
    · exact .refl h hhere hopen

theorem reconcilePending_continued (localeCompare : Text → Text → ℤ) (h : c.Coherent) (hhere : g ∈ c.groups) (hopen : g.state = .opened) :
    Continued c g (c.reconcilePending localeCompare g).1 (c.reconcilePending localeCompare g).2.1 := reconcileLoop_continued _ h hhere hopen

/-! ### The retention caps -/

structure Shrunk (c c' : Correlation) : Prop where
  setup : c'.setup = c.setup
  groups : c'.groups.Sublist c.groups
  pending : c'.pending.Sublist c.pending

theorem Shrunk.refl (c : Correlation) : Shrunk c c := ⟨rfl, .refl _, .refl _⟩

theorem Shrunk.trans (h : Shrunk c c') (h' : Shrunk c' c'') : Shrunk c c'' :=
  ⟨h'.setup.trans h.setup, h'.groups.trans h.groups, h'.pending.trans h.pending⟩

section
variable (h : c'.setup = c.setup)
include h

theorem setup_options : c'.options = c.options := congrArg (·.1) h

theorem setup_topology : c'.topology = c.topology := congrArg (·.2.1) h

theorem setup_rules : c'.rules = c.rules := congrArg (·.2.2.1) h

theorem setup_policy : c'.suppressionPolicy = c.suppressionPolicy := congrArg (·.2.2.2) h

end

theorem Coherent.shrunk (h : c.Coherent) (hshrunk : Shrunk c c') (htracked : c'.Tracked) : c'.Coherent where
  toTracked := htracked
  settled g hg := by
    rw [setup_policy hshrunk.setup, setup_topology hshrunk.setup]
    exact h.settled g (hshrunk.groups.subset hg)
  waiting a ha := h.waiting a (hshrunk.pending.subset ha)

theorem evictGroup_shrunk (c : Correlation) (g : AlarmGroup) : Shrunk c (c.evictGroup g).1 := ⟨rfl, List.filter_sublist, .refl _⟩

variable {l : List AlarmGroup}

theorem evictClosed_eq (clock : Clock) (c : Correlation) (hl : ∀ g ∈ l, g.state = .closed) : evictClosed c l = evictAny clock c l := by
  induction l generalizing c with
  | nil => rfl
  | cons g later ih =>
    have hclosed : g.closeGroup clock .evicted = (g, []) := by
      unfold AlarmGroup.closeGroup
      rw [if_pos (hl g List.mem_cons_self)]
    rw [evictClosed, evictAny, hclosed]
    dsimp only
    rw [ih _ fun x hx => hl x (List.mem_cons_of_mem _ hx)]
    simp

theorem evictAny_cons_of_over {later : List AlarmGroup} (hover : c.options.maxGroups < c.groups.length) :
    (evictAny clock c (g :: later)).1 = (evictAny clock (c.evictGroup (g.closeGroup clock .evicted).1).1 later).1 := by
  rw [evictAny, if_neg (not_le.mpr hover)]

structure Lists (c : Correlation) (l : List AlarmGroup) : Prop where
  here : ∀ g ∈ l, g ∈ c.groups
  nodup : (l.map (·.id)).Nodup

theorem Lists.later {later : List AlarmGroup} (h : c.Lists (g :: later)) : (c.evictGroup (g.closeGroup clock .evicted).1).1.Lists later := by
  obtain ⟨hnew, hlater⟩ := List.nodup_cons.mp h.nodup
  refine ⟨fun x hx => List.mem_filter.mpr ⟨h.here x (List.mem_cons_of_mem _ hx), ?_⟩, hlater⟩
  have hother : x.id ≠ g.id := fun hsame => hnew (List.mem_map.mpr ⟨x, hx, hsame⟩)
  rw [(AlarmGroup.closeGroup_alike clock .evicted g).id]
  simpa using hother

theorem evictAny_shrunk (clock : Clock) (h : c.Coherent) (hl : c.Lists l) : (evictAny clock c l).1.Coherent ∧ Shrunk c (evictAny clock c l).1 := by
  induction l generalizing c with
  | nil => exact ⟨h, .refl c⟩
  | cons g later ih =>
    by_cases hfits : c.groups.length ≤ c.options.maxGroups
    · rw [evictAny, if_pos hfits]
      exact ⟨h, .refl c⟩
    · have hshrunk := evictGroup_shrunk c (g.closeGroup clock .evicted).1
      have htracked := h.toTracked.evictGroup (hl.here g List.mem_cons_self) (AlarmGroup.closeGroup_alike clock .evicted g)
      obtain ⟨hcoherent, hrest⟩ := ih (h.shrunk hshrunk htracked) hl.later
      rw [evictAny_cons_of_over (not_le.mp hfits)]
      exact ⟨hcoherent, hshrunk.trans hrest⟩

theorem evictAny_length (clock : Clock) (h : c.Coherent) (hl : c.Lists l) :
    (evictAny clock c l).1.groups.length ≤ max c.options.maxGroups (c.groups.length - l.length) := by
  induction l generalizing c with
  | nil => exact le_max_right _ _
  | cons g later ih =>
    by_cases hfits : c.groups.length ≤ c.options.maxGroups
    · rw [evictAny, if_pos hfits]
      exact hfits.trans (le_max_left _ _)
    · have hhere := hl.here g List.mem_cons_self
      have halike := AlarmGroup.closeGroup_alike clock .evicted g
      have hshrunk := evictGroup_shrunk c (g.closeGroup clock .evicted).1
      have hcoherent := h.shrunk hshrunk (h.toTracked.evictGroup hhere halike)
      have hless : (c.evictGroup (g.closeGroup clock .evicted).1).1.groups.length = c.groups.length - 1 := by
        show (c.groups.filter fun old => old.id ≠ (g.closeGroup clock .evicted).1.id).length = _
        rw [halike.id]
        exact length_filter_key h.groupIds hhere
      have hrest := ih hcoherent hl.later
      rw [evictAny_cons_of_over (not_le.mp hfits), List.length_cons]
      refine hrest.trans (max_le_max le_rfl ?_)
      omega

theorem Coherent.lists_oldestFirst (h : c.Coherent) (hl : l.Sublist c.groups) : c.Lists (oldestFirst l) := by
  have hperm : (oldestFirst l).Perm l := List.perm_insertionSort _ l
  exact ⟨fun g hg => hl.subset (hperm.mem_iff.mp hg), (hperm.map _).nodup_iff.mpr (h.groupIds.sublist (hl.map _))⟩

theorem Coherent.lists_closed (h : c.Coherent) : c.Lists (oldestFirst (c.groups.filter fun g => g.state = .closed)) :=
  h.lists_oldestFirst List.filter_sublist

theorem evictClosed_oldestFirst (clock : Clock) (c : Correlation) : evictClosed c (oldestFirst (c.groups.filter fun g => g.state = .closed)) =
    evictAny clock c (oldestFirst (c.groups.filter fun g => g.state = .closed)) := by
  refine evictClosed_eq clock c fun g hg => ?_
  simpa using (List.mem_filter.mp ((List.mem_insertionSort _).mp hg)).2

theorem enforceGroupCap_shrunk (clock : Clock) (h : c.Coherent) : (c.enforceGroupCap clock).1.Coherent ∧ Shrunk c (c.enforceGroupCap clock).1 ∧
    (c.enforceGroupCap clock).1.groups.length ≤ c.options.maxGroups := by
  obtain ⟨hcoherent, hshrunk⟩ := evictAny_shrunk clock h h.lists_closed
  have hall := hcoherent.lists_oldestFirst (List.Sublist.refl _)
  obtain ⟨hcoherent', hshrunk'⟩ := evictAny_shrunk clock hcoherent hall
  have hlength := evictAny_length clock hcoherent hall
  unfold enforceGroupCap
  rw [evictClosed_oldestFirst clock]
  refine ⟨hcoherent', hshrunk.trans hshrunk', hlength.trans ?_⟩
  rw [setup_options hshrunk.setup]
  simp [oldestFirst]

/-! ### New groups -/

def founded (c : Correlation) (alarm peer : CorrelatedAlarm) (rule : CorrelationRule) (groupId : Text) : AlarmGroup :=
  (((newGroup alarm peer rule groupId).electRootCause c.topology).applySuppression c.suppressionPolicy c.topology).1

/-- The state with the new group before the cap is enforced. -/
def withFounded (c : Correlation) (alarm peer : CorrelatedAlarm) (rule : CorrelationRule) (groupId : Text) : Correlation :=
  { (((c.index alarm.id (some (some groupId))).index peer.id (some (some groupId))).removeFromPending peer.id).removeFromPending alarm.id with
    groups := c.groups ++ [c.founded alarm peer rule groupId] }

theorem withFounded_policy : (c.withFounded alarm peer rule groupId).suppressionPolicy = c.suppressionPolicy := by
  unfold withFounded
  rfl

theorem withFounded_topology : (c.withFounded alarm peer rule groupId).topology = c.topology := by
  unfold withFounded
  rfl

theorem formGroup_cases (clock : Clock) (c : Correlation) (alarm peer : CorrelatedAlarm) (rule : CorrelationRule) (groupId : Text) :
    (∃ e, c.formGroup clock alarm peer rule groupId = .error e ∧ c.getGroup groupId ≠ none) ∨
      c.getGroup groupId = none ∧ ∃ effects, c.formGroup clock alarm peer rule groupId =
        .ok (((c.withFounded alarm peer rule groupId).enforceGroupCap clock).1,
          (((c.withFounded alarm peer rule groupId).enforceGroupCap clock).1.getGroup groupId).getD
            ((c.founded alarm peer rule groupId).closeGroup clock .evicted).1, effects) := by
  unfold formGroup
  split_ifs with hused
  · left
    refine ⟨_, rfl, fun hnone => ?_⟩
    rw [hnone] at hused
    cases hused
  · exact .inr ⟨by simpa using hused, _, rfl⟩

theorem founded_alike (c : Correlation) (alarm peer : CorrelatedAlarm) (rule : CorrelationRule) (groupId : Text) :
    Alike (newGroup alarm peer rule groupId) (c.founded alarm peer rule groupId) :=
  (AlarmGroup.electRootCause_alike c.topology _).trans (AlarmGroup.applySuppression_alike ..)

/-- A new group that is there after the cap was enforced is as it was formed. -/
theorem Coherent.founded_kept (h : (c.withFounded alarm peer rule groupId).Coherent)
    (hlast : ((c.withFounded alarm peer rule groupId).enforceGroupCap clock).1.getGroup groupId = some g) :
    g ∈ ((c.withFounded alarm peer rule groupId).enforceGroupCap clock).1.groups ∧ g = c.founded alarm peer rule groupId := by
  obtain ⟨hkept, hshrunk, -⟩ := enforceGroupCap_shrunk clock h
  obtain ⟨hhere, hid⟩ := hkept.getGroup_iff.mp hlast
  have hfounded : c.founded alarm peer rule groupId ∈ (c.withFounded alarm peer rule groupId).groups :=
    List.mem_append_right _ (List.mem_singleton.mpr rfl)
  exact ⟨hhere, key_injective h.groupIds (hshrunk.groups.subset hhere) hfounded (hid.trans (founded_alike ..).id.symm)⟩

theorem founded_state (c : Correlation) (alarm peer : CorrelatedAlarm) (rule : CorrelationRule) (groupId : Text) :
    (c.founded alarm peer rule groupId).state = .opened := by
  refine (applySuppression_state ..).trans ?_
  rw [AlarmGroup.electRootCause_state]
  rfl

structure Pairs (c : Correlation) (alarm peer : CorrelatedAlarm) : Prop where
  waits : peer ∈ c.pending
  eligible : peer.eligible = true
  new : c.alarmIndex alarm.id = none
  visible : alarm.state ≠ .suppressed
  span : |alarm.timestamp - peer.timestamp| ≤ c.options.maxGroupSpanMs

theorem Coherent.founded_settled (h : c.Coherent) (hpairs : Pairs c alarm peer) (rule : CorrelationRule) (groupId : Text) :
    (c.founded alarm peer rule groupId).Sound c.options ∧
      (c.founded alarm peer rule groupId).Settled c.suppressionPolicy c.topology ∧
      ∀ id, id ∈ (c.founded alarm peer rule groupId).alarmIds ↔ id = alarm.id ∨ id = peer.id := by
  obtain ⟨first, last, hwho, -, halarms, hids, -⟩ := AlarmGroup.newGroup_members alarm peer rule groupId
  have hne : alarm.id ≠ peer.id := by
    intro hsame
    have hplace := h.place_of_pending hpairs.waits
    rw [← hsame, hpairs.new] at hplace
    cases hplace
  have hsound := AlarmGroup.newGroup_sound rule groupId hne hpairs.span
  have hmember : ∀ a, a ∈ (newGroup alarm peer rule groupId).alarms ↔ a = alarm ∨ a = peer := by
    intro a
    rw [halarms]
    rcases hwho with ⟨rfl, rfl⟩ | ⟨rfl, rfl⟩ <;> simp [or_comm]
  have hvisible : ∀ a ∈ (newGroup alarm peer rule groupId).alarms, a.state ≠ .suppressed := by
    intro a ha
    rcases (hmember a).mp ha with rfl | rfl
    · exact hpairs.visible
    · exact h.waiting _ hpairs.waits
  have halike := AlarmGroup.electRootCause_alike c.topology (newGroup alarm peer rule groupId)
  have helected := hsound.alike halike
  refine ⟨hsound.alike (founded_alike c alarm peer rule groupId), ?_, ?_⟩
  · refine AlarmGroup.applySuppression_settled ?_ (helected.ids ▸ helected.nodup) ?_ ?_
    · rw [AlarmGroup.electRootCause_state]
      rfl
    · exact AlarmGroup.electRootCause_recorded (AlarmGroup.recorded_of_visible hvisible rfl)
    · exact AlarmGroup.electRootCause_rooted ⟨peer, (hmember peer).mpr (.inr rfl), hpairs.eligible⟩
  · intro id
    rw [(founded_alike c alarm peer rule groupId).alarmIds, hids]
    rcases hwho with ⟨rfl, rfl⟩ | ⟨rfl, rfl⟩ <;> simp [or_comm]

theorem Coherent.admits_withFounded (h : c.Coherent) (hpairs : Pairs c alarm peer) (rule : CorrelationRule) (hfree : c.getGroup groupId = none) :
    c.Admits [alarm.id, peer.id] (c.founded alarm peer rule groupId) (c.withFounded alarm peer rule groupId) := by
  obtain ⟨hsound, -, halarmIds⟩ := h.founded_settled hpairs rule groupId
  have hid : (c.founded alarm peer rule groupId).id = groupId := (founded_alike c alarm peer rule groupId).id
  have hadmits := h.toTracked.admits_form hpairs.waits hpairs.new (by rw [hid]; exact hfree) halarmIds hsound
  rw [hid] at hadmits
  exact hadmits

theorem Coherent.withFounded (h : c.Coherent) (hpairs : Pairs c alarm peer) (rule : CorrelationRule) (hfree : c.getGroup groupId = none) :
    (c.withFounded alarm peer rule groupId).Coherent ∧ (c.withFounded alarm peer rule groupId).pending.Sublist c.pending := by
  obtain ⟨-, hsettled, -⟩ := h.founded_settled hpairs rule groupId
  have hadmits := h.admits_withFounded hpairs rule hfree
  refine ⟨⟨h.toTracked.admits hadmits, ?_, ?_⟩, ?_⟩
  · intro g hg
    rw [withFounded_policy, withFounded_topology]
    rcases (hadmits.groups g).mp hg with rfl | ⟨hg, -⟩
    · exact hsettled
    · exact h.settled g hg
  · intro a ha
    rw [hadmits.pending] at ha
    exact h.waiting a (List.mem_filter.mp ha).1
  · rw [hadmits.pending]
    exact List.filter_sublist

/-! ### Ingestion -/

theorem raised_visible (input : CorrelatedAlarm) : (raised input).state ≠ .suppressed := by
  unfold raised
  split_ifs with h
  · exact fun h' => by cases h'
  · exact h

theorem mem_openGroups (h : g ∈ c.openGroups) : g ∈ c.groups ∧ g.state = .opened := by
  have hopen := List.mem_filter.mp ((List.mem_insertionSort _).mp h)
  simpa using hopen

theorem joinable_fits (hjoin : c.joinable alarm = some (g, rule)) (hnew : c.alarmIndex alarm.id = none) (hvisible : alarm.state ≠ .suppressed) :
    Fits c alarm g ∧ c.rules.evaluateJoin alarm g.alarms c.topology = some rule := by
  obtain ⟨x, hx, hsome⟩ := List.exists_of_findSome?_eq_some hjoin
  split_ifs at hsome with hfull hspan
  obtain ⟨r, hrule, hpair⟩ := Option.map_eq_some_iff.mp hsome
  obtain ⟨rfl, rfl⟩ := Prod.mk.inj hpair
  obtain ⟨hhere, hopen⟩ := mem_openGroups hx
  exact ⟨⟨hhere, hopen, not_le.mp hfull, by simpa [withinGroupSpan] using hspan, by simp [hnew], hvisible⟩, hrule⟩

theorem pairable_pairs (hpair : c.pairable alarm = some (peer, rule)) (hnew : c.alarmIndex alarm.id = none) (hvisible : alarm.state ≠ .suppressed) :
    Pairs c alarm peer ∧ c.rules.evaluatePair alarm peer c.topology = some rule := by
  obtain ⟨x, hx, hsome⟩ := List.exists_of_findSome?_eq_some hpair
  split_ifs at hsome with heligible hspan
  obtain ⟨r, hrule, hpair⟩ := Option.map_eq_some_iff.mp hsome
  obtain ⟨rfl, rfl⟩ := Prod.mk.inj hpair
  exact ⟨⟨List.mem_reverse.mp hx, by simpa using heligible, hnew, hvisible, not_lt.mp hspan⟩, hrule⟩

theorem prunePending_shrunk (c : Correlation) (referenceMs : ℚ) :
    Shrunk c (c.prunePending referenceMs).1 ∧ (c.prunePending referenceMs).1.pending.length ≤ c.options.maxPendingAlarms := by
  refine ⟨⟨rfl, .refl _, (List.drop_sublist _ _).trans List.filter_sublist⟩, ?_⟩
  show (List.drop _ _).length ≤ _
  rw [List.length_drop]
  omega

inductive Ingested (localeCompare : Text → Text → ℤ) (clock : Clock) (c : Correlation) (alarm : CorrelatedAlarm) (groupId : Text) :
    Correlation → Except Text IngestResult → Prop
  | joined {g g' : AlarmGroup} {rule : CorrelationRule} {c' : Correlation} (hfits : Fits c alarm g)
      (hrule : c.rules.evaluateJoin alarm g.alarms c.topology = some rule) (hgone : Continued c g c' g')
      (hplace : c'.alarmIndex alarm.id = some (some g.id)) :
      Ingested localeCompare clock c alarm groupId c' (.ok (ingestResult alarm .joinedGroup g' rule))
  | refused {e : Text} : Ingested localeCompare clock c alarm groupId c (.error e)
  | evicted {peer : CorrelatedAlarm} {g : AlarmGroup} {rule : CorrelationRule} {c' : Correlation} (hpairs : Pairs c alarm peer)
      (hfree : c.getGroup groupId = none) (hcap : c' = ((c.withFounded alarm peer rule groupId).enforceGroupCap clock).1)
      (hid : g.id = groupId) (hgone : c'.getGroup groupId = none) :
      Ingested localeCompare clock c alarm groupId c' (.ok (ingestResult alarm .formedGroup g rule))
  | formed {peer : CorrelatedAlarm} {g g' : AlarmGroup} {rule : CorrelationRule} {c' c'' : Correlation} (hpairs : Pairs c alarm peer)
      (hrule : c.rules.evaluatePair alarm peer c.topology = some rule)
      (hfree : c.getGroup groupId = none) (hcap : c' = ((c.withFounded alarm peer rule groupId).enforceGroupCap clock).1)
      (hkept : c'.getGroup groupId = some g) (hg : g = c.founded alarm peer rule groupId) (hgone : Continued c' g c'' g') :
      Ingested localeCompare clock c alarm groupId c'' (.ok (ingestResult alarm .formedGroup g' rule))
  | standalone (hnew : c.alarmIndex alarm.id = none) :
      Ingested localeCompare clock c alarm groupId
        (({ c.index alarm.id (some none) with pending := c.pending ++ [alarm] } : Correlation).prunePending alarm.timestamp).1
        (.ok { alarmId := alarm.id, action := .standalone })

theorem Coherent.ingested (h : c.Coherent) (input : CorrelatedAlarm) (hnew : c.alarmIndex (raised input).id = none) :
    Ingested localeCompare clock c (raised input) groupId (c.ingest localeCompare clock input groupId).1 (c.ingest localeCompare clock input groupId).2.2 := by
  have hvisible := raised_visible input
  unfold ingest
  simp only [hnew]
  generalize raised input = alarm at *
  cases hjoin : c.joinable alarm with
  | some found =>
    obtain ⟨g, rule⟩ := found
    obtain ⟨hfits, hrule⟩ := joinable_fits hjoin hnew hvisible
    obtain ⟨hstep, hplace⟩ := h.joinGroup hfits rule
    have hrest := reconcilePending_continued localeCompare hstep.coherent hstep.here hstep.opened
    exact .joined hfits hrule (hstep.trans hrest) (hrest.grown.kept _ _ hplace)
  | none =>
    cases hpair : c.pairable alarm with
    | none => exact .standalone hnew
    | some found =>
      obtain ⟨peer, rule⟩ := found
      obtain ⟨hpairs, hrule⟩ := pairable_pairs hpair hnew hvisible
      dsimp only
      rcases formGroup_cases clock c alarm peer rule groupId with ⟨e, herror, -⟩ | ⟨hfree, effects, hok⟩
      · rw [herror]
        exact .refused
      · rw [hok]
        dsimp only
        obtain ⟨hcoherent, -⟩ := h.withFounded hpairs rule hfree
        have hkept := (enforceGroupCap_shrunk clock hcoherent).1
        cases hlast : (((c.withFounded alarm peer rule groupId).enforceGroupCap clock).1.getGroup groupId) with
        | none =>
          have hid : ((c.founded alarm peer rule groupId).closeGroup clock .evicted).1.id = groupId :=
            (AlarmGroup.closeGroup_alike ..).id.trans (founded_alike ..).id
          exact .evicted hpairs hfree rfl hid hlast
        | some g =>
          obtain ⟨hhere, hg⟩ := hcoherent.founded_kept hlast
          have hopen : g.state = .opened := hg ▸ founded_state ..
          exact .formed hpairs hrule hfree rfl hlast hg (reconcilePending_continued localeCompare hkept hhere hopen)

theorem Coherent.ingest (h : c.Coherent) (input : CorrelatedAlarm) : (c.ingest localeCompare clock input groupId).1.Coherent := by
  cases hplace : c.alarmIndex (raised input).id with
  | some place =>
    unfold Correlation.ingest
    simp only [hplace]
    exact h
  | none =>
    have hways : Ingested localeCompare clock c (raised input) groupId _ _ := h.ingested input hplace
    generalize (c.ingest localeCompare clock input groupId).1 = after at hways ⊢
    generalize (c.ingest localeCompare clock input groupId).2.2 = result at hways
    cases hways with
    | joined hfits hrule hgone hplace => exact hgone.coherent
    | refused => exact h
    | evicted hpairs hfree hcap hid hgone =>
      rw [hcap]
      exact (enforceGroupCap_shrunk clock (h.withFounded hpairs _ hfree).1).1
    | formed hpairs hrule hfree hcap hkept hg hgone => exact hgone.coherent
    | standalone hnew =>
      have hwait : ({ c.index (raised input).id (some none) with pending := c.pending ++ [raised input] } : Correlation).Coherent := by
        refine ⟨h.wait hnew, h.settled, ?_⟩
        intro a ha
        rcases List.mem_append.mp ha with ha | ha
        · exact h.waiting a ha
        · rw [List.mem_singleton.mp ha]
          exact raised_visible input
      exact hwait.shrunk (prunePending_shrunk _ _).1 (hwait.prunePending _)

end Correlation

end OxScada.Alarms
