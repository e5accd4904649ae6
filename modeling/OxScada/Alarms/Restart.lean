import OxScada.Alarms.Safety
import OxScada.Alarms.Reports

/-! Restarts. An engine that takes in what another one exported has the same groups, pending alarms and counters, and
does the same from then on. It does not know which alarms were suppressed before, so it counts them again when they are
suppressed again. -/

namespace OxScada.Alarms
open OxScada.Bytes

variable {localeCompare : Text → Text → ℤ} {clock : Clock} {options : CorrelationEngineOptions} {topology : EquipmentTopology}
  {rules : CorrelationRulesEngine} {request request' : PolicyRequest}

/-! ### Counting -/

/-- What is counted, and which alarms have been counted as suppressed. -/
structure Tally where
  metrics : CorrelationCounters
  countedAlarmIds : Finset Text

def Books.tally (b : Books) : Tally := ⟨b.metrics, b.suppressionCountedAlarmIds⟩

namespace Tally

def add (t : Tally) (effect : EngineEffect) : Tally where
  metrics :=
    match effect with
    | .alarmIngested => { t.metrics with alarmsIngested := t.metrics.alarmsIngested + 1 }
    | .alarmSuppressed _ alarmId _ =>
      if alarmId ∈ t.countedAlarmIds then t.metrics else { t.metrics with alarmsSuppressed := t.metrics.alarmsSuppressed + 1 }
    | .alarmsUnsuppressed _ alarmIds => { t.metrics with alarmsUnsuppressed := t.metrics.alarmsUnsuppressed + alarmIds.length }
    | .groupCreated _ => { t.metrics with groupsCreated := t.metrics.groupsCreated + 1 }
    | .groupClosed _ => { t.metrics with groupsClosed := t.metrics.groupsClosed + 1 }
    | _ => t.metrics
  countedAlarmIds := effect.counted t.countedAlarmIds

end Tally

theorem Books.tally_record (clock : Clock) (b : Books) (effect : EngineEffect) : (b.record clock effect).tally = b.tally.add effect := by
  have hcounted := Books.record_counted clock b effect
  cases effect with
  | alarmSuppressed groupId alarmId rootCauseAlarmId =>
    unfold Books.tally Tally.add
    rw [hcounted]
    show (⟨(b.countSuppressed alarmId).metrics, _⟩ : Tally) = _
    unfold Books.countSuppressed
    dsimp only
    split_ifs <;> rfl
  | _ => rfl

theorem Books.tally_recordAll (clock : Clock) (b : Books) (effects : List EngineEffect) : (b.recordAll clock effects).tally = effects.foldl Tally.add b.tally := by
  induction effects generalizing b with
  | nil => rfl
  | cons effect later ih =>
    have hlater := ih (b.record clock effect)
    rw [Books.tally_record] at hlater
    exact hlater

/-- Some alarm is suppressed that has been counted, has been forgotten as counted, and has not been evicted since. -/
def suppressesAgain (forgotten : Finset Text) : List EngineEffect → Prop
  | [] => False
  | .alarmSuppressed _ alarmId _ :: later => alarmId ∈ forgotten ∨ suppressesAgain forgotten later
  | .groupEvicted _ alarmIds :: later => suppressesAgain (forgotten.filter fun id => id ∉ alarmIds) later
  | _ :: later => suppressesAgain forgotten later

/-- The second tally has forgotten alarms that were counted, and has counted so many alarms again. -/
structure Tally.Behind (forgotten : Finset Text) (again : ℕ) (t t' : Tally) : Prop where
  metrics : t'.metrics = { t.metrics with alarmsSuppressed := t.metrics.alarmsSuppressed + again }
  counted : ∀ id, id ∈ t.countedAlarmIds ↔ id ∈ t'.countedAlarmIds ∨ id ∈ forgotten

variable {forgotten : Finset Text} {again : ℕ} {t t' : Tally}

theorem Tally.Behind.run (h : Tally.Behind forgotten again t t') (hnew : ∀ id ∈ forgotten, id ∉ t'.countedAlarmIds) (effects : List EngineEffect) :
    ∃ again', again ≤ again' ∧ (again' = again ↔ ¬ suppressesAgain forgotten effects) ∧
      (effects.foldl Tally.add t').metrics =
        { (effects.foldl Tally.add t).metrics with alarmsSuppressed := (effects.foldl Tally.add t).metrics.alarmsSuppressed + again' } := by
  induction effects generalizing forgotten again t t' with
  | nil => exact ⟨again, le_rfl, by simp [suppressesAgain], h.metrics⟩
  | cons effect later ih =>
    rw [List.foldl_cons, List.foldl_cons]
    cases effect with
    | alarmSuppressed groupId alarmId rootId =>
      by_cases hforgotten : alarmId ∈ forgotten
      · -- The alarm is counted a second time.
        have hfirst : alarmId ∈ t.countedAlarmIds := (h.counted alarmId).mpr (.inr hforgotten)
        have hbehind : Tally.Behind (forgotten.erase alarmId) (again + 1) (t.add (.alarmSuppressed groupId alarmId rootId))
            (t'.add (.alarmSuppressed groupId alarmId rootId)) := by
          refine ⟨?_, fun id => ?_⟩
          · simp only [Tally.add, if_pos hfirst, if_neg (hnew alarmId hforgotten), h.metrics]
            rfl
          · simp only [Tally.add, EngineEffect.counted, Finset.mem_insert, Finset.mem_erase, h.counted]
            by_cases hself : id = alarmId
            · simp [hself]
            · simp [hself]
        obtain ⟨again', hle, -, hmetrics⟩ := ih hbehind (by
          intro id hid
          obtain ⟨hne, hid⟩ := Finset.mem_erase.mp hid
          simp only [Tally.add, EngineEffect.counted, Finset.mem_insert, not_or]
          exact ⟨hne, hnew id hid⟩)
        refine ⟨again', by omega, ?_, hmetrics⟩
        refine ⟨fun hsame => by omega, fun hnone => absurd (.inl hforgotten) hnone⟩
      · have hsame : alarmId ∈ t.countedAlarmIds ↔ alarmId ∈ t'.countedAlarmIds := by simp [h.counted, hforgotten]
        have hbehind : Tally.Behind forgotten again (t.add (.alarmSuppressed groupId alarmId rootId)) (t'.add (.alarmSuppressed groupId alarmId rootId)) := by
          refine ⟨?_, fun id => ?_⟩
          · simp only [Tally.add, hsame, h.metrics]
            split_ifs
            · rfl
            · simp only [Nat.add_right_comm]
          · simp only [Tally.add, EngineEffect.counted, Finset.mem_insert, h.counted, or_assoc]
        obtain ⟨again', hle, hiff, hmetrics⟩ := ih hbehind (by
          intro id hid
          simp only [Tally.add, EngineEffect.counted, Finset.mem_insert, not_or]
          exact ⟨fun hself => hforgotten (hself ▸ hid), hnew id hid⟩)
        refine ⟨again', hle, hiff.trans (not_congr ?_), hmetrics⟩
        exact (or_iff_right hforgotten).symm
    | groupEvicted groupId alarmIds =>
      have hbehind : Tally.Behind (forgotten.filter fun id => id ∉ alarmIds) again (t.add (.groupEvicted groupId alarmIds))
          (t'.add (.groupEvicted groupId alarmIds)) := by
        refine ⟨h.metrics, fun id => ?_⟩
        simp only [Tally.add, EngineEffect.counted, Finset.mem_filter, h.counted, or_and_right]
      exact ih hbehind fun id hid hmem => hnew id (Finset.mem_filter.mp hid).1 (Finset.mem_filter.mp hmem).1
    | alarmIngested => exact ih ⟨by simp only [Tally.add, h.metrics], h.counted⟩ hnew
    | alarmsUnsuppressed groupId alarmIds => exact ih ⟨by simp only [Tally.add, h.metrics], h.counted⟩ hnew
    | groupCreated group => exact ih ⟨by simp only [Tally.add, h.metrics], h.counted⟩ hnew
    | groupClosed group => exact ih ⟨by simp only [Tally.add, h.metrics], h.counted⟩ hnew
    | _ => exact ih ⟨h.metrics, h.counted⟩ hnew

/-! ### Later operations -/

/-- The operations one after the other, with all that they emit and return. -/
def Correlation.performAll (localeCompare : Text → Text → ℤ) (c : Correlation) :
    List (Clock × AlarmOp) → Correlation × List EngineEffect × List OpResult
  | [] => (c, [], [])
  | (clock, op) :: later =>
    let (c, effects, result) := c.perform localeCompare clock op
    let (c, effects', results) := performAll localeCompare c later
    (c, effects ++ effects', result :: results)

section
variable {c : Correlation} (h : c.Coherent)
include h

theorem Correlation.Coherent.perform_reports (op : AlarmOp) : c.Reports (c.perform localeCompare clock op).2.1 (c.perform localeCompare clock op).1 := by
  cases op with
  | ingest input groupId => exact h.ingest_reports input
  | alarmCleared alarmId actor => exact h.alarmCleared_reports alarmId actor
  | alarmAcknowledged alarmId actor => exact h.alarmAcknowledged_reports alarmId actor
  | setSuppressionPolicy request => exact h.setSuppressionPolicy_reports request

theorem Correlation.Coherent.performAll_reports (later : List (Clock × AlarmOp)) :
    c.Reports (c.performAll localeCompare later).2.1 (c.performAll localeCompare later).1 := by
  induction later generalizing c with
  | nil => exact .refl c
  | cons action later ih => exact (h.perform_reports action.2).trans (ih (h.perform action.2))

end

namespace AlarmCorrelationEngine

variable {e e₀ fresh : AlarmCorrelationEngine}

def performAll (localeCompare : Text → Text → ℤ) (e : AlarmCorrelationEngine) : List (Clock × AlarmOp) → AlarmCorrelationEngine × List OpResult
  | [] => (e, [])
  | (clock, op) :: later =>
    let (e, result) := e.performAlarm localeCompare clock op
    let (e, results) := performAll localeCompare e later
    (e, result :: results)

theorem performAll_eq (e : AlarmCorrelationEngine) (later : List (Clock × AlarmOp)) :
    (e.performAll localeCompare later).1.toCorrelation = (e.toCorrelation.performAll localeCompare later).1 ∧
      (e.performAll localeCompare later).2 = (e.toCorrelation.performAll localeCompare later).2.2 ∧
      (e.performAll localeCompare later).1.books.tally = (e.toCorrelation.performAll localeCompare later).2.1.foldl Tally.add e.books.tally := by
  induction later generalizing e with
  | nil => exact ⟨rfl, rfl, rfl⟩
  | cons action later ih =>
    obtain ⟨clock, op⟩ := action
    obtain ⟨hcore, hresults, htally⟩ := ih (e.performAlarm localeCompare clock op).1
    refine ⟨hcore, congrArg _ hresults, ?_⟩
    refine htally.trans ?_
    rw [Correlation.performAll, List.foldl_append]
    exact congrArg (fun t => List.foldl Tally.add t _) (Books.tally_recordAll clock e.books _)

/-! ### The books of a run -/

theorem perform_counted (h : e.toCorrelation.Coherent) (hcounted : e.toCorrelation.CountedIn e.books.suppressionCountedAlarmIds) (op : EngineOp) :
    (e.perform localeCompare clock op).toCorrelation.CountedIn (e.perform localeCompare clock op).books.suppressionCountedAlarmIds := by
  have hafter : ∀ {c : Correlation} {effects : List EngineEffect}, Correlation.Reports e.toCorrelation effects c →
      (e.after clock c effects).toCorrelation.CountedIn (e.after clock c effects).books.suppressionCountedAlarmIds := by
    intro c effects hreports
    have hall := hreports.counted _ hcounted
    rw [← Books.recordAll_counted clock] at hall
    exact hall
  cases op with
  | alarm op => exact hafter (h.perform_reports op)
  | sweep nowMs => exact hafter (h.sweep_reports _ _ nowMs)
  | editRules edit => exact hcounted
  | editEquipment edit => exact hafter (h.reconcileTopology_reports (edit.apply e.topology))
  | reconcileTopology => exact hafter (h.reconcileTopology_reports e.topology)
  | restart now =>
    intro g hg id hid
    change g ∈ (e.toCorrelation.hydrate e.groups e.pending).groups at hg
    rw [h.hydrate_self] at hg
    refine List.mem_toFinset.mpr (List.mem_flatMap.mpr ⟨g, hg, ?_⟩)
    rw [Correlation.recovered_eq (h.settled g hg) ⟨_, h.sound g hg⟩]
    exact hid

theorem Run.counted (hrun : Run localeCompare e₀ e) (hcreate : create options topology rules request = .ok e₀) :
    e.toCorrelation.Coherent ∧ e.toCorrelation.CountedIn e.books.suppressionCountedAlarmIds := by
  have hstart : e₀.toCorrelation.CountedIn e₀.books.suppressionCountedAlarmIds := by
    unfold create at hcreate
    split_ifs at hcreate
    obtain rfl := Except.ok.inj hcreate
    intro g hg
    cases hg
  refine hrun.invariant (P := fun e => e.toCorrelation.Coherent ∧ e.toCorrelation.CountedIn e.books.suppressionCountedAlarmIds)
    ⟨create_coherent hcreate, hstart⟩ ?_
  rintro s clock op ⟨hcoherent, hcounted⟩
  exact ⟨perform_coherent hcoherent op, perform_counted hcoherent hcounted op⟩

/-- An alarm and a group that nothing emitted names are as before. -/
theorem changes_emitted (hcreate : create options topology rules request = .ok e₀) (hrun : Run localeCompare e₀ e) (later : List (Clock × AlarmOp)) :
    Correlation.Confined (alarmsOf (e.toCorrelation.performAll localeCompare later).2.1)
      (groupsOf (e.toCorrelation.performAll localeCompare later).2.1) e.toCorrelation (e.performAll localeCompare later).1.toCorrelation := by
  have hcoherent := (hrun.counted hcreate).1
  rw [(performAll_eq e later).1]
  exact (hcoherent.performAll_reports later).confined

/-! ### The engine after a restart -/

theorem hydrate_correlation (h : e.toCorrelation.Coherent) (hsetup : fresh.toCorrelation.setup = e.toCorrelation.setup) (now : ℚ) :
    (fresh.hydrate e.exportState now).toCorrelation = e.toCorrelation := by
  have hstart : ({ fresh.toCorrelation with groups := [], pending := [], alarmIndex := fun _ => none } : Correlation) =
      { e.toCorrelation with groups := [], pending := [], alarmIndex := fun _ => none } := by
    dsimp only
    rw [Correlation.setup_options hsetup, Correlation.setup_topology hsetup, Correlation.setup_rules hsetup, Correlation.setup_policy hsetup]
  show fresh.toCorrelation.hydrate e.groups e.pending = e.toCorrelation
  unfold Correlation.hydrate
  rw [hstart]
  exact h.hydrate_self

theorem hydrate_counted (fresh : AlarmCorrelationEngine) (h : e.toCorrelation.Coherent) (now : ℚ) :
    (fresh.hydrate e.exportState now).books.suppressionCountedAlarmIds = (e.groups.flatMap (·.suppressedAlarmIds)).toFinset := by
  show (e.groups.flatMap fun g => (Correlation.recovered g).suppressedAlarmIds).toFinset = _
  ext id
  simp only [List.mem_toFinset, List.mem_flatMap]
  refine exists_congr fun g => and_congr_right fun hg => ?_
  rw [Correlation.recovered_eq (h.settled g hg) ⟨_, h.sound g hg⟩]

/-- The alarms that have been counted as suppressed and are not suppressed now. -/
def forgottenAlarmIds (e : AlarmCorrelationEngine) : Finset Text := e.books.suppressionCountedAlarmIds.filter fun id => id ∉ e.groups.flatMap (·.suppressedAlarmIds)

/-- An engine after a restart does what the other one does. It exports the same unless an alarm that has been counted
before is suppressed again. -/
theorem restart_transparent_iff (hcreate : create options topology rules request = .ok e₀) (hrun : Run localeCompare e₀ e)
    (hfresh : create e.options e.topology e.rules request' = .ok fresh) (hpolicy : fresh.suppressionPolicy = e.suppressionPolicy) (now : ℚ)
    (later : List (Clock × AlarmOp)) :
    (fresh.hydrate e.exportState now).exportState = e.exportState ∧
      (fresh.hydrate e.exportState now).toCorrelation = e.toCorrelation ∧
      ((fresh.hydrate e.exportState now).performAll localeCompare later).2 = (e.performAll localeCompare later).2 ∧
      (((fresh.hydrate e.exportState now).performAll localeCompare later).1.exportState = (e.performAll localeCompare later).1.exportState ↔
        ¬ suppressesAgain e.forgottenAlarmIds (e.toCorrelation.performAll localeCompare later).2.1) := by
  obtain ⟨hcoherent, hcounted⟩ := hrun.counted hcreate
  have hsetup : fresh.toCorrelation.setup = e.toCorrelation.setup := by
    unfold create at hfresh
    split_ifs at hfresh
    obtain rfl := Except.ok.inj hfresh
    unfold Correlation.setup
    rw [hpolicy]
  have hcore := hydrate_correlation hcoherent hsetup now
  have hids := hydrate_counted fresh hcoherent now
  have hbooks : (fresh.hydrate e.exportState now).books.metrics = e.books.metrics := rfl
  generalize fresh.hydrate e.exportState now = restarted at hcore hids hbooks ⊢
  obtain ⟨hcore₁, hresults₁, htally₁⟩ := performAll_eq restarted later
  obtain ⟨hcore₂, hresults₂, htally₂⟩ := performAll_eq e later
  rw [hcore] at hcore₁ hresults₁ htally₁
  have hbehind : Tally.Behind e.forgottenAlarmIds 0 e.books.tally restarted.books.tally := by
    refine ⟨hbooks, fun id => ?_⟩
    show id ∈ e.books.suppressionCountedAlarmIds ↔ id ∈ restarted.books.suppressionCountedAlarmIds ∨ id ∈ e.forgottenAlarmIds
    rw [hids, forgottenAlarmIds, Finset.mem_filter, List.mem_toFinset]
    constructor
    · intro hmem
      exact (em _).imp_right fun hvisible => ⟨hmem, hvisible⟩
    · rintro (hsuppressed | ⟨hmem, -⟩)
      · obtain ⟨g, hg, hid⟩ := List.mem_flatMap.mp hsuppressed
        exact hcounted g hg id hid
      · exact hmem
  obtain ⟨again, -, hiff, hmetrics⟩ := hbehind.run (by
    intro id hid hmem
    change id ∈ restarted.books.suppressionCountedAlarmIds at hmem
    rw [hids, List.mem_toFinset] at hmem
    exact (Finset.mem_filter.mp hid).2 hmem) (e.toCorrelation.performAll localeCompare later).2.1
  rw [← htally₁, ← htally₂] at hmetrics
  change (restarted.performAll localeCompare later).1.books.metrics = { (e.performAll localeCompare later).1.books.metrics with
    alarmsSuppressed := (e.performAll localeCompare later).1.books.metrics.alarmsSuppressed + again } at hmetrics
  have hexport : ∀ a b : AlarmCorrelationEngine, a.toCorrelation = b.toCorrelation → (a.exportState = b.exportState ↔ a.books.metrics = b.books.metrics) := by
    intro a b hsame
    have hgroups : a.groups = b.groups := congrArg Correlation.groups hsame
    have hpending : a.pending = b.pending := congrArg Correlation.pending hsame
    unfold exportState
    rw [hgroups, hpending]
    simp
  refine ⟨(hexport _ _ hcore).mpr hbooks, hcore, hresults₁.trans hresults₂.symm, ?_⟩
  rw [hexport _ _ (hcore₁.trans hcore₂.symm), ← hiff]
  constructor
  · intro hsame
    have hcount := congrArg CorrelationCounters.alarmsSuppressed (hsame.symm.trans hmetrics)
    simpa using hcount
  · rintro rfl
    exact hmetrics

/-- Two alarms of one tag, after which suppression is switched off. -/
def paused : AlarmCorrelationEngine :=
  ((afterAlarms narrow [(chatter "a" "x" 10000, "g"), (chatter "b" "x" 10001, "g")]).performAlarm (fun _ _ => 0) (fun _ => 0)
    (.setSuppressionPolicy { enabled := some false })).1

theorem run_paused : Run (fun _ _ => 0) narrow paused :=
  .step (a := (fun _ => 0, .alarm (.setSuppressionPolicy { enabled := some false }))) (run_afterAlarms narrow _) trivial rfl

def unpaused : AlarmCorrelationEngine := { narrow with suppressionPolicy := { enabled := false } }

theorem create_unpaused : create paused.options paused.topology paused.rules { enabled := some false } = .ok unpaused := by
  have hoptions : paused.options = { maxGroups := 1 } := by decide +kernel
  have htopology : paused.topology = {} := by decide +kernel
  have hrules : paused.rules = {} := by decide +kernel
  rw [hoptions, htopology, hrules]
  rfl

theorem unpaused_policy : unpaused.suppressionPolicy = paused.suppressionPolicy := by decide +kernel

def resumed : List (Clock × AlarmOp) := [(fun _ => 0, .setSuppressionPolicy { enabled := some true })]

def pausing : List (Clock × AlarmOp) := [(fun _ => 0, .setSuppressionPolicy { enabled := some false })]

/-- The second alarm is not suppressed any more, and the third one is as it was. -/
theorem changes_emitted_waits : chattering.alarmIndex ['c'] = some none ∧
    (chattering.performAll (fun _ _ => 0) pausing).1.groups ≠ chattering.groups ∧
    (chattering.performAll (fun _ _ => 0) pausing).1.toCorrelation.alarmView ['c'] = chattering.toCorrelation.alarmView ['c'] := by
  have hunnamed : ∀ effect ∈ (chattering.toCorrelation.performAll (fun _ _ => 0) pausing).2.1, ['c'] ∉ effect.alarmIds := by decide +kernel
  have hrun : Run (fun _ _ => 0) narrow chattering := run_afterAlarms narrow _
  have hconfined := changes_emitted create_narrow hrun pausing
  exact ⟨by decide +kernel, by decide +kernel, hconfined.alarm ['c'] fun ⟨effect, heffect, hmem⟩ => hunnamed effect heffect hmem⟩

/-- Suppression is switched on again, and the second alarm is counted a second time. -/
theorem paused_counts_again :
    create { maxGroups := 1 } {} {} { enabled := some true } = .ok narrow ∧ Run (fun _ _ => 0) narrow paused ∧
      create paused.options paused.topology paused.rules { enabled := some false } = .ok unpaused ∧
      unpaused.suppressionPolicy = paused.suppressionPolicy ∧
      ((unpaused.hydrate paused.exportState 0).performAll (fun _ _ => 0) resumed).1.exportState ≠
        (paused.performAll (fun _ _ => 0) resumed).1.exportState := by
  have hagain : ((unpaused.hydrate paused.exportState 0).performAll (fun _ _ => 0) resumed).1.exportState.metrics.alarmsSuppressed = 2 := by decide +kernel
  have honce : (paused.performAll (fun _ _ => 0) resumed).1.exportState.metrics.alarmsSuppressed = 1 := by decide +kernel
  refine ⟨rfl, run_paused, create_unpaused, unpaused_policy, fun hsame => ?_⟩
  rw [hsame, honce] at hagain
  cases hagain

theorem paused_transparent_iff :
    (unpaused.hydrate paused.exportState 0).exportState = paused.exportState ∧
      (unpaused.hydrate paused.exportState 0).toCorrelation = paused.toCorrelation ∧
      ((unpaused.hydrate paused.exportState 0).performAll (fun _ _ => 0) resumed).2 = (paused.performAll (fun _ _ => 0) resumed).2 ∧
      (((unpaused.hydrate paused.exportState 0).performAll (fun _ _ => 0) resumed).1.exportState =
          (paused.performAll (fun _ _ => 0) resumed).1.exportState ↔
        ¬ suppressesAgain paused.forgottenAlarmIds (paused.toCorrelation.performAll (fun _ _ => 0) resumed).2.1) :=
  restart_transparent_iff create_narrow run_paused create_unpaused unpaused_policy 0 resumed

end AlarmCorrelationEngine

end OxScada.Alarms
