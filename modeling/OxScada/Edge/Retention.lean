import OxScada.Edge.Exclusion
import OxScada.Edge.MergeLaws

/-! No stored record is dropped before upstream has it, as long as `shutdown` and `initialize`
do not overlap with the sections. -/

namespace OxScada.Edge
open OxScada.Bytes OxScada.Runs

def Section.plain : Section → Bool
  | .storing _ _ => false
  | .reconciling _ _ _ _ => false
  | _ => true

namespace Service

/-! ### Why a record may go -/

/-- The records that are acknowledged in a batch whose root was verified, and that have no conflict. -/
def acknowledgedIn (s : Service) : Act → List Text
  | .answer result =>
    match s.running with
    | some (.forwarding _ batch root) =>
      if result.verifiedMerkleRoot = root then
        result.acknowledgedIds.filter fun id => id ∈ s.batchIds batch ∧ ∀ conflict ∈ result.conflicts, conflict.recordId ≠ id
      else []
    | _ => []
  | _ => []

/-- The record of a telemetry conflict that is resolved in favour of a remote value that is
strictly greater by timestamp, origin and canonical value. -/
def overruledIn (p : Setting) (s : Service) : Act → List Text
  | .reported =>
    match s.running with
    | some (.reconciling _ _ (.telemetry ref remote _) _) =>
      match compareReplicas p.localeCompare (s.heap ref).replica remote with
      | .ok comparison => if comparison < 0 then [(s.heap ref).id] else []
      | .error _ => []
    | _ => []
  | _ => []

/-- The record whose `store` has been saved. The call resolves later. -/
def committedIn (s : Service) : Act → List Text
  | .saveReturns =>
    match s.running with
    | some (.storing id ⟨_, true⟩) => [id]
    | _ => []
  | _ => []

def drawnIn (s : Service) : Act → List Text
  | .begin _ id =>
    match s.operations with
    | .store _ :: _ => [id]
    | _ => []
  | _ => []

/-! ### What a section waits for -/

/-- A record that is about to be removed lost against a strictly greater remote value. -/
def Justified (p : Setting) (s : Service) (current : Reconciliation) : Prop :=
  ∀ ref remote, current = .telemetry ref remote false →
    ∃ comparison, compareReplicas p.localeCompare (s.heap ref).replica remote = .ok comparison ∧ comparison < 0

theorem resolve_remote {p : Setting} {value remote winner : EdgeReplicaValue}
    (h : resolveTelemetryConflict p.localeCompare value remote = .ok winner) (hloses : isSameReplica p winner value = false) :
    ∃ comparison, compareReplicas p.localeCompare value remote = .ok comparison ∧ comparison < 0 := by
  unfold resolveTelemetryConflict at h
  obtain ⟨-, h⟩ := bind_unit_ok.mp h
  obtain ⟨-, h⟩ := bind_unit_ok.mp h
  obtain ⟨comparison, hcompare, h⟩ := bind_ok.mp h
  refine ⟨comparison, hcompare, ?_⟩
  by_contra hle
  rw [if_pos (not_lt.mp hle)] at h
  obtain rfl := Except.ok.inj h
  simp [isSameReplica] at hloses

section Running
variable {p : Setting} {s s' : Service} {current : Section}

theorem drainLoop_plain (p : Setting) (s : Service) (drain : Drain) (h : (drainLoop p s drain).running = some current) :
    current.plain = true := by
  unfold drainLoop at h
  split_ifs at h with hwork
  · dsimp only at h
    split at h
    · obtain rfl := Option.some.inj h
      rfl
    · cases h
  · cases h

theorem retry_plain (p : Setting) (s : Service) (drain : Drain) (batch : List ℕ)
    (h : (retry p s drain batch).running = some current) : current.plain = true := by
  unfold retry at h
  split at h
  · obtain rfl := Option.some.inj h
    rfl
  · cases h

theorem finishBatch_plain (p : Setting) (s : Service) (drain : Drain) (answer : Answer)
    (h : (finishBatch p s drain answer).running = some current) : current.plain = true := by
  unfold finishBatch at h
  dsimp only at h
  split at h
  · obtain rfl := Option.some.inj h
    rfl
  · cases h

theorem reconcileNext_justified {answer : Answer} {conflict : UpstreamConflict} {pending : Reconciliation}
    (h : reconcileNext p s answer conflict = (s', .ok pending)) : Justified p s' pending := by
  unfold reconcileNext reconcileConflict at h
  rintro ref remote rfl
  split_ifs at h with hknown
  · split at h
    · split at h
      · split at h
        · rename_i winner hwinner
          obtain ⟨rfl, heq⟩ := Prod.mk.inj h
          obtain ⟨rfl, rfl, hloses⟩ := Reconciliation.telemetry.inj (Except.ok.inj heq)
          exact resolve_remote hwinner hloses
        · cases (Prod.mk.inj h).2
      · split at h
        · split at h
          · cases (Prod.mk.inj h).2
          · cases (Prod.mk.inj h).2
        · cases (Prod.mk.inj h).2
    · cases (Prod.mk.inj h).2
  · cases (Prod.mk.inj h).2

/-- What a section waits for next: no conflict, or one of the answer it works off. -/
def Continues (p : Setting) (s : Service) (acknowledged : List Text) : Prop :=
  ∀ current, s.running = some current → current.plain = true ∨ ∃ drain answer pending rest,
    current = .reconciling drain answer pending rest ∧ Justified p s pending ∧ answer.acknowledged = acknowledged

theorem reconcile_continues (p : Setting) (s : Service) (drain : Drain) (answer : Answer) (conflicts : List UpstreamConflict) :
    Continues p (reconcile p s drain answer conflicts) answer.acknowledged := by
  intro current h
  cases conflicts with
  | nil => exact .inl (finishBatch_plain p s drain answer h)
  | cons conflict rest =>
    rw [reconcile] at h ⊢
    split at h
    · rename_i next pending hnext
      obtain rfl := Option.some.inj h
      have hjustified := reconcileNext_justified hnext
      exact .inr ⟨drain, answer, pending, rest, rfl, hjustified, rfl⟩
    · cases h

theorem goOnReconciling_continues (p : Setting) (s : Service) (drain : Drain) (answer : Answer) (rest : List UpstreamConflict)
    (pending : Reconciliation) : Continues p (goOnReconciling p s drain answer rest pending) answer.acknowledged := by
  unfold goOnReconciling
  split
  · split
    · exact reconcile_continues p _ drain answer rest
    · intro current h
      cases h
  · exact reconcile_continues p _ drain answer rest
  · exact reconcile_continues p _ drain answer rest

theorem Continues.of_idle (p : Setting) {s' : Service} (h : s'.running = none) (acknowledged : List Text) :
    Continues p s' acknowledged := by
  intro current hcurrent
  rw [h] at hcurrent
  cases hcurrent

theorem SectionMove.continues {act : Act} (h : SectionMove p s act s') :
    ∃ acknowledged, Continues p s' acknowledged ∧ acknowledged ⊆ s.removedBy act := by
  have hplain : (∀ current, s'.running = some current → current.plain = true) →
      ∃ acknowledged, Continues p s' acknowledged ∧ acknowledged ⊆ s.removedBy act := by
    intro hplain
    exact ⟨[], fun current hcurrent => .inl (hplain current hcurrent), List.nil_subset _⟩
  have hidle : s'.running = none → ∃ acknowledged, Continues p s' acknowledged ∧ acknowledged ⊆ s.removedBy act :=
    fun hidle => ⟨[], .of_idle p hidle [], List.nil_subset _⟩
  cases h with
  | stored =>
    apply hplain
    intro current hcurrent
    obtain rfl := Option.some.inj hcurrent
    rfl
  | retried | notStored | notRetried | notCommitted | processed | mismatchUnreported | conflictUnreported => exact hidle rfl
  | committed =>
    apply hplain
    intro current hcurrent
    unfold goOnDraining at hcurrent
    split_ifs at hcurrent
    · cases hcurrent
    · cases hcurrent
    · exact drainLoop_plain p s _ hcurrent
  | answered hrunning =>
    rename_i drain batch root result
    rcases receive_cases p s drain batch root result with heq | heq | ⟨hroot, acknowledged, hacknowledge, heq⟩
    · apply hplain
      rw [heq]
      intro current hcurrent
      obtain rfl := Option.some.inj hcurrent
      rfl
    · apply hidle
      rw [heq]
      rfl
    · refine ⟨acknowledged, ?_, ?_⟩
      · rw [heq]
        exact reconcile_continues p s drain ⟨batch, conflictMap result.conflicts, acknowledged⟩ _
      · unfold removedBy
        rw [hrunning]
        dsimp only
        rw [if_pos hroot, hacknowledge]
        exact List.Subset.refl _
  | unanswered | mismatchReported => exact hplain fun current hcurrent => retry_plain p s _ _ hcurrent
  | conflictReported hrunning =>
    rename_i drain answer pending rest
    refine ⟨answer.acknowledged, goOnReconciling_continues p s drain answer rest pending, ?_⟩
    unfold removedBy
    rw [hrunning]
    exact List.subset_append_right _ _

end Running

/-! ### What is removed is released -/

section Released
variable {p : Setting} {s : Service}

theorem mem_conflictMap {conflicts : List UpstreamConflict} {conflict : UpstreamConflict} (h : conflict ∈ conflicts) :
    conflict.recordId ∈ (conflictMap conflicts).map (·.1) := by
  have hfold : ∀ (l : List UpstreamConflict) (entries : List (Text × UpstreamConflict)),
      (conflict ∈ l ∨ conflict.recordId ∈ entries.map (·.1)) →
      conflict.recordId ∈ (l.foldl (fun entries conflict => mapSet entries conflict.recordId conflict) entries).map (·.1) := by
    intro l
    induction l with
    | nil =>
      intro entries hmem
      exact hmem.resolve_left List.not_mem_nil
    | cons first rest ih =>
      intro entries hmem
      rw [List.foldl_cons]
      apply ih
      rcases hmem with hmem | hmem
      · rcases List.mem_cons.mp hmem with rfl | hrest
        · exact .inr (mem_keys_mapSet.mpr (.inl rfl))
        · exact .inl hrest
      · exact .inr (mem_keys_mapSet.mpr (.inr hmem))
  exact hfold conflicts [] (.inl h)

theorem acknowledge_mem {batchIds acknowledged ids result : List Text} {conflicts : List (Text × UpstreamConflict)}
    (h : acknowledge batchIds conflicts acknowledged ids = .ok result) {id : Text} (hid : id ∈ result) :
    id ∈ acknowledged ∨ id ∈ ids ∧ id ∈ batchIds ∧ conflicts.lookup id = none := by
  induction ids generalizing acknowledged with
  | nil =>
    obtain rfl := Except.ok.inj h
    exact .inl hid
  | cons first rest ih =>
    have hrest : ∀ {acknowledged : List Text}, (id ∈ acknowledged ∨ id ∈ rest ∧ id ∈ batchIds ∧ conflicts.lookup id = none) →
        id ∈ acknowledged ∨ id ∈ first :: rest ∧ id ∈ batchIds ∧ conflicts.lookup id = none :=
      fun hor => hor.imp_right fun hand => ⟨List.mem_cons_of_mem _ hand.1, hand.2⟩
    unfold acknowledge at h
    split_ifs at h with hknown hskip
    · exact hrest (ih h)
    · rcases ih h with hmem | hmem
      · rcases List.mem_append.mp hmem with hmem | hmem
        · exact .inl hmem
        · obtain rfl := List.mem_singleton.mp hmem
          rw [not_or, Option.not_isSome_iff_eq_none] at hskip
          exact .inr ⟨List.mem_cons_self, hknown, hskip.1⟩
      · exact hrest (.inr hmem)
    · cases h

theorem acknowledge_released {drain : Drain} {batch : List ℕ} {root : Text} {result : ForwardBatchResult}
    (hrunning : s.running = some (.forwarding drain batch root)) {id : Text} (hid : id ∈ s.removedBy (.answer result)) :
    id ∈ s.acknowledgedIn (.answer result) := by
  unfold removedBy at hid
  unfold acknowledgedIn
  rw [hrunning] at hid ⊢
  dsimp only at hid ⊢
  split_ifs at hid ⊢ with hroot
  · cases hacknowledge : acknowledge (s.batchIds batch) (conflictMap result.conflicts) [] result.acknowledgedIds with
    | error e =>
      rw [hacknowledge] at hid
      exact absurd hid List.not_mem_nil
    | ok acknowledged =>
      rw [hacknowledge] at hid
      obtain ⟨hanswer, hbatch, hlookup⟩ := (acknowledge_mem hacknowledge hid).resolve_left List.not_mem_nil
      rw [List.mem_filter, decide_eq_true_iff]
      refine ⟨hanswer, hbatch, fun conflict hconflict heq => ?_⟩
      obtain ⟨entry, hentry, hkey⟩ := List.mem_map.mp (mem_conflictMap hconflict)
      have hne := List.lookup_eq_none_iff.mp hlookup entry hentry
      rw [hkey, heq] at hne
      simp at hne
  · exact absurd hid List.not_mem_nil

end Released

end Service

/-- A run, with the ids that were drawn and the records that are owed to upstream. -/
structure EdgeRun where
  service : Service
  issued : List Text
  owed : List Text

namespace EdgeRun

def start (durable : List StoredRecord) : EdgeRun := ⟨.start durable, durable.map (·.id), []⟩

def step (p : Setting) (r : EdgeRun) (act : Act) : Option EdgeRun :=
  if ∃ id ∈ r.service.drawnIn act, id ∈ r.issued then none
  else (r.service.step p act).map fun service =>
    { service
      issued := r.issued ++ r.service.drawnIn act
      owed := (r.owed ++ r.service.committedIn act).filter fun id =>
        id ∉ r.service.acknowledgedIn act ∧ id ∉ r.service.overruledIn p act }

def Exclusive (r : EdgeRun) (act : Act) : Prop := r.service.Exclusive act

/-! ### The invariant -/

structure Retains (p : Setting) (r : EdgeRun) : Prop where
  apart : r.service.Apart
  issued : ∀ id ∈ r.owed, id ∈ r.issued
  durable : ∀ id ∈ r.owed, id ∈ r.service.durable.map (·.id)
  held : r.service.initialized = true → ∀ id ∈ r.owed, id ∈ r.service.ids
  storing : ∀ id save, r.service.running = some (.storing id save) →
    id ∈ r.issued ∧ id ∉ r.owed ∧ id ∈ r.service.ids
  reconciling : ∀ drain answer pending rest, r.service.running = some (.reconciling drain answer pending rest) →
    r.service.Justified p pending ∧ ∀ id ∈ answer.acknowledged, id ∉ r.owed

theorem Retains.start (p : Setting) (durable : List StoredRecord) : Retains p (start durable) where
  apart := .start durable
  issued _ h := absurd h List.not_mem_nil
  durable _ h := absurd h List.not_mem_nil
  held _ _ h := absurd h List.not_mem_nil
  storing _ _ h := by cases h
  reconciling _ _ _ _ h := by cases h

section Steps
variable {p : Setting} {r r' : EdgeRun} {act : Act}

theorem step_eq_some (h : step p r act = some r') :
    (∀ id ∈ r.service.drawnIn act, id ∉ r.issued) ∧ r.service.step p act = some r'.service ∧
      r'.issued = r.issued ++ r.service.drawnIn act ∧
      (∀ id ∈ r'.owed, id ∈ r.owed ∨ id ∈ r.service.committedIn act) ∧
      ∀ id ∈ r'.owed, id ∉ r.service.acknowledgedIn act ∧ id ∉ r.service.overruledIn p act := by
  unfold step at h
  split_ifs at h with hdrawn
  obtain ⟨service, hservice, rfl⟩ := Option.map_eq_some_iff.mp h
  refine ⟨fun id hid hissued => hdrawn ⟨id, hid, hissued⟩, hservice, rfl, fun id hid => ?_, fun id hid => ?_⟩
  · exact List.mem_append.mp (List.mem_filter.mp hid).1
  · exact of_decide_eq_true (List.mem_filter.mp hid).2

theorem Retains.removed (h : Retains p r) (hact : Service.isSectionStep act = true) (hstep : step p r act = some r') :
    ∀ id ∈ r.service.removedBy act, id ∉ r'.owed := by
  obtain ⟨-, hservice, -, howed, hreleased⟩ := step_eq_some hstep
  intro id hid hmem
  cases act with
  | saveFails =>
    unfold Service.removedBy at hid
    dsimp only at hid
    split at hid
    · rename_i id' save hrunning
      obtain rfl := List.mem_singleton.mp hid
      have hold := (howed id hmem).resolve_right List.not_mem_nil
      exact (h.storing id save hrunning).2.1 hold
    · exact absurd hid List.not_mem_nil
  | answer result =>
    unfold Service.step at hservice
    dsimp only at hservice
    split at hservice
    · rename_i drain batch root hrunning
      exact (hreleased id hmem).1 (Service.acknowledge_released hrunning hid)
    · cases hservice
  | reported =>
    unfold Service.removedBy at hid
    dsimp only at hid
    split at hid
    · rename_i drain answer pending rest hrunning
      obtain ⟨hjustified, hacknowledged⟩ := h.reconciling drain answer pending rest hrunning
      rcases List.mem_append.mp hid with hloser | hanswer
      · unfold Reconciliation.loser at hloser
        split at hloser
        · rename_i ref remote
          obtain rfl := List.mem_singleton.mp hloser
          obtain ⟨comparison, hcompare, hneg⟩ := hjustified ref remote rfl
          apply (hreleased _ hmem).2
          unfold Service.overruledIn
          rw [hrunning]
          dsimp only
          rw [hcompare]
          dsimp only
          rw [if_pos hneg]
          exact List.mem_cons_self
        · exact absurd hloser List.not_mem_nil
      · exact hacknowledged id hanswer ((howed id hmem).resolve_right List.not_mem_nil)
    · exact absurd hid List.not_mem_nil
  | _ => exact absurd hid List.not_mem_nil

theorem Retains.committed (h : Retains p r) {id : Text} (hid : id ∈ r.service.committedIn act) :
    id ∈ r.issued ∧ id ∈ r.service.durable.map (·.id) ∧ id ∈ r.service.ids := by
  unfold Service.committedIn at hid
  split at hid
  · split at hid
    · rename_i id' snapshot hrunning
      obtain rfl := List.mem_singleton.mp hid
      obtain ⟨hissued, -, hids⟩ := h.storing id _ hrunning
      have hdurable := (h.apart.saving _ _ hrunning rfl).2 rfl
      rw [hdurable, h.apart.ids_eq]
      exact ⟨hissued, hids, hids⟩
    · exact absurd hid List.not_mem_nil
  · exact absurd hid List.not_mem_nil

theorem committedIn_eq_nil {s : Service} (hact : Service.isSectionStep act = false) : s.committedIn act = [] := by
  cases act with
  | saveReturns => cases hact
  | _ => rfl

theorem ids_of_mem {s s' : Service} {gone : List Text} (h : Service.Keeps gone s s') {id : Text} (hid : id ∈ s.ids)
    (hgone : id ∉ gone) : id ∈ s'.ids := by
  obtain ⟨entry, hentry, rfl⟩ := List.mem_map.mp hid
  exact List.mem_map_of_mem (h.kept entry hentry hgone)

section
variable (h : Retains p r)
include h

theorem Retains.inside (hact : Service.isSectionStep act = true) (hstep : step p r act = some r')
    (happart : r'.service.Apart) : Retains p r' := by
  obtain ⟨-, hservice, hissued, howed, -⟩ := step_eq_some hstep
  have hmove := Service.sectionStep_move hact hservice
  obtain ⟨hkeeps, -⟩ := hmove.keeps
  obtain ⟨acknowledged, hcontinues, hsubset⟩ := hmove.continues
  have hremoved := h.removed hact hstep
  have hbefore : ∀ id ∈ r'.owed, id ∈ r.issued ∧ id ∈ r.service.durable.map (·.id) ∧ id ∈ r.service.ids := by
    intro id hid
    rcases howed id hid with hold | hcommitted
    · exact ⟨h.issued id hold, h.durable id hold, h.held (h.apart.running hmove.running).1 id hold⟩
    · exact h.committed hcommitted
  refine ⟨happart, fun id hid => ?_, fun id hid => ?_, fun _ id hid => ?_, fun id save hstoring => ?_,
    fun drain answer pending rest hreconciling => ?_⟩
  · rw [hissued]
    exact List.mem_append_left _ (hbefore id hid).1
  · rw [hkeeps.durable]
    exact (hbefore id hid).2.1
  · exact ids_of_mem hkeeps (hbefore id hid).2.2 fun hgone => hremoved id hgone hid
  · rcases hcontinues _ hstoring with hplain | ⟨drain, answer, pending, rest, heq, -⟩
    · cases hplain
    · cases heq
  · rcases hcontinues _ hreconciling with hplain | ⟨drain', answer', pending', rest', heq, hjustified, hanswer⟩
    · cases hplain
    · obtain ⟨rfl, rfl, rfl, rfl⟩ := Section.reconciling.inj heq
      refine ⟨hjustified, fun id hid => hremoved id (hsubset ?_)⟩
      rw [← hanswer]
      exact hid

theorem Retains.outside (hact : Service.isSectionStep act = false) (hstep : step p r act = some r')
    (happart : r'.service.Apart) (hdurable : ∀ id ∈ r.owed, id ∈ r'.service.durable.map (·.id))
    (hheld : r'.service.initialized = true → ∀ id ∈ r.owed, id ∈ r'.service.ids)
    (hstoring : ∀ id save, r'.service.running = some (.storing id save) →
      id ∈ r'.issued ∧ id ∉ r.owed ∧ id ∈ r'.service.ids)
    (hreconciling : ∀ drain answer pending rest, r'.service.running = some (.reconciling drain answer pending rest) →
      r'.service.Justified p pending ∧ ∀ id ∈ answer.acknowledged, id ∉ r.owed) : Retains p r' := by
  obtain ⟨-, hservice, hissued, howed, -⟩ := step_eq_some hstep
  have hold : ∀ id ∈ r'.owed, id ∈ r.owed := by
    intro id hid
    rcases howed id hid with hold | hcommitted
    · exact hold
    · rw [committedIn_eq_nil hact] at hcommitted
      exact absurd hcommitted List.not_mem_nil
  refine ⟨happart, fun id hid => ?_, fun id hid => hdurable id (hold id hid), fun hinit id hid => hheld hinit id (hold id hid),
    fun id save hrunning => ?_, fun drain answer pending rest hrunning => ?_⟩
  · rw [hissued]
    exact List.mem_append_left _ (h.issued id (hold id hid))
  · obtain ⟨hid, howed, hids⟩ := hstoring id save hrunning
    exact ⟨hid, fun hmem => howed (hold id hmem), hids⟩
  · obtain ⟨hjustified, hacknowledged⟩ := hreconciling drain answer pending rest hrunning
    exact ⟨hjustified, fun id hid hmem => hacknowledged id hid (hold id hmem)⟩

theorem Retains.plain (hact : Service.isSectionStep act = false) (hstep : EdgeRun.step p r act = some r')
    (happart : r'.service.Apart) (hplain : ∀ current, r'.service.running = some current → current.plain = true)
    (hdurable : ∀ id ∈ r.owed, id ∈ r'.service.durable.map (·.id))
    (hheld : r'.service.initialized = true → ∀ id ∈ r.owed, id ∈ r'.service.ids) : Retains p r' := by
  apply h.outside hact hstep happart hdurable hheld
  · intro id save hrunning
    cases hplain _ hrunning
  · intro drain answer pending rest hrunning
    cases hplain _ hrunning

theorem Retains.puts {now : Option ℤ} {id : Text} {input : StoreInput} {rest : List Work}
    (hstep : EdgeRun.step p r (.begin now id) = some r') (happart : r'.service.Apart)
    (hnext : r.service.operations = .store input :: rest) (hputs : Service.Puts p r.service r'.service id) : Retains p r' := by
  obtain ⟨hfresh, -, hissued, -, -⟩ := step_eq_some hstep
  obtain ⟨ref, unsealed, hstore, -⟩ := hputs.localStore
  have hdrawn : id ∈ r.service.drawnIn (.begin now id) := by
    unfold Service.drawnIn
    rw [hnext]
    exact List.mem_cons_self
  have hids : ∀ id', id' ∈ r'.service.ids ↔ id' = id ∨ id' ∈ r.service.ids := by
    intro id'
    rw [Service.ids, hstore]
    exact mem_keys_mapSet
  apply h.outside rfl hstep happart
  · rw [hputs.durable]
    exact h.durable
  · intro _ id' hid'
    exact (hids id').mpr (.inr (h.held hputs.initialized.1 id' hid'))
  · intro id' save hrunning
    obtain ⟨rfl, -⟩ := Section.storing.inj (Option.some.inj (hputs.running.2.symm.trans hrunning))
    refine ⟨?_, fun howed => hfresh id hdrawn (h.issued id howed), (hids id).mpr (.inl rfl)⟩
    rw [hissued]
    exact List.mem_append_right _ hdrawn
  · intro drain answer pending rest hrunning
    cases hputs.running.2.symm.trans hrunning

theorem Retains.takes (hact : Service.isSectionStep act = false) (hstep : EdgeRun.step p r act = some r')
    (happart : r'.service.Apart) (htakes : Service.Takes r.service r'.service) : Retains p r' := by
  obtain ⟨-, -, hissued, -, -⟩ := step_eq_some hstep
  have hids : r'.service.ids = r.service.ids := by rw [Service.ids, htakes.localStore, Service.ids]
  have hrunning : ∀ current, r'.service.running = some current → ∃ before, r.service.running = some before ∧
      before.taken = current := by
    intro current hcurrent
    rw [htakes.running] at hcurrent
    exact Option.map_eq_some_iff.mp hcurrent
  apply h.outside hact hstep happart
  · intro id hid
    rw [htakes.durable, h.apart.ids_eq]
    exact h.held htakes.initialized.1 id hid
  · intro _ id hid
    rw [hids]
    exact h.held htakes.initialized.1 id hid
  · intro id save hafter
    obtain ⟨before, hbefore, htaken⟩ := hrunning _ hafter
    cases before with
    | storing id' save' =>
      obtain ⟨rfl, -⟩ := Section.storing.inj htaken
      obtain ⟨hid, howed, hmem⟩ := h.storing id' save' hbefore
      rw [hids, hissued]
      exact ⟨List.mem_append_left _ hid, howed, hmem⟩
    | _ => cases htaken
  · intro drain answer pending rest hafter
    obtain ⟨before, hbefore, htaken⟩ := hrunning _ hafter
    cases before with
    | reconciling drain' answer' pending' rest' =>
      obtain ⟨rfl, rfl, rfl, rfl⟩ := Section.reconciling.inj htaken
      obtain ⟨hjustified, hacknowledged⟩ := h.reconciling _ _ _ _ hbefore
      refine ⟨?_, hacknowledged⟩
      rw [Service.Justified, htakes.heap]
      exact hjustified
    | _ => cases htaken

theorem Retains.step (hok : r.service.Exclusive act) (hstep : EdgeRun.step p r act = some r') :
    Retains p r' := by
  obtain ⟨-, hservice, hissued, -, -⟩ := step_eq_some hstep
  have happart := h.apart.step hok hservice
  by_cases hact : Service.isSectionStep act = true
  · exact h.inside hact hstep happart
  have houtside : Service.isSectionStep act = false := Bool.eq_false_iff.mpr hact
  cases Service.step_effect h.apart hok hservice with
  | quiet hquiet =>
    apply h.outside houtside hstep happart
    · rw [hquiet.durable]
      exact h.durable
    · rw [hquiet.initialized, Service.ids, hquiet.localStore]
      exact h.held
    · intro id save hrunning
      rw [hquiet.running] at hrunning
      obtain ⟨hid, howed, hids⟩ := h.storing id save hrunning
      rw [Service.ids, hquiet.localStore, hissued]
      exact ⟨List.mem_append_left _ hid, howed, hids⟩
    · intro drain answer pending rest hrunning
      rw [hquiet.running] at hrunning
      obtain ⟨hjustified, hacknowledged⟩ := h.reconciling drain answer pending rest hrunning
      refine ⟨?_, hacknowledged⟩
      rw [Service.Justified, hquiet.heap]
      exact hjustified
  | puts hbegin hnext hputs =>
    obtain rfl := hbegin
    exact h.puts hstep happart hnext hputs
  | drains hquiet hidle hinit heq =>
    rename_i idle drain
    obtain ⟨hkeeps, -⟩ := Service.drainLoop_keeps p idle drain
    rw [← heq] at hkeeps
    apply h.plain houtside hstep happart
    · intro current hcurrent
      rw [heq] at hcurrent
      exact Service.drainLoop_plain p idle drain hcurrent
    · rw [hkeeps.durable, hquiet.durable]
      exact h.durable
    · intro _ id hid
      have hids := h.held hinit id hid
      rw [Service.ids, ← hquiet.localStore] at hids
      exact ids_of_mem hkeeps hids List.not_mem_nil
  | inside hinside => exact absurd hinside hact
  | takes htakes => exact h.takes houtside hstep happart htakes
  | closes hcloses =>
    apply h.plain houtside hstep happart
    · intro current hrunning
      cases hcloses.running.symm.trans hrunning
    · rw [hcloses.durable]
      exact h.durable
    · intro hinit
      cases hcloses.initialized.symm.trans hinit
  | loads hloads =>
    apply h.plain houtside hstep happart
    · intro current hrunning
      cases hloads.running.symm.trans hrunning
    · rw [hloads.durable]
      exact h.durable
    · intro _ id hid
      rw [← happart.ids_eq, hloads.records]
      exact h.durable id hid

end

end Steps

/-- Every record whose `store` was saved is in the queue, and in the store of an initialized
service, until it is acknowledged in a verified batch or loses against a greater remote value. -/
theorem stored_records_retained (p : Setting) (durable : List StoredRecord) {r : EdgeRun}
    (hr : Reachable (EdgeRun.step p) EdgeRun.Exclusive (EdgeRun.start durable) r) :
    ∀ id ∈ r.owed, id ∈ r.service.durable.map (·.id) ∧ (r.service.initialized = true → id ∈ r.service.ids) := by
  have h : Retains p r := hr.invariant (Retains.start p durable) fun _ _ _ h hok hstep => h.step hok hstep
  exact fun id hid => ⟨h.durable id hid, fun hinit => h.held hinit id hid⟩

/-! ### Runs on one record -/

section OneRecord

def levelInput : StoreInput := ⟨.null, none, none, none, some (some 0), none⟩

theorem one_record_pos : 1 ≤ 1 := le_rfl

def smallSetting : Setting where
  localeCompare := compareCodeUnits
  sha256Hex _ := List.replicate 64 '0'
  config := ⟨1, 1, one_record_pos, one_record_pos⟩

def storesRecord : List Act :=
  [.initializeService, .loadReads 0, .install 0, .store levelInput, .begin none "r1".toList, .saveTakes, .saveReturns,
    .processed, .storeGoesOn]

/-- `shutdown` waits for a synchronization that fails, and another one begins while it saves. -/
def overlaps : List Act :=
  [.reachable true, .shutdown, .synchronizeNow, .begin none [], .forwardFails, .saveFails, .shutdownGoesOn 0,
    .begin none [], .failureCaught, .shutdownSaveTakes 0, .shutdownSaveReturns 0, .forwardFails, .saveTakes, .saveReturns]

def restarts : List Act := [.initializeService, .loadReads 0, .install 0]

instance (r : EdgeRun) (act : Act) : Decidable (r.Exclusive act) := inferInstanceAs (Decidable (r.service.Exclusive act))

def heldRun : EdgeRun := (exec (checked (step smallSetting) Exclusive) (start []) storesRecord).getD (start [])

theorem stored_records_retained_one : "r1".toList ∈ heldRun.owed ∧ "r1".toList ∈ heldRun.service.durable.map (·.id) ∧
    "r1".toList ∈ heldRun.service.ids := by
  have hexec : exec (checked (step smallSetting) Exclusive) (start []) storesRecord = some heldRun :=
    eq_some_getD (by decide +kernel) _
  have howed : "r1".toList ∈ heldRun.owed := by decide +kernel
  have hinit : heldRun.service.initialized = true := by decide +kernel
  obtain ⟨hdurable, hids⟩ := stored_records_retained smallSetting [] (Reachable.start.of_exec_checked _ hexec) _ howed
  exact ⟨howed, hdurable, hids hinit⟩

def lostRun : EdgeRun :=
  (exec (step smallSetting) (start []) (storesRecord ++ overlaps ++ restarts)).getD (start [])

/-- After a restart the record is not there. -/
theorem shutdown_loses_record : ¬ ∀ r, Reachable (step smallSetting) (fun _ _ => True) (start []) r →
    r.service.initialized = true → ∀ id ∈ r.owed, id ∈ r.service.ids := by
  intro hkept
  have hexec : exec (step smallSetting) (start []) (storesRecord ++ overlaps ++ restarts) = some lostRun :=
    eq_some_getD (by decide +kernel) _
  have hrun := Reachable.start.of_exec (storesRecord ++ overlaps ++ restarts) (fun _ _ _ => trivial) hexec
  have hmem : "r1".toList ∈ lostRun.service.ids := hkept lostRun hrun (by decide +kernel) _ (by decide +kernel)
  have hnot : "r1".toList ∉ lostRun.service.ids := by decide +kernel
  exact hnot hmem

end OneRecord

end EdgeRun

end OxScada.Edge
