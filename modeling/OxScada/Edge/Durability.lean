import OxScada.Edge.Retention

/-! The queue and the store of an idle service are the same, as long as no section fails
between its first change of a record and its save. -/

namespace OxScada.Edge
open OxScada.Bytes OxScada.Js OxScada.Runs

/-! ### Dates -/

def EdgeReplicaValue.dated (value : EdgeReplicaValue) : Bool :=
  value.timestamp.isSome ∧ ∀ versions ∈ value.fieldVersions.toList, ∀ entry ∈ versions, entry.2.timestamp.isSome

theorem isoDate_ok {date : Option ℤ} (h : date.isSome = true) : ∃ text, isoDate date = .ok text := by
  obtain ⟨time, rfl⟩ := Option.isSome_iff_exists.mp h
  exact ⟨_, rfl⟩

theorem versionsPayload_ok {versions : VersionMap} (h : ∀ entry ∈ versions, entry.2.timestamp.isSome = true) :
    ∃ fields, versionsPayload versions = .ok fields := by
  induction versions with
  | nil => exact ⟨_, rfl⟩
  | cons first rest ih =>
    obtain ⟨path, version⟩ := first
    obtain ⟨date, hdate⟩ := isoDate_ok (h _ List.mem_cons_self)
    obtain ⟨fields, hfields⟩ := ih fun entry hentry => h entry (List.mem_cons_of_mem _ hentry)
    have hversion : ∃ value, versionPayload version = .ok value := ⟨_, bind_ok.mpr ⟨date, hdate, rfl⟩⟩
    obtain ⟨value, hvalue⟩ := hversion
    exact ⟨_, bind_ok.mpr ⟨value, hvalue, bind_ok.mpr ⟨fields, hfields, rfl⟩⟩⟩

variable {record : StoredRecord}

theorem integrityPayload_ok (h : record.replica.dated = true) :
    ∃ payload, integrityPayload record = .ok payload := by
  obtain ⟨htimestamp, hversions⟩ := of_decide_eq_true h
  obtain ⟨date, hdate⟩ := isoDate_ok htimestamp
  have hmap : ∃ versions, record.fieldVersions.mapM versionsPayload = .ok versions := by
    cases hfields : record.fieldVersions with
    | none => exact ⟨_, rfl⟩
    | some versions =>
      have hmem : versions ∈ record.replica.fieldVersions.toList := by
        show versions ∈ record.fieldVersions.toList
        rw [hfields]
        exact List.mem_cons_self
      obtain ⟨fields, hfields⟩ := versionsPayload_ok (hversions versions hmem)
      refine ⟨some fields, ?_⟩
      show (versionsPayload versions >>= fun fields => pure (some fields)) = _
      rw [hfields]
      rfl
  obtain ⟨versions, hversions⟩ := hmap
  exact ⟨_, bind_ok.mpr ⟨date, hdate, bind_ok.mpr ⟨versions, hversions, rfl⟩⟩⟩

variable (p : Setting)

theorem withChecksum_ok {record : StoredRecord} (h : record.replica.dated = true) :
    ∃ sealed, withChecksum p.localeCompare p.sha256Hex record = .ok sealed := by
  obtain ⟨payload, hpayload⟩ := integrityPayload_ok h
  have hchecksum : ∃ checksum, recordChecksum p.localeCompare p.sha256Hex record = .ok checksum :=
    ⟨_, bind_ok.mpr ⟨payload, hpayload, rfl⟩⟩
  obtain ⟨checksum, hchecksum⟩ := hchecksum
  exact ⟨_, bind_ok.mpr ⟨checksum, hchecksum, rfl⟩⟩

theorem withChecksum_eq {p : Setting} {record' : StoredRecord}
    (h : withChecksum p.localeCompare p.sha256Hex record = .ok record') :
    record'.kind = record.kind ∧ record'.replica = record.replica := by
  obtain ⟨checksum, -, heq⟩ := bind_ok.mp h
  obtain rfl := Except.ok.inj heq
  exact ⟨rfl, rfl⟩

theorem isSome_of_isoDate {date : Option ℤ} {text : Json} (h : isoDate date = .ok text) : date.isSome = true := by
  cases date with
  | none => cases h
  | some time => rfl

theorem versionsPayload_dated {versions : VersionMap} {fields : Fields} (h : versionsPayload versions = .ok fields) :
    ∀ entry ∈ versions, entry.2.timestamp.isSome = true := by
  induction versions generalizing fields with
  | nil => exact fun _ hentry => absurd hentry List.not_mem_nil
  | cons first rest ih =>
    obtain ⟨path, version⟩ := first
    obtain ⟨value, hvalue, h⟩ := bind_ok.mp h
    obtain ⟨fields', hfields, -⟩ := bind_ok.mp h
    obtain ⟨date, hdate, -⟩ := bind_ok.mp hvalue
    intro entry hentry
    rcases List.mem_cons.mp hentry with rfl | hrest
    · exact isSome_of_isoDate hdate
    · exact ih hfields entry hrest

theorem dated_of_recordChecksum {p : Setting} {checksum : Text}
    (h : recordChecksum p.localeCompare p.sha256Hex record = .ok checksum) : record.replica.dated = true := by
  obtain ⟨payload, hpayload, -⟩ := bind_ok.mp h
  obtain ⟨date, hdate, hpayload⟩ := bind_ok.mp hpayload
  obtain ⟨fields, hfields, -⟩ := bind_ok.mp hpayload
  refine decide_eq_true ⟨isSome_of_isoDate hdate, fun versions hversions => ?_⟩
  have hsome : record.fieldVersions = some versions := Option.mem_toList.mp hversions
  rw [hsome] at hfields
  obtain ⟨fields', hfields', -⟩ := bind_ok.mp hfields
  exact versionsPayload_dated hfields'

theorem dated_of_withChecksum {p : Setting} {record' : StoredRecord}
    (h : withChecksum p.localeCompare p.sha256Hex record = .ok record') : record.replica.dated = true := by
  obtain ⟨checksum, hchecksum, -⟩ := bind_ok.mp h
  exact dated_of_recordChecksum hchecksum

/-! ### Which failures leave a change behind -/

namespace StoredRecord

def reconciles (record : StoredRecord) (remote : EdgeReplicaValue) : Bool :=
  match record.kind with
  | .telemetry => (resolveTelemetryConflict p.localeCompare record.replica remote).isOk
  | .configuration =>
    match mergeConfigurationConflict p.localeCompare record.replica remote with
    | .ok merged => merged.dated
    | .error _ => false

/-- `reconcileConflict` throws before it changes the record. -/
def refuses (record : StoredRecord) (remote : EdgeReplicaValue) : Bool :=
  match record.kind with
  | .telemetry => ¬ (resolveTelemetryConflict p.localeCompare record.replica remote).isOk
  | .configuration => ¬ (mergeConfigurationConflict p.localeCompare record.replica remote).isOk

end StoredRecord

namespace Service

def conflicted (s : Service) (batch : List ℕ) (conflict : UpstreamConflict) : Option StoredRecord :=
  if conflict.recordId ∈ s.batchIds batch then (s.localStore.lookup conflict.recordId).map s.heap else none

def reconcilable (s : Service) (batch : List ℕ) (conflict : UpstreamConflict) : Bool :=
  (s.conflicted batch conflict).any fun record => record.reconciles p conflict.remote

def refused (s : Service) (batch : List ℕ) (conflict : UpstreamConflict) : Bool :=
  (s.conflicted batch conflict).all fun record => record.refuses p conflict.remote

/-- A step does not fail after a change that is not saved. A save fails only in `store`, and
there only for an id that is new; a report only before the first change; an answer has no
conflicts that fail, unless already the first one does and changes nothing. -/
def Orderly (s : Service) : Act → Prop
  | .saveFails =>
    match s.running with
    | some (.storing id _) => id ∉ s.durable.map (·.id)
    | _ => False
  | .reportFails =>
    match s.running with
    | some (.reconciling _ answer (.telemetry _ _ _) rest) => rest.length + 1 = answer.conflicts.length
    | some (.reconciling _ _ .configuration _) => False
    | _ => True
  | .answer result =>
    match s.running with
    | some (.forwarding _ batch root) =>
      result.verifiedMerkleRoot = root → (∀ id ∈ result.acknowledgedIds, id ∈ s.batchIds batch) →
        (∀ conflict ∈ (conflictMap result.conflicts).head?.toList, s.refused p batch conflict.2 = true) ∨
          ∀ conflict ∈ conflictMap result.conflicts, s.reconcilable p batch conflict.2 = true
    | _ => True
  | _ => True

instance (p : Setting) (s : Service) (act : Act) : Decidable (s.Orderly p act) := by
  unfold Orderly
  split
  · split <;> infer_instance
  · split <;> infer_instance
  · split <;> infer_instance
  · infer_instance

/-! ### The invariant -/

def Holds (p : Setting) (s : Service) : Section → Prop
  | .storing id save =>
    save.effective = false → id ∉ s.durable.map (·.id) → s.durable = { s with localStore := mapDelete s.localStore id }.records
  | .processing => s.durable = s.records
  | .forwarding _ batch _ => s.durable = s.records ∧ ∀ ref ∈ batch, (s.heap ref).replica.dated = true
  | .reportingMismatch _ batch => s.durable = s.records ∧ ∀ ref ∈ batch, (s.heap ref).replica.dated = true
  | .reconciling _ answer current rest =>
    (∀ ref ∈ answer.batch, (s.heap ref).replica.dated = true) ∧ rest.length < answer.conflicts.length ∧
      (∀ conflict ∈ rest, s.reconcilable p answer.batch conflict = true) ∧ (rest.map (·.recordId)).Nodup ∧
      ∀ ref remote localWins, current = .telemetry ref remote localWins →
        (rest.length + 1 = answer.conflicts.length → s.durable = s.records) ∧ (s.heap ref).replica.dated = true ∧
          (s.heap ref).id ∉ rest.map (·.recordId)
  | .retrying _ _ => True
  | .committing _ _ _ => True

structure Settled (p : Setting) (s : Service) : Prop where
  dated : ∀ entry ∈ s.localStore, (s.heap entry.2).replica.dated = true
  idle : s.running = none → s.durable = s.records
  waits : ∀ current, s.running = some current → s.Holds p current

section Sections
variable {p : Setting} {s : Service}

theorem Settled.of_idle (hdated : ∀ entry ∈ s.localStore, (s.heap entry.2).replica.dated = true) (hidle : s.running = none)
    (hdurable : s.durable = s.records) : Settled p s := by
  refine ⟨hdated, fun _ => hdurable, fun current hcurrent => ?_⟩
  cases hidle.symm.trans hcurrent

theorem Settled.of_waits {current : Section} (hdated : ∀ entry ∈ s.localStore, (s.heap entry.2).replica.dated = true)
    (hrunning : s.running = some current) (hholds : s.Holds p current) : Settled p s := by
  refine ⟨hdated, fun hidle => ?_, fun current' hcurrent => ?_⟩
  · cases hidle.symm.trans hrunning
  · obtain rfl := Option.some.inj (hrunning.symm.trans hcurrent)
    exact hholds

theorem drainLoop_settled (hdated : ∀ entry ∈ s.localStore, (s.heap entry.2).replica.dated = true)
    (hdurable : s.durable = s.records) (drain : Drain) : Settled p (drainLoop p s drain) := by
  unfold drainLoop
  split_ifs with hwork
  · dsimp only
    split
    · refine .of_waits hdated rfl ⟨hdurable, fun ref href => ?_⟩
      obtain ⟨entry, hentry, rfl⟩ := List.mem_map.mp (List.mem_of_mem_take href)
      exact hdated entry hentry
    · exact .of_idle hdated rfl hdurable
  · exact .of_idle hdated rfl hdurable

def SameReplicas (heap heap' : ℕ → StoredRecord) : Prop :=
  ∀ ref, (heap' ref).id = (heap ref).id ∧ (heap' ref).kind = (heap ref).kind ∧ (heap' ref).replica = (heap ref).replica

variable {heap : ℕ → StoredRecord} {answer : Answer} {conflict : UpstreamConflict}

theorem countAttempts_ok (p : Setting) {refs : List ℕ}
    (h : ∀ ref ∈ refs, (heap ref).replica.dated = true) :
    ∃ heap', countAttempts p heap refs = (heap', none) ∧ SameReplicas heap heap' := by
  induction refs generalizing heap with
  | nil => exact ⟨heap, rfl, fun ref => ⟨rfl, rfl, rfl⟩⟩
  | cons first rest ih =>
    obtain ⟨sealed, hsealed⟩ := @withChecksum_ok p (heap first).attempted (h first List.mem_cons_self)
    have hsame : SameReplicas heap (Function.update heap first sealed) := by
      intro ref
      by_cases heq : ref = first
      · rw [heq, Function.update_self]
        obtain ⟨hkind, hreplica⟩ := withChecksum_eq hsealed
        exact ⟨(withChecksum_id hsealed).trans rfl, hkind, hreplica⟩
      · rw [Function.update_of_ne heq]
        exact ⟨rfl, rfl, rfl⟩
    have hrest : ∀ ref ∈ rest, (Function.update heap first sealed ref).replica.dated = true := by
      intro ref href
      rw [(hsame ref).2.2]
      exact h ref (List.mem_cons_of_mem _ href)
    obtain ⟨heap', hcount, hsame'⟩ := ih hrest
    refine ⟨heap', ?_, fun ref => ?_⟩
    · unfold countAttempts
      rw [hsealed]
      exact hcount
    · obtain ⟨hid, hkind, hreplica⟩ := hsame ref
      obtain ⟨hid', hkind', hreplica'⟩ := hsame' ref
      exact ⟨hid'.trans hid, hkind'.trans hkind, hreplica'.trans hreplica⟩

theorem SameReplicas.dated {heap' : ℕ → StoredRecord} (h : SameReplicas heap heap') {ref : ℕ}
    (hdated : (heap ref).replica.dated = true) : (heap' ref).replica.dated = true := by
  rw [(h ref).2.2]
  exact hdated

theorem SameReplicas.reconcilable (h : SameReplicas s.heap heap) (batch : List ℕ)
    (conflict : UpstreamConflict) : reconcilable p { s with heap } batch conflict = reconcilable p s batch conflict := by
  have hids : batchIds { s with heap } batch = s.batchIds batch := List.map_congr_left fun ref _ => (h ref).1
  unfold Service.reconcilable conflicted
  rw [hids]
  split_ifs with hknown
  · dsimp only
    cases s.localStore.lookup conflict.recordId with
    | none => rfl
    | some ref =>
      show (heap ref).reconciles p conflict.remote = (s.heap ref).reconciles p conflict.remote
      unfold StoredRecord.reconciles
      rw [(h ref).2.1, (h ref).2.2]
  · rfl

theorem retry_settled (hdated : ∀ entry ∈ s.localStore, (s.heap entry.2).replica.dated = true) {batch : List ℕ}
    (hbatch : ∀ ref ∈ batch, (s.heap ref).replica.dated = true) (drain : Drain) : Settled p (retry p s drain batch) := by
  obtain ⟨heap, hcount, hsame⟩ := countAttempts_ok p hbatch
  unfold retry
  rw [hcount]
  exact .of_waits (fun entry hentry => hsame.dated (hdated entry hentry)) rfl trivial

theorem finishBatch_settled (hdated : ∀ entry ∈ s.localStore, (s.heap entry.2).replica.dated = true)
    (hbatch : ∀ ref ∈ answer.batch, (s.heap ref).replica.dated = true) (drain : Drain) :
    Settled p (finishBatch p s drain answer) := by
  unfold finishBatch
  dsimp only
  generalize hunresolved : answer.batch.filter _ = unresolved
  have hmem : ∀ ref ∈ unresolved, (s.heap ref).replica.dated = true := by
    intro ref href
    rw [← hunresolved] at href
    exact hbatch ref (List.mem_of_mem_filter href)
  obtain ⟨heap, hcount, hsame⟩ := countAttempts_ok p hmem
  rw [hcount]
  refine .of_waits (fun entry hentry => hsame.dated (hdated entry ?_)) rfl trivial
  exact (mem_foldl_mapDelete.mp hentry).1

theorem reconcileNext_ok
    (h : reconcilable p s answer.batch conflict = true) :
    ∃ ref, s.localStore.lookup conflict.recordId = some ref ∧
      ((∃ localWins, reconcileNext p s answer conflict = (s, .ok (.telemetry ref conflict.remote localWins))) ∨
        ∃ record, record.id = (s.heap ref).id ∧ record.replica.dated = true ∧
          reconcileNext p s answer conflict = ({ s with heap := Function.update s.heap ref record }, .ok .configuration)) := by
  unfold reconcilable conflicted at h
  split_ifs at h with hknown
  · cases hlookup : s.localStore.lookup conflict.recordId with
    | none =>
      rw [hlookup] at h
      cases h
    | some ref =>
      rw [hlookup] at h
      replace h : (s.heap ref).reconciles p conflict.remote = true := h
      refine ⟨ref, rfl, ?_⟩
      unfold reconcileNext reconcileConflict
      rw [if_neg (not_not.mpr hknown), hlookup]
      dsimp only
      unfold StoredRecord.reconciles at h
      cases hkind : (s.heap ref).kind with
      | telemetry =>
        rw [hkind] at h
        dsimp only at h ⊢
        cases hresolve : resolveTelemetryConflict p.localeCompare (s.heap ref).replica conflict.remote with
        | ok winner => exact .inl ⟨_, rfl⟩
        | error e =>
          rw [hresolve] at h
          cases h
      | configuration =>
        rw [hkind] at h
        dsimp only at h ⊢
        cases hmerge : mergeConfigurationConflict p.localeCompare (s.heap ref).replica conflict.remote with
        | ok merged =>
          rw [hmerge] at h
          obtain ⟨record, hrecord⟩ := @withChecksum_ok p ((s.heap ref).merged merged).attempted h
          obtain ⟨-, hreplica⟩ := withChecksum_eq hrecord
          refine .inr ⟨record, (withChecksum_id hrecord).trans rfl, ?_, ?_⟩
          · rw [hreplica]
            exact h
          · dsimp only
            rw [hrecord]
        | error e =>
          rw [hmerge] at h
          cases h
  · cases h

theorem reconcileNext_refused {answer : Answer} {conflict : UpstreamConflict}
    (h : refused p s answer.batch conflict = true) : ∃ e, reconcileNext p s answer conflict = (s, .error e) := by
  unfold refused conflicted at h
  unfold reconcileNext
  split_ifs at h ⊢ with hknown
  · cases hlookup : s.localStore.lookup conflict.recordId with
    | none => exact ⟨_, rfl⟩
    | some ref =>
      rw [hlookup] at h
      replace h : (s.heap ref).refuses p conflict.remote = true := h
      dsimp only
      unfold reconcileConflict
      unfold StoredRecord.refuses at h
      cases hkind : (s.heap ref).kind with
      | telemetry =>
        rw [hkind] at h
        dsimp only at h ⊢
        cases hresolve : resolveTelemetryConflict p.localeCompare (s.heap ref).replica conflict.remote with
        | ok winner =>
          rw [hresolve] at h
          exact absurd rfl (of_decide_eq_true h)
        | error e => exact ⟨e, rfl⟩
      | configuration =>
        rw [hkind] at h
        dsimp only at h ⊢
        cases hmerge : mergeConfigurationConflict p.localeCompare (s.heap ref).replica conflict.remote with
        | ok merged =>
          rw [hmerge] at h
          exact absurd rfl (of_decide_eq_true h)
        | error e => exact ⟨e, rfl⟩
  · exact ⟨_, rfl⟩

theorem reconcilable_update (hkeyed : ∀ entry ∈ s.localStore, (s.heap entry.2).id = entry.1) {ref : ℕ}
    (hid : record.id = (s.heap ref).id) (batch : List ℕ)
    (hne : conflict.recordId ≠ (s.heap ref).id) :
    reconcilable p { s with heap := Function.update s.heap ref record } batch conflict = reconcilable p s batch conflict := by
  have hids : batchIds { s with heap := Function.update s.heap ref record } batch = s.batchIds batch :=
    List.map_congr_left fun ref' _ => update_id hid ref'
  unfold reconcilable conflicted
  rw [hids]
  split_ifs with hknown
  · dsimp only
    cases hlookup : s.localStore.lookup conflict.recordId with
    | none => rfl
    | some ref' =>
      have hother : ref' ≠ ref := by
        rintro rfl
        exact hne (hkeyed _ (lookup_mem hlookup)).symm
      rw [Option.map_some, Option.map_some, Function.update_of_ne hother]
  · rfl

theorem reconcilable_delete {id : Text} (batch : List ℕ) (hne : conflict.recordId ≠ id) :
    reconcilable p { s with localStore := mapDelete s.localStore id } batch conflict = reconcilable p s batch conflict := by
  unfold reconcilable conflicted
  dsimp only
  rw [lookup_mapDelete hne]
  rfl

theorem reconcile_settled (hkeyed : ∀ entry ∈ s.localStore, (s.heap entry.2).id = entry.1)
    (hdated : ∀ entry ∈ s.localStore, (s.heap entry.2).replica.dated = true)
    (hbatch : ∀ ref ∈ answer.batch, (s.heap ref).replica.dated = true) {conflicts : List UpstreamConflict}
    (hlength : conflicts.length ≤ answer.conflicts.length)
    (hreconcilable : ∀ conflict ∈ conflicts, reconcilable p s answer.batch conflict = true)
    (hnodup : (conflicts.map (·.recordId)).Nodup)
    (hfirst : conflicts.length = answer.conflicts.length → s.durable = s.records) (drain : Drain) :
    Settled p (reconcile p s drain answer conflicts) := by
  cases conflicts with
  | nil => exact finishBatch_settled hdated hbatch drain
  | cons conflict rest =>
    rw [List.map_cons, List.nodup_cons] at hnodup
    obtain ⟨ref, hlookup, hnext⟩ := reconcileNext_ok (hreconcilable conflict List.mem_cons_self)
    have hmem := lookup_mem hlookup
    have hid : (s.heap ref).id = conflict.recordId := hkeyed _ hmem
    have hrest : ∀ conflict' ∈ rest, conflict'.recordId ≠ (s.heap ref).id := by
      intro conflict' hconflict' heq
      exact hnodup.1 (List.mem_map.mpr ⟨conflict', hconflict', heq.trans hid⟩)
    rcases hnext with ⟨localWins, hnext⟩ | ⟨record, hrecord, hrecorddated, hnext⟩
    · rw [reconcile, hnext]
      refine .of_waits hdated rfl ⟨hbatch, hlength, fun conflict' hconflict' => ?_, hnodup.2, ?_⟩
      · exact hreconcilable conflict' (List.mem_cons_of_mem _ hconflict')
      · intro ref' remote localWins' heq
        obtain ⟨rfl, -, -⟩ := Reconciliation.telemetry.inj heq
        refine ⟨hfirst, hdated _ hmem, ?_⟩
        show (s.heap ref).id ∉ rest.map (·.recordId)
        rw [hid]
        exact hnodup.1
    · have hupdated : ∀ ref', (s.heap ref').replica.dated = true →
          (Function.update s.heap ref record ref').replica.dated = true := by
        intro ref' href'
        by_cases heq : ref' = ref
        · rw [heq, Function.update_self]
          exact hrecorddated
        · rw [Function.update_of_ne heq]
          exact href'
      rw [reconcile, hnext]
      refine .of_waits (fun entry hentry => hupdated _ (hdated entry hentry)) rfl
        ⟨fun ref' href' => hupdated _ (hbatch ref' href'), hlength, fun conflict' hconflict' => ?_, hnodup.2, ?_⟩
      · have hsame := reconcilable_update (p := p) hkeyed hrecord answer.batch (hrest conflict' hconflict')
        exact hsame.trans (hreconcilable conflict' (List.mem_cons_of_mem _ hconflict'))
      · intro ref' remote localWins heq
        cases heq

theorem goOnReconciling_settled (hkeyed : ∀ entry ∈ s.localStore, (s.heap entry.2).id = entry.1)
    (hdated : ∀ entry ∈ s.localStore, (s.heap entry.2).replica.dated = true) {drain : Drain}
    {current : Reconciliation} {rest : List UpstreamConflict} (hholds : s.Holds p (.reconciling drain answer current rest)) :
    Settled p (goOnReconciling p s drain answer rest current) := by
  obtain ⟨hbatch, hlength, hreconcilable, hnodup, hcurrent⟩ := hholds
  have hlater : rest.length ≠ answer.conflicts.length := hlength.ne
  cases current with
  | telemetry ref remote localWins =>
    obtain ⟨-, href, hloser⟩ := hcurrent ref remote localWins rfl
    cases localWins with
    | true =>
      have hone : ∀ ref' ∈ [ref], (s.heap ref').replica.dated = true := by
        intro ref' href'
        rw [List.mem_singleton.mp href']
        exact href
      obtain ⟨heap, hcount, hsame⟩ := countAttempts_ok p hone
      rw [goOnReconciling, hcount]
      refine reconcile_settled (s := { s with heap }) (fun entry hentry => (hsame entry.2).1.trans (hkeyed entry hentry))
        (fun entry hentry => hsame.dated (hdated entry hentry)) (fun ref' href' => hsame.dated (hbatch ref' href'))
        hlength.le (fun conflict hconflict => ?_) hnodup (fun heq => absurd heq hlater) drain
      rw [hsame.reconcilable]
      exact hreconcilable conflict hconflict
    | false =>
      rw [goOnReconciling]
      refine reconcile_settled (s := { s with localStore := mapDelete s.localStore (s.heap ref).id })
        (fun entry hentry => hkeyed entry (mem_mapDelete.mp hentry).1)
        (fun entry hentry => hdated entry (mem_mapDelete.mp hentry).1) hbatch hlength.le (fun conflict hconflict => ?_) hnodup
        (fun heq => absurd heq hlater) drain
      have hne : conflict.recordId ≠ (s.heap ref).id := by
        intro heq
        exact hloser (List.mem_map.mpr ⟨conflict, hconflict, heq⟩)
      exact (reconcilable_delete answer.batch hne).trans (hreconcilable conflict hconflict)
  | configuration =>
    exact reconcile_settled hkeyed hdated hbatch hlength.le hreconcilable hnodup (fun heq => absurd heq hlater) drain

theorem goOnDraining_settled (hdated : ∀ entry ∈ s.localStore, (s.heap entry.2).replica.dated = true)
    (hdurable : s.durable = s.records) (drain : Drain) (answer : Answer) : Settled p (goOnDraining p s drain answer) := by
  unfold goOnDraining
  split_ifs
  · exact .of_idle hdated rfl hdurable
  · exact .of_idle hdated rfl hdurable
  · exact drainLoop_settled hdated hdurable drain

/-! ### Conflicts by their ids -/

theorem conflictMap_keys (conflicts : List UpstreamConflict) :
    ((conflictMap conflicts).map (·.1)).Nodup ∧ ∀ entry ∈ conflictMap conflicts, entry.1 = entry.2.recordId := by
  have hfold : ∀ (l : List UpstreamConflict) (entries : List (Text × UpstreamConflict)),
      (entries.map (·.1)).Nodup ∧ (∀ entry ∈ entries, entry.1 = entry.2.recordId) →
      ((l.foldl (fun entries conflict => mapSet entries conflict.recordId conflict) entries).map (·.1)).Nodup ∧
        ∀ entry ∈ l.foldl (fun entries conflict => mapSet entries conflict.recordId conflict) entries,
          entry.1 = entry.2.recordId := by
    intro l
    induction l with
    | nil => exact fun entries h => h
    | cons conflict rest ih =>
      intro entries h
      rw [List.foldl_cons]
      refine ih _ ⟨mapSet_keys_nodup h.1, fun entry hentry => ?_⟩
      rcases mem_mapSet hentry with rfl | hold
      · rfl
      · exact h.2 entry hold
  exact hfold conflicts [] ⟨List.nodup_nil, fun _ h => absurd h List.not_mem_nil⟩

theorem conflictMap_nodup (conflicts : List UpstreamConflict) :
    (((conflictMap conflicts).map (·.2)).map (·.recordId)).Nodup := by
  obtain ⟨hnodup, hkeys⟩ := conflictMap_keys conflicts
  rw [List.map_map]
  have heq : (conflictMap conflicts).map ((·.recordId) ∘ (·.2)) = (conflictMap conflicts).map (·.1) :=
    List.map_congr_left fun entry hentry => (hkeys entry hentry).symm
  rw [heq]
  exact hnodup

theorem acknowledge_known {batchIds acknowledged ids result : List Text} {conflicts : List (Text × UpstreamConflict)}
    (h : acknowledge batchIds conflicts acknowledged ids = .ok result) : ∀ id ∈ ids, id ∈ batchIds := by
  induction ids generalizing acknowledged with
  | nil => exact fun _ hid => absurd hid List.not_mem_nil
  | cons first rest ih =>
    intro id hid
    unfold acknowledge at h
    split_ifs at h with hknown hskip
    · rcases List.mem_cons.mp hid with rfl | hrest
      · exact hknown
      · exact ih h id hrest
    · rcases List.mem_cons.mp hid with rfl | hrest
      · exact hknown
      · exact ih h id hrest
    · cases h

/-! ### Steps of a section -/

theorem receive_settled (hkeyed : ∀ entry ∈ s.localStore, (s.heap entry.2).id = entry.1)
    (hdated : ∀ entry ∈ s.localStore, (s.heap entry.2).replica.dated = true) {drain : Drain} {batch : List ℕ} {root : Text}
    (hrunning : s.running = some (.forwarding drain batch root)) (hholds : s.Holds p (.forwarding drain batch root))
    {result : ForwardBatchResult} (hok : s.Orderly p (.answer result)) : Settled p (receive p s drain batch root result) := by
  obtain ⟨hdurable, hbatch⟩ := hholds
  rcases receive_cases p s drain batch root result with heq | heq | ⟨hroot, acknowledged, hacknowledge, heq⟩
  · rw [heq]
    exact .of_waits hdated rfl ⟨hdurable, hbatch⟩
  · rw [heq]
    exact .of_idle hdated rfl hdurable
  · rw [heq]
    unfold Orderly at hok
    rw [hrunning] at hok
    rcases hok hroot (acknowledge_known hacknowledge) with hrefused | hreconcilable
    · cases hconflicts : conflictMap result.conflicts with
      | nil => exact finishBatch_settled hdated hbatch drain
      | cons first rest =>
        rw [hconflicts] at hrefused
        have hfirst := hrefused first List.mem_cons_self
        obtain ⟨e, hnext⟩ := @reconcileNext_refused p s ⟨batch, first :: rest, acknowledged⟩ first.2 hfirst
        rw [List.map_cons, reconcile, hnext]
        exact .of_idle hdated rfl hdurable
    · refine reconcile_settled hkeyed hdated hbatch (List.length_map _).le (fun conflict hconflict => ?_)
        (conflictMap_nodup result.conflicts) (fun _ => hdurable) drain
      obtain ⟨entry, hentry, rfl⟩ := List.mem_map.mp hconflict
      exact hreconcilable entry hentry

theorem Settled.sectionStep {s' : Service} {act : Act} (happart : s.Apart) (h : Settled p s) (hok : s.Orderly p act)
    (hact : isSectionStep act = true) (hstep : step p s act = some s') : Settled p s' := by
  unfold Orderly at hok
  cases sectionStep_move hact hstep with
  | stored hrunning => exact .of_waits h.dated rfl ((happart.saving _ _ hrunning rfl).2 rfl)
  | retried hrunning => exact .of_idle h.dated rfl ((happart.saving _ _ hrunning rfl).2 rfl)
  | committed hrunning => exact goOnDraining_settled h.dated ((happart.saving _ _ hrunning rfl).2 rfl) _ _
  | notStored hrunning =>
    rw [hrunning] at hok
    have hdurable := h.waits _ hrunning rfl hok
    exact .of_idle (fun entry hentry => h.dated entry (mem_mapDelete.mp hentry).1) rfl hdurable
  | notRetried hrunning =>
    rw [hrunning] at hok
    exact hok.elim
  | notCommitted hrunning =>
    rw [hrunning] at hok
    exact hok.elim
  | processed hrunning => exact .of_idle h.dated rfl (h.waits _ hrunning)
  | answered hrunning => exact receive_settled happart.keyed h.dated hrunning (h.waits _ hrunning) hok
  | unanswered hrunning => exact retry_settled h.dated (h.waits _ hrunning).2 _
  | mismatchReported hrunning => exact retry_settled h.dated (h.waits _ hrunning).2 _
  | conflictReported hrunning => exact goOnReconciling_settled happart.keyed h.dated (h.waits _ hrunning)
  | mismatchUnreported hrunning => exact .of_idle h.dated rfl (h.waits _ hrunning).1
  | conflictUnreported hrunning =>
    rename_i drain answer current rest
    rw [hrunning] at hok
    obtain ⟨-, -, -, -, hcurrent⟩ := h.waits _ hrunning
    cases current with
    | telemetry ref remote localWins => exact .of_idle h.dated rfl ((hcurrent ref remote localWins rfl).1 hok)
    | configuration => exact hok.elim

end Sections

/-! ### Runs -/

structure Consistent (p : Setting) (s : Service) : Prop where
  apart : s.Apart
  settled : s.initialized = true → s.Settled p

theorem Consistent.start (p : Setting) (durable : List StoredRecord) : Consistent p (start durable) :=
  ⟨.start durable, fun h => by cases h⟩

/-- Sections do not overlap with `shutdown` or `initialize`, and do not fail after a change
that is not saved. -/
def Undisturbed (p : Setting) (s : Service) (act : Act) : Prop := s.Exclusive act ∧ s.Orderly p act

instance (p : Setting) (s : Service) (act : Act) : Decidable (s.Undisturbed p act) :=
  inferInstanceAs (Decidable (_ ∧ _))

section Runs
variable {p : Setting} {s s' : Service} {act : Act}

theorem mapSet_of_notMem {α : Type} {entries : List (Text × α)} {key : Text} (h : key ∉ entries.map (·.1)) (value : α) :
    mapSet entries key value = entries ++ [(key, value)] := by
  induction entries with
  | nil => rfl
  | cons first rest ih =>
    obtain ⟨k, v⟩ := first
    rw [List.map_cons, List.mem_cons, not_or] at h
    unfold mapSet
    rw [if_neg (Ne.symm h.1), ih h.2]
    rfl

theorem mapDelete_mapSet {α : Type} {entries : List (Text × α)} {key : Text} (h : key ∉ entries.map (·.1)) (value : α) :
    mapDelete (mapSet entries key value) key = entries := by
  rw [mapSet_of_notMem h, mapDelete, List.filter_append]
  have hall : entries.filter (fun entry => entry.1 ≠ key) = entries := by
    apply List.filter_eq_self.mpr
    intro entry hentry
    apply decide_eq_true
    rintro rfl
    exact h (List.mem_map_of_mem hentry)
  rw [hall]
  simp

theorem Settled.puts {id : Text} (happart : s.Apart) (h : Settled p s) (hputs : Puts p s s' id) : Settled p s' := by
  obtain ⟨ref, unsealed, hstore, hsealed⟩ := hputs.localStore
  have hdurable := h.idle hputs.running.1
  refine .of_waits (fun entry hentry => ?_) hputs.running.2 fun _ hfresh => ?_
  · rw [hstore] at hentry
    rcases mem_mapSet hentry with rfl | hold
    · rw [(withChecksum_eq hsealed).2]
      exact dated_of_withChecksum hsealed
    · rw [hputs.heap entry hold]
      exact h.dated entry hold
  · rw [hputs.durable, hdurable, happart.ids_eq] at hfresh
    rw [hputs.durable, hdurable, records, hstore, mapDelete_mapSet hfresh]
    exact List.map_congr_left fun entry hentry => (hputs.heap entry hentry).symm

theorem eq_ok_of_isOk {x : Except EdgeError Unit} (h : x.isOk = true) : x = .ok () := by
  cases x with
  | error e => cases h
  | ok u => rfl

theorem loadable_dated {loaded : List StoredRecord} (h : loadable p loaded = true) :
    ∀ record ∈ loaded, record.replica.dated = true := by
  obtain ⟨hchecks, -⟩ := of_decide_eq_true h
  intro record hrecord
  have hone := forM_ok.mp (eq_ok_of_isOk hchecks) record hrecord
  obtain ⟨-, hone⟩ := bind_unit_ok.mp hone
  obtain ⟨-, hone⟩ := bind_unit_ok.mp hone
  obtain ⟨checksum, hchecksum, -⟩ := bind_ok.mp hone
  exact dated_of_recordChecksum hchecksum

theorem holds_congr (hheap : s'.heap = s.heap) (hstore : s'.localStore = s.localStore) (hdurable : s'.durable = s.durable)
    (current : Section) : s'.Holds p current ↔ s.Holds p current := by
  cases current with
  | reconciling drain answer pending rest =>
    unfold Holds reconcilable conflicted batchIds records
    rw [hheap, hstore, hdurable]
  | _ =>
    unfold Holds records
    rw [hheap, hstore, hdurable]

theorem Settled.quiet (h : Settled p s) (hquiet : Quiet s s') : Settled p s' := by
  refine ⟨?_, ?_, fun current hcurrent => ?_⟩
  · rw [hquiet.localStore, hquiet.heap]
    exact h.dated
  · rw [hquiet.running, hquiet.durable, records, hquiet.localStore, hquiet.heap]
    exact h.idle
  · rw [hquiet.running] at hcurrent
    exact (holds_congr hquiet.heap hquiet.localStore hquiet.durable current).mpr (h.waits current hcurrent)

theorem Settled.takes (h : Settled p s) (htakes : Takes s s') : Settled p s' := by
  have hdurable : s'.durable = s'.records := by
    rw [htakes.durable, records, records, htakes.heap, htakes.localStore]
  refine ⟨?_, fun _ => hdurable, fun current hcurrent => ?_⟩
  · rw [htakes.localStore, htakes.heap]
    exact h.dated
  · rw [htakes.running] at hcurrent
    obtain ⟨before, hbefore, rfl⟩ := Option.map_eq_some_iff.mp hcurrent
    have hholds := h.waits before hbefore
    cases before with
    | storing id save => exact fun heffective => (by cases heffective)
    | processing => exact hdurable
    | forwarding | reportingMismatch =>
      refine ⟨hdurable, ?_⟩
      rw [htakes.heap]
      exact hholds.2
    | retrying | committing => trivial
    | reconciling drain answer pending rest =>
      obtain ⟨hbatch, hlength, hreconcilable, hnodup, hpending⟩ := hholds
      refine ⟨?_, hlength, ?_, hnodup, fun ref remote localWins heq => ⟨fun _ => hdurable, ?_⟩⟩
      · rw [htakes.heap]
        exact hbatch
      · unfold reconcilable conflicted batchIds
        rw [htakes.heap, htakes.localStore]
        exact hreconcilable
      · rw [htakes.heap]
        exact (hpending ref remote localWins heq).2

theorem Settled.loads (hloads : Loads p s s') : Settled p s' := by
  refine .of_idle (fun entry hentry => ?_) hloads.running (hloads.durable.trans hloads.records.symm)
  apply loadable_dated hloads.loadable
  rw [← hloads.records]
  exact List.mem_map_of_mem hentry

theorem Consistent.step (h : Consistent p s) (hok : s.Undisturbed p act) (hstep : step p s act = some s') :
    Consistent p s' := by
  obtain ⟨hexclusive, horderly⟩ := hok
  refine ⟨h.apart.step hexclusive hstep, fun hinit => ?_⟩
  cases step_effect h.apart hexclusive hstep with
  | quiet hquiet =>
    have hsettled := h.settled (hquiet.initialized.symm.trans hinit)
    exact hsettled.quiet hquiet
  | puts hact hnext hputs => exact (h.settled hputs.initialized.1).puts h.apart hputs
  | drains hquiet hidle hinit heq =>
    have hsettled := (h.settled hinit).quiet hquiet
    rw [heq]
    exact drainLoop_settled hsettled.dated (hsettled.idle (hquiet.running.trans hidle)) _
  | inside hact =>
    have hrunning := (sectionStep_move hact hstep).running
    exact (h.settled (h.apart.running hrunning).1).sectionStep h.apart horderly hact hstep
  | takes htakes => exact (h.settled htakes.initialized.1).takes htakes
  | closes hcloses => cases hcloses.initialized.symm.trans hinit
  | loads hloads => exact .loads hloads

/-- Between the sections of an initialized service, the queue holds the records of the store
in their order. -/
theorem durable_eq_records (p : Setting) (durable : List StoredRecord) {s : Service}
    (hs : Reachable (Service.step p) (Undisturbed p) (Service.start durable) s) (hinit : s.initialized = true)
    (hidle : s.running = none) : s.durable = s.records := by
  have h : Consistent p s := hs.invariant (Consistent.start p durable) fun _ _ _ h hok hstep => h.step hok hstep
  exact (h.settled hinit).idle hidle

end Runs

section OneRecord
open EdgeRun

def forwardingFails : List Act := storesRecord ++ [.reachable true, .begin none [], .forwardFails]

def retriedService : Service :=
  (exec (checked (step smallSetting) (Undisturbed smallSetting)) (start []) (forwardingFails ++ [.saveTakes, .saveReturns])).getD
    (start [])

theorem durable_eq_records_retried : retriedService.initialized = true ∧ retriedService.running.isNone = true ∧
    retriedService.records.map (·.attempts) = [1] ∧ retriedService.durable = retriedService.records := by
  have hexec : exec (checked (step smallSetting) (Undisturbed smallSetting)) (start [])
      (forwardingFails ++ [.saveTakes, .saveReturns]) = some retriedService := eq_some_getD (by decide +kernel) _
  have hinit : retriedService.initialized = true := by decide +kernel
  have hidle : retriedService.running.isNone = true := by decide +kernel
  refine ⟨hinit, hidle, by decide +kernel, ?_⟩
  exact durable_eq_records smallSetting [] (Reachable.start.of_exec_checked _ hexec) hinit (Option.isNone_iff_eq_none.mp hidle)

def unsavedService : Service := (exec (step smallSetting) (start []) (forwardingFails ++ [.saveFails])).getD (start [])

/-- An attempt that was counted is not saved. -/
theorem failed_save_diverges : ¬ ∀ s, Reachable (step smallSetting) (fun _ _ => True) (start []) s →
    s.initialized = true → s.running = none → s.durable = s.records := by
  intro hequal
  have hexec : exec (step smallSetting) (start []) (forwardingFails ++ [.saveFails]) = some unsavedService :=
    eq_some_getD (by decide +kernel) _
  have hrun := Reachable.start.of_exec (forwardingFails ++ [.saveFails]) (fun _ _ _ => trivial) hexec
  have hidle : unsavedService.running.isNone = true := by decide +kernel
  have heq := hequal unsavedService hrun (by decide +kernel) (Option.isNone_iff_eq_none.mp hidle)
  have hne : unsavedService.durable.map (·.attempts) ≠ unsavedService.records.map (·.attempts) := by decide +kernel
  exact hne (congrArg (List.map (·.attempts)) heq)

end OneRecord

end Service

end OxScada.Edge
