import OxScada.Edge.Flatten
import OxScada.Edge.Service

/-! What the steps of a section keep: they remove no record but the ones named here, change no
id, and save the records as they are. -/

namespace OxScada.Edge
open OxScada.Bytes OxScada.Runs

/-! ### Maps -/

section Maps
variable {α : Type} {entries : List (Text × α)} {key : Text} {value : α} {entry : Text × α}

theorem mem_mapDelete : entry ∈ mapDelete entries key ↔ entry ∈ entries ∧ entry.1 ≠ key := by
  rw [mapDelete, List.mem_filter, decide_eq_true_iff]

theorem mem_foldl_mapDelete {keys : List Text} : entry ∈ keys.foldl mapDelete entries ↔ entry ∈ entries ∧ entry.1 ∉ keys := by
  induction keys generalizing entries with
  | nil => simp
  | cons key keys ih => rw [List.foldl_cons, ih, mem_mapDelete, List.mem_cons, not_or, and_assoc]

theorem mem_mapSet (h : entry ∈ mapSet entries key value) : entry = (key, value) ∨ entry ∈ entries := by
  induction entries with
  | nil => exact .inl (List.mem_singleton.mp h)
  | cons first rest ih =>
    obtain ⟨k, v⟩ := first
    unfold mapSet at h
    split_ifs at h with heq
    · exact (List.mem_cons.mp h).imp_right (List.mem_cons_of_mem _)
    · rcases List.mem_cons.mp h with rfl | hrest
      · exact .inr List.mem_cons_self
      · exact (ih hrest).imp_right (List.mem_cons_of_mem _)

variable {k : Text}

theorem mem_keys_mapSet :
    k ∈ (mapSet entries key value).map (·.1) ↔ k = key ∨ k ∈ entries.map (·.1) := by
  induction entries with
  | nil => simp [mapSet]
  | cons first rest ih =>
    obtain ⟨k', v⟩ := first
    unfold mapSet
    split_ifs with heq
    · rw [heq]
      simp
    · rw [List.map_cons, List.mem_cons, ih, List.map_cons, List.mem_cons, or_left_comm]

theorem mapSet_keys_nodup (h : (entries.map (·.1)).Nodup) :
    ((mapSet entries key value).map (·.1)).Nodup := by
  induction entries with
  | nil => exact List.nodup_singleton key
  | cons first rest ih =>
    obtain ⟨k, v⟩ := first
    rw [List.map_cons, List.nodup_cons] at h
    unfold mapSet
    split_ifs with heq
    · rw [List.map_cons, List.nodup_cons, ← heq]
      exact h
    · rw [List.map_cons, List.nodup_cons]
      refine ⟨fun hmem => ?_, ih h.2⟩
      rcases mem_keys_mapSet.mp hmem with hkey | hrest
      · exact heq hkey
      · exact h.1 hrest

theorem lookup_cons_ite : (entry :: entries).lookup k = if k = entry.1 then some entry.2 else entries.lookup k := by
  obtain ⟨key, value⟩ := entry
  rw [List.lookup_cons]
  by_cases h : k = key
  · rw [if_pos h, beq_iff_eq.mpr h]
  · rw [if_neg h, beq_eq_false_iff_ne.mpr h]

theorem lookup_mapSet : (mapSet entries key value).lookup k = if k = key then some value else entries.lookup k := by
  induction entries with
  | nil => exact lookup_cons_ite
  | cons first rest ih =>
    obtain ⟨k', v⟩ := first
    unfold mapSet
    by_cases hfirst : k' = key
    · rw [if_pos hfirst, lookup_cons_ite, lookup_cons_ite, hfirst]
      by_cases hk : k = key
      · rw [if_pos hk, if_pos hk]
      · simp only [if_neg hk]
    · rw [if_neg hfirst, lookup_cons_ite, lookup_cons_ite, ih]
      by_cases hk : k = k'
      · have hne : k ≠ key := fun h => hfirst (hk.symm.trans h)
        rw [if_pos hk, if_neg hne]
        exact (if_pos hk).symm
      · simp only [if_neg hk]

theorem lookup_mapDelete {key' : Text} (hne : key ≠ key') : (mapDelete entries key').lookup key = entries.lookup key := by
  induction entries with
  | nil => rfl
  | cons first rest ih =>
    obtain ⟨k, v⟩ := first
    rw [mapDelete] at ih ⊢
    by_cases hk : k = key'
    · rw [List.filter_cons_of_neg (by simpa using hk), ih, List.lookup_cons]
      have hfirst : (key == k) = false := by
        rw [hk]
        simpa using hne
      rw [hfirst]
    · rw [List.filter_cons_of_pos (by simpa using hk), List.lookup_cons, List.lookup_cons, ih]

theorem lookup_mapDelete_self : (mapDelete entries key).lookup key = none := by
  rw [List.lookup_eq_none_iff]
  intro entry hentry
  exact bne_iff_ne.mpr (mem_mapDelete.mp hentry).2.symm

end Maps

def Section.save? : Section → Option Save
  | .storing _ save => some save
  | .retrying _ save => some save
  | .committing _ _ save => some save
  | _ => none

def Section.taken : Section → Section
  | .storing id save => .storing id { save with effective := true }
  | .retrying drain save => .retrying drain { save with effective := true }
  | .committing drain answer save => .committing drain answer { save with effective := true }
  | current => current

def Reconciliation.loser (s : Service) : Reconciliation → List Text
  | .telemetry ref _ false => [(s.heap ref).id]
  | _ => []

namespace Service

/-- What a stretch of a section leaves as it was. The records that may go are named. -/
structure Keeps (gone : List Text) (s s' : Service) : Prop where
  id_heap : ∀ ref, (s'.heap ref).id = (s.heap ref).id
  objects : s'.objects = s.objects
  durable : s'.durable = s.durable
  initialized : s'.initialized = s.initialized
  closing : s'.closing = s.closing
  initializers : s'.initializers = s.initializers
  mem : ∀ entry ∈ s'.localStore, entry ∈ s.localStore
  kept : ∀ entry ∈ s.localStore, entry.1 ∉ gone → entry ∈ s'.localStore

namespace Keeps
variable {s s' s'' : Service} {gone gone' : List Text}

theorem refl (s : Service) : Keeps [] s s :=
  ⟨fun _ => rfl, rfl, rfl, rfl, rfl, rfl, fun _ h => h, fun _ h _ => h⟩

theorem trans (h : Keeps gone s s') (h' : Keeps gone' s' s'') : Keeps (gone ++ gone') s s'' where
  id_heap ref := (h'.id_heap ref).trans (h.id_heap ref)
  objects := h'.objects.trans h.objects
  durable := h'.durable.trans h.durable
  initialized := h'.initialized.trans h.initialized
  closing := h'.closing.trans h.closing
  initializers := h'.initializers.trans h.initializers
  mem entry hentry := h.mem entry (h'.mem entry hentry)
  kept entry hentry hgone := by
    rw [List.mem_append, not_or] at hgone
    exact h'.kept entry (h.kept entry hentry hgone.1) hgone.2

theorem weaken (h : Keeps gone s s') (hsubset : gone ⊆ gone') : Keeps gone' s s' where
  __ := h
  kept entry hentry hgone := h.kept entry hentry fun hmem => hgone (hsubset hmem)

end Keeps

section Sections
variable {p : Setting} {s : Service} {drain : Drain}

theorem keeps_heap {heap : ℕ → StoredRecord} (h : ∀ ref, (heap ref).id = (s.heap ref).id) : Keeps [] s { s with heap } :=
  ⟨h, rfl, rfl, rfl, rfl, rfl, fun _ h => h, fun _ h _ => h⟩

theorem keeps_running (s : Service) (running : Option Section) : Keeps [] s { s with running } :=
  ⟨fun _ => rfl, rfl, rfl, rfl, rfl, rfl, fun _ h => h, fun _ h _ => h⟩

theorem keeps_endSection (s : Service) : Keeps [] s s.endSection :=
  ⟨fun _ => rfl, rfl, rfl, rfl, rfl, rfl, fun _ h => h, fun _ h _ => h⟩

theorem keeps_failDrain (s : Service) (drain : Drain) : Keeps [] s (s.failDrain drain) :=
  ⟨fun _ => rfl, rfl, rfl, rfl, rfl, rfl, fun _ h => h, fun _ h _ => h⟩

theorem keeps_disconnect (s : Service) : Keeps [] s s.disconnect :=
  ⟨fun _ => rfl, rfl, rfl, rfl, rfl, rfl, fun _ h => h, fun _ h _ => h⟩

theorem keeps_delete (s : Service) (gone : List Text) :
    Keeps gone s { s with localStore := gone.foldl mapDelete s.localStore } :=
  ⟨fun _ => rfl, rfl, rfl, rfl, rfl, rfl, fun _ h => (mem_foldl_mapDelete.mp h).1,
    fun _ h hgone => mem_foldl_mapDelete.mpr ⟨h, hgone⟩⟩

end Sections

theorem withChecksum_id {p : Setting} {record record' : StoredRecord}
    (h : withChecksum p.localeCompare p.sha256Hex record = .ok record') : record'.id = record.id := by
  obtain ⟨checksum, -, heq⟩ := bind_ok.mp h
  obtain rfl := Except.ok.inj heq
  rfl

theorem update_id {heap : ℕ → StoredRecord} {ref : ℕ} {record : StoredRecord} (h : record.id = (heap ref).id) (ref' : ℕ) :
    (Function.update heap ref record ref').id = (heap ref').id := by
  by_cases heq : ref' = ref
  · rw [heq, Function.update_self, h]
  · rw [Function.update_of_ne heq]

theorem countAttempts_id (p : Setting) (heap : ℕ → StoredRecord) (refs : List ℕ) (ref : ℕ) :
    ((countAttempts p heap refs).1 ref).id = (heap ref).id := by
  induction refs generalizing heap with
  | nil => rfl
  | cons first rest ih =>
    unfold countAttempts
    split
    · rename_i record hrecord
      have hid : record.id = (heap first).id := (withChecksum_id hrecord).trans rfl
      rw [ih, update_id hid]
    · have hid : (heap first).attempted.id = (heap first).id := rfl
      exact update_id hid ref

/-! ### Sections -/

section Sections
variable {p : Setting} {s : Service} {drain : Drain} {answer : Answer}

/-- A save that has just begun saves the records as they are. -/
def SavesNow (s : Service) : Prop := ∀ current save, s.running = some current → current.save? = some save → save = s.save

theorem savesNow_none (h : s.running = none) : s.SavesNow := by
  intro current save hrunning
  rw [h] at hrunning
  cases hrunning

theorem savesNow_of_none {current : Section} (h : s.running = some current) (hnone : current.save? = none) :
    s.SavesNow := by
  intro current' save hrunning hsave
  obtain rfl := Option.some.inj (h.symm.trans hrunning)
  rw [hnone] at hsave
  cases hsave

theorem drainLoop_keeps (p : Setting) (s : Service) (drain : Drain) :
    Keeps [] s (drainLoop p s drain) ∧ (drainLoop p s drain).SavesNow := by
  unfold drainLoop
  split_ifs with h
  · dsimp only
    split
    · exact ⟨keeps_running s _, savesNow_of_none rfl rfl⟩
    · exact ⟨keeps_failDrain s drain, savesNow_none rfl⟩
  · exact ⟨keeps_endSection s, savesNow_none rfl⟩

theorem retry_keeps (p : Setting) (s : Service) (drain : Drain) (batch : List ℕ) :
    Keeps [] s (retry p s drain batch) ∧ (retry p s drain batch).SavesNow := by
  have hid := countAttempts_id p s.heap batch
  unfold retry
  split
  · rename_i heap hcount
    rw [hcount] at hid
    refine ⟨(keeps_heap hid).trans (keeps_running _ _), ?_⟩
    rintro current save hrunning hsave
    obtain rfl := Option.some.inj hrunning
    exact (Option.some.inj hsave).symm
  · rename_i heap e hcount
    rw [hcount] at hid
    exact ⟨(keeps_heap hid).trans (keeps_failDrain _ _), savesNow_none rfl⟩

theorem finishBatch_keeps (p : Setting) (s : Service) (drain : Drain) (answer : Answer) :
    Keeps answer.acknowledged s (finishBatch p s drain answer) ∧ (finishBatch p s drain answer).SavesNow := by
  unfold finishBatch
  dsimp only
  generalize answer.batch.filter _ = unresolved
  have hid := countAttempts_id p s.heap unresolved
  split
  · rename_i heap hcount
    rw [hcount] at hid
    refine ⟨(keeps_heap hid).trans ((keeps_delete _ answer.acknowledged).trans (keeps_running _ _)) |>.weaken (by simp), ?_⟩
    rintro current save hrunning hsave
    obtain rfl := Option.some.inj hrunning
    exact (Option.some.inj hsave).symm
  · rename_i heap e hcount
    rw [hcount] at hid
    exact ⟨(keeps_heap hid).trans ((keeps_delete _ answer.acknowledged).trans (keeps_failDrain _ _)) |>.weaken (by simp),
      savesNow_none rfl⟩

theorem reconcileConflict_keeps (p : Setting) (s : Service) (ref : ℕ) (remote : EdgeReplicaValue) :
    Keeps [] s (reconcileConflict p s ref remote).1 := by
  unfold reconcileConflict
  split
  · split
    · exact .refl s
    · exact .refl s
  · split
    · split
      · rename_i merged hmerged record hrecord
        have hid : record.id = (s.heap ref).id := (withChecksum_id hrecord).trans rfl
        exact keeps_heap (update_id hid)
      · rename_i merged hmerged _ _ _
        have hid : ((s.heap ref).merged merged).attempted.id = (s.heap ref).id := rfl
        exact keeps_heap (update_id hid)
    · exact .refl s

theorem reconcileNext_keeps (p : Setting) (s : Service) (answer : Answer) (conflict : UpstreamConflict) :
    Keeps [] s (reconcileNext p s answer conflict).1 := by
  unfold reconcileNext
  split_ifs with h
  · split
    · exact reconcileConflict_keeps p s _ _
    · exact .refl s
  · exact .refl s

theorem reconcile_keeps (p : Setting) (s : Service) (drain : Drain) (answer : Answer) (conflicts : List UpstreamConflict) :
    Keeps answer.acknowledged s (reconcile p s drain answer conflicts) ∧ (reconcile p s drain answer conflicts).SavesNow := by
  cases conflicts with
  | nil => exact finishBatch_keeps p s drain answer
  | cons conflict rest =>
    have hkeeps := reconcileNext_keeps p s answer conflict
    rw [reconcile]
    split
    · rename_i s' current hnext
      rw [hnext] at hkeeps
      exact ⟨(hkeeps.trans (keeps_running _ _)).weaken (by simp), savesNow_of_none rfl rfl⟩
    · rename_i s' e hnext
      rw [hnext] at hkeeps
      exact ⟨(hkeeps.trans (keeps_failDrain _ _)).weaken (by simp), savesNow_none rfl⟩

theorem receive_cases (p : Setting) (s : Service) (drain : Drain) (batch : List ℕ) (root : Text) (result : ForwardBatchResult) :
    receive p s drain batch root result = { s with running := some (.reportingMismatch drain batch) } ∨
    receive p s drain batch root result = s.failDrain drain ∨
    result.verifiedMerkleRoot = root ∧ ∃ acknowledged,
      acknowledge (s.batchIds batch) (conflictMap result.conflicts) [] result.acknowledgedIds = .ok acknowledged ∧
      receive p s drain batch root result = reconcile p s drain ⟨batch, conflictMap result.conflicts, acknowledged⟩
        ((conflictMap result.conflicts).map (·.2)) := by
  unfold receive
  split_ifs with hroot
  · exact .inl rfl
  · dsimp only
    split
    · rename_i acknowledged hacknowledge
      exact .inr (.inr ⟨not_not.mp hroot, acknowledged, hacknowledge, rfl⟩)
    · exact .inr (.inl rfl)

/-- What goes when the report of a conflict returns: the record that lost, and those that were
acknowledged. -/
theorem goOnReconciling_keeps (p : Setting) (s : Service) (drain : Drain) (answer : Answer) (rest : List UpstreamConflict)
    (current : Reconciliation) :
    Keeps (current.loser s ++ answer.acknowledged) s (goOnReconciling p s drain answer rest current) ∧
      (goOnReconciling p s drain answer rest current).SavesNow := by
  unfold goOnReconciling
  split
  · rename_i ref remote
    have hid := countAttempts_id p s.heap [ref]
    split
    · rename_i heap hcount
      rw [hcount] at hid
      obtain ⟨hkeeps, hsaves⟩ := reconcile_keeps p { s with heap } drain answer rest
      exact ⟨((keeps_heap hid).trans hkeeps).weaken (by simp), hsaves⟩
    · rename_i heap e hcount
      rw [hcount] at hid
      exact ⟨((keeps_heap hid).trans (keeps_failDrain _ _)).weaken (by simp), savesNow_none rfl⟩
  · rename_i ref remote
    obtain ⟨hkeeps, hsaves⟩ :=
      reconcile_keeps p { s with localStore := mapDelete s.localStore (s.heap ref).id } drain answer rest
    exact ⟨(keeps_delete s [(s.heap ref).id]).trans hkeeps, hsaves⟩
  · obtain ⟨hkeeps, hsaves⟩ := reconcile_keeps p s drain answer rest
    exact ⟨hkeeps.weaken (by simp), hsaves⟩

theorem goOnDraining_keeps (p : Setting) (s : Service) (drain : Drain) (answer : Answer) :
    Keeps [] s (goOnDraining p s drain answer) ∧ (goOnDraining p s drain answer).SavesNow := by
  unfold goOnDraining
  split_ifs
  · exact ⟨(keeps_disconnect s).trans (keeps_endSection _), savesNow_none rfl⟩
  · exact ⟨keeps_endSection s, savesNow_none rfl⟩
  · exact drainLoop_keeps p s drain

end Sections

/-- The steps of a section that has begun, apart from what the queue does. -/
def isSectionStep : Act → Bool
  | .saveReturns | .saveFails | .processed | .answer _ | .forwardFails | .reported | .reportFails => true
  | _ => false

def removedBy (s : Service) : Act → List Text
  | .saveFails =>
    match s.running with
    | some (.storing id _) => [id]
    | _ => []
  | .answer result =>
    match s.running with
    | some (.forwarding _ batch root) =>
      if result.verifiedMerkleRoot = root then
        (acknowledge (s.batchIds batch) (conflictMap result.conflicts) [] result.acknowledgedIds).toOption.getD []
      else []
    | _ => []
  | .reported =>
    match s.running with
    | some (.reconciling _ answer current _) => current.loser s ++ answer.acknowledged
    | _ => []
  | _ => []

/-- What a step of a section does, and what the section was waiting for. -/
inductive SectionMove (p : Setting) (s : Service) : Act → Service → Prop
  | stored {id : Text} {snapshot : List StoredRecord} (h : s.running = some (.storing id ⟨snapshot, true⟩)) :
      SectionMove p s .saveReturns { s with running := some .processing }
  | retried {drain : Drain} {snapshot : List StoredRecord} (h : s.running = some (.retrying drain ⟨snapshot, true⟩)) :
      SectionMove p s .saveReturns s.disconnect.endSection
  | committed {drain : Drain} {answer : Answer} {snapshot : List StoredRecord}
      (h : s.running = some (.committing drain answer ⟨snapshot, true⟩)) :
      SectionMove p s .saveReturns (goOnDraining p s drain answer)
  | notStored {id : Text} {snapshot : List StoredRecord} (h : s.running = some (.storing id ⟨snapshot, false⟩)) :
      SectionMove p s .saveFails { s with localStore := mapDelete s.localStore id }.endSection
  | notRetried {drain : Drain} {snapshot : List StoredRecord} (h : s.running = some (.retrying drain ⟨snapshot, false⟩)) :
      SectionMove p s .saveFails (s.failDrain drain)
  | notCommitted {drain : Drain} {answer : Answer} {snapshot : List StoredRecord}
      (h : s.running = some (.committing drain answer ⟨snapshot, false⟩)) : SectionMove p s .saveFails (s.failDrain drain)
  | processed (h : s.running = some .processing) : SectionMove p s .processed { s.endSection with stores := s.stores + 1 }
  | answered {drain : Drain} {batch : List ℕ} {root : Text} {result : ForwardBatchResult}
      (h : s.running = some (.forwarding drain batch root)) :
      SectionMove p s (.answer result) (receive p s drain batch root result)
  | unanswered {drain : Drain} {batch : List ℕ} {root : Text} (h : s.running = some (.forwarding drain batch root)) :
      SectionMove p s .forwardFails (retry p s drain batch)
  | mismatchReported {drain : Drain} {batch : List ℕ} (h : s.running = some (.reportingMismatch drain batch)) :
      SectionMove p s .reported (retry p s drain batch)
  | conflictReported {drain : Drain} {answer : Answer} {current : Reconciliation} {rest : List UpstreamConflict}
      (h : s.running = some (.reconciling drain answer current rest)) :
      SectionMove p s .reported (goOnReconciling p s drain answer rest current)
  | mismatchUnreported {drain : Drain} {batch : List ℕ} (h : s.running = some (.reportingMismatch drain batch)) :
      SectionMove p s .reportFails (s.failDrain drain)
  | conflictUnreported {drain : Drain} {answer : Answer} {current : Reconciliation} {rest : List UpstreamConflict}
      (h : s.running = some (.reconciling drain answer current rest)) : SectionMove p s .reportFails (s.failDrain drain)

variable {act : Act}

theorem sectionStep_move {p : Setting} {s s' : Service} (hact : isSectionStep act = true)
    (h : step p s act = some s') : SectionMove p s act s' := by
  cases act with
  | saveReturns =>
    change returnSave p s = some s' at h
    unfold returnSave at h
    split at h
    · obtain rfl := Option.some.inj h
      exact .stored ‹_›
    · obtain rfl := Option.some.inj h
      exact .retried ‹_›
    · obtain rfl := Option.some.inj h
      exact .committed ‹_›
    · cases h
  | saveFails =>
    change s.failSave = some s' at h
    unfold failSave at h
    split at h
    · obtain rfl := Option.some.inj h
      exact .notStored ‹_›
    · obtain rfl := Option.some.inj h
      exact .notRetried ‹_›
    · obtain rfl := Option.some.inj h
      exact .notCommitted ‹_›
    · cases h
  | processed =>
    unfold step at h
    dsimp only at h
    split at h
    · obtain rfl := Option.some.inj h
      exact .processed ‹_›
    · cases h
  | answer result =>
    unfold step at h
    dsimp only at h
    split at h
    · obtain rfl := Option.some.inj h
      exact .answered ‹_›
    · cases h
  | forwardFails =>
    unfold step at h
    dsimp only at h
    split at h
    · obtain rfl := Option.some.inj h
      exact .unanswered ‹_›
    · cases h
  | reported =>
    change report p s = some s' at h
    unfold report at h
    split at h
    · obtain rfl := Option.some.inj h
      exact .mismatchReported ‹_›
    · obtain rfl := Option.some.inj h
      exact .conflictReported ‹_›
    · cases h
  | reportFails =>
    change s.failReport = some s' at h
    unfold failReport at h
    split at h
    · obtain rfl := Option.some.inj h
      exact .mismatchUnreported ‹_›
    · obtain rfl := Option.some.inj h
      exact .conflictUnreported ‹_›
    · cases h
  | _ => cases hact

theorem SectionMove.running {p : Setting} {s s' : Service} (h : SectionMove p s act s') : s.running ≠ none := by
  cases h with
  | _ hrunning =>
    rw [hrunning]
    exact Option.some_ne_none _

theorem SectionMove.keeps {p : Setting} {s s' : Service} (h : SectionMove p s act s') :
    Keeps (s.removedBy act) s s' ∧ s'.SavesNow := by
  cases h with
  | stored => exact ⟨keeps_running s _, savesNow_of_none rfl rfl⟩
  | retried => exact ⟨(keeps_disconnect s).trans (keeps_endSection _), savesNow_none rfl⟩
  | committed => exact goOnDraining_keeps p s _ _
  | notStored hrunning =>
    rename_i id snapshot
    unfold removedBy
    rw [hrunning]
    exact ⟨(keeps_delete s [id]).trans (keeps_endSection _), savesNow_none rfl⟩
  | notRetried | notCommitted => exact ⟨(keeps_failDrain s _).weaken (List.nil_subset _), savesNow_none rfl⟩
  | processed => exact ⟨⟨fun _ => rfl, rfl, rfl, rfl, rfl, rfl, fun _ h => h, fun _ h _ => h⟩, savesNow_none rfl⟩
  | answered hrunning =>
    rename_i drain batch root result
    unfold removedBy
    rw [hrunning]
    dsimp only
    rcases receive_cases p s drain batch root result with heq | heq | ⟨hroot, acknowledged, hacknowledge, heq⟩
    · rw [heq]
      exact ⟨(keeps_running s _).weaken (List.nil_subset _), savesNow_of_none rfl rfl⟩
    · rw [heq]
      exact ⟨(keeps_failDrain s drain).weaken (List.nil_subset _), savesNow_none rfl⟩
    · rw [heq, if_pos hroot, hacknowledge]
      exact reconcile_keeps p s drain ⟨batch, conflictMap result.conflicts, acknowledged⟩ _
  | unanswered => exact retry_keeps p s _ _
  | mismatchReported hrunning =>
    unfold removedBy
    rw [hrunning]
    exact retry_keeps p s _ _
  | conflictReported hrunning =>
    unfold removedBy
    rw [hrunning]
    exact goOnReconciling_keeps p s _ _ _ _
  | mismatchUnreported | conflictUnreported => exact ⟨keeps_failDrain s _, savesNow_none rfl⟩

end Service

end OxScada.Edge
