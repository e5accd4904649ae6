import OxScada.Edge.Durability

/-! How long the loop of `synchronizeNow` goes on. Every round that is followed by another one has removed a record, so it asks the
transport at most once for each record that was there, whatever the transport answers. -/

namespace OxScada.Edge
open OxScada.Bytes OxScada.Runs

/-! ### Deleting from a map -/

section Maps
variable {α : Type} {entries : List (Text × α)}

theorem sublist_of_eq {l l' : List (Text × α)} (h : l = l') : l.Sublist l' := h ▸ .refl l

theorem foldl_mapDelete_sublist (keys : List Text) : (keys.foldl mapDelete entries).Sublist entries := by
  induction keys generalizing entries with
  | nil => exact .refl _
  | cons key rest ih => exact ih.trans List.filter_sublist

theorem mapDelete_length {key : Text} (hnodup : (entries.map (·.1)).Nodup) (hkey : key ∈ entries.map (·.1)) :
    (mapDelete entries key).length + 1 = entries.length := by
  induction entries with
  | nil => cases hkey
  | cons entry rest ih =>
    obtain ⟨hnew, hrest⟩ := List.nodup_cons.mp hnodup
    by_cases h : entry.1 = key
    · have hsame : mapDelete (entry :: rest) key = rest := by
        unfold mapDelete
        rw [List.filter_cons_of_neg (by simpa using h)]
        apply List.filter_eq_self.mpr
        intro other hother
        have hne : other.1 ≠ key := fun heq => hnew (List.mem_map.mpr ⟨other, hother, heq.trans h.symm⟩)
        simpa using hne
      rw [hsame, List.length_cons]
    · have hkept : mapDelete (entry :: rest) key = entry :: mapDelete rest key := by
        unfold mapDelete
        exact List.filter_cons_of_pos (by simpa using h)
      have hmem : key ∈ rest.map (·.1) := by
        rw [List.map_cons, List.mem_cons] at hkey
        exact hkey.resolve_left (Ne.symm h)
      rw [hkept, List.length_cons, List.length_cons, ih hrest hmem]

theorem foldl_mapDelete_length {keys : List Text} (hnodup : (entries.map (·.1)).Nodup) (hkeys : keys.Nodup)
    (hmem : ∀ key ∈ keys, key ∈ entries.map (·.1)) : (keys.foldl mapDelete entries).length + keys.length = entries.length := by
  induction keys generalizing entries with
  | nil => rfl
  | cons key rest ih =>
    obtain ⟨hnew, hrest⟩ := List.nodup_cons.mp hkeys
    have hsub : ((mapDelete entries key).map (·.1)).Sublist (entries.map (·.1)) := List.filter_sublist.map _
    have hleft : ∀ other ∈ rest, other ∈ (mapDelete entries key).map (·.1) := by
      intro other hother
      obtain ⟨entry, hentry, heq⟩ := List.mem_map.mp (hmem other (List.mem_cons_of_mem _ hother))
      refine List.mem_map.mpr ⟨entry, mem_mapDelete.mpr ⟨hentry, ?_⟩, heq⟩
      rw [heq]
      rintro rfl
      exact hnew hother
    have hone := mapDelete_length hnodup (hmem key List.mem_cons_self)
    have htail := ih (hnodup.sublist hsub) hrest hleft
    rw [List.foldl_cons, List.length_cons]
    omega

end Maps

namespace Service
variable {p : Setting} {s s' : Service}

/-! ### The store of records -/

structure Indexed (s : Service) : Prop where
  fresh : ∀ entry ∈ s.localStore, entry.2 < s.objects
  keyed : ∀ entry ∈ s.localStore, (s.heap entry.2).id = entry.1
  nodup : s.ids.Nodup

theorem Indexed.sub (h : Indexed s) (hid : ∀ ref, (s'.heap ref).id = (s.heap ref).id) (hobjects : s'.objects = s.objects)
    (hsub : s'.localStore.Sublist s.localStore) : Indexed s' where
  fresh entry hentry := hobjects ▸ h.fresh entry (hsub.subset hentry)
  keyed entry hentry := (hid entry.2).trans (h.keyed entry (hsub.subset hentry))
  nodup := h.nodup.sublist (hsub.map _)

theorem Indexed.ofEmpty (h : s.localStore = []) : Indexed s := by
  refine ⟨?_, ?_, ?_⟩
  · simp [h]
  · simp [h]
  · simp [ids, h]

theorem reconcileConflict_store (p : Setting) (s : Service) (ref : ℕ) (remote : EdgeReplicaValue) :
    (reconcileConflict p s ref remote).1.localStore = s.localStore := by
  unfold reconcileConflict
  split
  · split <;> rfl
  · split
    · split <;> rfl
    · rfl

theorem reconcileNext_store (p : Setting) (s : Service) (answer : Answer) (conflict : UpstreamConflict) :
    (reconcileNext p s answer conflict).1.localStore = s.localStore := by
  unfold reconcileNext
  split_ifs
  · split
    · exact reconcileConflict_store p s _ _
    · rfl
  · rfl

theorem finishBatch_store (p : Setting) (s : Service) (drain : Drain) (answer : Answer) :
    (finishBatch p s drain answer).localStore = answer.acknowledged.foldl mapDelete s.localStore := by
  unfold finishBatch
  dsimp only
  split <;> rfl

theorem reconcile_store (p : Setting) (s : Service) (drain : Drain) (answer : Answer) (conflicts : List UpstreamConflict) :
    (reconcile p s drain answer conflicts).localStore.Sublist s.localStore := by
  cases conflicts with
  | nil =>
    rw [reconcile, finishBatch_store]
    exact foldl_mapDelete_sublist _
  | cons conflict rest =>
    have hstore := reconcileNext_store p s answer conflict
    rw [reconcile]
    split
    · rename_i current hnext
      rw [hnext] at hstore
      exact sublist_of_eq hstore
    · rename_i e hnext
      rw [hnext] at hstore
      exact sublist_of_eq hstore

theorem drainLoop_store (p : Setting) (s : Service) (drain : Drain) : (drainLoop p s drain).localStore = s.localStore := by
  unfold drainLoop
  split_ifs
  · dsimp only
    split <;> rfl
  · rfl

theorem retry_store (p : Setting) (s : Service) (drain : Drain) (batch : List ℕ) : (retry p s drain batch).localStore = s.localStore := by
  unfold retry
  split <;> rfl

theorem goOnReconciling_store (p : Setting) (s : Service) (drain : Drain) (answer : Answer) (rest : List UpstreamConflict)
    (current : Reconciliation) : (goOnReconciling p s drain answer rest current).localStore.Sublist s.localStore := by
  unfold goOnReconciling
  split
  · split
    · exact reconcile_store p _ drain answer rest
    · exact .refl _
  · exact (reconcile_store p _ drain answer rest).trans List.filter_sublist
  · exact reconcile_store p s drain answer rest

theorem goOnDraining_store (p : Setting) (s : Service) (drain : Drain) (answer : Answer) :
    (goOnDraining p s drain answer).localStore = s.localStore := by
  unfold goOnDraining
  split_ifs
  · rfl
  · rfl
  · exact drainLoop_store p s drain

variable {act : Act} {drain : Drain} {answer : Answer}

theorem SectionMove.store (h : SectionMove p s act s') : s'.localStore.Sublist s.localStore := by
  cases h with
  | stored | retried | notRetried | notCommitted | processed | mismatchUnreported | conflictUnreported => exact .refl _
  | committed => exact sublist_of_eq (goOnDraining_store p s _ _)
  | notStored => exact List.filter_sublist
  | answered =>
    rename_i drain batch root result hrunning
    rcases receive_cases p s drain batch root result with heq | heq | ⟨-, acknowledged, -, heq⟩
    · rw [heq]
    · rw [heq]
      exact .refl _
    · rw [heq]
      exact reconcile_store p s drain _ _
  | unanswered | mismatchReported => exact sublist_of_eq (retry_store p s _ _)
  | conflictReported => exact goOnReconciling_store p s _ _ _ _

theorem Indexed.section (h : Indexed s) (hmove : SectionMove p s act s') : Indexed s' := by
  obtain ⟨hkeeps, -⟩ := hmove.keeps
  exact h.sub hkeeps.id_heap hkeeps.objects hmove.store

theorem Indexed.beginStore (h : Indexed s) (input : StoreInput) (now : Option ℤ) (id : Text) : Indexed (beginStore p s input now id) := by
  unfold Service.beginStore
  split_ifs
  · exact h.sub (fun _ => rfl) rfl (.refl _)
  · exact h.sub (fun _ => rfl) rfl (.refl _)
  · split
    · rename_i record hrecord
      refine ⟨fun entry hentry => ?_, fun entry hentry => ?_, mapSet_keys_nodup h.nodup⟩
      · rcases mem_mapSet hentry with rfl | hmem
        · exact Nat.lt_succ_self _
        · exact Nat.lt_succ_of_lt (h.fresh entry hmem)
      · dsimp only
        rcases mem_mapSet hentry with rfl | hmem
        · rw [Function.update_self]
        · rw [Function.update_of_ne (h.fresh entry hmem).ne]
          exact h.keyed entry hmem
    · exact h.sub (fun _ => rfl) rfl (.refl _)

theorem Indexed.installRecords (s : Service) {loaded : List StoredRecord} (h : loadable p loaded = true) : Indexed (s.installRecords loaded) := by
  refine ⟨fun entry hentry => ?_, fun entry hentry => ?_, ?_⟩
  · obtain ⟨i, record, hrecord, rfl, -⟩ := installRecords_mem hentry
    exact Nat.add_lt_add_left (List.getElem?_eq_some_iff.mp hrecord).1 _
  · obtain ⟨i, record, -, rfl, hheap⟩ := installRecords_mem hentry
    rw [hheap]
  · have hids : (s.installRecords loaded).ids = loaded.map (·.id) := by
      apply List.ext_getElem?
      intro i
      simp [ids, Service.installRecords, List.getElem?_mapIdx]
      rfl
    rw [hids]
    unfold loadable at h
    exact (decide_eq_true_iff.mp h).2

theorem Indexed.step (h : Indexed s) {act : Act} (hstep : step p s act = some s') : Indexed s' := by
  have hsame : ∀ {s' : Service}, s'.heap = s.heap → s'.objects = s.objects → s'.localStore = s.localStore → Indexed s' :=
    fun hheap hobjects hstore => h.sub (fun ref => by rw [hheap]) hobjects (sublist_of_eq hstore)
  cases step_move hstep with
  | flags | initializes | closingTakes | closingFails | reads | givesUp => exact hsame rfl rfl rfl
  | begins hbegin =>
    unfold Service.beginNext at hbegin
    split at hbegin
    · rename_i input rest hrunning hoperations
      obtain rfl := Option.some.inj hbegin
      have hrest : Indexed { s with operations := rest } := hsame rfl rfl rfl
      exact hrest.beginStore input _ _
    · rename_i caller rest hrunning hoperations
      obtain rfl := Option.some.inj hbegin
      obtain ⟨hkeeps, -⟩ := drainLoop_keeps p { s with operations := rest } ⟨caller, 0⟩
      exact h.sub hkeeps.id_heap hkeeps.objects (sublist_of_eq (drainLoop_store p _ _))
    · cases hbegin
  | takes htakes =>
    unfold Service.takeSave at htakes
    split at htakes
    · obtain rfl := Option.some.inj htakes
      exact hsame rfl rfl rfl
    · obtain rfl := Option.some.inj htakes
      exact hsame rfl rfl rfl
    · obtain rfl := Option.some.inj htakes
      exact hsame rfl rfl rfl
    · cases htakes
  | inside hact hinside => exact h.section (sectionStep_move hact hinside)
  | goesOnShutdown i =>
    unfold goOnShutdown
    split_ifs
    · exact hsame rfl rfl rfl
    · exact .ofEmpty rfl
  | closingReturns | crashes => exact .ofEmpty rfl
  | installs _ hloadable => exact .installRecords _ hloadable

theorem reachable_indexed {durable : List StoredRecord} (hs : Reachable (Service.step p) (fun _ _ => True) (start durable) s) : Indexed s :=
  hs.invariant (.ofEmpty rfl) fun _ _ _ h _ hstep => Indexed.step h hstep

/-! ### What a drain does -/

def drain? (s : Service) : Option Drain :=
  match s.running with
  | some (.forwarding drain _ _) | some (.reportingMismatch drain _) | some (.retrying drain _) | some (.reconciling drain _ _ _)
  | some (.committing drain _ _) => some drain
  | _ => none

/-- The calls of `transport.forward` of a step: one where the loop of `synchronizeNow` begins a round. -/
def forwardCalls (_ : Service) (act : Act) (s' : Service) : ℕ :=
  match act, s'.running with
  | .begin _ _, some (.forwarding _ _ _) | .saveReturns, some (.forwarding _ _ _) => 1
  | _, _ => 0

/-- The records that the loop over the acknowledged ids takes out of the store. -/
def removals (s : Service) (_ : Act) (s' : Service) : ℕ :=
  match s'.running with
  | some (.committing _ answer _) => (s.ids.filter fun id => id ∈ answer.acknowledged ∧ id ∉ s'.ids).length
  | _ => 0

def total (p : Setting) (count : Service → Act → Service → ℕ) : Service → List Act → ℕ
  | _, [] => 0
  | s, act :: rest =>
    match step p s act with
    | some s' => count s act s' + total p count s' rest
    | none => 0

/-- The steps while a drain is under way: those of the drain, and calls of the other functions, as long as the service stays
initialized and nothing but the drain touches its store. -/
def meanwhile : Act → Bool
  | .begin _ _ | .shutdownSaveReturns _ | .install _ | .crash => false
  | _ => true

/-! ### The pace -/

/-- What holds where a section of a drain waits that began with `size` records, has called `transport.forward` `calls` times and
removed `removed` records. -/
def Underway (size calls removed : ℕ) (s : Service) : Section → Prop
  | .storing _ _ | .processing => False
  | .forwarding drain batch _ => drain.forwarded = removed ∧ calls ≤ removed + 1 ∧ s.localStore.length + removed = size ∧
      ∀ ref ∈ batch, ref ∈ s.localStore.map (·.2)
  | .reportingMismatch drain _ | .retrying drain _ => drain.forwarded = removed
  | .reconciling drain answer current rest => drain.forwarded = removed ∧ answer.conflicts ≠ [] ∧ answer.acknowledged.Nodup ∧
      (∀ id ∈ answer.acknowledged, id ∈ s.ids) ∧ (∀ conflict ∈ rest, conflict.recordId ∉ answer.acknowledged) ∧
      ∀ id ∈ current.loser s, id ∉ answer.acknowledged
  | .committing drain answer _ => drain.forwarded = removed ∧
      (answer.conflicts = [] → answer.acknowledged ≠ [] → calls ≤ removed ∧ s.localStore.length + removed = size)

structure Paced (size calls removed : ℕ) (s : Service) : Prop where
  bounded : calls ≤ size
  underway : ∀ current, s.running = some current → s.Underway size calls removed current

variable {size calls removed : ℕ}

theorem Paced.of_idle (hcalls : calls ≤ size) (h : s.running = none) : Paced size calls removed s := by
  refine ⟨hcalls, fun current hrunning => ?_⟩
  rw [h] at hrunning
  cases hrunning

theorem Paced.of_running (hcalls : calls ≤ size) {current : Section} (h : s.running = some current)
    (hunderway : s.Underway size calls removed current) : Paced size calls removed s := by
  refine ⟨hcalls, fun other hrunning => ?_⟩
  obtain rfl := Option.some.inj (h.symm.trans hrunning)
  exact hunderway

theorem Paced.forwarded (h : Paced size calls removed s) (hdrain : s.drain? = some drain) : drain.forwarded = removed := by
  unfold drain? at hdrain
  split at hdrain
  · rename_i hrunning
    obtain rfl := Option.some.inj hdrain
    exact (h.underway _ hrunning).1
  · rename_i hrunning
    obtain rfl := Option.some.inj hdrain
    exact h.underway _ hrunning
  · rename_i hrunning
    obtain rfl := Option.some.inj hdrain
    exact h.underway _ hrunning
  · rename_i hrunning
    obtain rfl := Option.some.inj hdrain
    exact (h.underway _ hrunning).1
  · rename_i hrunning
    obtain rfl := Option.some.inj hdrain
    exact (h.underway _ hrunning).1
  · cases hdrain

theorem forwardCalls_idle (s : Service) (act : Act) (h : s'.running = none) : forwardCalls s act s' = 0 := by
  unfold forwardCalls
  rw [h]
  cases act <;> rfl

theorem removals_idle (s : Service) (act : Act) (h : s'.running = none) : removals s act s' = 0 := by
  unfold removals
  rw [h]

theorem removals_acknowledged {save : Save} (hids : s.ids.Nodup)
    (hnodup : answer.acknowledged.Nodup) (hmem : ∀ id ∈ answer.acknowledged, id ∈ s.ids) (hgone : ∀ id ∈ answer.acknowledged, id ∉ s'.ids)
    (h : s'.running = some (.committing drain answer save)) : removals s act s' = answer.acknowledged.length := by
  unfold removals
  rw [h]
  apply List.Perm.length_eq
  apply (List.perm_ext_iff_of_nodup (hids.filter _) hnodup).mpr
  intro id
  rw [List.mem_filter, decide_eq_true_iff]
  exact ⟨fun hid => hid.2.1, fun hid => ⟨hmem id hid, hid, hgone id hid⟩⟩

/-! ### Rounds -/

theorem drainLoop_paced {drain : Drain} (hforwarded : drain.forwarded = removed) (hcalls : calls ≤ removed)
    (hsize : s.localStore.length + removed = size) {act : Act} (hact : act = .saveReturns ∨ ∃ now id, act = .begin now id) (before : Service) :
    Paced size (calls + forwardCalls before act (drainLoop p s drain)) (removed + removals before act (drainLoop p s drain))
      (drainLoop p s drain) := by
  by_cases hwork : s.localStore ≠ [] ∧ s.isConnected = true
  · have hpos := List.length_pos_of_ne_nil hwork.1
    cases hpayloads : ((s.localStore.map (·.2)).take p.config.forwardBatchSize).mapM fun ref => integrityPayload (s.heap ref) with
    | ok payloads =>
      have hloop : drainLoop p s drain = { s with running := some (.forwarding drain ((s.localStore.map (·.2)).take p.config.forwardBatchSize)
          (merkleRoot p.localeCompare p.sha256Hex payloads)) } := by
        unfold drainLoop
        rw [if_pos hwork]
        dsimp only
        rw [hpayloads]
      have hone : forwardCalls before act (drainLoop p s drain) = 1 := by
        rw [hloop]
        rcases hact with rfl | ⟨now, id, rfl⟩ <;> rfl
      have hzero : removals before act (drainLoop p s drain) = 0 := by
        rw [hloop]
        rfl
      rw [hone, hzero, hloop]
      refine .of_running (by omega) rfl ⟨hforwarded, by omega, hsize, ?_⟩
      intro ref href
      exact List.mem_of_mem_take href
    | error e =>
      have hidle : (drainLoop p s drain).running = none := by
        unfold drainLoop
        rw [if_pos hwork]
        dsimp only
        rw [hpayloads]
        rfl
      rw [forwardCalls_idle before act hidle, removals_idle before act hidle]
      exact .of_idle (by omega) hidle
  · have hidle : (drainLoop p s drain).running = none := by
      unfold drainLoop
      rw [if_neg hwork]
      rfl
    rw [forwardCalls_idle before act hidle, removals_idle before act hidle]
    exact .of_idle (by omega) hidle

theorem retry_paced (hcalls : calls ≤ size) (hforwarded : drain.forwarded = removed) (act : Act) (batch : List ℕ) (before : Service) :
    Paced size calls (removed + removals before act (retry p s drain batch)) (retry p s drain batch) := by
  unfold retry
  split
  · exact .of_running hcalls rfl hforwarded
  · exact .of_idle hcalls rfl

theorem finishBatch_paced (hcalls : calls ≤ size) (hforwarded : drain.forwarded = removed) {before : Service}
    (hbefore : before.ids.Nodup) (hsub : ∀ id ∈ s.ids, id ∈ before.ids) (hindexed : Indexed s) (hnodup : answer.acknowledged.Nodup)
    (hmem : ∀ id ∈ answer.acknowledged, id ∈ s.ids)
    (hround : answer.conflicts = [] → calls ≤ removed + 1 ∧ s.localStore.length + removed = size) (act : Act) :
    Paced size calls (removed + removals before act (finishBatch p s drain answer)) (finishBatch p s drain answer) := by
  have hstore := finishBatch_store p s drain answer
  have hgone : ∀ id ∈ answer.acknowledged, id ∉ (finishBatch p s drain answer).ids := by
    intro id hid hleft
    unfold ids at hleft
    rw [hstore] at hleft
    obtain ⟨entry, hentry, rfl⟩ := List.mem_map.mp hleft
    exact (mem_foldl_mapDelete.mp hentry).2 hid
  have hlength := foldl_mapDelete_length hindexed.nodup hnodup hmem
  rw [← hstore] at hlength
  have hshape : (finishBatch p s drain answer).running = none ∨ ∃ save, (finishBatch p s drain answer).running =
      some (.committing { drain with forwarded := drain.forwarded + answer.acknowledged.length } answer save) := by
    unfold finishBatch
    dsimp only
    split
    · exact .inr ⟨_, rfl⟩
    · exact .inl rfl
  rcases hshape with hidle | ⟨save, hrunning⟩
  · exact .of_idle hcalls hidle
  · rw [removals_acknowledged hbefore hnodup (fun id hid => hsub id (hmem id hid)) hgone hrunning]
    refine .of_running hcalls hrunning ⟨by rw [← hforwarded], fun hconflicts hne => ?_⟩
    obtain ⟨hpace, hsize⟩ := hround hconflicts
    have hpos := List.length_pos_of_ne_nil hne
    constructor <;> omega

theorem reconcileNext_loser {answer : Answer} {conflict : UpstreamConflict} {current : Reconciliation} (hindexed : Indexed s)
    (h : (reconcileNext p s answer conflict).2 = .ok current) {id : Text} (hid : id ∈ current.loser (reconcileNext p s answer conflict).1) :
    id = conflict.recordId := by
  have hheap := (reconcileNext_keeps p s answer conflict).id_heap
  unfold reconcileNext at h
  split_ifs at h with hknown
  · cases hlookup : s.localStore.lookup conflict.recordId with
    | none =>
      rw [hlookup] at h
      cases h
    | some ref =>
      rw [hlookup] at h
      dsimp only at h
      unfold reconcileConflict at h
      split at h
      · split at h
        · obtain rfl := Except.ok.inj h
          unfold Reconciliation.loser at hid
          split at hid
          · rename_i heq
            obtain ⟨rfl, -, -⟩ := Reconciliation.telemetry.inj heq
            rw [List.mem_singleton.mp hid, hheap]
            exact hindexed.keyed _ (lookup_mem hlookup)
          · cases hid
        · cases h
      · split at h
        · split at h
          · obtain rfl := Except.ok.inj h
            cases hid
          · cases h
        · cases h
  · cases h

theorem reconcile_paced {drain : Drain} {answer : Answer} {conflicts : List UpstreamConflict} (hcalls : calls ≤ size)
    (hforwarded : drain.forwarded = removed) {before : Service} (hbefore : before.ids.Nodup) (hsub : ∀ id ∈ s.ids, id ∈ before.ids)
    (hindexed : Indexed s) (hnodup : answer.acknowledged.Nodup) (hmem : ∀ id ∈ answer.acknowledged, id ∈ s.ids)
    (hconflicts : ∀ conflict ∈ conflicts, conflict.recordId ∉ answer.acknowledged) (hlist : conflicts ≠ [] → answer.conflicts ≠ [])
    (hround : answer.conflicts = [] → calls ≤ removed + 1 ∧ s.localStore.length + removed = size) (act : Act) :
    Paced size calls (removed + removals before act (reconcile p s drain answer conflicts)) (reconcile p s drain answer conflicts) := by
  cases conflicts with
  | nil => exact finishBatch_paced hcalls hforwarded hbefore hsub hindexed hnodup hmem hround act
  | cons conflict rest =>
    obtain ⟨hfirst, hrest⟩ := List.forall_mem_cons.mp hconflicts
    have hstore := reconcileNext_store p s answer conflict
    have hloser := fun current => @reconcileNext_loser p s answer conflict current hindexed
    rw [reconcile]
    split
    · rename_i next current hnext
      rw [hnext] at hstore hloser
      refine .of_running hcalls rfl ⟨hforwarded, hlist (List.cons_ne_nil _ _), hnodup, fun id hid => ?_, hrest, fun id hid hack => ?_⟩
      · unfold ids
        rw [hstore]
        exact hmem id hid
      · rw [hloser current rfl hid] at hack
        exact hfirst hack
    · exact .of_idle hcalls rfl

theorem acknowledge_nodup {batchIds acknowledged ids result : List Text} {conflicts : List (Text × UpstreamConflict)}
    (h : acknowledge batchIds conflicts acknowledged ids = .ok result) (hnodup : acknowledged.Nodup) : result.Nodup := by
  induction ids generalizing acknowledged with
  | nil =>
    obtain rfl := Except.ok.inj h
    exact hnodup
  | cons first rest ih =>
    unfold acknowledge at h
    split_ifs at h with hknown hskip
    · exact ih h hnodup
    · rw [not_or] at hskip
      exact ih h (hnodup.append (List.nodup_singleton first) (List.disjoint_singleton.mpr hskip.2))
    · cases h

theorem receive_paced {batch : List ℕ} {root : Text} (hindexed : Indexed s) (hcalls : calls ≤ size)
    (h : s.Underway size calls removed (.forwarding drain batch root)) (act : Act) (result : ForwardBatchResult) :
    Paced size calls (removed + removals s act (receive p s drain batch root result)) (receive p s drain batch root result) := by
  obtain ⟨hforwarded, hpace, hsize, hbatch⟩ := h
  rcases receive_cases p s drain batch root result with heq | heq | ⟨-, acknowledged, hacknowledge, heq⟩
  · rw [heq]
    exact .of_running hcalls rfl hforwarded
  · rw [heq]
    exact .of_idle hcalls rfl
  · have hmem := fun (id : Text) hid => (acknowledge_mem hacknowledge (show id ∈ acknowledged from hid)).resolve_left List.not_mem_nil
    rw [heq]
    let answer : Answer := ⟨batch, conflictMap result.conflicts, acknowledged⟩
    refine @reconcile_paced _ _ _ _ _ _ answer _ hcalls hforwarded _ hindexed.nodup (fun _ hid => hid) hindexed
      (acknowledge_nodup hacknowledge List.nodup_nil) (fun id hid => ?_) (fun conflict hconflict hack => ?_) (fun hne hnil => ?_)
      (fun _ => ⟨hpace, hsize⟩) act
    · -- the id is that of a record of the batch, and so of one in the store
      obtain ⟨ref, href, rfl⟩ := List.mem_map.mp (hmem id hid).2.1
      obtain ⟨entry, hentry, rfl⟩ := List.mem_map.mp (hbatch ref href)
      rw [hindexed.keyed entry hentry]
      exact List.mem_map_of_mem hentry
    · obtain ⟨entry, hentry, rfl⟩ := List.mem_map.mp hconflict
      have hkey := (conflictMap_keys result.conflicts).2 entry hentry
      have hnone := List.lookup_eq_none_iff.mp (hmem _ hack).2.2 entry hentry
      rw [hkey] at hnone
      simp at hnone
    · have hconflicts : conflictMap result.conflicts = [] := hnil
      exact hne (by rw [hconflicts]; rfl)

theorem goOnReconciling_paced {current : Reconciliation} {rest : List UpstreamConflict} (hindexed : Indexed s)
    (hcalls : calls ≤ size) (h : s.Underway size calls removed (.reconciling drain answer current rest)) (act : Act) :
    Paced size calls (removed + removals s act (goOnReconciling p s drain answer rest current)) (goOnReconciling p s drain answer rest current) := by
  obtain ⟨hforwarded, hconflicts, hnodup, hmem, hrest, hloser⟩ := h
  have hround : ∀ t : Service, answer.conflicts = [] → calls ≤ removed + 1 ∧ t.localStore.length + removed = size :=
    fun _ hnil => absurd hnil hconflicts
  unfold goOnReconciling
  split
  · rename_i ref remote
    have hid := countAttempts_id p s.heap [ref]
    split
    · rename_i heap hcount
      rw [hcount] at hid
      have hheap : Indexed { s with heap } := hindexed.sub hid rfl (.refl _)
      exact reconcile_paced (s := { s with heap }) hcalls hforwarded hindexed.nodup (fun _ hid => hid) hheap hnodup hmem hrest (fun _ => hconflicts) (hround _) act
    · exact .of_idle hcalls rfl
  · rename_i ref remote
    have hlost : (s.heap ref).id ∉ answer.acknowledged := hloser _ List.mem_cons_self
    have hleft : Indexed { s with localStore := mapDelete s.localStore (s.heap ref).id } := hindexed.sub (fun _ => rfl) rfl List.filter_sublist
    refine reconcile_paced hcalls hforwarded hindexed.nodup (fun id hid => ?_) hleft hnodup (fun id hid => ?_) hrest (fun _ => hconflicts) (hround _) act
    · obtain ⟨entry, hentry, rfl⟩ := List.mem_map.mp hid
      exact List.mem_map_of_mem (mem_mapDelete.mp hentry).1
    · obtain ⟨entry, hentry, rfl⟩ := List.mem_map.mp (hmem id hid)
      refine List.mem_map_of_mem (mem_mapDelete.mpr ⟨hentry, ?_⟩)
      rintro heq
      rw [heq] at hid
      exact hlost hid
  · exact reconcile_paced hcalls hforwarded hindexed.nodup (fun _ hid => hid) hindexed hnodup hmem hrest (fun _ => hconflicts) (hround _) act

theorem goOnDraining_paced {save : Save} (hcalls : calls ≤ size)
    (h : s.Underway size calls removed (.committing drain answer save)) :
    Paced size (calls + forwardCalls s .saveReturns (goOnDraining p s drain answer))
      (removed + removals s .saveReturns (goOnDraining p s drain answer)) (goOnDraining p s drain answer) := by
  obtain ⟨hforwarded, hround⟩ := h
  unfold goOnDraining
  split_ifs with hnone hconflicts
  · exact .of_idle hcalls rfl
  · exact .of_idle hcalls rfl
  · rw [not_not] at hconflicts
    obtain ⟨hpace, hsize⟩ := hround hconflicts fun hempty => hnone ⟨hempty, hconflicts⟩
    exact drainLoop_paced hforwarded hpace hsize (.inl rfl) s

/-! ### Steps -/

theorem forwardCalls_quiet (s s' : Service) (hbegin : ∀ now id, act ≠ .begin now id) (hreturns : act ≠ .saveReturns) :
    forwardCalls s act s' = 0 := by
  cases act with
  | begin now id => exact absurd rfl (hbegin now id)
  | saveReturns => exact absurd rfl hreturns
  | _ => rfl

theorem SectionMove.paced (hmove : SectionMove p s act s') (hindexed : Indexed s) (h : Paced size calls removed s) :
    Paced size (calls + forwardCalls s act s') (removed + removals s act s') s' := by
  have hcalls := h.bounded
  cases hmove with
  | stored hrunning => exact (h.underway _ hrunning).elim
  | retried | notRetried | notCommitted | mismatchUnreported | conflictUnreported => exact .of_idle hcalls rfl
  | committed hrunning => exact goOnDraining_paced hcalls (h.underway _ hrunning)
  | notStored hrunning => exact (h.underway _ hrunning).elim
  | processed hrunning => exact (h.underway _ hrunning).elim
  | answered hrunning => exact receive_paced hindexed hcalls (h.underway _ hrunning) _ _
  | unanswered hrunning => exact retry_paced hcalls (h.underway _ hrunning).1 _ _ s
  | mismatchReported hrunning => exact retry_paced hcalls (h.underway _ hrunning) _ _ s
  | conflictReported hrunning => exact goOnReconciling_paced hindexed hcalls (h.underway _ hrunning) _

/-- A step that leaves the store and the section alone, apart from what the queue does. -/
structure Aside (s s' : Service) : Prop where
  heap : s'.heap = s.heap
  localStore : s'.localStore = s.localStore
  initialized : s'.initialized = s.initialized
  running : s'.running = s.running ∨ ∃ current, s.running = some current ∧ s'.running = some current.taken

theorem aside_of_move (hmove : Move p s act s') (hact : meanwhile act = true) (hinit : s.initialized = true) :
    isSectionStep act = true ∨ Aside s s' := by
  cases hmove with
  | flags | initializes | closingTakes | closingFails | reads | givesUp => exact .inr ⟨rfl, rfl, rfl, .inl rfl⟩
  | begins | closingReturns | installs | crashes => cases hact
  | takes htakes =>
    unfold Service.takeSave at htakes
    split at htakes
    · obtain rfl := Option.some.inj htakes
      exact .inr ⟨rfl, rfl, rfl, .inr ⟨_, ‹_›, rfl⟩⟩
    · obtain rfl := Option.some.inj htakes
      exact .inr ⟨rfl, rfl, rfl, .inr ⟨_, ‹_›, rfl⟩⟩
    · obtain rfl := Option.some.inj htakes
      exact .inr ⟨rfl, rfl, rfl, .inr ⟨_, ‹_›, rfl⟩⟩
    · cases htakes
  | inside hinside => exact .inl hinside
  | goesOnShutdown i =>
    have hsaves : ({ s with shutdowns := s.shutdowns.eraseIdx i } : Service).goOnShutdown =
        { s with shutdowns := s.shutdowns.eraseIdx i, closing := s.closing ++ [s.save] } := if_pos hinit
    rw [hsaves]
    exact .inr ⟨rfl, rfl, rfl, .inl rfl⟩

theorem Underway.aside {current : Section} (h : s.Underway size calls removed current) (haside : Aside s s') :
    s'.Underway size calls removed current ∧ s'.Underway size calls removed current.taken := by
  have hids : s'.ids = s.ids := by rw [ids, haside.localStore, ids]
  have hloser : ∀ current : Reconciliation, current.loser s' = current.loser s := by
    intro current
    unfold Reconciliation.loser
    rw [haside.heap]
  cases current <;> simp only [Underway, Section.taken, haside.localStore, hids, hloser] at h ⊢ <;> exact ⟨h, h⟩

theorem Aside.removals (h : Aside s s') (act : Act) : Service.removals s act s' = 0 := by
  have hids : s'.ids = s.ids := by rw [ids, h.localStore, ids]
  unfold Service.removals
  rw [hids]
  split
  · apply List.length_eq_zero_iff.mpr
    apply List.filter_eq_nil_iff.mpr
    intro id hid
    simp [hid]
  · rfl

theorem Aside.paced (haside : Aside s s') (hact : meanwhile act = true) (hnot : isSectionStep act = false)
    (h : Paced size calls removed s) : Paced size (calls + forwardCalls s act s') (removed + Service.removals s act s') s' := by
  have hquiet : forwardCalls s act s' = 0 := by
    apply forwardCalls_quiet
    · rintro now id rfl
      cases hact
    · rintro rfl
      cases hnot
  rw [hquiet, haside.removals]
  refine ⟨h.bounded, fun current hrunning => ?_⟩
  rcases haside.running with hsame | ⟨before, hbefore, htaken⟩
  · exact ((h.underway current (hsame.symm.trans hrunning)).aside haside).1
  · obtain rfl := Option.some.inj (htaken.symm.trans hrunning)
    exact ((h.underway before hbefore).aside haside).2

theorem Paced.step {act : Act} (h : Paced size calls removed s) (hindexed : Indexed s) (hinit : s.initialized = true)
    (hact : meanwhile act = true) (hstep : Service.step p s act = some s') :
    Paced size (calls + forwardCalls s act s') (removed + removals s act s') s' ∧ s'.initialized = true := by
  by_cases hsection : isSectionStep act = true
  · have hmove := sectionStep_move hsection hstep
    exact ⟨hmove.paced hindexed h, hmove.keeps.1.initialized.trans hinit⟩
  · have haside := (aside_of_move (step_move hstep) hact hinit).resolve_left hsection
    exact ⟨haside.paced hact (Bool.eq_false_iff.mpr hsection) h, haside.initialized.trans hinit⟩

/-! ### Runs -/

theorem total_cons (count : Service → Act → Service → ℕ) (rest : List Act) (hstep : step p s act = some s') :
    total p count s (act :: rest) = count s act s' + total p count s' rest := by
  rw [total, hstep]

theorem Paced.run {acts : List Act} (h : Paced size calls removed s) (hindexed : Indexed s) (hinit : s.initialized = true)
    (hacts : ∀ act ∈ acts, meanwhile act = true) (hexec : exec (Service.step p) s acts = some s') :
    Paced size (calls + total p forwardCalls s acts) (removed + total p removals s acts) s' := by
  induction acts generalizing s calls removed with
  | nil =>
    obtain rfl := Option.some.inj hexec
    exact h
  | cons act rest ih =>
    obtain ⟨next, hnext, hrest⟩ := Option.bind_eq_some_iff.mp hexec
    obtain ⟨hact, hacts⟩ := List.forall_mem_cons.mp hacts
    obtain ⟨hpaced, hinit⟩ := h.step hindexed hinit hact hnext
    rw [total_cons _ _ hnext, total_cons _ _ hnext, ← Nat.add_assoc, ← Nat.add_assoc]
    exact ih hpaced (hindexed.step hnext) hinit hacts hrest

/-- From any state in which an initialized service goes to work on a call of `synchronizeNow`, and whatever the transport answers,
the loop calls `transport.forward` at most once more than there are records, and `forwarded` counts the records that it has removed
because they were acknowledged. -/
theorem drain_bounded (p : Setting) (durable : List StoredRecord) {s s' : Service} {caller : Caller} {rest : List Work} {now : Option ℤ} {id : Text}
    {acts : List Act} (hs : Reachable (step p) (fun _ _ => True) (start durable) s) (hinit : s.initialized = true) (hidle : s.running = none)
    (hnext : s.operations = .synchronize caller :: rest) (hacts : ∀ act ∈ acts, meanwhile act = true)
    (hexec : exec (step p) s (.begin now id :: acts) = some s') :
    total p forwardCalls s (.begin now id :: acts) ≤ s.localStore.length + 1 ∧
      ∀ drain, s'.drain? = some drain → drain.forwarded = total p removals s (.begin now id :: acts) := by
  have hindexed := reachable_indexed hs
  obtain ⟨first, hfirst, hrest⟩ := Option.bind_eq_some_iff.mp hexec
  have hbegin : first = drainLoop p { s with operations := rest } ⟨caller, 0⟩ := by
    change beginNext p s now id = some first at hfirst
    unfold beginNext at hfirst
    rw [hidle, hnext] at hfirst
    exact (Option.some.inj hfirst).symm
  have hpaced : Paced s.localStore.length (forwardCalls s (.begin now id) first) (removals s (.begin now id) first) first := by
    have hloop := @drainLoop_paced p { s with operations := rest } s.localStore.length 0 0 ⟨caller, 0⟩ rfl le_rfl rfl (.begin now id)
      (.inr ⟨now, id, rfl⟩) s
    rw [Nat.zero_add, Nat.zero_add, ← hbegin] at hloop
    exact hloop
  have hon : first.initialized = true := by
    rw [hbegin]
    exact (drainLoop_keeps p _ _).1.initialized.trans hinit
  have hrun := hpaced.run (hindexed.step hfirst) hon hacts hrest
  rw [total_cons _ _ hfirst, total_cons _ _ hfirst]
  exact ⟨hrun.bounded.trans (Nat.le_succ _), fun drain hdrain => hrun.forwarded hdrain⟩

/-! ### A drain of two records -/

section TwoRecords
open EdgeRun

theorem two_records_pos : 1 ≤ 2 := Nat.le_succ 1

def pairSetting : Setting := { smallSetting with config := ⟨2, 1, two_records_pos, one_record_pos⟩ }

def zeroRoot : Text := List.replicate 64 '0'

def storesTwo : List Act :=
  storesRecord ++ [.store levelInput, .begin none "r2".toList, .saveTakes, .saveReturns, .processed, .storeGoesOn, .reachable true]

def answersBoth : List Act :=
  [.answer ⟨["r1".toList], zeroRoot, []⟩, .saveTakes, .saveReturns, .answer ⟨["r2".toList, "r2".toList], zeroRoot, []⟩, .saveTakes]

def waitingService : Service := (exec (step pairSetting) (start []) storesTwo).getD (start [])

def drainedService : Service := (exec (step pairSetting) waitingService (.begin none [] :: answersBoth)).getD (start [])

theorem drain_bounded_pair : waitingService.ids = ["r1".toList, "r2".toList] ∧ drainedService.ids = [] ∧
    total pairSetting forwardCalls waitingService (.begin none [] :: answersBoth) ≤ 3 ∧
    ∃ drain, drainedService.drain? = some drain ∧ drain.forwarded = 2 ∧
      drain.forwarded = total pairSetting removals waitingService (.begin none [] :: answersBoth) := by
  have hstart : exec (step pairSetting) (start []) storesTwo = some waitingService := eq_some_getD (by decide +kernel) _
  have hexec : exec (step pairSetting) waitingService (.begin none [] :: answersBoth) = some drainedService := eq_some_getD (by decide +kernel) _
  have hidle : waitingService.running.isNone = true := by decide +kernel
  have hids : waitingService.ids = ["r1".toList, "r2".toList] := by decide +kernel
  have hdrain : drainedService.drain?.map (·.forwarded) = some 2 := by decide +kernel
  obtain ⟨drain, hdrain, htwo⟩ := Option.map_eq_some_iff.mp hdrain
  have hnext : waitingService.operations = [.synchronize .cycle] := by rfl
  obtain ⟨hcalls, hforwarded⟩ := drain_bounded pairSetting [] (Reachable.start.of_exec storesTwo (fun _ _ _ => trivial) hstart)
    (by decide +kernel) (Option.isNone_iff_eq_none.mp hidle) hnext (by decide) hexec
  have hlength : waitingService.localStore.length = 2 := by
    have hlengths := congrArg List.length hids
    rwa [ids, List.length_map] at hlengths
  rw [hlength] at hcalls
  exact ⟨hids, by decide +kernel, hcalls, drain, hdrain, htwo, hforwarded drain hdrain⟩

end TwoRecords

end Service

end OxScada.Edge
