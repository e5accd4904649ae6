import OxScada.Integrity.Verifier
import OxScada.Runs.Throughout

/-! The cache of proofs. A call that does not find its proof there waits for the storage, and other calls and cleanups may come
before it goes on. A tenth of the limit, rounded down, is nothing below 10, so a full cache makes room then only by what has expired. -/

namespace OxScada.Integrity.ProofCache
open OxScada.Bytes OxScada.Hashing OxScada.Runs

structure Entry where
  eventId : Text
  proof : MerkleProof
  cached : ℤ
  ttl : ℚ

structure Config where
  proofCacheTtlMs : ℚ
  maxCacheSize : ℚ

def isExpired (now : ℤ) (entry : Entry) : Prop := entry.ttl < (now - entry.cached : ℤ)

instance (now : ℤ) : DecidablePred (isExpired now) := fun entry => inferInstanceAs (Decidable (entry.ttl < (now - entry.cached : ℤ)))

/-! ### Cleanups -/

def expiredIds (now : ℤ) (cache : List Entry) : List Text := (cache.filter fun entry => isExpired now entry).map (·.eventId)

def oldestIds (now : ℤ) (cache : List Entry) : List Text :=
  ((cache.filter fun entry => entry.eventId ∉ expiredIds now cache).insertionSort fun a b => a.cached ≤ b.cached).map (·.eventId)

/-- What a cleanup removes. Without a number of entries to remove, which is 0 here, it removes what has expired. -/
def removedIds (maxToRemove : ℕ) (now : ℤ) (cache : List Entry) : List Text :=
  if maxToRemove ≠ 0 ∧ (expiredIds now cache).length < maxToRemove then
    expiredIds now cache ++ (oldestIds now cache).take (maxToRemove - (expiredIds now cache).length)
  else expiredIds now cache

def cleanupCache (maxToRemove : ℕ) (now : ℤ) (cache : List Entry) : List Entry :=
  cache.filter fun entry => entry.eventId ∉ removedIds maxToRemove now cache

/-! ### Calls -/

structure Made where
  eventId : Text
  event : HashedEvent
  batch : EventBatch
  proof : MerkleProof
  /-- The stamp of the entry, which is read after the proof is made. -/
  time : ℤ

structure Hit where
  eventId : Text
  proof : MerkleProof
  time : ℤ

/-- The cache, the last time that the clock showed, the ids that calls are waiting for, and what was made and found. -/
structure ProofVerificationClient where
  proofCache : List Entry := []
  clock : ℤ
  waiting : List Text := []
  made : List Made := []
  hits : List Hit := []

def setEntry (cache : List Entry) (entry : Entry) : List Entry :=
  if entry.eventId ∈ cache.map (·.eventId) then cache.map fun old => if old.eventId = entry.eventId then entry else old else cache ++ [entry]

section Client
variable (sha256 : Text → Text) (config : Config) (s : ProofVerificationClient)

def makeRoom (now : ℤ) (cache : List Entry) : List Entry :=
  if config.maxCacheSize ≤ cache.length then cleanupCache ⌊config.maxCacheSize / 10⌋.toNat now cache else cache

/-- `cacheProof(eventId, …)`, which looks at the clock for the cleanup and again for the entry. -/
def cacheProof (eventId : Text) (proof : MerkleProof) (now stamp : ℤ) (cache : List Entry) : List Entry :=
  setEntry (makeRoom config now cache) ⟨eventId, proof, stamp, config.proofCacheTtlMs⟩

def getProofForEvent (eventId : Text) (now : ℤ) : ProofVerificationClient :=
  match s.proofCache.find? fun entry => entry.eventId = eventId with
  | some cached =>
    if (now - cached.cached : ℤ) < cached.ttl then { s with clock := now, hits := ⟨eventId, cached.proof, now⟩ :: s.hits }
    else { s with clock := now, waiting := s.waiting ++ [eventId] }
  | none => { s with clock := now, waiting := s.waiting ++ [eventId] }

def goOn (eventId : Text) (answer : Option (HashedEvent × EventBatch)) (now stamp : ℤ) : ProofVerificationClient :=
  match answer with
  | none => s
  | some (event, batch) =>
    match generateProofForEventInBatch sha256 event batch with
    | none => s
    | some proof =>
      { s with
        proofCache := cacheProof config eventId proof now stamp s.proofCache
        clock := stamp
        made := ⟨eventId, event, batch, proof, stamp⟩ :: s.made }

/-- A call begins, a waiting call goes on, or the timer cleans up, each so many milliseconds after the clock was read last. -/
inductive Act where
  | get (eventId : Text) (wait : ℕ)
  | answer (call : ℕ) (answer : Option (HashedEvent × EventBatch)) (wait stampWait : ℕ)
  | cleanup (wait : ℕ)

def step : Act → ProofVerificationClient
  | .get eventId wait => getProofForEvent s eventId (s.clock + wait)
  | .answer call answer wait stampWait =>
    match s.waiting[call]? with
    | none => s
    | some eventId =>
      goOn sha256 config { s with waiting := s.waiting.eraseIdx call } eventId answer (s.clock + wait) (s.clock + wait + stampWait)
  | .cleanup wait => { s with clock := s.clock + wait, proofCache := cleanupCache 0 (s.clock + wait) s.proofCache }

end Client

/-! ### What a cleanup leaves -/

section Cleanup
variable {cache : List Entry} {now : ℤ} {maxToRemove : ℕ}

theorem cleanupCache_sublist : (cleanupCache maxToRemove now cache).Sublist cache := List.filter_sublist

theorem mem_expiredIds {id : Text} : id ∈ expiredIds now cache ↔ ∃ entry ∈ cache, isExpired now entry ∧ entry.eventId = id := by
  simp [expiredIds, and_assoc]

theorem expiredIds_subset : ∀ id ∈ expiredIds now cache, id ∈ removedIds maxToRemove now cache := by
  intro id hid
  unfold removedIds
  split_ifs
  · exact List.mem_append_left _ hid
  · exact hid

theorem removedIds_oldest (hremove : maxToRemove ≠ 0) (hne : cache ≠ []) : ∃ entry ∈ cache, entry.eventId ∈ removedIds maxToRemove now cache := by
  cases hexpired : expiredIds now cache with
  | cons id rest =>
    have hid : id ∈ expiredIds now cache := hexpired ▸ List.mem_cons_self
    obtain ⟨entry, hentry, -, rfl⟩ := mem_expiredIds.mp hid
    exact ⟨entry, hentry, expiredIds_subset _ hid⟩
  | nil =>
    have hlength : (oldestIds now cache).length = cache.length := by simp [oldestIds, hexpired]
    have hpos : 0 < ((oldestIds now cache).take maxToRemove).length := by
      rw [List.length_take, hlength]
      exact lt_min (Nat.pos_of_ne_zero hremove) (List.length_pos_of_ne_nil hne)
    obtain ⟨id, hid⟩ := List.exists_mem_of_length_pos hpos
    have hmem := List.mem_of_mem_take hid
    obtain ⟨entry, hentry, rfl⟩ := List.mem_map.mp hmem
    refine ⟨entry, List.mem_of_mem_filter ((List.mem_insertionSort _).mp hentry), ?_⟩
    rw [removedIds, hexpired, if_pos ⟨hremove, Nat.pos_of_ne_zero hremove⟩]
    exact hid

theorem length_cleanupCache_lt : (cleanupCache maxToRemove now cache).length < cache.length ↔
    (∃ entry ∈ cache, isExpired now entry) ∨ maxToRemove ≠ 0 ∧ cache ≠ [] := by
  have hremoved : (cleanupCache maxToRemove now cache).length < cache.length ↔ ∃ entry ∈ cache, entry.eventId ∈ removedIds maxToRemove now cache := by
    unfold cleanupCache
    rw [List.length_filter_lt_length_iff_exists]
    simp
  rw [hremoved]
  constructor
  · rintro ⟨entry, hentry, hid⟩
    by_cases hzero : maxToRemove = 0
    · rw [removedIds, if_neg fun h => h.1 hzero] at hid
      obtain ⟨other, hother, hexpired, -⟩ := mem_expiredIds.mp hid
      exact .inl ⟨other, hother, hexpired⟩
    · exact .inr ⟨hzero, List.ne_nil_of_mem hentry⟩
  · rintro (⟨entry, hentry, hexpired⟩ | ⟨hremove, hne⟩)
    · exact ⟨entry, hentry, expiredIds_subset _ (mem_expiredIds.mpr ⟨entry, hentry, hexpired, rfl⟩)⟩
    · exact removedIds_oldest hremove hne

end Cleanup

/-! ### How many proofs there are -/

section Size
variable {config : Config} {cache : List Entry} {entry : Entry} {now : ℤ}

theorem length_setEntry : (setEntry cache entry).length = if entry.eventId ∈ cache.map (·.eventId) then cache.length else cache.length + 1 := by
  unfold setEntry
  split_ifs
  · exact List.length_map _
  · simp

theorem mem_setEntry {other : Entry} (h : other ∈ setEntry cache entry) : other = entry ∨ other ∈ cache := by
  unfold setEntry at h
  split_ifs at h
  · obtain ⟨old, hold, rfl⟩ := List.mem_map.mp h
    by_cases hsame : old.eventId = entry.eventId
    · exact .inl (if_pos hsame)
    · rw [if_neg hsame]
      exact .inr hold
  · rcases List.mem_append.mp h with h | h
    · exact .inr h
    · exact .inl (List.mem_singleton.mp h)

theorem makeRoom_sublist : (makeRoom config now cache).Sublist cache := by
  unfold makeRoom
  split_ifs
  · exact cleanupCache_sublist
  · exact List.Sublist.refl cache

/-- There is room for a proof under an id: the id is there, or the cache is not full, or the cleanup removes something. -/
def Room (config : Config) (cache : List Entry) (eventId : Text) (now : ℤ) : Prop :=
  eventId ∈ cache.map (·.eventId) ∨ (cache.length : ℚ) + 1 ≤ config.maxCacheSize ∨
    config.maxCacheSize ≤ cache.length ∧ (10 ≤ config.maxCacheSize ∨ ∃ entry ∈ cache, isExpired now entry)

theorem tenth_ne_zero {limit : ℚ} : ⌊limit / 10⌋.toNat ≠ 0 ↔ 10 ≤ limit := by
  have htenth : 0 < ⌊limit / 10⌋ ↔ 1 ≤ limit / 10 := Int.floor_pos
  rw [le_div_iff₀ (by norm_num), one_mul] at htenth
  rw [← htenth]
  omega

theorem length_cacheProof_le (hlimit : 1 ≤ config.maxCacheSize) (hsize : (cache.length : ℚ) ≤ config.maxCacheSize) (eventId : Text) (proof : MerkleProof)
    (now stamp : ℤ) :
    ((cacheProof config eventId proof now stamp cache).length : ℚ) ≤ config.maxCacheSize ↔ Room config cache eventId now := by
  unfold cacheProof Room
  rw [length_setEntry]
  by_cases hfull : config.maxCacheSize ≤ cache.length
  · have hexact : config.maxCacheSize = cache.length := le_antisymm hfull hsize
    have hne : cache ≠ [] := by
      rintro rfl
      rw [hexact] at hlimit
      norm_num at hlimit
    have hsub : (makeRoom config now cache).Sublist cache := makeRoom_sublist
    have hlt : (makeRoom config now cache).length < cache.length ↔ 10 ≤ config.maxCacheSize ∨ ∃ entry ∈ cache, isExpired now entry := by
      rw [makeRoom, if_pos hfull, length_cleanupCache_lt, tenth_ne_zero]
      simp [hne, or_comm]
    have hover : ¬ (cache.length : ℚ) + 1 ≤ config.maxCacheSize := by
      rw [hexact]
      exact not_le.mpr (lt_add_one _)
    by_cases hroom : eventId ∈ (makeRoom config now cache).map (·.eventId)
    · have hcache : eventId ∈ cache.map (·.eventId) := (hsub.map _).subset hroom
      rw [if_pos hroom, hexact]
      exact iff_of_true (by exact_mod_cast hsub.length_le) (.inl hcache)
    · have hlost : eventId ∈ cache.map (·.eventId) → (makeRoom config now cache).length < cache.length := by
        intro hcache
        refine lt_of_le_of_ne hsub.length_le fun hlength => hroom ?_
        rw [hsub.eq_of_length hlength]
        exact hcache
      have hcast : (((makeRoom config now cache).length + 1 : ℕ) : ℚ) ≤ config.maxCacheSize ↔ (makeRoom config now cache).length < cache.length := by
        rw [hexact]
        exact_mod_cast Iff.rfl
      rw [if_neg hroom, hcast]
      constructor
      · intro h
        exact .inr (.inr ⟨hfull, hlt.mp h⟩)
      · rintro (hcache | hfits | ⟨-, hremoves⟩)
        · exact hlost hcache
        · exact absurd hfits hover
        · exact hlt.mpr hremoves
  · have hsame : makeRoom config now cache = cache := if_neg hfull
    rw [hsame]
    by_cases hcache : eventId ∈ cache.map (·.eventId)
    · rw [if_pos hcache]
      exact iff_of_true hsize (.inl hcache)
    · rw [if_neg hcache, Nat.cast_add, Nat.cast_one]
      constructor
      · exact fun h => .inr (.inl h)
      · rintro (h | h | ⟨h, -⟩)
        · exact absurd h hcache
        · exact h
        · exact absurd h hfull

end Size

/-! ### Runs -/

section Runs
variable {sha256 : Text → Text} {config : Config} {s : ProofVerificationClient}

def start (clock : ℤ) : ProofVerificationClient := { clock }

def Bounded (config : Config) (s : ProofVerificationClient) : Prop := (s.proofCache.length : ℚ) ≤ config.maxCacheSize

/-- Every proof that was found in the cache was made for its id, and not longer ago than proofs live. -/
def Coherent (sha256 : Text → Text) (config : Config) (s : ProofVerificationClient) : Prop :=
  ∀ hit ∈ s.hits, ∃ made ∈ s.made, made.eventId = hit.eventId ∧ generateProofForEventInBatch sha256 made.event made.batch = some hit.proof ∧
    made.time ≤ hit.time ∧ ((hit.time - made.time : ℤ) : ℚ) ≤ config.proofCacheTtlMs

def Roomy (sha256 : Text → Text) (config : Config) (s : ProofVerificationClient) : Act → Prop
  | .answer call (some (event, batch)) wait _ => ∀ eventId, s.waiting[call]? = some eventId →
      (generateProofForEventInBatch sha256 event batch).isSome → Room config s.proofCache eventId (s.clock + wait)
  | _ => True

structure Kept (sha256 : Text → Text) (config : Config) (s : ProofVerificationClient) : Prop where
  entries : ∀ entry ∈ s.proofCache, entry.ttl = config.proofCacheTtlMs ∧ entry.cached ≤ s.clock ∧
    ∃ made ∈ s.made, made.eventId = entry.eventId ∧ generateProofForEventInBatch sha256 made.event made.batch = some entry.proof ∧ made.time = entry.cached
  coherent : Coherent sha256 config s

theorem Kept.later (h : Kept sha256 config s) {cache : List Entry} (hsub : ∀ entry ∈ cache, entry ∈ s.proofCache) {clock : ℤ} (hclock : s.clock ≤ clock) (waiting : List Text) :
    Kept sha256 config { s with proofCache := cache, clock, waiting } := by
  refine ⟨fun entry hentry => ?_, h.coherent⟩
  obtain ⟨httl, hcached, hmade⟩ := h.entries entry (hsub entry hentry)
  exact ⟨httl, hcached.trans hclock, hmade⟩

theorem Kept.get (h : Kept sha256 config s) (eventId : Text) (wait : ℕ) : Kept sha256 config (getProofForEvent s eventId (s.clock + wait)) := by
  have hclock : s.clock ≤ s.clock + wait := by omega
  have hwaits := h.later (fun entry hentry => hentry) hclock (s.waiting ++ [eventId])
  unfold getProofForEvent
  cases hfind : s.proofCache.find? fun entry => entry.eventId = eventId with
  | none => exact hwaits
  | some cached =>
    dsimp only
    split_ifs with hfresh
    · -- the proof that was found is that of the entry, which is not old
      obtain ⟨httl, hcached, made, hmade, hid, hproof, htime⟩ := h.entries cached (List.mem_of_find?_eq_some hfind)
      have hkey : cached.eventId = eventId := by simpa using List.find?_some hfind
      have hlater := h.later (fun entry hentry => hentry) hclock s.waiting
      refine ⟨hlater.entries, fun hit hhit => ?_⟩
      rcases List.mem_cons.mp hhit with rfl | hhit
      · refine ⟨made, hmade, hid.trans hkey, hproof, ?_, ?_⟩
        · rw [htime]
          exact hcached.trans hclock
        · rw [htime, ← httl]
          exact hfresh.le
      · exact h.coherent hit hhit
    · exact hwaits

theorem Kept.goOn (h : Kept sha256 config s) (eventId : Text) (answer : Option (HashedEvent × EventBatch)) (wait stampWait : ℕ) :
    Kept sha256 config (goOn sha256 config s eventId answer (s.clock + wait) (s.clock + wait + stampWait)) := by
  unfold ProofCache.goOn
  match answer with
  | none => exact h
  | some (event, batch) =>
    dsimp only
    cases hproof : generateProofForEventInBatch sha256 event batch with
    | none => exact h
    | some proof =>
      refine ⟨fun entry hentry => ?_, fun hit hhit => ?_⟩
      · rcases mem_setEntry hentry with rfl | hold
        · exact ⟨rfl, le_rfl, _, List.mem_cons_self, rfl, hproof, rfl⟩
        · obtain ⟨httl, hcached, made, hmade, hof⟩ := h.entries entry (makeRoom_sublist.subset hold)
          exact ⟨httl, hcached.trans (by dsimp only; omega), made, List.mem_cons_of_mem _ hmade, hof⟩
      · obtain ⟨made, hmade, hof⟩ := h.coherent hit hhit
        exact ⟨made, List.mem_cons_of_mem _ hmade, hof⟩

theorem step_answer_none {call : ℕ} (hcall : s.waiting[call]? = none) (answer : Option (HashedEvent × EventBatch)) (wait stampWait : ℕ) :
    step sha256 config s (.answer call answer wait stampWait) = s := by
  simp [ProofCache.step, hcall]

theorem step_answer_some {call : ℕ} {eventId : Text} (hcall : s.waiting[call]? = some eventId) (answer : Option (HashedEvent × EventBatch)) (wait stampWait : ℕ) :
    step sha256 config s (.answer call answer wait stampWait) =
      ProofCache.goOn sha256 config { s with waiting := s.waiting.eraseIdx call } eventId answer (s.clock + wait) (s.clock + wait + stampWait) := by
  simp [ProofCache.step, hcall]

theorem Kept.step (h : Kept sha256 config s) (act : Act) : Kept sha256 config (step sha256 config s act) := by
  cases act with
  | get eventId wait => exact h.get eventId wait
  | answer call answer wait stampWait =>
    cases hcall : s.waiting[call]? with
    | none =>
      rw [step_answer_none hcall]
      exact h
    | some eventId =>
      rw [step_answer_some hcall]
      exact (h.later (fun entry hentry => hentry) le_rfl (s.waiting.eraseIdx call)).goOn eventId answer wait stampWait
  | cleanup wait => exact h.later (fun entry hentry => cleanupCache_sublist.subset hentry) (by omega) s.waiting

theorem getProofForEvent_cache (eventId : Text) (now : ℤ) : (getProofForEvent s eventId now).proofCache = s.proofCache := by
  unfold getProofForEvent
  split
  · split_ifs <;> rfl
  · rfl

theorem bounded_step_iff (hlimit : 1 ≤ config.maxCacheSize) (hsize : Bounded config s) (act : Act) :
    Bounded config (step sha256 config s act) ↔ Roomy sha256 config s act := by
  cases act with
  | get eventId wait =>
    refine iff_of_true ?_ trivial
    have hcache := @getProofForEvent_cache s eventId (s.clock + wait)
    unfold Bounded ProofCache.step
    rw [hcache]
    exact hsize
  | cleanup wait =>
    have hlength : ((cleanupCache 0 (s.clock + wait) s.proofCache).length : ℚ) ≤ s.proofCache.length := by
      exact_mod_cast cleanupCache_sublist.length_le
    exact iff_of_true (hlength.trans hsize) trivial
  | answer call answer wait stampWait =>
    cases hcall : s.waiting[call]? with
    | none =>
      rw [step_answer_none hcall]
      refine iff_of_true hsize ?_
      match answer with
      | none => trivial
      | some (event, batch) =>
        intro eventId hsome
        rw [hcall] at hsome
        cases hsome
    | some eventId =>
      rw [step_answer_some hcall]
      match answer with
      | none => exact iff_of_true hsize trivial
      | some (event, batch) =>
        unfold ProofCache.goOn Roomy
        dsimp only
        cases hproof : generateProofForEventInBatch sha256 event batch with
        | none => exact iff_of_true hsize fun _ _ h => by cases h
        | some proof =>
          refine (length_cacheProof_le hlimit hsize eventId proof _ _).trans ?_
          constructor
          · intro hroom id hid _
            obtain rfl : eventId = id := by simpa [hcall] using hid
            exact hroom
          · exact fun h => h eventId hcall rfl

theorem start_kept (sha256 : Text → Text) (config : Config) (clock : ℤ) : Kept sha256 config (start clock) :=
  ⟨fun _ hentry => absurd hentry List.not_mem_nil, fun _ hhit => absurd hhit List.not_mem_nil⟩

theorem start_bounded (hlimit : 1 ≤ config.maxCacheSize) (clock : ℤ) : Bounded config (start clock) := by
  unfold Bounded start
  simp only [List.length_nil, Nat.cast_zero]
  exact zero_le_one.trans hlimit

theorem cache_coherent (sha256 : Text → Text) (config : Config) (clock : ℤ) (acts : List Act) :
    Coherent sha256 config (acts.foldl (step sha256 config) (start clock)) :=
  (foldl_invariant (I := Kept sha256 config) (fun _ act h => h.step act) (start_kept sha256 config clock) acts).coherent

theorem cache_bounded_of_ten_le (sha256 : Text → Text) {n : ℕ} (hmax : config.maxCacheSize = n) (hten : 10 ≤ n) (clock : ℤ) (acts : List Act) :
    Bounded config (acts.foldl (step sha256 config) (start clock)) := by
  have hten' : (10 : ℚ) ≤ config.maxCacheSize := by
    rw [hmax]
    exact_mod_cast hten
  have hlimit : 1 ≤ config.maxCacheSize := le_trans (by norm_num) hten'
  refine foldl_invariant (I := Bounded config) (fun s act h => (bounded_step_iff hlimit h act).mpr ?_) (start_bounded hlimit clock) acts
  -- a full cache of ten entries or more drops one of them at least
  have hroom : ∀ eventId now, Room config s.proofCache eventId now := by
    intro eventId now
    refine .inr ?_
    rw [hmax]
    rcases Nat.lt_or_ge s.proofCache.length n with hless | hfull
    · exact .inl (by exact_mod_cast hless)
    · exact .inr ⟨by exact_mod_cast hfull, .inl (by exact_mod_cast hten)⟩
  unfold Roomy
  split
  · exact fun _ _ _ => hroom _ _
  · trivial

/-- Along a run the cache is within its limit and coherent after every step if and only if there is room wherever a proof is cached. -/
theorem cache_bounded_iff (sha256 : Text → Text) (hlimit : 1 ≤ config.maxCacheSize) (clock : ℤ) (acts : List Act) :
    Throughout (step sha256 config) (fun s act => Bounded config (step sha256 config s act) ∧ Coherent sha256 config (step sha256 config s act)) (start clock) acts ↔
      Throughout (step sha256 config) (Roomy sha256 config) (start clock) acts := by
  have hinvariant : Kept sha256 config (start clock) ∧ Bounded config (start clock) := ⟨start_kept sha256 config clock, start_bounded hlimit clock⟩
  refine throughout_iff (I := fun s => Kept sha256 config s ∧ Bounded config s) (fun s act hs => ?_) (fun s act hs hroomy => ?_) hinvariant acts
  · rw [← bounded_step_iff hlimit hs.2]
    exact and_iff_left (hs.1.step act).coherent
  · exact ⟨hs.1.step act, (bounded_step_iff hlimit hs.2 act).mpr hroomy⟩

def otherEvent : HashedEvent := ⟨['e', '2'], ['b']⟩

def oneProof : Config := ⟨1000, 1⟩

def twoProofs : List Act :=
  [.get ['e', '1'] 0, .answer 0 (some (sampleEvent, sampleBatch)) 5 1, .get ['e', '2'] 2, .answer 0 (some (otherEvent, ⟨[otherEvent], []⟩)) 5 1]

theorem cache_bounded_iff_two :
    Throughout (step bracketed ⟨1000, 2⟩)
      (fun s act => Bounded ⟨1000, 2⟩ (step bracketed ⟨1000, 2⟩ s act) ∧ Coherent bracketed ⟨1000, 2⟩ (step bracketed ⟨1000, 2⟩ s act)) (start 0) twoProofs := by
  refine (cache_bounded_iff bracketed (by norm_num) 0 twoProofs).mpr ⟨trivial, fun _ _ _ => ?_, trivial, fun _ _ _ => ?_, trivial⟩
  · exact .inr (.inl (by norm_num [step, getProofForEvent, start]))
  · exact .inr (.inl (by decide +kernel))

theorem cache_passes_limit : ¬ Bounded oneProof (twoProofs.foldl (step bracketed oneProof) (start 0)) := by
  have hlength : (twoProofs.foldl (step bracketed oneProof) (start 0)).proofCache.length = 2 := by decide +kernel
  unfold Bounded
  rw [hlength]
  norm_num [oneProof]

end Runs

end OxScada.Integrity.ProofCache
