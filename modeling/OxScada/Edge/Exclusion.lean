import OxScada.Edge.Sections

/-! What holds as long as a section, the saving part of `shutdown` and `initialize` do not
overlap. The service serializes its sections only. -/

namespace OxScada.Edge
open OxScada.Bytes OxScada.Runs

namespace Service

/-- No section, no saving `shutdown` and no `initialize` is under way. -/
def Free (s : Service) : Prop := s.running = none ∧ s.closing = [] ∧ s.initializers = []

def StartsWork (s : Service) : Prop :=
  match s.operations with
  | .store _ :: _ => s.stopped = false
  | .synchronize _ :: _ => s.localStore ≠ [] ∧ s.isConnected = true
  | [] => False

/-- A section, the saving part of `shutdown` or `initialize` begins only while none of them is
under way, and a section only on an initialized service. -/
def Exclusive (s : Service) : Act → Prop
  | .begin _ _ => s.StartsWork → s.Free ∧ s.initialized = true
  | .shutdownGoesOn _ => s.initialized = true → s.Free
  | .initializeService => s.initialized = false → s.Free
  | _ => True

instance (s : Service) : Decidable s.Free := inferInstanceAs (Decidable (_ ∧ _ ∧ _))

instance (s : Service) : Decidable s.StartsWork := by
  unfold StartsWork
  split <;> infer_instance

instance (s : Service) (act : Act) : Decidable (s.Exclusive act) := by
  unfold Exclusive
  split <;> infer_instance

/-- What holds while sections, saving and loading do not overlap. -/
structure Apart (s : Service) : Prop where
  fresh : ∀ entry ∈ s.localStore, entry.2 < s.objects
  keyed : ∀ entry ∈ s.localStore, (s.heap entry.2).id = entry.1
  off : s.initialized = false → s.localStore = [] ∧ s.running = none ∧ s.closing = []
  alone : s.running ≠ none → s.closing = [] ∧ s.initializers = []
  saving : ∀ current save, s.running = some current → current.save? = some save →
    save.snapshot = s.records ∧ (save.effective = true → s.durable = s.records)
  closing : s.closing = [] ∨ ∃ save, s.closing = [save] ∧ s.running = none ∧ s.initializers = [] ∧
    save.snapshot = s.records ∧ (save.effective = true → s.durable = s.records)
  loading : s.initializers = [] ∨ ∃ loaded, s.initializers = [loaded] ∧ s.initialized = false ∧
    ∀ records, loaded = some records → records = s.durable

theorem Apart.start (durable : List StoredRecord) : Apart (start durable) where
  fresh _ h := absurd h List.not_mem_nil
  keyed _ h := absurd h List.not_mem_nil
  off _ := ⟨rfl, rfl, rfl⟩
  alone h := absurd rfl h
  saving _ _ h := by cases h
  closing := .inl rfl
  loading := .inl rfl

variable {p : Setting} {s s' : Service}

section
variable (h : Apart s)
include h

theorem Apart.ids_eq : s.records.map (·.id) = s.ids := by
  rw [records, ids, List.map_map]
  exact List.map_congr_left h.keyed

theorem Apart.section (hinit : s.initialized = true) (hclosing : s.closing = []) (hloading : s.initializers = [])
    {gone : List Text} (hkeeps : Keeps gone s s') (hsaves : s'.SavesNow) : Apart s' where
  fresh entry hentry := hkeeps.objects ▸ h.fresh entry (hkeeps.mem entry hentry)
  keyed entry hentry := (hkeeps.id_heap entry.2).trans (h.keyed entry (hkeeps.mem entry hentry))
  off hoff := absurd (hkeeps.initialized.symm.trans hoff) (by rw [hinit]; decide)
  alone _ := ⟨hkeeps.closing.trans hclosing, hkeeps.initializers.trans hloading⟩
  saving current save hrunning hsave := by
    rw [hsaves current save hrunning hsave]
    exact ⟨rfl, fun h => (by cases h)⟩
  closing := .inl (hkeeps.closing.trans hclosing)
  loading := .inl (hkeeps.initializers.trans hloading)

theorem Apart.running (hrunning : s.running ≠ none) :
    s.initialized = true ∧ s.closing = [] ∧ s.initializers = [] := by
  refine ⟨?_, h.alone hrunning⟩
  by_contra hoff
  exact hrunning (h.off (Bool.eq_false_iff.mpr hoff)).2.1

theorem Apart.flags (stopped isConnected : Bool) (operations : List Work) (shutdowns : List ℕ)
    (cycles stores failures : ℕ) :
    Apart { s with stopped, isConnected, operations, shutdowns, cycles, stores, failures } :=
  ⟨h.fresh, h.keyed, h.off, h.alone, h.saving, h.closing, h.loading⟩

theorem Apart.endSection_idle (hidle : s.running = none) : Apart s.endSection := by
  have heq : s.endSection = { s with shutdowns := s.shutdowns.map (· - 1) } := by
    rw [endSection, ← hidle]
  rw [heq]
  exact h.flags s.stopped s.isConnected s.operations _ s.cycles s.stores s.failures

theorem Apart.beginStore (hidle : s.running = none) (input : StoreInput) (now : Option ℤ) (id : Text)
    (hfree : s.stopped = false → s.Free ∧ s.initialized = true) : Apart (beginStore p s input now id) := by
  unfold Service.beginStore
  split_ifs with hstopped hfull
  · exact h.endSection_idle hidle
  · exact h.endSection_idle hidle
  · obtain ⟨⟨-, hclosing, hloading⟩, hinit⟩ := hfree (Bool.eq_false_iff.mpr hstopped)
    split
    · rename_i record hrecord
      dsimp only
      constructor
      case fresh =>
        intro entry hentry
        rcases mem_mapSet hentry with rfl | hmem
        · exact Nat.lt_succ_self _
        · exact Nat.lt_succ_of_lt (h.fresh entry hmem)
      case keyed =>
        intro entry hentry
        dsimp only
        rcases mem_mapSet hentry with rfl | hmem
        · rw [Function.update_self]
        · rw [Function.update_of_ne (h.fresh entry hmem).ne]
          exact h.keyed entry hmem
      case off =>
        intro hoff
        rw [hinit] at hoff
        cases hoff
      case alone =>
        intro _
        exact ⟨hclosing, hloading⟩
      case saving =>
        intro current save hrunning hsave
        obtain rfl := Option.some.inj hrunning
        obtain rfl := Option.some.inj hsave
        exact ⟨rfl, fun h => (by cases h)⟩
      case closing =>
        exact .inl hclosing
      case loading =>
        exact .inl hloading
    · exact h.endSection_idle hidle

theorem Apart.drainLoop (hidle : s.running = none) (drain : Drain)
    (hfree : s.localStore ≠ [] ∧ s.isConnected = true → s.Free ∧ s.initialized = true) : Apart (drainLoop p s drain) := by
  by_cases hwork : s.localStore ≠ [] ∧ s.isConnected = true
  · obtain ⟨⟨-, hclosing, hloading⟩, hinit⟩ := hfree hwork
    obtain ⟨hkeeps, hsaves⟩ := drainLoop_keeps p s drain
    exact h.section hinit hclosing hloading hkeeps hsaves
  · unfold Service.drainLoop
    rw [if_neg hwork]
    exact h.endSection_idle hidle

end

variable {id : Text} {now : Option ℤ} {act : Act} {i : ℕ}

theorem Apart.beginNext (h : Apart s) (hok : s.Exclusive (.begin now id))
    (hstep : beginNext p s now id = some s') : Apart s' := by
  unfold Service.beginNext at hstep
  split at hstep
  · rename_i input rest hidle hoperations
    obtain rfl := Option.some.inj hstep
    have hrest : Apart { s with operations := rest } := h.flags ..
    refine hrest.beginStore hidle input now id fun hstopped => hok ?_
    rw [StartsWork, hoperations]
    exact hstopped
  · rename_i caller rest hidle hoperations
    obtain rfl := Option.some.inj hstep
    have hrest : Apart { s with operations := rest } := h.flags ..
    refine hrest.drainLoop hidle _ fun hwork => hok ?_
    rw [StartsWork, hoperations]
    exact hwork
  · cases hstep

theorem takeSave_some (h : s.takeSave = some s') :
    ∃ current snapshot, s.running = some current ∧ current.save? = some ⟨snapshot, false⟩ ∧
      current.taken.save? = some ⟨snapshot, true⟩ ∧ s' = { s with durable := snapshot, running := some current.taken } := by
  unfold Service.takeSave at h
  split at h
  · rename_i id snapshot hrunning
    exact ⟨_, snapshot, hrunning, rfl, rfl, (Option.some.inj h).symm⟩
  · rename_i drain snapshot hrunning
    exact ⟨_, snapshot, hrunning, rfl, rfl, (Option.some.inj h).symm⟩
  · rename_i drain answer snapshot hrunning
    exact ⟨_, snapshot, hrunning, rfl, rfl, (Option.some.inj h).symm⟩
  · cases h

theorem Apart.takeSave (h : Apart s) (hstep : s.takeSave = some s') : Apart s' := by
  obtain ⟨current, snapshot, hrunning, hsave, htaken, rfl⟩ := takeSave_some hstep
  have hsome : s.running ≠ none := by
    rw [hrunning]
    exact Option.some_ne_none _
  obtain ⟨hinit, hclosing, hloading⟩ := h.running hsome
  have hsnapshot : snapshot = s.records := (h.saving current _ hrunning hsave).1
  refine ⟨h.fresh, h.keyed, fun hoff => absurd (hinit.symm.trans hoff) (by decide), fun _ => ⟨hclosing, hloading⟩,
    fun now save hnow hsavenow => ?_, .inl hclosing, .inl hloading⟩
  obtain rfl := Option.some.inj hnow
  obtain rfl := Option.some.inj (htaken.symm.trans hsavenow)
  exact ⟨hsnapshot, fun _ => hsnapshot⟩

theorem Apart.sectionStep (h : Apart s) (hact : isSectionStep act = true) (hstep : step p s act = some s') :
    Apart s' := by
  have hmove := sectionStep_move hact hstep
  obtain ⟨hkeeps, hsaves⟩ := hmove.keeps
  obtain ⟨hinit, hclosing, hloading⟩ := h.running hmove.running
  exact h.section hinit hclosing hloading hkeeps hsaves

theorem Apart.close (h : Apart s) (hidle : s.running = none) (hclosing : s.closing = []) : Apart s.close where
  fresh _ hentry := absurd hentry List.not_mem_nil
  keyed _ hentry := absurd hentry List.not_mem_nil
  off _ := ⟨rfl, hidle, hclosing⟩
  alone hrunning := absurd hidle hrunning
  saving current save hrunning := by
    rw [Service.close, hidle] at hrunning
    cases hrunning
  closing := .inl hclosing
  loading := by
    rcases h.loading with hnone | ⟨loaded, hloaded, -, hdurable⟩
    · exact .inl hnone
    · exact .inr ⟨loaded, hloaded, rfl, hdurable⟩

theorem Apart.goOnShutdown (h : Apart s) (hok : s.initialized = true → s.Free) : Apart s.goOnShutdown := by
  unfold Service.goOnShutdown
  split_ifs with hinit
  · obtain ⟨hidle, hclosing, hloading⟩ := hok hinit
    refine ⟨h.fresh, h.keyed, fun hoff => absurd (hinit.symm.trans hoff) (by decide), fun hrunning => absurd hidle hrunning,
      h.saving, .inr ⟨s.save, ?_, hidle, hloading, rfl, fun heffective => (by cases heffective)⟩, .inl hloading⟩
    rw [hclosing, List.nil_append]
  · obtain ⟨-, hidle, hclosing⟩ := h.off (Bool.eq_false_iff.mpr hinit)
    exact h.close hidle hclosing

theorem Apart.closing_some (h : Apart s) {save : Save} (hi : s.closing[i]? = some save) :
    i = 0 ∧ s.closing = [save] ∧ s.running = none ∧ s.initializers = [] ∧ s.initialized = true ∧
      save.snapshot = s.records ∧ (save.effective = true → s.durable = s.records) := by
  rcases h.closing with hnone | ⟨only, honly, hidle, hloading, hsnapshot, heffective⟩
  · rw [hnone] at hi
    cases hi
  · rw [honly] at hi
    obtain ⟨rfl, rfl⟩ : i = 0 ∧ only = save := by simpa [List.getElem?_singleton] using hi
    refine ⟨rfl, honly, hidle, hloading, ?_, hsnapshot, heffective⟩
    by_contra hoff
    rw [(h.off (Bool.eq_false_iff.mpr hoff)).2.2] at honly
    cases honly

theorem Apart.loading_some (h : Apart s) {loaded : Option (List StoredRecord)} (hi : s.initializers[i]? = some loaded) :
    i = 0 ∧ s.initializers = [loaded] ∧ s.initialized = false ∧ ∀ records, loaded = some records → records = s.durable := by
  rcases h.loading with hnone | ⟨only, honly, hoff, hdurable⟩
  · rw [hnone] at hi
    cases hi
  · rw [honly] at hi
    obtain ⟨rfl, rfl⟩ : i = 0 ∧ only = loaded := by simpa [List.getElem?_singleton] using hi
    exact ⟨rfl, honly, hoff, hdurable⟩

theorem installRecords_mem {loaded : List StoredRecord} {entry : Text × ℕ} (h : entry ∈ (s.installRecords loaded).localStore) :
    ∃ i record, loaded[i]? = some record ∧ entry = (record.id, s.objects + i) ∧
      (s.installRecords loaded).heap entry.2 = record := by
  obtain ⟨i, hi, rfl⟩ := List.mem_mapIdx.mp h
  have hget : loaded[i]? = some loaded[i] := List.getElem?_eq_getElem hi
  refine ⟨i, loaded[i], hget, rfl, ?_⟩
  simp only [installRecords, Nat.le_add_right, if_true, Nat.add_sub_cancel_left, hget, Option.getD_some]

theorem installRecords_records (s : Service) (loaded : List StoredRecord) : (s.installRecords loaded).records = loaded := by
  refine List.ext_getElem? fun i => ?_
  rw [records, List.getElem?_map]
  by_cases hi : i < loaded.length
  · simp [installRecords, List.getElem?_mapIdx, List.getElem?_eq_getElem hi]
  · simp [installRecords, List.getElem?_mapIdx, List.getElem?_eq_none (not_lt.mp hi)]

theorem Apart.loaded (h : Apart s) {loaded : Option (List StoredRecord)} (hi : s.initializers[i]? = some loaded) :
    Apart { s with initializers := s.initializers.eraseIdx i } := by
  obtain ⟨rfl, hloading, hoff, -⟩ := h.loading_some hi
  obtain ⟨-, hidle, hclosing⟩ := h.off hoff
  refine ⟨h.fresh, h.keyed, h.off, fun hrunning => absurd hidle hrunning, h.saving, .inl hclosing, .inl ?_⟩
  rw [hloading]
  rfl

theorem Apart.install (h : Apart s) {loaded : List StoredRecord} (hi : s.initializers[i]? = some (some loaded)) :
    Apart (({ s with initializers := s.initializers.eraseIdx i } : Service).installRecords loaded) := by
  obtain ⟨rfl, hloading, hoff, -⟩ := h.loading_some hi
  obtain ⟨-, hidle, hclosing⟩ := h.off hoff
  refine ⟨fun entry hentry => ?_, fun entry hentry => ?_, fun hoff => ?_, fun hrunning => absurd hidle hrunning,
    fun current save hrunning => ?_, .inl hclosing, .inl ?_⟩
  · obtain ⟨i, record, hrecord, rfl, -⟩ := installRecords_mem hentry
    have hlt := (List.getElem?_eq_some_iff.mp hrecord).1
    exact Nat.add_lt_add_left hlt _
  · obtain ⟨i, record, -, rfl, hheap⟩ := installRecords_mem hentry
    rw [hheap]
  · cases hoff
  · cases hidle.symm.trans hrunning
  · show s.initializers.eraseIdx 0 = []
    rw [hloading]
    rfl

inductive Move (p : Setting) (s : Service) : Act → Service → Prop
  | flags {act : Act} (stopped isConnected : Bool) (operations : List Work) (shutdowns : List ℕ) (cycles stores failures : ℕ) :
      Move p s act { s with stopped, isConnected, operations, shutdowns, cycles, stores, failures }
  | initializes (hoff : s.initialized = false) :
      Move p s .initializeService { s with initializers := s.initializers ++ [none] }
  | begins {now : Option ℤ} {id : Text} {s' : Service} (h : Service.beginNext p s now id = some s') : Move p s (.begin now id) s'
  | takes {s' : Service} (h : s.takeSave = some s') : Move p s .saveTakes s'
  | inside {act : Act} {s' : Service} (hact : isSectionStep act = true) (h : Service.step p s act = some s') : Move p s act s'
  | goesOnShutdown (i : ℕ) : Move p s (.shutdownGoesOn i) { s with shutdowns := s.shutdowns.eraseIdx i }.goOnShutdown
  | closingTakes {i : ℕ} {snapshot : List StoredRecord} (hi : s.closing[i]? = some ⟨snapshot, false⟩) :
      Move p s (.shutdownSaveTakes i) { s with durable := snapshot, closing := s.closing.set i ⟨snapshot, true⟩ }
  | closingReturns {i : ℕ} {save : Save} (hi : s.closing[i]? = some save) :
      Move p s (.shutdownSaveReturns i) { s with closing := s.closing.eraseIdx i }.close
  | closingFails {i : ℕ} {save : Save} (hi : s.closing[i]? = some save) :
      Move p s (.shutdownSaveFails i) { s with closing := s.closing.eraseIdx i }
  | reads {i : ℕ} (hi : s.initializers[i]? = some none) :
      Move p s (.loadReads i) { s with initializers := s.initializers.set i (some s.durable) }
  | givesUp {act : Act} {i : ℕ} {loaded : Option (List StoredRecord)} (hi : s.initializers[i]? = some loaded) :
      Move p s act { s with initializers := s.initializers.eraseIdx i }
  | installs {i : ℕ} {loaded : List StoredRecord} (hi : s.initializers[i]? = some (some loaded))
      (hloadable : loadable p loaded = true) :
      Move p s (.install i) (({ s with initializers := s.initializers.eraseIdx i } : Service).installRecords loaded)
  | crashes : Move p s .crash (Service.start s.durable)

theorem Move.same (p : Setting) (s : Service) (act : Act) : Move p s act s :=
  .flags s.stopped s.isConnected s.operations s.shutdowns s.cycles s.stores s.failures

theorem synchronizeNow_eq (s : Service) (caller : Caller) :
    ∃ operations failures, s.synchronizeNow caller = { s with operations, failures } := by
  unfold Service.synchronizeNow
  split_ifs
  · exact ⟨s.operations ++ [.synchronize caller], s.failures, rfl⟩
  · exact ⟨s.operations, s.failures, rfl⟩
  · exact ⟨s.operations, s.failures, rfl⟩
  · exact ⟨s.operations, s.failures + 1, rfl⟩

theorem step_move (hstep : Service.step p s act = some s') : Move p s act s' := by
  cases act with
  | store input =>
    obtain rfl := Option.some.inj hstep
    split_ifs
    · exact .flags s.stopped s.isConnected _ s.shutdowns s.cycles s.stores s.failures
    · exact .same p s _
  | synchronizeNow =>
    obtain rfl := Option.some.inj hstep
    obtain ⟨operations, failures, heq⟩ := synchronizeNow_eq s .direct
    rw [heq]
    exact .flags s.stopped s.isConnected operations s.shutdowns s.cycles s.stores failures
  | runConnectivityCycle =>
    obtain rfl := Option.some.inj hstep
    split_ifs
    · exact .same p s _
    · exact .flags s.stopped s.isConnected s.operations s.shutdowns _ s.stores s.failures
  | shutdown =>
    obtain rfl := Option.some.inj hstep
    exact .flags true s.isConnected s.operations _ s.cycles s.stores s.failures
  | initializeService =>
    obtain rfl := Option.some.inj hstep
    split_ifs with hinit
    · exact .same p s _
    · exact .initializes (Bool.eq_false_iff.mpr hinit)
  | begin now id => exact .begins hstep
  | saveTakes => exact .takes hstep
  | saveReturns | saveFails | processed | answer | forwardFails | reported | reportFails => exact .inside rfl hstep
  | storeGoesOn =>
    unfold Service.step at hstep
    dsimp only at hstep
    split at hstep
    · cases hstep
    · rename_i stores hstores
      obtain rfl := Option.some.inj hstep
      split_ifs
      · obtain ⟨operations, failures, heq⟩ := synchronizeNow_eq { s with stores } .store
        rw [heq]
        exact .flags s.stopped s.isConnected operations s.shutdowns s.cycles stores failures
      · exact .flags s.stopped s.isConnected s.operations s.shutdowns s.cycles stores s.failures
  | reachable yes =>
    unfold Service.step at hstep
    dsimp only at hstep
    split at hstep
    · cases hstep
    · rename_i cycles hcycles
      obtain rfl := Option.some.inj hstep
      unfold goOnCycle
      split_ifs
      · exact .flags s.stopped s.isConnected s.operations s.shutdowns cycles s.stores s.failures
      · obtain ⟨operations, failures, heq⟩ := synchronizeNow_eq { s with cycles, isConnected := true } .cycle
        rw [heq]
        exact .flags s.stopped true operations s.shutdowns cycles s.stores failures
      · exact .flags s.stopped false s.operations s.shutdowns cycles s.stores s.failures
  | reachableFails =>
    unfold Service.step at hstep
    dsimp only at hstep
    split at hstep
    · cases hstep
    · rename_i cycles hcycles
      obtain rfl := Option.some.inj hstep
      exact .flags s.stopped false s.operations s.shutdowns cycles s.stores s.failures
  | failureCaught =>
    unfold Service.step at hstep
    dsimp only at hstep
    split at hstep
    · cases hstep
    · rename_i failures hfailures
      obtain rfl := Option.some.inj hstep
      exact .flags s.stopped false s.operations s.shutdowns s.cycles s.stores failures
  | shutdownGoesOn i =>
    unfold Service.step at hstep
    dsimp only at hstep
    split at hstep
    · obtain rfl := Option.some.inj hstep
      exact .goesOnShutdown i
    · cases hstep
  | shutdownSaveTakes i =>
    unfold Service.step at hstep
    dsimp only at hstep
    split at hstep
    · rename_i snapshot hi
      obtain rfl := Option.some.inj hstep
      exact .closingTakes hi
    · cases hstep
  | shutdownSaveReturns i =>
    unfold Service.step at hstep
    dsimp only at hstep
    split at hstep
    · rename_i snapshot hi
      obtain rfl := Option.some.inj hstep
      exact .closingReturns hi
    · cases hstep
  | shutdownSaveFails i =>
    unfold Service.step at hstep
    dsimp only at hstep
    split at hstep
    · rename_i snapshot hi
      obtain rfl := Option.some.inj hstep
      exact .closingFails hi
    · cases hstep
  | loadReads i =>
    unfold Service.step at hstep
    dsimp only at hstep
    split at hstep
    · rename_i hi
      obtain rfl := Option.some.inj hstep
      exact .reads hi
    · cases hstep
  | loadFails i =>
    unfold Service.step at hstep
    dsimp only at hstep
    split at hstep
    · rename_i hi
      obtain rfl := Option.some.inj hstep
      exact .givesUp hi
    · cases hstep
  | install i =>
    unfold Service.step at hstep
    dsimp only at hstep
    split at hstep
    · rename_i loaded hi
      obtain rfl := Option.some.inj hstep
      split_ifs with hloadable
      · exact .installs hi hloadable
      · exact .givesUp hi
    · cases hstep
  | crash =>
    obtain rfl := Option.some.inj hstep
    exact .crashes

theorem Apart.closed (h : Apart s) {save : Save} (hi : s.closing[i]? = some save) :
    Apart { s with closing := s.closing.eraseIdx i } ∧ s.closing.eraseIdx i = [] := by
  obtain ⟨rfl, hclosing, hidle, hloading, hinit, -, -⟩ := h.closing_some hi
  have hnone : s.closing.eraseIdx 0 = [] := by
    rw [hclosing]
    rfl
  exact ⟨⟨h.fresh, h.keyed, fun hoff => absurd (hinit.symm.trans hoff) (by decide), fun hrunning => absurd hidle hrunning,
    h.saving, .inl hnone, .inl hloading⟩, hnone⟩

theorem Apart.step (h : Apart s) {act : Act} (hok : s.Exclusive act) (hstep : step p s act = some s') : Apart s' := by
  cases step_move hstep with
  | flags => exact h.flags ..
  | initializes hoff =>
    obtain ⟨hidle, hclosing, hloading⟩ := hok hoff
    refine ⟨h.fresh, h.keyed, h.off, fun hrunning => absurd hidle hrunning, h.saving, .inl hclosing, .inr ⟨none, ?_, hoff, ?_⟩⟩
    · rw [hloading, List.nil_append]
    · intro records hnone
      cases hnone
  | begins hbegin => exact h.beginNext hok hbegin
  | takes htakes => exact h.takeSave htakes
  | inside hact hstep => exact h.sectionStep hact hstep
  | goesOnShutdown i =>
    have hless : Apart { s with shutdowns := s.shutdowns.eraseIdx i } := h.flags ..
    exact hless.goOnShutdown hok
  | closingTakes hi =>
    rename_i i snapshot
    obtain ⟨rfl, hclosing, hidle, hloading, hinit, hsnapshot, -⟩ := h.closing_some hi
    refine ⟨h.fresh, h.keyed, fun hoff => absurd (hinit.symm.trans hoff) (by decide), fun hrunning => absurd hidle hrunning,
      ?_, .inr ⟨⟨snapshot, true⟩, ?_, hidle, hloading, hsnapshot, fun _ => hsnapshot⟩, .inl hloading⟩
    · intro current save hrunning
      rw [hidle] at hrunning
      cases hrunning
    · rw [hclosing]
      rfl
  | closingReturns hi =>
    obtain ⟨-, -, hidle, -⟩ := h.closing_some hi
    obtain ⟨hless, hnone⟩ := h.closed hi
    exact hless.close hidle hnone
  | closingFails hi => exact (h.closed hi).1
  | reads hi =>
    obtain ⟨rfl, hloading, hoff, -⟩ := h.loading_some hi
    obtain ⟨-, hidle, hclosing⟩ := h.off hoff
    refine ⟨h.fresh, h.keyed, h.off, fun hrunning => absurd hidle hrunning, h.saving, .inl hclosing,
      .inr ⟨some s.durable, ?_, hoff, fun records hrecords => (Option.some.inj hrecords).symm⟩⟩
    rw [hloading]
    rfl
  | givesUp hi => exact h.loaded hi
  | installs hi => exact h.install hi
  | crashes => exact .start s.durable

/-! ### Effects -/

/-- The records, the queue and the section stay as they are. -/
structure Quiet (s s' : Service) : Prop where
  heap : s'.heap = s.heap
  localStore : s'.localStore = s.localStore
  durable : s'.durable = s.durable
  initialized : s'.initialized = s.initialized
  running : s'.running = s.running

theorem quiet_endSection (hidle : s.running = none) : Quiet s s.endSection := ⟨rfl, rfl, rfl, rfl, hidle.symm⟩

structure Puts (p : Setting) (s s' : Service) (id : Text) : Prop where
  heap : ∀ entry ∈ s.localStore, s'.heap entry.2 = s.heap entry.2
  localStore : ∃ ref unsealed, s'.localStore = mapSet s.localStore id ref ∧
    withChecksum p.localeCompare p.sha256Hex unsealed = .ok (s'.heap ref)
  durable : s'.durable = s.durable
  initialized : s.initialized = true ∧ s'.initialized = true
  running : s.running = none ∧ s'.running = some (.storing id s'.save)

structure Takes (s s' : Service) : Prop where
  heap : s'.heap = s.heap
  localStore : s'.localStore = s.localStore
  durable : s'.durable = s.records
  initialized : s.initialized = true ∧ s'.initialized = true
  running : s'.running = s.running.map Section.taken

structure Closes (s s' : Service) : Prop where
  localStore : s'.localStore = []
  durable : s'.durable = s.durable
  initialized : s'.initialized = false
  running : s'.running = none

structure Loads (p : Setting) (s s' : Service) : Prop where
  loadable : loadable p s.durable = true
  records : s'.records = s.durable
  durable : s'.durable = s.durable
  initialized : s'.initialized = true
  running : s'.running = none

inductive Effect (p : Setting) (s : Service) (act : Act) (s' : Service) : Prop
  | quiet (h : Quiet s s')
  | puts {now : Option ℤ} {id : Text} {input : StoreInput} {rest : List Work} (hact : act = .begin now id)
      (hnext : s.operations = .store input :: rest) (h : Puts p s s' id)
  | drains {idle : Service} {drain : Drain} (h : Quiet s idle) (hidle : s.running = none) (hinit : s.initialized = true)
      (heq : s' = Service.drainLoop p idle drain)
  | inside (hact : isSectionStep act = true)
  | takes (h : Takes s s')
  | closes (h : Closes s s')
  | loads (h : Loads p s s')

theorem record_id {input : StoreInput} {record : StoredRecord}
    (h : input.record p.localeCompare p.sha256Hex now id = .ok record) :
    record.id = id ∧ ∃ unsealed, withChecksum p.localeCompare p.sha256Hex unsealed = .ok record := by
  obtain ⟨-, h⟩ := bind_unit_ok.mp h
  exact ⟨withChecksum_id h, _, h⟩

theorem beginStore_effect (h : Apart s) (hidle : s.running = none) (input : StoreInput) (now : Option ℤ) (id : Text)
    (hinit : s.stopped = false → s.initialized = true) :
    Quiet s (Service.beginStore p s input now id) ∨ Puts p s (Service.beginStore p s input now id) id := by
  unfold Service.beginStore
  split_ifs with hstopped hfull
  · exact .inl (quiet_endSection hidle)
  · exact .inl (quiet_endSection hidle)
  · split
    · rename_i record hrecord
      obtain ⟨rfl, unsealed, hsealed⟩ := record_id hrecord
      have hinit := hinit (Bool.eq_false_iff.mpr hstopped)
      refine .inr ⟨fun entry hentry => ?_, ⟨s.objects, unsealed, rfl, ?_⟩, rfl, ⟨hinit, hinit⟩, hidle, rfl⟩
      · exact Function.update_of_ne (h.fresh entry hentry).ne _ _
      · dsimp only
        rw [Function.update_self]
        exact hsealed
    · exact .inl (quiet_endSection hidle)

theorem beginNext_effect (h : Apart s) (hok : s.Exclusive (.begin now id))
    (hstep : Service.beginNext p s now id = some s') : Effect p s (.begin now id) s' := by
  unfold Service.beginNext at hstep
  split at hstep
  · rename_i input rest hidle hoperations
    obtain rfl := Option.some.inj hstep
    have hrest : Apart { s with operations := rest } := h.flags ..
    have hinit : s.stopped = false → s.initialized = true := by
      intro hstopped
      refine (hok ?_).2
      rw [StartsWork, hoperations]
      exact hstopped
    rcases beginStore_effect (p := p) hrest hidle input now id hinit with hquiet | hputs
    · exact .quiet ⟨hquiet.heap, hquiet.localStore, hquiet.durable, hquiet.initialized, hquiet.running⟩
    · exact .puts rfl hoperations ⟨hputs.heap, hputs.localStore, hputs.durable, hputs.initialized, hputs.running⟩
  · rename_i caller rest hidle hoperations
    obtain rfl := Option.some.inj hstep
    by_cases hwork : s.localStore ≠ [] ∧ s.isConnected = true
    · have hinit : s.initialized = true := by
        refine (hok ?_).2
        rw [StartsWork, hoperations]
        exact hwork
      have hquiet : Quiet s { s with operations := rest } := ⟨rfl, rfl, rfl, rfl, rfl⟩
      exact .drains hquiet hidle hinit rfl
    · refine .quiet ?_
      unfold Service.drainLoop
      rw [if_neg hwork]
      exact ⟨rfl, rfl, rfl, rfl, hidle.symm⟩
  · cases hstep

theorem takeSave_effect (h : Apart s) (hstep : s.takeSave = some s') : Takes s s' := by
  obtain ⟨current, snapshot, hrunning, hsave, -, rfl⟩ := takeSave_some hstep
  have hsome : s.running ≠ none := by
    rw [hrunning]
    exact Option.some_ne_none _
  have hinit := (h.running hsome).1
  refine ⟨rfl, rfl, (h.saving current _ hrunning hsave).1, ⟨hinit, hinit⟩, ?_⟩
  rw [hrunning]
  rfl

theorem step_effect (h : Apart s) (hok : s.Exclusive act) (hstep : Service.step p s act = some s') :
    Effect p s act s' := by
  cases step_move hstep with
  | flags | initializes | closingFails | reads | givesUp => exact .quiet ⟨rfl, rfl, rfl, rfl, rfl⟩
  | begins hbegin => exact beginNext_effect h hok hbegin
  | takes htakes => exact .takes (takeSave_effect h htakes)
  | inside hact => exact .inside hact
  | goesOnShutdown i =>
    unfold Service.goOnShutdown
    split_ifs with hinit
    · exact .quiet ⟨rfl, rfl, rfl, rfl, rfl⟩
    · exact .closes ⟨rfl, rfl, rfl, (h.off (Bool.eq_false_iff.mpr hinit)).2.1⟩
  | closingTakes hi =>
    obtain ⟨rfl, -, hidle, -, hinit, hsnapshot, -⟩ := h.closing_some hi
    refine .takes ⟨rfl, rfl, hsnapshot, ⟨hinit, hinit⟩, ?_⟩
    rw [hidle]
    rfl
  | closingReturns hi =>
    obtain ⟨-, -, hidle, -⟩ := h.closing_some hi
    exact .closes ⟨rfl, rfl, rfl, hidle⟩
  | installs hi hloadable =>
    rename_i i loaded
    obtain ⟨-, -, hoff, hdurable⟩ := h.loading_some hi
    obtain rfl := hdurable loaded rfl
    exact .loads ⟨hloadable, installRecords_records _ _, rfl, rfl, (h.off hoff).2.1⟩
  | crashes => exact .closes ⟨rfl, rfl, rfl, rfl⟩

end Service

end OxScada.Edge
