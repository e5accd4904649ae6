import OxScada.Batcher.Machine

/-! Where the events of the batcher are. Its queue, its flushes in flight and its emitted
batches are a ledger, which the steps of the machine move as custody asks for, unless an
exception is thrown at one of three places. -/

namespace OxScada.Batcher
open OxScada.Runs

variable {ε : Type*}

/-- The events of a flush that are neither queued nor emitted. -/
def Flush.inFlight (f : Flush ε) : List (Entry ε) :=
  match f.phase with
  | .creating => f.events
  | .emitting => []

def Suspended.entryOf (w : Suspended ε) : Option (Entry ε) :=
  match w.call with
  | .ingest entry => some entry
  | .flush => none
  | .shutdown => none

namespace State

def inFlight (s : State ε) : List (Entry ε) := s.flushes.flatMap Flush.inFlight

/-- The events of `ingest` calls that have neither returned nor thrown. -/
def awaiting (s : State ε) : List (Entry ε) := s.suspended.filterMap Suspended.entryOf

def held (s : State ε) : List (Entry ε) := s.emitted.flatten ++ s.inFlight ++ s.eventQueue

def ledger (s : State ε) : Ledger (Entry ε) where
  promised := ↑(s.returnedTrue ++ s.awaiting)
  refused := ↑s.returnedFalse
  held := ↑s.held

/-! ### Parts of the code that leave the ledger as it is -/

/-- No event enters or leaves, and no scheduled flush is rejected. -/
structure Keeps (s s' : State ε) : Prop where
  promised : (s'.returnedTrue ++ s'.awaiting).Perm (s.returnedTrue ++ s.awaiting)
  refused : s'.returnedFalse = s.returnedFalse
  held : s'.held.Perm s.held
  calls : s'.calls = s.calls
  settled : ∀ p ∈ s'.settled, p ∈ s.settled ∨ p.2 = true

theorem Keeps.refl (s : State ε) : Keeps s s := ⟨.rfl, rfl, .rfl, rfl, fun _ hp => .inl hp⟩

variable {s : State ε} {w : Suspended ε} {f : Flush ε} {i : ℕ}

theorem Keeps.trans {s' s'' : State ε} (h : Keeps s s') (h' : Keeps s' s'') : Keeps s s'' where
  promised := h'.promised.trans h.promised
  refused := h'.refused.trans h.refused
  held := h'.held.trans h.held
  calls := h'.calls.trans h.calls
  settled := by
    intro p hp
    rcases h'.settled p hp with hold | htrue
    · exact h.settled p hold
    · exact .inr htrue

theorem Keeps.ledger_eq {s' : State ε} (h : Keeps s s') : s'.ledger = s.ledger := by
  unfold ledger
  rw [Multiset.coe_eq_coe.mpr h.promised, h.refused, Multiset.coe_eq_coe.mpr h.held]

theorem keeps_settle (promise : Option ℕ) (s : State ε) : Keeps s (s.settle promise true) := by
  cases promise with
  | none => exact .refl s
  | some id =>
    refine ⟨.rfl, rfl, .rfl, rfl, fun p hp => ?_⟩
    rcases List.mem_cons.mp hp with rfl | hp
    · exact .inr rfl
    · exact .inl hp

theorem keeps_flushBatch (promise : Option ℕ) (s : State ε) : Keeps s (s.flushBatch promise) := by
  unfold flushBatch
  split_ifs with hempty
  · exact keeps_settle promise s
  · refine ⟨.rfl, rfl, ?_, rfl, fun p hp => .inl hp⟩
    simp only [held, inFlight, List.flatMap_append, List.append_nil, List.append_assoc]
    simp [Flush.inFlight]

theorem keeps_shutdownNow (s : State ε) : Keeps s s.shutdownNow := by
  have htimer : Keeps s { s with flushTimer := .idle } := ⟨.rfl, rfl, .rfl, rfl, fun _ hp => .inl hp⟩
  unfold shutdownNow
  dsimp only
  split_ifs
  · exact htimer
  · exact htimer.trans (keeps_flushBatch none _)

theorem keeps_suspend (hw : w.entryOf = none) (s : State ε) :
    Keeps s { s with suspended := s.suspended ++ [w] } := by
  refine ⟨?_, rfl, .rfl, rfl, fun _ hp => .inl hp⟩
  simp only [awaiting, List.filterMap_append]
  simp [hw]

theorem keeps_flush (s : State ε) : Keeps s s.flush := by
  unfold flush
  split
  · exact keeps_suspend rfl s
  · exact keeps_flushBatch none s

theorem keeps_shutdown (s : State ε) : Keeps s s.shutdown := by
  unfold shutdown
  split
  · exact keeps_suspend rfl s
  · exact keeps_shutdownNow s

theorem keeps_timer (s : State ε) : Keeps s ({ s with flushTimer := .fired }.flushBatch none) := by
  have htimer : Keeps s { s with flushTimer := .fired } := ⟨.rfl, rfl, .rfl, rfl, fun _ hp => .inl hp⟩
  exact htimer.trans (keeps_flushBatch none _)

theorem keeps_microtask (id : ℕ) (s : State ε) :
    Keeps s ({ s with pendingFlush := none }.flushBatch (some id)) := by
  have hpending : Keeps s { s with pendingFlush := none } := ⟨.rfl, rfl, .rfl, rfl, fun _ hp => .inl hp⟩
  exact hpending.trans (keeps_flushBatch (some id) _)

/-! ### The rest of a flush -/

theorem flushIn_eq_some {phase : Phase}
    (h : s.flushIn phase i = some f) : s.flushes[i]? = some f ∧ f.phase = phase := by
  obtain ⟨hf, hphase⟩ := Option.filter_eq_some_iff.mp h
  exact ⟨hf, beq_iff_eq.mp hphase⟩

theorem inFlight_perm (hf : s.flushes[i]? = some f) :
    s.inFlight.Perm (f.inFlight ++ (s.flushes.eraseIdx i).flatMap Flush.inFlight) := by
  obtain ⟨hi, rfl⟩ := List.getElem?_eq_some_iff.mp hf
  exact ((List.getElem_cons_eraseIdx_perm hi).flatMap_right _).symm

theorem keeps_emitBatch (hf : s.flushIn .creating i = some f) :
    Keeps s (s.emitBatch i f) := by
  -- the events change from in flight to emitted, so the flush counts no longer
  obtain ⟨hf, hphase⟩ := flushIn_eq_some hf
  have hi : i < s.flushes.length := (List.getElem?_eq_some_iff.mp hf).1
  have hset : ((s.flushes.set i { f with phase := .emitting }).flatMap Flush.inFlight).Perm
      ((s.flushes.eraseIdx i).flatMap Flush.inFlight) :=
    (List.set_perm_cons_eraseIdx hi _).flatMap_right _
  have hflight := inFlight_perm hf
  rw [Flush.inFlight, hphase] at hflight
  refine ⟨.rfl, rfl, ?_, rfl, fun _ hp => .inl hp⟩
  simp only [held, inFlight, emitBatch, List.flatten_append, List.flatten_singleton,
    List.append_assoc] at hflight ⊢
  refine List.Perm.append_left _ ?_
  rw [← List.append_assoc]
  exact ((hset.append_left _).trans hflight.symm).append_right _

theorem keeps_finishFlush (hf : s.flushIn .emitting i = some f) :
    Keeps s (s.finishFlush i f) := by
  obtain ⟨hf, hphase⟩ := flushIn_eq_some hf
  have hflight := inFlight_perm hf
  rw [Flush.inFlight, hphase] at hflight
  have hremove : Keeps s { s with flushes := s.flushes.eraseIdx i } := by
    refine ⟨.rfl, rfl, ?_, rfl, fun _ hp => .inl hp⟩
    exact (hflight.symm.append_left _).append_right _
  exact hremove.trans (keeps_settle f.promise _)

theorem keeps_failFlush (hf : s.flushIn .creating i = some f) :
    Keeps s (s.failFlush i f .error) := by
  obtain ⟨hf, hphase⟩ := flushIn_eq_some hf
  have hflight := inFlight_perm hf
  rw [Flush.inFlight, hphase] at hflight
  have hrequeue : Keeps s { s with
      flushes := s.flushes.eraseIdx i
      eventQueue := f.events ++ s.eventQueue
      metrics := { s.metrics with queueDepth := (f.events ++ s.eventQueue).length } } := by
    refine ⟨.rfl, rfl, ?_, rfl, fun _ hp => .inl hp⟩
    simp only [held, inFlight, List.append_assoc] at hflight ⊢
    refine List.Perm.append_left _ ?_
    rw [← List.append_assoc]
    exact (List.perm_append_comm.trans hflight.symm).append_right _
  exact hrequeue.trans (keeps_settle f.promise _)

theorem awaiting_perm (hw : s.suspended[i]? = some w) :
    s.awaiting.Perm (w.entryOf.toList ++ (s.suspended.eraseIdx i).filterMap Suspended.entryOf) := by
  obtain ⟨hi, rfl⟩ := List.getElem?_eq_some_iff.mp hw
  have hperm := ((List.getElem_cons_eraseIdx_perm hi).filterMap Suspended.entryOf).symm
  rw [List.filterMap_cons] at hperm
  unfold awaiting
  rcases hentry : (s.suspended[i]).entryOf with _ | entry
  · rwa [hentry] at hperm
  · rwa [hentry] at hperm

theorem keeps_resume (hw : s.suspended[i]? = some w) :
    Keeps s ({ s with suspended := s.suspended.eraseIdx i }.continueCall w.call true) := by
  have hwait := awaiting_perm hw
  have hremove : w.entryOf = none → Keeps s { s with suspended := s.suspended.eraseIdx i } := by
    intro hnone
    rw [hnone] at hwait
    exact ⟨hwait.symm.append_left _, rfl, .rfl, rfl, fun _ hp => .inl hp⟩
  rcases hcall : w.call with entry | _ | _
  · have hentry : w.entryOf = some entry := by
      rw [Suspended.entryOf, hcall]
    rw [hentry] at hwait
    refine ⟨?_, rfl, .rfl, rfl, fun _ hp => .inl hp⟩
    exact List.perm_middle.symm.trans (hwait.symm.append_left _)
  · have hnone : w.entryOf = none := by
      rw [Suspended.entryOf, hcall]
    exact (hremove hnone).trans (keeps_flushBatch none _)
  · have hnone : w.entryOf = none := by
      rw [Suspended.entryOf, hcall]
    exact (hremove hnone).trans (keeps_shutdownNow _)

/-! ### Events that enter -/

/-- An `ingest` call has left the ledger `l`, without settling anything. -/
structure Answers (s : State ε) (l : Ledger (Entry ε)) (s' : State ε) : Prop where
  ledger : s'.ledger = l
  calls : s'.calls = s.calls
  settled : s'.settled = s.settled

theorem answers_scheduleFlush (s : State ε) : Answers s s.ledger s.scheduleFlush := by
  unfold scheduleFlush
  split
  · exact ⟨rfl, rfl, rfl⟩
  · exact ⟨rfl, rfl, rfl⟩

theorem answers_enqueue (entry : Entry ε) (s : State ε) :
    Answers s { s.ledger with held := entry ::ₘ s.ledger.held } (s.enqueue entry) := by
  have hheld : ((s.emitted.flatten ++ s.inFlight ++ (s.eventQueue ++ [entry]) : List (Entry ε)) :
      Multiset (Entry ε)) = entry ::ₘ ↑s.held := by
    rw [← List.append_assoc, Multiset.cons_coe, Multiset.coe_eq_coe]
    exact List.perm_append_singleton entry _
  unfold enqueue
  dsimp only
  split_ifs
  · exact ⟨congrArg (Ledger.mk _ _) hheld, rfl, rfl⟩
  · exact ⟨congrArg (Ledger.mk _ _) hheld, rfl, rfl⟩

theorem answers_awaitPending (entry : Entry ε) (s : State ε) :
    Answers s { s.ledger with promised := entry ::ₘ s.ledger.promised } (s.awaitPending entry) := by
  unfold awaitPending
  split
  · refine ⟨?_, rfl, rfl⟩
    have hwait : ((s.returnedTrue ++ (s.awaiting ++ [entry]) : List (Entry ε)) : Multiset (Entry ε)) =
        entry ::ₘ ↑(s.returnedTrue ++ s.awaiting) := by
      rw [← List.append_assoc, Multiset.cons_coe, Multiset.coe_eq_coe]
      exact List.perm_append_singleton entry _
    unfold ledger
    rw [← hwait]
    simp [awaiting, Suspended.entryOf, held, inFlight]
  · exact ⟨rfl, rfl, rfl⟩

theorem answers_accept (cfg : EventBatcherConfig) (entry : Entry ε) {measure : Except Thrown ℕ} (s : State ε)
    (hmeasure : s.eventQueue.length + 1 < cfg.maxEventsPerBatch → ∃ size, measure = .ok size) :
    Answers s (s.ledger.accept entry) (s.accept cfg entry measure) := by
  have henqueue := answers_enqueue entry s
  have hlen : (s.enqueue entry).eventQueue.length = s.eventQueue.length + 1 := by
    unfold enqueue
    dsimp only
    split_ifs <;> simp [startBatchTimer]
  have hschedule := answers_scheduleFlush (s.enqueue entry)
  have hlater := answers_awaitPending entry (s.enqueue entry).scheduleFlush
  have hnow := answers_awaitPending entry (s.enqueue entry)
  rw [hschedule.ledger, henqueue.ledger] at hlater
  rw [henqueue.ledger] at hnow
  have hdefer : Answers s (s.ledger.accept entry) ((s.enqueue entry).scheduleFlush.awaitPending entry) :=
    ⟨hlater.ledger, hlater.calls.trans (hschedule.calls.trans henqueue.calls),
      hlater.settled.trans (hschedule.settled.trans henqueue.settled)⟩
  unfold accept
  dsimp only
  split_ifs with hfull
  · exact hdefer
  · obtain ⟨size, rfl⟩ := hmeasure (by omega)
    dsimp only
    split_ifs
    · exact hdefer
    · exact ⟨hnow.ledger, hnow.calls.trans henqueue.calls, hnow.settled.trans henqueue.settled⟩

theorem answers_refuse (thrown : Thrown) (entry : Entry ε) (s : State ε) :
    Answers s (s.ledger.refuse entry) (s.refuse thrown entry) ∨ Answers s s.ledger (s.refuse thrown entry) := by
  cases thrown with
  | error => exact .inl ⟨rfl, rfl, rfl⟩
  | nullish => exact .inr ⟨rfl, rfl, rfl⟩

end State

/-! ### Runs -/

/-- Measuring the queue does not throw, no listener throws, and batch creation never fails
with `null` or `undefined`. -/
def Careful (cfg : EventBatcherConfig) (s : State ε) : Action ε → Prop
  | .ingest _ parse measure =>
    parse = none → s.eventQueue.length + 1 < cfg.maxEventsPerBatch → ∃ size, measure = .ok size
  | .createFails _ thrown => thrown = .error
  | .listenersThrow _ _ => False
  | _ => True

/-- The events of accepted calls, those still awaiting a flush included, are the events in
emitted batches, in flight and in the queue, each in one of these places once; those of
refused calls are in none. -/
structure Accounted (s : State ε) : Prop where
  balance : (↑(s.returnedTrue ++ s.awaiting) : Multiset (Entry ε)) =
    ↑(s.emitted.flatten ++ s.inFlight ++ s.eventQueue)
  nodup : (s.emitted.flatten ++ s.inFlight ++ s.eventQueue).Nodup
  refused : ∀ x ∈ s.returnedFalse, x ∉ s.emitted.flatten ++ s.inFlight ++ s.eventQueue

structure Custody (s : State ε) : Prop where
  sound : s.ledger.Sound
  fresh : ∀ x ∈ s.ledger.known, x.ticket < s.calls
  fulfilled : ∀ p ∈ s.settled, p.2 = true

namespace Custody
open State

variable {s : State ε}

theorem accounted (h : Custody s) : Accounted s where
  balance := h.sound.balance
  nodup := Multiset.coe_nodup.mp h.sound.held_nodup
  refused := by
    intro x hx hheld
    exact h.sound.refused_notMem (Multiset.mem_coe.mpr hx) (Multiset.mem_coe.mpr hheld)

theorem keeps {s' : State ε} (h : Custody s) (hk : Keeps s s') : Custody s' where
  sound := hk.ledger_eq ▸ h.sound
  fresh := by
    rw [hk.ledger_eq, hk.calls]
    exact h.fresh
  fulfilled := by
    intro p hp
    rcases hk.settled p hp with hold | htrue
    · exact h.fulfilled p hold
    · exact htrue

theorem start : Custody ({} : State ε) where
  sound := ⟨rfl, List.nodup_nil⟩
  fresh := by
    intro x hx
    cases hx
  fulfilled := by
    intro p hp
    cases hp

theorem lookup_eq_true (h : Custody s) {id : ℕ} {fulfilled : Bool}
    (hl : s.settled.lookup id = some fulfilled) : fulfilled = true := by
  obtain ⟨before, after, hsplit, -⟩ := List.lookup_eq_some_iff.mp hl
  exact h.fulfilled (id, fulfilled) (by rw [hsplit]; simp)

theorem fresh_entry (h : Custody s) (event : ε) : (⟨s.calls, event⟩ : Entry ε) ∉ s.ledger.known :=
  fun hmem => absurd (h.fresh _ hmem) (lt_irrefl _)

theorem answer {s' : State ε} (h : Custody s) (event : ε) {l : Ledger (Entry ε)}
    (ha : Answers { s with calls := s.calls + 1 } l s')
    (hl : l = s.ledger.accept ⟨s.calls, event⟩ ∨ l = s.ledger.refuse ⟨s.calls, event⟩ ∨ l = s.ledger) :
    Custody s' := by
  -- tickets number the calls, so the new entry is not in the ledger yet
  have hnew := h.fresh_entry event
  have hknown : l.Sound ∧ ∀ x ∈ l.known, x = ⟨s.calls, event⟩ ∨ x ∈ s.ledger.known := by
    rcases hl with rfl | rfl | rfl
    · refine ⟨h.sound.accept hnew, fun x hx => ?_⟩
      simpa [Ledger.known, Ledger.accept, or_assoc] using hx
    · refine ⟨h.sound.refuse hnew, fun x hx => ?_⟩
      simpa [Ledger.known, Ledger.refuse, or_left_comm] using hx
    · exact ⟨h.sound, fun x hx => .inr hx⟩
  refine ⟨ha.ledger ▸ hknown.1, ?_, ?_⟩
  · intro x hx
    rw [ha.ledger] at hx
    rw [ha.calls]
    rcases hknown.2 x hx with rfl | hold
    · exact Nat.lt_succ_self s.calls
    · exact (h.fresh x hold).trans (Nat.lt_succ_self s.calls)
  · rw [ha.settled]
    exact h.fulfilled

theorem ingest {cfg : EventBatcherConfig} (h : Custody s) {event : ε}
    {parse : Option Thrown} {measure : Except Thrown ℕ}
    (hmeasure : parse = none → s.eventQueue.length + 1 < cfg.maxEventsPerBatch → ∃ size, measure = .ok size) :
    Custody (s.ingest cfg event parse measure) := by
  unfold State.ingest
  cases parse with
  | some thrown =>
    rcases answers_refuse thrown ⟨s.calls, event⟩ { s with calls := s.calls + 1 } with ha | ha
    · exact h.answer event ha (.inr (.inl rfl))
    · exact h.answer event ha (.inr (.inr rfl))
  | none =>
    dsimp only
    split_ifs
    · exact h.answer event (l := s.ledger.refuse ⟨s.calls, event⟩) ⟨rfl, rfl, rfl⟩ (.inr (.inl rfl))
    · have ha := answers_accept cfg ⟨s.calls, event⟩ { s with calls := s.calls + 1 } (hmeasure rfl)
      exact h.answer event ha (.inl rfl)

theorem step {cfg : EventBatcherConfig} {s s' : State ε} {a : Action ε} (h : Custody s)
    (hok : Careful cfg s a) (hstep : step cfg s a = some s') : Custody s' := by
  cases a with
  | ingest event parse measure =>
    obtain rfl := Option.some.inj hstep
    exact h.ingest hok
  | flush =>
    obtain rfl := Option.some.inj hstep
    exact h.keeps (keeps_flush s)
  | shutdown =>
    obtain rfl := Option.some.inj hstep
    exact h.keeps (keeps_shutdown s)
  | timer =>
    unfold Batcher.step at hstep
    split_ifs at hstep
    obtain rfl := Option.some.inj hstep
    exact h.keeps (keeps_timer s)
  | microtask =>
    obtain ⟨id, -, rfl⟩ := Option.map_eq_some_iff.mp hstep
    exact h.keeps (keeps_microtask id s)
  | created i =>
    obtain ⟨f, hf, rfl⟩ := Option.map_eq_some_iff.mp hstep
    exact h.keeps (keeps_emitBatch hf)
  | createFails i thrown =>
    obtain ⟨f, hf, rfl⟩ := Option.map_eq_some_iff.mp hstep
    obtain rfl : thrown = .error := hok
    exact h.keeps (keeps_failFlush hf)
  | listenersReturn i =>
    obtain ⟨f, hf, rfl⟩ := Option.map_eq_some_iff.mp hstep
    exact h.keeps (keeps_finishFlush hf)
  | listenersThrow i thrown => exact absurd hok id
  | resume i =>
    obtain ⟨w, hw, hrest⟩ := Option.bind_eq_some_iff.mp hstep
    obtain ⟨fulfilled, hl, rfl⟩ := Option.map_eq_some_iff.mp hrest
    obtain rfl := h.lookup_eq_true hl
    exact h.keeps (keeps_resume hw)

end Custody

/-- In every run without an exception in one of the three places, every event is accounted
for, and a call that awaits a flush can only return `true`. -/
theorem reachable_accounted {cfg : EventBatcherConfig} {s : State ε}
    (hs : Reachable (step cfg) (Careful cfg) {} s) :
    Accounted s ∧ ∀ p ∈ s.settled, p.2 = true := by
  have hcustody : Custody s := hs.invariant .start fun s a s' h hok hstep => h.step hok hstep
  exact ⟨hcustody.accounted, hcustody.fulfilled⟩

theorem reachable_accounted_one :
    ∃ s : State ℕ, exec (step .default) {} [.ingest 7 none (.ok 10), .flush, .created 0, .listenersReturn 0] =
      some s ∧ s.emitted = [[⟨0, 7⟩]] ∧ Accounted s := by
  refine ⟨_, rfl, rfl, ?_⟩
  refine (@reachable_accounted ℕ .default _ (Reachable.start.of_exec
    [.ingest 7 none (.ok 10), .flush, .created 0, .listenersReturn 0] ?_ rfl)).1
  intro s a ha
  fin_cases ha
  · exact fun _ _ => ⟨10, rfl⟩
  all_goals exact trivial

/-- A queue that cannot be measured makes `ingest` return `false` for an event it has queued,
and a listener that throws makes the batcher queue events again that it has emitted. -/
theorem accounted_fails :
    (∃ s : State ℕ, Reachable (step .default) (fun _ _ => True) {} s ∧
      s.returnedFalse = [⟨0, 7⟩] ∧ s.eventQueue = [⟨0, 7⟩] ∧ ¬ Accounted s) ∧
    ∃ s : State ℕ, Reachable (step .default) (fun _ _ => True) {} s ∧
      s.emitted = [[⟨0, 7⟩]] ∧ s.eventQueue = [⟨0, 7⟩] ∧ ¬ Accounted s := by
  constructor
  · refine ⟨_, Reachable.start.of_exec [.ingest 7 none (.error .error)]
      (fun _ _ _ => trivial) rfl, rfl, rfl, fun h => ?_⟩
    exact h.refused ⟨0, 7⟩ (List.mem_singleton.mpr rfl) (List.mem_singleton.mpr rfl)
  · refine ⟨_, Reachable.start.of_exec
      [.ingest 7 none (.ok 10), .flush, .created 0, .listenersThrow 0 .error]
      (fun _ _ _ => trivial) rfl, rfl, rfl, fun h => ?_⟩
    exact absurd h.nodup (by decide)

end OxScada.Batcher
