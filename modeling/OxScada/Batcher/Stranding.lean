import OxScada.Batcher.Machine

/-! Whether queued events are attended to: a timer or a scheduled flush will come for them,
and the queue keeps its bound. The only step that can break this puts the events of a
failed flush back. -/

namespace OxScada.Batcher
open OxScada.Runs

variable {ε : Type*}

/-- A queued event has a timer or a scheduled flush coming, and backpressure holds. -/
structure Attended (cfg : EventBatcherConfig) (s : State ε) : Prop where
  coming : s.eventQueue ≠ [] → s.flushTimer = .armed ∨ s.pendingFlush.isSome
  bounded : s.eventQueue.length ≤ 2 * cfg.maxEventsPerBatch

/-- The events of `f` can be put back: something will come for them, and they fit. -/
def Requeueable (cfg : EventBatcherConfig) (s : State ε) (f : Flush ε) : Prop :=
  (s.flushTimer = .armed ∨ s.pendingFlush.isSome) ∧
    f.events.length + s.eventQueue.length ≤ 2 * cfg.maxEventsPerBatch

def FailsSafely (cfg : EventBatcherConfig) (s : State ε) : Action ε → Prop
  | .createFails i .error => ∀ f, s.flushIn .creating i = some f → Requeueable cfg s f
  | .listenersThrow i .error => ∀ f, s.flushIn .emitting i = some f → Requeueable cfg s f
  | _ => True

namespace Attended
open State
variable {cfg : EventBatcherConfig}

variable {s : State ε}

theorem of_empty (h : s.eventQueue = []) : Attended cfg s where
  coming := fun hne => absurd h hne
  bounded := by
    rw [h]
    exact Nat.zero_le _

theorem congr {s' : State ε} (h : Attended cfg s) (hqueue : s'.eventQueue = s.eventQueue)
    (htimer : s'.flushTimer = s.flushTimer) (hpending : s'.pendingFlush = s.pendingFlush) :
    Attended cfg s' where
  coming := by
    rw [hqueue, htimer, hpending]
    exact h.coming
  bounded := by
    rw [hqueue]
    exact h.bounded

theorem settle (h : Attended cfg s) (promise : Option ℕ) (fulfilled : Bool) :
    Attended cfg (s.settle promise fulfilled) := by
  cases promise with
  | none => exact h
  | some id => exact h.congr rfl rfl rfl

theorem flushBatch (promise : Option ℕ) (s : State ε) : Attended cfg (s.flushBatch promise) := by
  unfold State.flushBatch
  split_ifs with hempty
  · exact (of_empty hempty).settle promise true
  · exact of_empty rfl

theorem shutdownNow (s : State ε) : Attended cfg s.shutdownNow := by
  unfold State.shutdownNow
  dsimp only
  split_ifs with hempty
  · exact of_empty hempty
  · exact flushBatch none _

section
variable (h : Attended cfg s)
include h

theorem flush : Attended cfg s.flush := by
  unfold State.flush
  split
  · exact h.congr rfl rfl rfl
  · exact flushBatch none s

theorem shutdown : Attended cfg s.shutdown := by
  unfold State.shutdown
  split
  · exact h.congr rfl rfl rfl
  · exact shutdownNow s

theorem refuse (thrown : Thrown) (entry : Entry ε) :
    Attended cfg (s.refuse thrown entry) := by
  cases thrown with
  | error | nullish => exact h.congr rfl rfl rfl

theorem awaitPending (entry : Entry ε) :
    Attended cfg (s.awaitPending entry) := by
  unfold State.awaitPending
  split
  · exact h.congr rfl rfl rfl
  · exact h.congr rfl rfl rfl

theorem scheduleFlush : Attended cfg s.scheduleFlush := by
  unfold State.scheduleFlush
  split
  · exact h
  · exact ⟨fun _ => .inr rfl, h.bounded⟩

theorem enqueue (hroom : s.eventQueue.length < cfg.maxEventsPerBatch * 2)
    (entry : Entry ε) : Attended cfg (s.enqueue entry) := by
  have hbound : (s.eventQueue ++ [entry]).length ≤ 2 * cfg.maxEventsPerBatch := by
    rw [List.length_append, List.length_singleton]
    omega
  unfold State.enqueue
  dsimp only
  split_ifs with hone
  · exact ⟨fun _ => .inl rfl, hbound⟩
  · have hne : s.eventQueue ≠ [] := by
      intro hempty
      rw [hempty] at hone
      exact hone rfl
    exact ⟨fun _ => h.coming hne, hbound⟩

theorem ingest (event : ε) (parse : Option Thrown)
    (measure : Except Thrown ℕ) : Attended cfg (s.ingest cfg event parse measure) := by
  have hcalled : Attended cfg { s with calls := s.calls + 1 } := h.congr rfl rfl rfl
  unfold State.ingest
  cases parse with
  | some thrown => exact hcalled.refuse thrown _
  | none =>
    dsimp only
    split_ifs with hcap
    · exact h.congr rfl rfl rfl
    · have hqueued := hcalled.enqueue (Nat.lt_of_not_le hcap) ⟨s.calls, event⟩
      unfold State.accept
      dsimp only
      split_ifs
      · exact hqueued.scheduleFlush.awaitPending _
      · cases measure with
        | error thrown => exact hqueued.refuse thrown _
        | ok size =>
          dsimp only
          split_ifs
          · exact hqueued.scheduleFlush.awaitPending _
          · exact hqueued.awaitPending _

theorem failFlush (i : ℕ) {f : Flush ε} {thrown : Thrown}
    (hsafe : thrown = .error → Requeueable cfg s f) : Attended cfg (s.failFlush i f thrown) := by
  cases thrown with
  | nullish =>
    have hgone : Attended cfg { s with flushes := s.flushes.eraseIdx i } := h.congr rfl rfl rfl
    exact hgone.settle f.promise false
  | error =>
    obtain ⟨hcoming, hroom⟩ := hsafe rfl
    have hback : Attended cfg { s with
        flushes := s.flushes.eraseIdx i
        eventQueue := f.events ++ s.eventQueue
        metrics := { s.metrics with queueDepth := (f.events ++ s.eventQueue).length } } :=
      ⟨fun _ => hcoming, by rwa [List.length_append]⟩
    exact hback.settle f.promise true

theorem continueCall (call : Call ε) (fulfilled : Bool) :
    Attended cfg (s.continueCall call fulfilled) := by
  cases fulfilled with
  | true =>
    cases call with
    | ingest entry => exact h.congr rfl rfl rfl
    | flush => exact flushBatch none s
    | shutdown => exact shutdownNow s
  | false =>
    cases call with
    | ingest entry => exact h.refuse .error entry
    | flush => exact h
    | shutdown => exact h

end

theorem step {s s' : State ε} {a : Action ε} (h : Attended cfg s) (hok : FailsSafely cfg s a)
    (hstep : step cfg s a = some s') : Attended cfg s' := by
  cases a with
  | ingest event parse measure =>
    obtain rfl := Option.some.inj hstep
    exact h.ingest event parse measure
  | flush =>
    obtain rfl := Option.some.inj hstep
    exact h.flush
  | shutdown =>
    obtain rfl := Option.some.inj hstep
    exact h.shutdown
  | timer =>
    unfold Batcher.step at hstep
    split_ifs at hstep
    obtain rfl := Option.some.inj hstep
    exact flushBatch none _
  | microtask =>
    obtain ⟨id, -, rfl⟩ := Option.map_eq_some_iff.mp hstep
    exact flushBatch (some id) _
  | created i =>
    obtain ⟨f, -, rfl⟩ := Option.map_eq_some_iff.mp hstep
    exact h.congr rfl rfl rfl
  | createFails i thrown =>
    obtain ⟨f, hf, rfl⟩ := Option.map_eq_some_iff.mp hstep
    apply h.failFlush i
    rintro rfl
    exact hok f hf
  | listenersReturn i =>
    obtain ⟨f, -, rfl⟩ := Option.map_eq_some_iff.mp hstep
    have hgone : Attended cfg { s with flushes := s.flushes.eraseIdx i } := h.congr rfl rfl rfl
    exact hgone.settle f.promise true
  | listenersThrow i thrown =>
    obtain ⟨f, hf, rfl⟩ := Option.map_eq_some_iff.mp hstep
    apply h.failFlush i
    rintro rfl
    exact hok f hf
  | resume i =>
    obtain ⟨w, -, hrest⟩ := Option.bind_eq_some_iff.mp hstep
    obtain ⟨fulfilled, -, rfl⟩ := Option.map_eq_some_iff.mp hrest
    have hgone : Attended cfg { s with suspended := s.suspended.eraseIdx i } := h.congr rfl rfl rfl
    exact hgone.continueCall w.call fulfilled

end Attended

/-- In every run whose failed flushes find a timer armed or a flush scheduled, and room for
their events, no event is stranded and the queue keeps its bound. -/
theorem reachable_attended {cfg : EventBatcherConfig} {s : State ε}
    (hs : Reachable (step cfg) (FailsSafely cfg) {} s) : Attended cfg s :=
  hs.invariant (.of_empty rfl) fun _ _ _ h hok hstep => h.step hok hstep

/-- A flush fails after the next event has armed the timer again. -/
theorem reachable_attended_requeued :
    ∃ s : State ℕ, exec (step .default) {}
        [.ingest 7 none (.ok 10), .flush, .ingest 8 none (.ok 10), .createFails 0 .error] = some s ∧
      s.eventQueue = [⟨0, 7⟩, ⟨1, 8⟩] ∧ Attended .default s := by
  refine ⟨_, rfl, rfl, ?_⟩
  have hbefore := @Reachable.of_exec _ _ (step .default) (FailsSafely .default) ({} : State ℕ) {} _ .start
    [.ingest 7 none (.ok 10), .flush, .ingest 8 none (.ok 10)]
    (by intro s a ha; fin_cases ha <;> exact trivial) rfl
  refine reachable_attended (hbefore.step (a := .createFails 0 .error) ?_ rfl)
  intro f hf
  obtain rfl := Option.some.inj hf
  exact ⟨.inl rfl, by decide⟩

def oneEventConfig : EventBatcherConfig := ⟨1, 1024, le_rfl, le_rfl⟩

/-- A failed flush leaves its event queued with nothing coming for it, or puts it back into a
queue that is already full. -/
theorem attended_fails :
    (∃ s : State ℕ, Reachable (step oneEventConfig) (fun _ a => a ≠ .shutdown) {} s ∧
      s.eventQueue = [⟨0, 7⟩] ∧ s.flushTimer = .idle ∧ s.pendingFlush = none) ∧
    ∃ s : State ℕ, Reachable (step oneEventConfig) (fun _ a => a ≠ .shutdown) {} s ∧
      s.eventQueue.length = 2 * oneEventConfig.maxEventsPerBatch + 1 := by
  constructor
  · refine ⟨_, Reachable.start.of_exec [.ingest 7 none (.ok 10), .microtask, .createFails 0 .error]
      ?_ rfl, rfl, rfl, rfl⟩
    intro s a ha
    fin_cases ha <;> exact fun h => by cases h
  · refine ⟨_, Reachable.start.of_exec [.ingest 7 none (.ok 10), .microtask, .ingest 8 none (.ok 10),
      .ingest 9 none (.ok 10), .createFails 0 .error] ?_ rfl, rfl⟩
    intro s a ha
    fin_cases ha <;> exact fun h => by cases h

end OxScada.Batcher
