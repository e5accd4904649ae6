import OxScada.Runs.Reachable

/-! The event batcher as a machine. A step is a stretch of its code that runs without
interruption: a call up to its first `await`, a timer or microtask callback, the part of
`flushBatch` after batch creation, or the rest of a call whose awaited flush is settled.
Outcomes that the batcher does not control (validation, the measured size, failures of
batch creation, exceptions of listeners) are parts of the action. -/

namespace OxScada.Batcher

structure EventBatcherConfig where
  maxEventsPerBatch : ℕ
  maxBatchSizeBytes : ℕ
  events_pos : 1 ≤ maxEventsPerBatch
  size_min : 1024 ≤ maxBatchSizeBytes

def EventBatcherConfig.default : EventBatcherConfig := ⟨100, 1024 * 1024, by norm_num, by norm_num⟩

/-- A thrown value: reading `error.message` off `null` or `undefined` throws again. -/
inductive Thrown where
  | nullish | error
  deriving DecidableEq, Repr

structure Entry (ε : Type*) where
  ticket : ℕ
  event : ε
  deriving DecidableEq, Repr

inductive FlushTimer where
  | idle | armed | fired
  deriving DecidableEq, Repr

inductive Phase where
  | creating | emitting
  deriving DecidableEq, Repr

/-- A call of `flushBatch` past its first `await`, with the promise of the scheduled flush
that it settles. -/
structure Flush (ε : Type*) where
  events : List (Entry ε)
  phase : Phase
  promise : Option ℕ
  deriving DecidableEq, Repr

inductive Call (ε : Type*) where
  | ingest (entry : Entry ε)
  | flush
  | shutdown
  deriving DecidableEq, Repr

structure Suspended (ε : Type*) where
  promise : ℕ
  call : Call ε
  deriving DecidableEq, Repr

structure Metrics where
  totalEvents : ℕ := 0
  totalBatches : ℕ := 0
  queueDepth : ℕ := 0
  eventsDropped : ℕ := 0
  deriving DecidableEq, Repr

structure State (ε : Type*) where
  eventQueue : List (Entry ε) := []
  flushTimer : FlushTimer := .idle
  pendingFlush : Option ℕ := none
  metrics : Metrics := {}
  flushes : List (Flush ε) := []
  suspended : List (Suspended ε) := []
  settled : List (ℕ × Bool) := []
  emitted : List (List (Entry ε)) := []
  returnedTrue : List (Entry ε) := []
  returnedFalse : List (Entry ε) := []
  threw : List (Entry ε) := []
  calls : ℕ := 0
  promises : ℕ := 0
  deriving DecidableEq, Repr

inductive Action (ε : Type*) where
  | ingest (event : ε) (parse : Option Thrown) (measure : Except Thrown ℕ)
  | flush
  | shutdown
  | timer
  | microtask
  | created (i : ℕ)
  | createFails (i : ℕ) (thrown : Thrown)
  | listenersReturn (i : ℕ)
  | listenersThrow (i : ℕ) (thrown : Thrown)
  | resume (i : ℕ)
  deriving Repr

variable {ε : Type*}

namespace State

def settle (promise : Option ℕ) (fulfilled : Bool) (s : State ε) : State ε :=
  match promise with
  | none => s
  | some id => { s with settled := (id, fulfilled) :: s.settled }

def scheduleFlush (s : State ε) : State ε :=
  match s.pendingFlush with
  | some _ => s
  | none => { s with pendingFlush := some s.promises, promises := s.promises + 1 }

def startBatchTimer (s : State ε) : State ε := { s with flushTimer := .armed }

/-- `flushBatch` up to its first `await`; with nothing queued it returns `null` at once. -/
def flushBatch (promise : Option ℕ) (s : State ε) : State ε :=
  if s.eventQueue = [] then s.settle promise true
  else
    { s with
      eventQueue := []
      metrics := { s.metrics with queueDepth := 0 }
      flushTimer := .idle
      flushes := s.flushes ++ [⟨s.eventQueue, .creating, promise⟩] }

def refuse (thrown : Thrown) (entry : Entry ε) (s : State ε) : State ε :=
  match thrown with
  | .error => { s with returnedFalse := entry :: s.returnedFalse }
  | .nullish => { s with threw := entry :: s.threw }

def enqueue (entry : Entry ε) (s : State ε) : State ε :=
  let s := { s with
    eventQueue := s.eventQueue ++ [entry]
    metrics := { s.metrics with
      queueDepth := s.eventQueue.length + 1
      totalEvents := s.metrics.totalEvents + 1 } }
  if s.eventQueue.length = 1 then s.startBatchTimer else s

/-- The end of `ingest`: `true` at once, or after the scheduled flush. -/
def awaitPending (entry : Entry ε) (s : State ε) : State ε :=
  match s.pendingFlush with
  | some id => { s with suspended := s.suspended ++ [⟨id, .ingest entry⟩] }
  | none => { s with returnedTrue := entry :: s.returnedTrue }

def drop (entry : Entry ε) (s : State ε) : State ε :=
  { s with
    metrics := { s.metrics with eventsDropped := s.metrics.eventsDropped + 1 }
    returnedFalse := entry :: s.returnedFalse }

/-- `ingest` from the push on. The queue is only measured below the count threshold. -/
def accept (cfg : EventBatcherConfig) (entry : Entry ε) (measure : Except Thrown ℕ) (s : State ε) : State ε :=
  let s := s.enqueue entry
  if cfg.maxEventsPerBatch ≤ s.eventQueue.length then s.scheduleFlush.awaitPending entry
  else
    match measure with
    | .error thrown => s.refuse thrown entry
    | .ok size =>
      if cfg.maxBatchSizeBytes ≤ size then s.scheduleFlush.awaitPending entry else s.awaitPending entry

def ingest (cfg : EventBatcherConfig) (event : ε) (parse : Option Thrown) (measure : Except Thrown ℕ)
    (s : State ε) : State ε :=
  let entry := ⟨s.calls, event⟩
  let s := { s with calls := s.calls + 1 }
  match parse with
  | some thrown => s.refuse thrown entry
  | none =>
    if cfg.maxEventsPerBatch * 2 ≤ s.eventQueue.length then s.drop entry else s.accept cfg entry measure

def shutdownNow (s : State ε) : State ε :=
  let s := { s with flushTimer := .idle }
  if s.eventQueue = [] then s else s.flushBatch none

def flush (s : State ε) : State ε :=
  match s.pendingFlush with
  | some id => { s with suspended := s.suspended ++ [⟨id, .flush⟩] }
  | none => s.flushBatch none

def shutdown (s : State ε) : State ε :=
  match s.pendingFlush with
  | some id => { s with suspended := s.suspended ++ [⟨id, .shutdown⟩] }
  | none => s.shutdownNow

def emitBatch (i : ℕ) (f : Flush ε) (s : State ε) : State ε :=
  { s with
    metrics := { s.metrics with totalBatches := s.metrics.totalBatches + 1 }
    emitted := s.emitted ++ [f.events]
    flushes := s.flushes.set i { f with phase := .emitting } }

def finishFlush (i : ℕ) (f : Flush ε) (s : State ε) : State ε :=
  { s with flushes := s.flushes.eraseIdx i }.settle f.promise true

/-- The `catch` block of `flushBatch`. Reading the message of a nullish value throws before
the events are put back. -/
def failFlush (i : ℕ) (f : Flush ε) (thrown : Thrown) (s : State ε) : State ε :=
  let s := { s with flushes := s.flushes.eraseIdx i }
  match thrown with
  | .nullish => s.settle f.promise false
  | .error =>
    { s with
      eventQueue := f.events ++ s.eventQueue
      metrics := { s.metrics with queueDepth := (f.events ++ s.eventQueue).length } }.settle f.promise true

def continueCall (call : Call ε) (fulfilled : Bool) (s : State ε) : State ε :=
  match call, fulfilled with
  | .ingest entry, true => { s with returnedTrue := entry :: s.returnedTrue }
  | .ingest entry, false => s.refuse .error entry
  | .flush, true => s.flushBatch none
  | .shutdown, true => s.shutdownNow
  | _, false => s

def flushIn (phase : Phase) (i : ℕ) (s : State ε) : Option (Flush ε) :=
  (s.flushes[i]?).filter fun f => f.phase == phase

end State

def step (cfg : EventBatcherConfig) (s : State ε) : Action ε → Option (State ε)
  | .ingest event parse measure => some (s.ingest cfg event parse measure)
  | .flush => some s.flush
  | .shutdown => some s.shutdown
  -- `flushTimer` is not reset by its callback, so on an empty queue it stays set but spent
  | .timer => if s.flushTimer = .armed then some ({ s with flushTimer := .fired }.flushBatch none) else none
  | .microtask => s.pendingFlush.map fun id => { s with pendingFlush := none }.flushBatch (some id)
  | .created i => (s.flushIn .creating i).map fun f => s.emitBatch i f
  | .createFails i thrown => (s.flushIn .creating i).map fun f => s.failFlush i f thrown
  | .listenersReturn i => (s.flushIn .emitting i).map fun f => s.finishFlush i f
  -- `emit` stands inside the `try` block, so its exceptions count as failures of the batch
  | .listenersThrow i thrown => (s.flushIn .emitting i).map fun f => s.failFlush i f thrown
  | .resume i =>
    (s.suspended[i]?).bind fun w => (s.settled.lookup w.promise).map fun fulfilled =>
      { s with suspended := s.suspended.eraseIdx i }.continueCall w.call fulfilled

end OxScada.Batcher
