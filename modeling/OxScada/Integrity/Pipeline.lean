import OxScada.Js.Json
import OxScada.Js.Number
import OxScada.Runs.Reachable

/-! The pipeline that batches events by time windows. A step is a stretch of code between two
points where other code can run: the `await` of a flush, at which any other call may go on, and
the listeners of an event, which may call the pipeline before they return. -/

namespace OxScada.Integrity.Pipeline
open OxScada.Bytes OxScada.Js OxScada.Runs

structure SCADAEvent where
  id : Text
  timestamp : Float
  type : Text
  source : Text
  data : Json
  signature : Option Text

structure HashedEvent extends SCADAEvent where
  hash : Text

structure IngestedEvent where
  index : ℕ
  event : HashedEvent

structure EventBatch where
  sequence : ℕ
  windowStart : Float
  windowEnd : Float
  events : List IngestedEvent
  batchHash : Text

structure PipelineConfig where
  windowSizeMs : Float
  maxBatchSize : Float

def PipelineConfig.ofPartial (windowSizeMs maxBatchSize : Option Float) : PipelineConfig where
  windowSizeMs := windowSizeMs.elim 60000 fun value => orElse value 60000
  maxBatchSize := maxBatchSize.elim 1000 fun value => orElse value 1000

structure PipelineSetting where
  config : PipelineConfig
  hashEvent : SCADAEvent → Option Text
  localeCompare : Text → Text → ℤ
  sha256Hex : Text → Text

/-! ### Calls -/

inductive Awaiting where
  | window (event : HashedEvent)
  | full (index : ℕ)
  | timer
  | stop

def Awaiting.isWindow : Awaiting → Bool
  | .window _ => true
  | _ => false

inductive Listeners where
  | batchCreated (call : Awaiting)
  | eventIngested (index : ℕ)

def Listeners.isBatchCreated : Listeners → Bool
  | .batchCreated _ => true
  | .eventIngested _ => false

structure EventIntegrityPipeline where
  currentBatch : List IngestedEvent
  currentWindowStart : Float
  flushTimer : Bool
  eventCounter : ℕ
  listeners : List Listeners
  suspended : List Awaiting
  batches : List EventBatch
  ingested : List IngestedEvent
  resolved : List ℕ

namespace EventIntegrityPipeline

def start : EventIntegrityPipeline where
  currentBatch := []
  currentWindowStart := 0
  flushTimer := true
  eventCounter := 0
  listeners := []
  suspended := []
  batches := []
  ingested := []
  resolved := []

section Machine
variable (setting : PipelineSetting) (s : EventIntegrityPipeline)

/-- The comparison that sorts the events of a batch, where `a` does not come after `b`. -/
def sortsBefore (a b : IngestedEvent) : Prop :=
  if a.event.timestamp != b.event.timestamp then ¬ 0 < a.event.timestamp - b.event.timestamp
  else setting.localeCompare a.event.hash b.event.hash ≤ 0

instance : DecidableRel (sortsBefore setting) := fun a b => by
  unfold sortsBefore
  infer_instance

def computeBatchHash (events : List IngestedEvent) : Text :=
  setting.sha256Hex ((events.insertionSort (sortsBefore setting)).flatMap (·.event.hash))

def shouldStartNewWindow (timestamp : Float) : Bool :=
  if s.currentWindowStart == 0 then false else s.currentWindowStart + setting.config.windowSizeMs ≤ timestamp

def initializeWindow (timestamp : Float) : EventIntegrityPipeline :=
  { s with currentWindowStart := timestamp, currentBatch := [] }

/-- `await this.flushCurrentBatch()`, up to the listeners of the batch. -/
def flushCurrentBatch (call : Awaiting) : EventIntegrityPipeline :=
  if s.currentBatch = [] then { s with suspended := s.suspended ++ [call] }
  else
    let batch : EventBatch :=
      { sequence := s.eventCounter + 1
        windowStart := s.currentWindowStart
        windowEnd := s.currentWindowStart + setting.config.windowSizeMs
        events := s.currentBatch
        batchHash := computeBatchHash setting s.currentBatch }
    { s with
      eventCounter := s.eventCounter + 1
      batches := s.batches ++ [batch]
      listeners := .batchCreated call :: s.listeners }

def pushEvent (event : HashedEvent) : EventIntegrityPipeline :=
  let item : IngestedEvent := ⟨s.ingested.length, event⟩
  { s with
    currentBatch := s.currentBatch ++ [item]
    ingested := s.ingested ++ [item]
    listeners := .eventIngested item.index :: s.listeners }

def ingestEvent (event : HashedEvent) : EventIntegrityPipeline :=
  let s := if s.currentWindowStart == 0 then { s with currentWindowStart := event.timestamp } else s
  if shouldStartNewWindow setting s event.timestamp then flushCurrentBatch setting s (.window event)
  else s.pushEvent event

def checkFull (index : ℕ) : EventIntegrityPipeline :=
  if setting.config.maxBatchSize ≤ Float.ofNat s.currentBatch.length then flushCurrentBatch setting s (.full index)
  else { s with resolved := s.resolved ++ [index] }

def goOn : Awaiting → EventIntegrityPipeline
  | .window event => (s.initializeWindow event.timestamp).pushEvent event
  | .full index => { s with resolved := s.resolved ++ [index] }
  | .timer | .stop => s

inductive PipelineAct where
  | ingestEvent (event : SCADAEvent)
  | listenersReturn
  /-- A listener of `event-ingested` throws, and the call is rejected. -/
  | listenerThrows
  | resume (k : ℕ)
  | flushTimer
  | stop

def step : PipelineAct → Option EventIntegrityPipeline
  | .ingestEvent event =>
    match setting.hashEvent event with
    | some hash => some (s.ingestEvent setting { event with hash })
    | none => some s
  | .listenersReturn =>
    match s.listeners with
    | .batchCreated call :: rest =>
      some { s with listeners := rest, currentBatch := [], suspended := s.suspended ++ [call] }
    | .eventIngested index :: rest => some (checkFull setting { s with listeners := rest } index)
    | [] => none
  | .listenerThrows =>
    match s.listeners with
    | .eventIngested _ :: rest => some { s with listeners := rest }
    | _ => none
  | .resume k =>
    if s.listeners = [] then
      (s.suspended[k]?).map fun call => goOn { s with suspended := s.suspended.eraseIdx k } call
    else none
  | .flushTimer => if s.listeners = [] ∧ s.flushTimer then some (s.flushCurrentBatch setting .timer) else none
  | .stop => some ({ s with flushTimer := false }.flushCurrentBatch setting .stop)

end Machine

/-! ### Where the events are -/

section Places
variable (s : EventIntegrityPipeline)

def emitting : Bool := s.listeners.any (·.isBatchCreated)

def emitted : List IngestedEvent := s.batches.flatMap (·.events)

/-- What waits to be emitted. While the listeners of a batch run, its events have left. -/
def unsent : List IngestedEvent := if s.emitting then [] else s.currentBatch

/-- Each event whose call has resolved is in one batch or waits in the current one, and a
batch has its events in the order in which they came. -/
structure Accounted : Prop where
  once : ∀ index ∈ s.resolved, ((s.emitted ++ s.unsent).map (·.index)).count index = 1
  ordered : ∀ batch ∈ s.batches, batch.events.Sublist s.ingested

/-- A call does not come from a listener of `batch-created`, and the current batch is empty
when a call goes on after the flush of a window. -/
def Undisturbed : PipelineAct → Prop
  | .ingestEvent _ | .stop => s.emitting = false
  | .resume k => (s.suspended[k]?).any (·.isWindow) = true → s.currentBatch = []
  | _ => True

instance : DecidablePred (Undisturbed s)
  | .ingestEvent _ | .stop => inferInstanceAs (Decidable (s.emitting = false))
  | .resume k => inferInstanceAs (Decidable ((s.suspended[k]?).any (·.isWindow) = true → s.currentBatch = []))
  | .listenersReturn | .listenerThrows | .flushTimer => instDecidableTrue

end Places

/-! ### What the steps keep -/

def KnownCall (count : ℕ) : Awaiting → Prop
  | .full index => index < count
  | _ => True

def KnownListeners (count : ℕ) : Listeners → Prop
  | .batchCreated call => KnownCall count call
  | .eventIngested index => index < count

theorem KnownCall.mono {count count' : ℕ} {call : Awaiting} (h : KnownCall count call) (hle : count ≤ count') : KnownCall count' call := by
  cases call with
  | full index => exact lt_of_lt_of_le h hle
  | window | timer | stop => trivial

theorem KnownListeners.mono {count count' : ℕ} {listeners : Listeners} (h : KnownListeners count listeners) (hle : count ≤ count') :
    KnownListeners count' listeners := by
  cases listeners with
  | batchCreated call => exact KnownCall.mono h hle
  | eventIngested index => exact lt_of_lt_of_le h hle

structure InOrder (s : EventIntegrityPipeline) : Prop where
  placed : s.emitted ++ s.unsent = s.ingested
  numbered : s.ingested.map (·.index) = List.range s.ingested.length
  /-- Nothing runs inside a listener of `batch-created`. -/
  innermost : ∀ listeners ∈ s.listeners.tail, listeners.isBatchCreated = false
  resolved : ∀ index ∈ s.resolved, index < s.ingested.length
  suspended : ∀ call ∈ s.suspended, KnownCall s.ingested.length call
  listeners : ∀ listeners ∈ s.listeners, KnownListeners s.ingested.length listeners

section Steps
variable {setting : PipelineSetting} {s s' : EventIntegrityPipeline}

theorem emitting_eq_false : s.emitting = false ↔ ∀ listeners ∈ s.listeners, listeners.isBatchCreated = false := by
  simp [emitting]

theorem unsent_of_quiet (h : s.emitting = false) : s.unsent = s.currentBatch := by
  rw [unsent, h, if_neg Bool.false_ne_true]

theorem unsent_of_empty (h : s.currentBatch = []) : s.unsent = [] := by
  rw [unsent, h, ite_self]

section
variable (h : InOrder s)
include h

theorem InOrder.flush (hquiet : s.emitting = false) {call : Awaiting} (hcall : KnownCall s.ingested.length call) :
    InOrder (s.flushCurrentBatch setting call) := by
  have hplaced := h.placed
  rw [unsent_of_quiet hquiet] at hplaced
  have hsuspended : ∀ waiting ∈ s.suspended ++ [call], KnownCall s.ingested.length waiting := by
    intro waiting hwaiting
    rcases List.mem_append.mp hwaiting with hold | hnew
    · exact h.suspended waiting hold
    · exact List.mem_singleton.mp hnew ▸ hcall
  unfold flushCurrentBatch
  split_ifs with hempty
  · exact { h with suspended := hsuspended }
  · -- the batch is emitted, and its listeners run
    refine { h with placed := ?_, innermost := emitting_eq_false.mp hquiet, listeners := ?_ }
    · simp only [emitted, unsent, emitting, List.flatMap_append, List.flatMap_singleton, List.any_cons,
        Listeners.isBatchCreated, Bool.true_or, if_true, List.append_nil]
      exact hplaced
    · exact List.forall_mem_cons.mpr ⟨hcall, h.listeners⟩

theorem InOrder.push (hquiet : s.emitting = false) (event : HashedEvent) : InOrder (s.pushEvent event) := by
  have hplaced := h.placed
  rw [unsent_of_quiet hquiet] at hplaced
  have hlength : (s.ingested ++ [IngestedEvent.mk s.ingested.length event]).length = s.ingested.length + 1 := by simp
  have hle : s.ingested.length ≤ (s.ingested ++ [IngestedEvent.mk s.ingested.length event]).length := by omega
  refine ⟨?_, ?_, emitting_eq_false.mp hquiet, ?_, ?_, ?_⟩
  · have hquiet' : (s.pushEvent event).emitting = false :=
      emitting_eq_false.mpr (List.forall_mem_cons.mpr ⟨rfl, emitting_eq_false.mp hquiet⟩)
    rw [unsent_of_quiet hquiet']
    simp only [pushEvent, ← hplaced, emitted, List.append_assoc]
  · have hrange := h.numbered
    simp only [pushEvent, List.map_append, List.map_cons, List.map_nil, hrange, List.length_append, List.length_cons,
      List.length_nil, List.range_succ]
  · intro index hindex
    exact lt_of_lt_of_le (h.resolved index hindex) hle
  · intro call hcall
    exact (h.suspended call hcall).mono hle
  · refine List.forall_mem_cons.mpr ⟨?_, fun listeners hlisteners => (h.listeners listeners hlisteners).mono hle⟩
    exact hlength ▸ Nat.lt_succ_self _

theorem InOrder.ingest (hquiet : s.emitting = false) (event : HashedEvent) : InOrder (s.ingestEvent setting event) := by
  have hfirst : InOrder (if s.currentWindowStart == 0 then { s with currentWindowStart := event.timestamp } else s) ∧
      (if s.currentWindowStart == 0 then { s with currentWindowStart := event.timestamp } else s).emitting = false := by
    split_ifs
    · exact ⟨{ h with }, hquiet⟩
    · exact ⟨h, hquiet⟩
  obtain ⟨hfirst, hquiet⟩ := hfirst
  unfold ingestEvent
  dsimp only
  generalize (if s.currentWindowStart == 0 then { s with currentWindowStart := event.timestamp } else s) = t at hfirst hquiet ⊢
  split
  · exact hfirst.flush hquiet trivial
  · exact hfirst.push hquiet event

theorem InOrder.pop {index : ℕ} {rest : List Listeners} (hlisteners : s.listeners = .eventIngested index :: rest) :
    InOrder { s with listeners := rest } ∧ { s with listeners := rest }.emitting = false ∧ index < s.ingested.length := by
  have hrest : ∀ listeners ∈ rest, listeners.isBatchCreated = false := by
    intro listeners hmem
    exact h.innermost listeners (by rw [hlisteners]; exact hmem)
  have hquiet : { s with listeners := rest }.emitting = false := emitting_eq_false.mpr hrest
  have hbefore : s.emitting = false := by
    rw [emitting_eq_false, hlisteners]
    exact List.forall_mem_cons.mpr ⟨rfl, hrest⟩
  have hknown := h.listeners
  rw [hlisteners, List.forall_mem_cons] at hknown
  have hplaced := h.placed
  rw [unsent_of_quiet hbefore] at hplaced
  refine ⟨{ h with placed := ?_, innermost := ?_, listeners := hknown.2 }, hquiet, hknown.1⟩
  · rw [unsent_of_quiet hquiet]
    exact hplaced
  · exact fun listeners hmem => hrest listeners (List.mem_of_mem_tail hmem)

theorem InOrder.resolve {index : ℕ} (hindex : index < s.ingested.length) :
    InOrder { s with resolved := s.resolved ++ [index] } := by
  refine { h with resolved := ?_ }
  intro other hother
  rcases List.mem_append.mp hother with hold | hnew
  · exact h.resolved other hold
  · exact List.mem_singleton.mp hnew ▸ hindex

theorem InOrder.returned (hstep : step setting s .listenersReturn = some s') : InOrder s' := by
  unfold step at hstep
  cases hlisteners : s.listeners with
  | nil =>
    rw [hlisteners] at hstep
    cases hstep
  | cons top rest =>
    cases top with
    | batchCreated call =>
      rw [hlisteners] at hstep
      obtain rfl := Option.some.inj hstep
      have hrest : ∀ listeners ∈ rest, listeners.isBatchCreated = false := by
        intro listeners hmem
        exact h.innermost listeners (by rw [hlisteners]; exact hmem)
      have hknown := h.listeners
      rw [hlisteners, List.forall_mem_cons] at hknown
      -- the events of the batch have left, and now they are taken out
      have hunsent : s.unsent = [] := by
        rw [unsent, emitting, hlisteners, List.any_cons]
        rfl
      refine { h with placed := ?_, innermost := ?_, suspended := ?_, listeners := hknown.2 }
      · have hplaced := h.placed
        rw [hunsent] at hplaced
        rw [unsent_of_empty rfl]
        exact hplaced
      · exact fun listeners hmem => hrest listeners (List.mem_of_mem_tail hmem)
      · intro waiting hwaiting
        rcases List.mem_append.mp hwaiting with hold | hnew
        · exact h.suspended waiting hold
        · exact List.mem_singleton.mp hnew ▸ hknown.1
    | eventIngested index =>
      rw [hlisteners] at hstep
      obtain rfl := Option.some.inj hstep
      obtain ⟨hpop, hquiet, hindex⟩ := h.pop hlisteners
      unfold checkFull
      split
      · exact hpop.flush hquiet hindex
      · exact hpop.resolve hindex

theorem InOrder.resumed {k : ℕ} (hok : Undisturbed s (.resume k))
    (hstep : step setting s (.resume k) = some s') : InOrder s' := by
  unfold step at hstep
  dsimp only at hstep
  split_ifs at hstep with hidle
  obtain ⟨call, hcall, rfl⟩ := Option.map_eq_some_iff.mp hstep
  have hquiet : s.emitting = false := by
    rw [emitting, hidle]
    rfl
  have hrest : InOrder { s with suspended := s.suspended.eraseIdx k } :=
    { h with suspended := fun waiting hwaiting => h.suspended waiting (List.mem_of_mem_eraseIdx hwaiting) }
  have hknown := h.suspended call (List.mem_of_getElem? hcall)
  cases call with
  | window event =>
    -- there is nothing in the batch that the new window replaces
    have hempty : s.currentBatch = [] := hok (by rw [hcall]; rfl)
    have hwindow : InOrder (initializeWindow { s with suspended := s.suspended.eraseIdx k } event.timestamp) := by
      refine { hrest with placed := ?_ }
      have hplaced := h.placed
      rw [unsent_of_empty hempty] at hplaced
      rw [unsent_of_empty rfl]
      exact hplaced
    exact hwindow.push hquiet event
  | full index => exact hrest.resolve hknown
  | timer => exact hrest
  | stop => exact hrest

end

theorem InOrder.step {a : PipelineAct} (h : InOrder s) (hok : Undisturbed s a) (hstep : step setting s a = some s') : InOrder s' := by
  cases a with
  | ingestEvent event =>
    unfold EventIntegrityPipeline.step at hstep
    dsimp only at hstep
    cases hhash : setting.hashEvent event with
    | none =>
      rw [hhash] at hstep
      obtain rfl := Option.some.inj hstep
      exact h
    | some hash =>
      rw [hhash] at hstep
      obtain rfl := Option.some.inj hstep
      exact h.ingest hok _
  | listenersReturn => exact h.returned hstep
  | listenerThrows =>
    unfold EventIntegrityPipeline.step at hstep
    dsimp only at hstep
    cases hlisteners : s.listeners with
    | nil =>
      rw [hlisteners] at hstep
      cases hstep
    | cons top rest =>
      cases top with
      | batchCreated call =>
        rw [hlisteners] at hstep
        cases hstep
      | eventIngested index =>
        rw [hlisteners] at hstep
        obtain rfl := Option.some.inj hstep
        exact (h.pop hlisteners).1
  | resume k => exact h.resumed hok hstep
  | flushTimer =>
    unfold EventIntegrityPipeline.step at hstep
    dsimp only at hstep
    split_ifs at hstep with hidle
    obtain rfl := Option.some.inj hstep
    refine h.flush ?_ trivial
    rw [emitting, hidle.1]
    rfl
  | stop =>
    obtain rfl := Option.some.inj hstep
    have hstopped : InOrder { s with flushTimer := false } := { h with }
    exact hstopped.flush hok trivial

theorem inOrder_start : InOrder start := by
  refine ⟨rfl, rfl, ?_, ?_, ?_, ?_⟩ <;> intro x hx <;> cases hx

theorem InOrder.accounted (h : InOrder s) : Accounted s where
  once := by
    intro index hindex
    have hlt := h.resolved index hindex
    rw [h.placed, h.numbered]
    exact List.count_eq_one_of_mem List.nodup_range (List.mem_range.mpr hlt)
  ordered := by
    intro batch hbatch
    have hemitted : batch.events.Sublist s.emitted := by
      obtain ⟨front, back, hsplit⟩ := List.append_of_mem hbatch
      rw [emitted, hsplit, List.flatMap_append, List.flatMap_cons]
      exact (List.sublist_append_left _ _).trans (List.sublist_append_right _ _)
    rw [← h.placed]
    exact hemitted.trans (List.sublist_append_left _ _)

end Steps

/-- While no call comes from a listener of `batch-created` and no call goes on after the flush of
a window into a batch that is not empty, no event is lost and none is doubled. -/
theorem events_accounted (setting : PipelineSetting) {s : EventIntegrityPipeline}
    (hs : Reachable (step setting) Undisturbed start s) : Accounted s := by
  have hinv : InOrder s := hs.invariant inOrder_start fun s a s' h hok hstep => h.step hok hstep
  exact hinv.accounted

/-! ### An event that is lost -/

def plainSetting : PipelineSetting where
  config := .ofPartial none none
  hashEvent := fun event => some event.id
  localeCompare := fun _ _ => 0
  sha256Hex := id

def eventAt (id : Text) (timestamp : Float) : SCADAEvent := ⟨id, timestamp, [], [], .null, none⟩

def windowRun : List PipelineAct :=
  [.ingestEvent (eventAt ['a'] 1), .listenersReturn, .ingestEvent (eventAt ['b'] 60001), .listenersReturn, .resume 0,
    .listenersReturn, .stop, .listenersReturn, .resume 0]

def windowState : EventIntegrityPipeline := (exec (checked (step plainSetting) Undisturbed) start windowRun).getD start

theorem events_accounted_window : windowState.resolved = [0, 1] ∧ windowState.batches.map (·.events.length) = [1, 1] ∧
    Accounted windowState := by
  have hexec : exec (checked (step plainSetting) Undisturbed) start windowRun = some windowState :=
    eq_some_getD (by decide +kernel) _
  exact ⟨by decide +kernel, by decide +kernel, events_accounted plainSetting (Reachable.start.of_exec_checked windowRun hexec)⟩

def overlapRun : List PipelineAct :=
  [.ingestEvent (eventAt ['a'] 1), .listenersReturn, .ingestEvent (eventAt ['b'] 60001), .listenersReturn,
    .ingestEvent (eventAt ['c'] 60002), .resume 0, .listenersReturn, .resume 0, .listenersReturn]

def overlapState : EventIntegrityPipeline := (exec (step plainSetting) start overlapRun).getD start

/-- The call that goes on last drops the event of the other one, which has resolved. -/
theorem overlapping_ingest_loses : ¬ ∀ setting s, Reachable (step setting) (fun _ _ => True) start s → Accounted s := by
  intro h
  have hexec : exec (step plainSetting) start overlapRun = some overlapState := eq_some_getD (by decide +kernel) _
  have haccounted := h plainSetting overlapState (Reachable.start.of_exec overlapRun (fun _ _ _ => trivial) hexec)
  have hmem : 1 ∈ overlapState.resolved := by decide +kernel
  have hone := haccounted.once 1 hmem
  have hzero : ((overlapState.emitted ++ overlapState.unsent).map (·.index)).count 1 = 0 := by decide +kernel
  rw [hzero] at hone
  exact absurd hone (by decide)

end EventIntegrityPipeline

end OxScada.Integrity.Pipeline
