import OxScada.Edge.Records
import OxScada.Runs.Reachable

/-! The store-and-forward service as a machine. A step is a stretch of its code that runs
without interruption, from one `await` to the next. What the service does not control (the
clock, ids, answers and failures of the transport, of the queue and of the reporter) is part
of the action. Records are objects that `localStore` and a batch share, so they are kept in a
heap. -/

namespace OxScada.Edge
open OxScada.Bytes OxScada.Js

structure UpstreamConflict where
  recordId : Text
  remote : EdgeReplicaValue

structure ForwardBatchResult where
  acknowledgedIds : List Text
  verifiedMerkleRoot : Text
  conflicts : List UpstreamConflict

structure StoreAndForwardConfig where
  maxLocalStorage : ℕ
  forwardBatchSize : ℕ
  maxLocalStorage_pos : 1 ≤ maxLocalStorage
  forwardBatchSize_pos : 1 ≤ forwardBatchSize

/-- The functions of the platform that the service calls, and its configuration. -/
structure Setting where
  localeCompare : Text → Text → ℤ
  sha256Hex : Buffer → Text
  config : StoreAndForwardConfig

/-! ### Maps -/

/-- `map.set(key, value)`: a key that is there keeps its place. -/
def mapSet {α : Type} : List (Text × α) → Text → α → List (Text × α)
  | [], key, value => [(key, value)]
  | (k, v) :: rest, key, value => if k = key then (key, value) :: rest else (k, v) :: mapSet rest key value

def mapDelete {α : Type} (entries : List (Text × α)) (key : Text) : List (Text × α) := entries.filter fun entry => entry.1 ≠ key

def conflictMap (conflicts : List UpstreamConflict) : List (Text × UpstreamConflict) :=
  conflicts.foldl (fun entries conflict => mapSet entries conflict.recordId conflict) []

/-! ### State -/

structure Save where
  snapshot : List StoredRecord
  effective : Bool

inductive Caller where
  | direct | store | cycle
  deriving DecidableEq

structure Drain where
  caller : Caller
  forwarded : ℕ

/-- An answer that verified the root, while it is worked off. -/
structure Answer where
  batch : List ℕ
  conflicts : List (Text × UpstreamConflict)
  acknowledged : List Text

inductive Reconciliation where
  | telemetry (ref : ℕ) (remote : EdgeReplicaValue) (localWins : Bool)
  | configuration

inductive Section where
  | storing (id : Text) (save : Save)
  | processing
  | forwarding (drain : Drain) (batch : List ℕ) (root : Text)
  | reportingMismatch (drain : Drain) (batch : List ℕ)
  | retrying (drain : Drain) (save : Save)
  | reconciling (drain : Drain) (answer : Answer) (current : Reconciliation) (rest : List UpstreamConflict)
  | committing (drain : Drain) (answer : Answer) (save : Save)

inductive Work where
  | store (input : StoreInput)
  | synchronize (caller : Caller)

structure Service where
  heap : ℕ → StoredRecord
  objects : ℕ
  localStore : List (Text × ℕ)
  durable : List StoredRecord
  initialized : Bool
  stopped : Bool
  isConnected : Bool
  /-- The `serialized` calls that wait, in their order. -/
  operations : List Work
  running : Option Section
  /-- Calls of `shutdown` that wait for this many operations. -/
  shutdowns : List ℕ
  /-- Calls of `shutdown` that save. -/
  closing : List Save
  /-- Calls of `initialize`, and what they have read. -/
  initializers : List (Option (List StoredRecord))
  /-- Calls of `runConnectivityCycle` that await `isReachable`. -/
  cycles : ℕ
  stores : ℕ
  /-- Rejections of `synchronizeNow` that `store` or `runConnectivityCycle` will catch. -/
  failures : ℕ

inductive Act where
  | store (input : StoreInput)
  | synchronizeNow
  | runConnectivityCycle
  | shutdown
  | initializeService
  | begin (now : Option ℤ) (id : Text)
  | saveTakes
  | saveReturns
  | saveFails
  | processed
  | answer (result : ForwardBatchResult)
  | forwardFails
  | reported
  | reportFails
  | storeGoesOn
  | reachable (yes : Bool)
  | reachableFails
  | failureCaught
  | shutdownGoesOn (i : ℕ)
  | shutdownSaveTakes (i : ℕ)
  | shutdownSaveReturns (i : ℕ)
  | shutdownSaveFails (i : ℕ)
  | loadReads (i : ℕ)
  | loadFails (i : ℕ)
  | install (i : ℕ)
  | crash

namespace Service
variable (s : Service)

def records : List StoredRecord := s.localStore.map fun entry => s.heap entry.2

def ids : List Text := s.localStore.map (·.1)

def save : Save := ⟨s.records, false⟩

/-! ### The end of a section -/

def endSection : Service :=
  { s with running := none, shutdowns := s.shutdowns.map (· - 1) }

def failDrain (drain : Drain) : Service :=
  { s.endSection with failures := if drain.caller = .direct then s.failures else s.failures + 1 }

def disconnect : Service := { s with isConnected := false }

variable (p : Setting)

/-! ### Forwarding -/

variable (s : Service)
variable (drain : Drain)

def drainLoop : Service :=
  if s.localStore ≠ [] ∧ s.isConnected then
    let batch := (s.localStore.map (·.2)).take p.config.forwardBatchSize
    match batch.mapM fun ref => integrityPayload (s.heap ref) with
    | .ok payloads => { s with running := some (.forwarding drain batch (merkleRoot p.localeCompare p.sha256Hex payloads)) }
    | .error _ => s.failDrain drain
  else s.endSection

/-- `record.attempts += 1; record.checksum = recordChecksum(record)` for each record, up to
the first error. -/
def countAttempts (heap : ℕ → StoredRecord) : List ℕ → (ℕ → StoredRecord) × Option EdgeError
  | [] => (heap, none)
  | ref :: rest =>
    match withChecksum p.localeCompare p.sha256Hex (heap ref).attempted with
    | .ok record => countAttempts (Function.update heap ref record) rest
    | .error e => (Function.update heap ref (heap ref).attempted, some e)

def retry (batch : List ℕ) : Service :=
  match countAttempts p s.heap batch with
  | (heap, none) => { s with heap, running := some (.retrying drain { s with heap }.save) }
  | (heap, some _) => { s with heap }.failDrain drain

def batchIds (batch : List ℕ) : List Text := batch.map fun ref => (s.heap ref).id

def acknowledge (batchIds : List Text) (conflicts : List (Text × UpstreamConflict)) :
    List Text → List Text → Except EdgeError (List Text)
  | acknowledged, [] => .ok acknowledged
  | acknowledged, id :: rest =>
    if id ∉ batchIds then fail ("upstream acknowledged unknown record ".toList ++ id)
    else if (conflicts.lookup id).isSome ∨ id ∈ acknowledged then acknowledge batchIds conflicts acknowledged rest
    else acknowledge batchIds conflicts (acknowledged ++ [id]) rest

variable (answer : Answer)

def finishBatch : Service :=
  let localStore := answer.acknowledged.foldl mapDelete s.localStore
  let unresolved := answer.batch.filter fun ref =>
    (localStore.lookup (s.heap ref).id).isSome ∧ (answer.conflicts.lookup (s.heap ref).id).isNone
  let drain := { drain with forwarded := drain.forwarded + answer.acknowledged.length }
  match countAttempts p s.heap unresolved with
  | (heap, none) => { s with heap, localStore, running := some (.committing drain answer { s with heap, localStore }.save) }
  | (heap, some _) => { s with heap, localStore }.failDrain drain

def isSameReplica (winner value : EdgeReplicaValue) : Bool :=
  winner.origin = value.origin ∧ winner.timestamp = value.timestamp ∧
    canonicalJson p.localeCompare winner.data = canonicalJson p.localeCompare value.data

def reconcileConflict (ref : ℕ) (remote : EdgeReplicaValue) :
    Service × Except EdgeError Reconciliation :=
  match (s.heap ref).kind with
  | .telemetry =>
    match resolveTelemetryConflict p.localeCompare (s.heap ref).replica remote with
    | .ok winner => (s, .ok (.telemetry ref remote (isSameReplica p winner (s.heap ref).replica)))
    | .error e => (s, .error e)
  | .configuration =>
    match mergeConfigurationConflict p.localeCompare (s.heap ref).replica remote with
    | .ok merged =>
      match withChecksum p.localeCompare p.sha256Hex ((s.heap ref).merged merged).attempted with
      | .ok record => ({ s with heap := Function.update s.heap ref record }, .ok .configuration)
      | .error e => ({ s with heap := Function.update s.heap ref ((s.heap ref).merged merged).attempted }, .error e)
    | .error e => (s, .error e)

def reconcileNext (conflict : UpstreamConflict) :
    Service × Except EdgeError Reconciliation :=
  if conflict.recordId ∉ s.batchIds answer.batch then
    (s, fail ("upstream reported conflict for unknown record ".toList ++ conflict.recordId))
  else
    match s.localStore.lookup conflict.recordId with
    | some ref => reconcileConflict p s ref conflict.remote
    | none => (s, .error .typeError)

def reconcile : List UpstreamConflict → Service
  | [] => finishBatch p s drain answer
  | conflict :: rest =>
    match reconcileNext p s answer conflict with
    | (s, .ok current) => { s with running := some (.reconciling drain answer current rest) }
    | (s, .error _) => s.failDrain drain

def receive (batch : List ℕ) (root : Text) (result : ForwardBatchResult) : Service :=
  if result.verifiedMerkleRoot ≠ root then { s with running := some (.reportingMismatch drain batch) }
  else
    let conflicts := conflictMap result.conflicts
    match acknowledge (s.batchIds batch) conflicts [] result.acknowledgedIds with
    | .ok acknowledged => reconcile p s drain ⟨batch, conflicts, acknowledged⟩ (conflicts.map (·.2))
    | .error _ => s.failDrain drain

def goOnReconciling (rest : List UpstreamConflict) : Reconciliation → Service
  | .telemetry ref _ true =>
    match countAttempts p s.heap [ref] with
    | (heap, none) => reconcile p { s with heap } drain answer rest
    | (heap, some _) => { s with heap }.failDrain drain
  | .telemetry ref _ false =>
    reconcile p { s with localStore := mapDelete s.localStore (s.heap ref).id } drain answer rest
  | .configuration => reconcile p s drain answer rest

def goOnDraining : Service :=
  if answer.acknowledged = [] ∧ answer.conflicts = [] then s.disconnect.endSection
  else if answer.conflicts ≠ [] then s.endSection
  else drainLoop p s drain

/-! ### Calls -/

def synchronizeNow (caller : Caller) : Service :=
  if ¬ s.initialized then { s with failures := if caller = .direct then s.failures else s.failures + 1 }
  else if ¬ s.isConnected then s
  else { s with operations := s.operations ++ [.synchronize caller] }

def beginStore (input : StoreInput) (now : Option ℤ) (id : Text) : Service :=
  if s.stopped then s.endSection
  else if p.config.maxLocalStorage ≤ s.localStore.length then s.endSection
  else
    match input.record p.localeCompare p.sha256Hex now id with
    | .ok record =>
      let s := { s with
        heap := Function.update s.heap s.objects record
        objects := s.objects + 1
        localStore := mapSet s.localStore record.id s.objects }
      { s with running := some (.storing record.id s.save) }
    | .error _ => s.endSection

def close : Service := { s with isConnected := false, initialized := false, localStore := [] }

def loadable (loaded : List StoredRecord) : Bool :=
  (loaded.forM fun record => do
    validateStoredRecord record
    assertRecordIntegrity p.localeCompare p.sha256Hex record).isOk ∧ (loaded.map (·.id)).Nodup

/-- `initialize` from the loaded records to its connectivity cycle. -/
def installRecords (loaded : List StoredRecord) : Service :=
  { s with
    heap := fun ref => if s.objects ≤ ref then (loaded[ref - s.objects]?).getD (s.heap ref) else s.heap ref
    objects := s.objects + loaded.length
    localStore := loaded.mapIdx fun i record => (record.id, s.objects + i)
    initialized := true
    stopped := false
    cycles := s.cycles + 1 }

def start (durable : List StoredRecord) : Service where
  heap := fun _ => ⟨[], none, .null, 0, none, .telemetry, none, none, []⟩
  objects := 0
  localStore := []
  durable
  initialized := false
  stopped := true
  isConnected := false
  operations := []
  running := none
  shutdowns := []
  closing := []
  initializers := []
  cycles := 0
  stores := 0
  failures := 0

/-! ### Steps -/

def beginNext (now : Option ℤ) (id : Text) : Option Service :=
  match s.running, s.operations with
  | none, .store input :: rest => some (beginStore p { s with operations := rest } input now id)
  | none, .synchronize caller :: rest => some (drainLoop p { s with operations := rest } ⟨caller, 0⟩)
  | _, _ => none

def takeSave : Option Service :=
  match s.running with
  | some (.storing id ⟨snapshot, false⟩) =>
    some { s with durable := snapshot, running := some (.storing id ⟨snapshot, true⟩) }
  | some (.retrying drain ⟨snapshot, false⟩) =>
    some { s with durable := snapshot, running := some (.retrying drain ⟨snapshot, true⟩) }
  | some (.committing drain answer ⟨snapshot, false⟩) =>
    some { s with durable := snapshot, running := some (.committing drain answer ⟨snapshot, true⟩) }
  | _ => none

def returnSave : Option Service :=
  match s.running with
  | some (.storing _ ⟨_, true⟩) => some { s with running := some .processing }
  | some (.retrying _ ⟨_, true⟩) => some s.disconnect.endSection
  | some (.committing drain answer ⟨_, true⟩) => some (goOnDraining p s drain answer)
  | _ => none

def failSave : Option Service :=
  match s.running with
  | some (.storing id ⟨_, false⟩) => some { s with localStore := mapDelete s.localStore id }.endSection
  | some (.retrying drain ⟨_, false⟩) => some (s.failDrain drain)
  | some (.committing drain _ ⟨_, false⟩) => some (s.failDrain drain)
  | _ => none

def report : Option Service :=
  match s.running with
  | some (.reportingMismatch drain batch) => some (retry p s drain batch)
  | some (.reconciling drain answer current rest) => some (goOnReconciling p s drain answer rest current)
  | _ => none

def failReport : Option Service :=
  match s.running with
  | some (.reportingMismatch drain _) => some (s.failDrain drain)
  | some (.reconciling drain _ _ _) => some (s.failDrain drain)
  | _ => none

def goOnCycle (yes : Bool) : Service :=
  if s.stopped then s
  else if yes then { s with isConnected := true }.synchronizeNow .cycle
  else s.disconnect

def goOnShutdown : Service :=
  if s.initialized then { s with closing := s.closing ++ [s.save] } else s.close

def step : Act → Option Service
  | .store input => some (if s.initialized then { s with operations := s.operations ++ [.store input] } else s)
  | .synchronizeNow => some (s.synchronizeNow .direct)
  | .runConnectivityCycle => some (if s.stopped then s else { s with cycles := s.cycles + 1 })
  | .shutdown =>
    some { s with stopped := true, shutdowns := s.shutdowns ++ [s.operations.length + s.running.toList.length] }
  | .initializeService => some (if s.initialized then s else { s with initializers := s.initializers ++ [none] })
  | .begin now id => beginNext p s now id
  | .saveTakes => s.takeSave
  | .saveReturns => returnSave p s
  | .saveFails => s.failSave
  | .processed =>
    match s.running with
    | some .processing => some { s.endSection with stores := s.stores + 1 }
    | _ => none
  | .answer result =>
    match s.running with
    | some (.forwarding drain batch root) => some (receive p s drain batch root result)
    | _ => none
  | .forwardFails =>
    match s.running with
    | some (.forwarding drain batch _) => some (retry p s drain batch)
    | _ => none
  | .reported => report p s
  | .reportFails => s.failReport
  | .storeGoesOn =>
    match s.stores with
    | 0 => none
    | stores + 1 => some (if s.isConnected then { s with stores }.synchronizeNow .store else { s with stores })
  | .reachable yes =>
    match s.cycles with
    | 0 => none
    | cycles + 1 => some ({ s with cycles }.goOnCycle yes)
  | .reachableFails =>
    match s.cycles with
    | 0 => none
    | cycles + 1 => some { s with cycles }.disconnect
  | .failureCaught =>
    match s.failures with
    | 0 => none
    | failures + 1 => some { s with failures }.disconnect
  | .shutdownGoesOn i =>
    match s.shutdowns[i]? with
    | some 0 => some { s with shutdowns := s.shutdowns.eraseIdx i }.goOnShutdown
    | _ => none
  | .shutdownSaveTakes i =>
    match s.closing[i]? with
    | some ⟨snapshot, false⟩ => some { s with durable := snapshot, closing := s.closing.set i ⟨snapshot, true⟩ }
    | _ => none
  | .shutdownSaveReturns i =>
    match s.closing[i]? with
    | some ⟨_, true⟩ => some { s with closing := s.closing.eraseIdx i }.close
    | _ => none
  | .shutdownSaveFails i =>
    match s.closing[i]? with
    | some ⟨_, false⟩ => some { s with closing := s.closing.eraseIdx i }
    | _ => none
  | .loadReads i =>
    match s.initializers[i]? with
    | some none => some { s with initializers := s.initializers.set i (some s.durable) }
    | _ => none
  | .loadFails i =>
    match s.initializers[i]? with
    | some none => some { s with initializers := s.initializers.eraseIdx i }
    | _ => none
  | .install i =>
    match s.initializers[i]? with
    | some (some loaded) =>
      let s := { s with initializers := s.initializers.eraseIdx i }
      some (if loadable p loaded then s.installRecords loaded else s)
    | _ => none
  | .crash => some (start s.durable)

end Service

end OxScada.Edge
