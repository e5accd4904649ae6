import OxScada.Edge.Service
import OxScada.Runs.Programs

/-! The rolling upgrade over an adapter that holds a version and a traffic switch for each
instance. A call may fail or be cut short with any effect on its instance, and a failed append
may have kept the entry. -/

namespace OxScada.Scaling.Upgrade
open OxScada.Bytes OxScada.Js OxScada.Edge OxScada.Runs

/-! ### Versions -/

def invalidVersion (version : Text) : Text := "invalid semantic version: ".toList ++ version

def isVersionSuffixChar (c : Char) : Bool := c.isAlphanum || c = '.' || c = '-'

def afterDigits (text : Text) : Option Text := if (text.takeWhile Char.isDigit) = [] then none else some (text.dropWhile Char.isDigit)

def afterDot : Text → Option Text
  | '.' :: rest => some rest
  | _ => none

def isVersion (version : Text) : Bool :=
  let numbers := if version.head? = some 'v' then version.tail else version
  match ((((afterDigits numbers).bind afterDot).bind afterDigits).bind afterDot).bind afterDigits with
  | some [] => true
  | some ('-' :: suffix) => suffix ≠ [] ∧ suffix.all isVersionSuffixChar
  | _ => false

def parseVersion (version : Text) : Except Text Unit := if isVersion version then .ok () else .error (invalidVersion version)

structure VersionTransition where
  fromVersion : Text
  toVersion : Text
  compatible : Bool
  reason : Option Text
  deriving DecidableEq

def transitionKey (fromVersion toVersion : Text) : Text := fromVersion ++ '\x00' :: toVersion

structure VersionCompatibilityMatrix where
  transitions : List (Text × VersionTransition)

structure Compatibility where
  compatible : Bool
  reason : Option Text
  deriving DecidableEq

def VersionCompatibilityMatrix.check (matrix : VersionCompatibilityMatrix) (fromVersion toVersion : Text) : Except Text Compatibility := do
  parseVersion fromVersion
  parseVersion toVersion
  if fromVersion = toVersion then .ok { compatible := true, reason := none }
  else
    let edge := fromVersion ++ " -> ".toList ++ toVersion
    match matrix.transitions.lookup (transitionKey fromVersion toVersion) with
    | none => .ok { compatible := false, reason := some ("uncertified version transition ".toList ++ edge) }
    | some transition => .ok {
        compatible := transition.compatible
        reason := transition.reason.or
          (if transition.compatible then none else some ("version transition ".toList ++ edge ++ " is incompatible".toList)) }

def VersionCompatibilityMatrix.assertCompatible (matrix : VersionCompatibilityMatrix) (fromVersion toVersion : Text) : Except Text Unit :=
  match matrix.check fromVersion toVersion with
  | .error message => .error message
  | .ok result => if result.compatible then .ok () else .error (result.reason.getD [])

/-! ### The journal -/

inductive UpgradeJournalStatus
  | drainStarted
  | deployed
  | healthy
  | trafficRestored
  | rollbackStarted
  | rolledBack
  | rollbackFailed
  deriving DecidableEq

structure UpgradeJournalEntry where
  targetVersion : Text
  instanceId : Text
  originalVersion : Text
  status : UpgradeJournalStatus
  sequence : ℕ
  error : Option Text
  deriving DecidableEq

def validateUpgradeJournalEntry (entry : UpgradeJournalEntry) : Except Text Unit := do
  parseVersion entry.targetVersion
  parseVersion entry.originalVersion
  if isBlank entry.instanceId then .error "upgrade journal instance id cannot be empty".toList
  else if entry.sequence < 1 ∨ 2 ^ 53 ≤ entry.sequence then .error "invalid upgrade journal sequence or timestamp".toList
  else .ok ()

def latestUpgradeStates (entries : List UpgradeJournalEntry) : Except Text (List (Text × UpgradeJournalEntry)) :=
  (entries.insertionSort (·.sequence ≤ ·.sequence)).foldlM (fun states entry => do
    validateUpgradeJournalEntry entry
    .ok (mapSet states entry.instanceId entry)) []

/-! ### Instances -/

structure DeploymentInstance where
  id : Text
  version : Text
  healthy : Bool
  zone : Option Text
  trafficEnabled : Option Bool
  deriving DecidableEq

def validateDeploymentInstances (ids : List Text) : List DeploymentInstance → Except Text Unit
  | [] => .ok ()
  | inst :: rest =>
    if isBlank inst.id ∨ inst.id ∈ ids then .error ("deployment instance ids must be non-empty and unique: ".toList ++ inst.id)
    else do
      parseVersion inst.version
      validateDeploymentInstances (inst.id :: ids) rest

structure RollingUpgradePlan where
  targetVersion : Text
  canaryCount : Option ℚ
  batchSize : Option ℚ
  healthTimeoutMs : Option ℚ

def isPositiveInteger (value : Option ℚ) : Bool := value.any fun n => n.den = 1 ∧ 1 ≤ n.num

def validateUpgradePlan (plan : RollingUpgradePlan) : Except Text Unit :=
  if isPositiveInteger plan.canaryCount ∧ isPositiveInteger plan.batchSize ∧ plan.healthTimeoutMs.any (0 < ·) then .ok ()
  else .error "canaryCount, batchSize, and healthTimeoutMs must be positive".toList

def countOf (value : Option ℚ) : ℕ := (value.getD 0).num.toNat

section Order
variable (sha256Hex : Text → Text) (localeCompare : Text → Text → ℤ)

def hexValue (c : Char) : ℕ := if c.isDigit then c.toNat - 48 else c.toNat - 87

def hash64 (value : Text) : ℕ := ((sha256Hex value).take 16).foldl (fun n c => 16 * n + hexValue c) 0

def orderHash (inst : DeploymentInstance) : ℕ := hash64 sha256Hex (inst.zone.getD [] ++ '\x00' :: inst.id)

def stableInstanceOrder (left right : DeploymentInstance) : Prop :=
  orderHash sha256Hex left < orderHash sha256Hex right ∨
    (orderHash sha256Hex left = orderHash sha256Hex right ∧ localeCompare left.id right.id ≤ 0)

instance (left right : DeploymentInstance) : Decidable (stableInstanceOrder sha256Hex localeCompare left right) :=
  inferInstanceAs (Decidable (_ ∨ _))

def sortInstances (instances : List DeploymentInstance) : List DeploymentInstance :=
  instances.insertionSort (stableInstanceOrder sha256Hex localeCompare)

end Order

/-! ### State -/

inductive UpgradeStage
  | canary
  | rolling
  | recovery
  | rollback
  | complete
  deriving DecidableEq

inductive EventOutcome
  | started
  | healthy
  | failed
  | restored
  deriving DecidableEq

structure UpgradeEvent where
  stage : UpgradeStage
  instanceId : Option Text := none
  fromVersion : Option Text := none
  toVersion : Option Text := none
  outcome : EventOutcome
  error : Option Text := none
  deriving DecidableEq

structure Instance where
  id : Text
  zone : Option Text
  version : Text
  traffic : Bool
  deriving DecidableEq

/-- A call of `deploy`, with the version that the instance had. -/
structure Deployment where
  instanceId : Text
  fromVersion : Text
  toVersion : Text
  deriving DecidableEq

/-- The events, the changed ids and the failures are of the call of `execute`. The deployments
and the instances after reconciliation are ghosts. -/
structure State where
  instances : List Instance
  journal : List UpgradeJournalEntry := []
  events : List UpgradeEvent := []
  changed : List Text := []
  rollbackFailures : List Text := []
  deployments : List Deployment := []
  reconciled : List Instance := []
  deriving DecidableEq

inductive Fate
  | succeeds
  | fails
  | stops
  deriving DecidableEq

/-- What the environment answers a call: a side effect that does not succeed leaves the instance
with any version and switch, a failed append may keep the entry. -/
structure Answer where
  fate : Fate := .succeeds
  message : Text := []
  version : Text := []
  traffic : Bool := false
  kept : Bool := false
  healthy : Bool := true
  unhealthy : List Text := []

abbrev Controller := Program Answer State Text

/-! ### Calls -/

def State.touch (s : State) (instanceId : Text) (effect : Instance → Instance) : State :=
  { s with instances := s.instances.map fun inst => if inst.id = instanceId then effect inst else inst }

def sideEffect (instanceId : Text) (effect : Instance → Instance) : Controller Unit :=
  .call fun answer s =>
    let partly : Instance → Instance := fun inst => { inst with version := answer.version, traffic := answer.traffic }
    match answer.fate with
    | .succeeds => (.done (), s.touch instanceId effect)
    | .fails => (.threw answer.message, s.touch instanceId partly)
    | .stops => (.stopped, s.touch instanceId partly)

def drain (instanceId : Text) : Controller Unit := sideEffect instanceId fun inst => { inst with traffic := false }

def restoreTraffic (instanceId : Text) : Controller Unit := sideEffect instanceId fun inst => { inst with traffic := true }

def rollback (instanceId version : Text) : Controller Unit := sideEffect instanceId fun inst => { inst with version }

def deploy (instanceId version : Text) : Controller Unit := do
  Program.modify fun s => { s with
    deployments := (s.instances.filter (·.id = instanceId)).map (fun inst => ⟨inst.id, inst.version, version⟩) ++ s.deployments }
  sideEffect instanceId fun inst => { inst with version }

def ask {α : Type} (reply : Answer → State → α) : Controller α :=
  .call fun answer s =>
    match answer.fate with
    | .succeeds => (.done (reply answer s), s)
    | .fails => (.threw answer.message, s)
    | .stops => (.stopped, s)

def waitUntilHealthy (_instanceId _version : Text) (_timeoutMs : Option ℚ) : Controller Bool := ask fun answer _ => answer.healthy

def report (answer : Answer) (s : State) : List DeploymentInstance :=
  s.instances.map fun inst =>
    { id := inst.id, version := inst.version, healthy := inst.id ∉ answer.unhealthy, zone := inst.zone, trafficEnabled := some inst.traffic }

def instances : Controller (List DeploymentInstance) := ask report

def entries : Controller (List UpgradeJournalEntry) := ask fun _ s => s.journal

def append (targetVersion instanceId originalVersion : Text) (status : UpgradeJournalStatus) (error : Option Text) : Controller Unit :=
  .call fun answer s =>
    let entry : UpgradeJournalEntry :=
      { targetVersion, instanceId, originalVersion, status, sequence := s.journal.length + 1, error }
    let written := { s with journal := s.journal ++ [entry] }
    match answer.fate with
    | .succeeds => (.done (), written)
    | .fails => (.threw answer.message, if answer.kept then written else s)
    | .stops => (.stopped, if answer.kept then written else s)

def emit (event : UpgradeEvent) : Controller Unit := .modify fun s => { s with events := s.events ++ [event] }

def rollbackFailure (message : Text) : Controller Unit := .modify fun s => { s with rollbackFailures := s.rollbackFailures ++ [message] }

def lift {α : Type} : Except Text α → Controller α
  | .ok a => pure a
  | .error message => .throw message

/-! ### Reconciliation -/

def recoverOriginal (entry : UpgradeJournalEntry) : Controller Unit := do
  append entry.targetVersion entry.instanceId entry.originalVersion .rollbackStarted none
  Program.tryCatch
    (do
      rollback entry.instanceId entry.originalVersion
      restoreTraffic entry.instanceId
      append entry.targetVersion entry.instanceId entry.originalVersion .rolledBack none)
    fun error => do
      Program.tryCatch (append entry.targetVersion entry.instanceId entry.originalVersion .rollbackFailed (some error)) fun _ => pure ()
      Program.throw error

def recoverTarget (inst : DeploymentInstance) (entry : UpgradeJournalEntry) (healthTimeoutMs : Option ℚ) : Controller Unit := do
  let healthy ← waitUntilHealthy inst.id entry.targetVersion healthTimeoutMs
  if healthy then do
    append entry.targetVersion entry.instanceId entry.originalVersion .healthy none
    restoreTraffic inst.id
    append entry.targetVersion entry.instanceId entry.originalVersion .trafficRestored none
  else recoverOriginal entry

def recoverInstance (inst : DeploymentInstance) (healthTimeoutMs : Option ℚ) : Option UpgradeJournalEntry → Controller Unit
  | none =>
    if inst.healthy then restoreTraffic inst.id
    else Program.throw ("drained instance ".toList ++ inst.id ++ " is unhealthy and has no recovery journal".toList)
  | some entry =>
    if entry.status = .rollbackStarted ∨ entry.status = .rollbackFailed then recoverOriginal entry
    else if inst.version = entry.targetVersion then recoverTarget inst entry healthTimeoutMs
    else recoverOriginal entry

def isIncomplete (entry : Option UpgradeJournalEntry) : Bool :=
  entry.any fun entry => entry.status ≠ .trafficRestored ∧ entry.status ≠ .rolledBack

def reconcileInstance (latest : List (Text × UpgradeJournalEntry)) (healthTimeoutMs : Option ℚ) (inst : DeploymentInstance) :
    Controller Unit :=
  let entry := latest.lookup inst.id
  let event (outcome : EventOutcome) (error : Option Text) : UpgradeEvent :=
    { stage := .recovery, instanceId := some inst.id, fromVersion := some inst.version,
      toVersion := some ((entry.map (·.targetVersion)).getD inst.version), outcome, error }
  if isIncomplete entry = false ∧ inst.trafficEnabled ≠ some false then pure ()
  else do
    emit (event .started none)
    Program.tryCatch
      (do
        recoverInstance inst healthTimeoutMs entry
        emit (event .restored none))
      fun error => do
        emit (event .failed (some error))
        Program.throw error

def reconcileInterrupted (instances : List DeploymentInstance) (healthTimeoutMs : Option ℚ) : Controller Unit := do
  let journal ← entries
  let latest ← lift (latestUpgradeStates journal)
  instances.forM (reconcileInstance latest healthTimeoutMs)

/-! ### The upgrade -/

variable (plan : RollingUpgradePlan)

def applyInstance (stage : UpgradeStage) (inst : DeploymentInstance) : Controller Unit := do
  let event (outcome : EventOutcome) (error : Option Text) : UpgradeEvent :=
    { stage, instanceId := some inst.id, fromVersion := some inst.version, toVersion := some plan.targetVersion, outcome, error }
  let journal (status : UpgradeJournalStatus) : Controller Unit := append plan.targetVersion inst.id inst.version status none
  emit (event .started none)
  Program.tryCatch
    (do
      journal .drainStarted
      Program.modify fun s => { s with changed := s.changed ++ [inst.id] }
      drain inst.id
      deploy inst.id plan.targetVersion
      journal .deployed
      let healthy ← waitUntilHealthy inst.id plan.targetVersion plan.healthTimeoutMs
      if healthy then do
        journal .healthy
        restoreTraffic inst.id
        journal .trafficRestored
        emit (event .healthy none)
      else Program.throw ("health gate timed out for ".toList ++ inst.id))
    fun error => do
      emit (event .failed (some error))
      Program.throw error

def applyBatch (stage : UpgradeStage) (batch : List DeploymentInstance) : Controller Unit :=
  batch.forM (applyInstance plan stage)

/-- `slice(index, index + batchSize)` for the indices of the loop. -/
def batches (batchSize : ℕ) (remainder : List DeploymentInstance) : List (List DeploymentInstance) :=
  (List.range ((remainder.length + batchSize - 1) / batchSize)).map fun k => (remainder.drop (k * batchSize)).take batchSize

structure UpgradeResult where
  succeeded : Bool
  targetVersion : Text
  upgraded : List Text
  events : List UpgradeEvent
  failure : Option Text
  rollbackFailures : List Text
  deriving DecidableEq

def rollbackInstance (originals : List (Text × Text)) (instanceId : Text) : Controller Unit := do
  let original := (originals.lookup instanceId).getD []
  let event (outcome : EventOutcome) (error : Option Text) : UpgradeEvent :=
    { stage := .rollback, instanceId := some instanceId, fromVersion := some plan.targetVersion, toVersion := some original,
      outcome, error }
  emit (event .started none)
  Program.tryCatch (append plan.targetVersion instanceId original .rollbackStarted none)
    fun error => rollbackFailure (instanceId ++ ": could not journal rollback start: ".toList ++ error)
  Program.tryCatch
    (do
      rollback instanceId original
      restoreTraffic instanceId
      Program.tryCatch (append plan.targetVersion instanceId original .rolledBack none)
        fun error => rollbackFailure (instanceId ++ ": rollback completed but could not be journaled: ".toList ++ error)
      emit (event .restored none))
    fun error => do
      rollbackFailure (instanceId ++ ": ".toList ++ error)
      Program.tryCatch (append plan.targetVersion instanceId original .rollbackFailed (some error))
        fun journalError => rollbackFailure (instanceId ++ ": could not journal rollback failure: ".toList ++ journalError)
      emit (event .failed (some error))

/-- The part of `executeExclusive` from its first side effect on. -/
def upgrade (instances : List DeploymentInstance) : Controller UpgradeResult :=
  let originals := instances.map fun inst => (inst.id, inst.version)
  let pending := instances.filter (·.version ≠ plan.targetVersion)
  let canaryCount := min (countOf plan.canaryCount) pending.length
  Program.tryCatch
    (do
      applyBatch plan .canary (pending.take canaryCount)
      (batches (countOf plan.batchSize) (pending.drop canaryCount)).forM (applyBatch plan .rolling)
      emit { stage := .complete, outcome := .healthy }
      let s ← Program.get
      pure { succeeded := true, targetVersion := plan.targetVersion, upgraded := s.changed, events := s.events,
             failure := none, rollbackFailures := [] })
    fun error => do
      let s ← Program.get
      s.changed.reverse.forM (rollbackInstance plan originals)
      let s ← Program.get
      pure { succeeded := false, targetVersion := plan.targetVersion, upgraded := s.changed, events := s.events,
             failure := some error, rollbackFailures := s.rollbackFailures }

section Execute
variable (sha256Hex : Text → Text) (localeCompare : Text → Text → ℤ) (compatibility : VersionCompatibilityMatrix)

/-- What `executeExclusive` checks of the instances before it upgrades them. -/
def checkInstances (plan : RollingUpgradePlan) (instances : List DeploymentInstance) : Except Text Unit := do
  validateDeploymentInstances [] instances
  if instances.any (!·.healthy) then .error "all deployment instances must be healthy before upgrade".toList
  else instances.forM fun inst => compatibility.assertCompatible inst.version plan.targetVersion

def executeReported (plan : RollingUpgradePlan) (first : List DeploymentInstance) : Controller UpgradeResult := do
  lift (validateDeploymentInstances [] (sortInstances sha256Hex localeCompare first))
  if first = [] then Program.throw "cannot run an upgrade without deployment instances".toList
  else do
    Program.modify fun s => { s with events := [], changed := [], rollbackFailures := [] }
    reconcileInterrupted (sortInstances sha256Hex localeCompare first) plan.healthTimeoutMs
    Program.modify fun s => { s with reconciled := s.instances }
    let second ← instances
    lift (checkInstances compatibility plan (sortInstances sha256Hex localeCompare second))
    upgrade plan (sortInstances sha256Hex localeCompare second)

def executeExclusive (plan : RollingUpgradePlan) : Controller UpgradeResult := do
  lift (validateUpgradePlan plan)
  lift (parseVersion plan.targetVersion)
  let first ← instances
  executeReported sha256Hex localeCompare compatibility plan first

/-- A call of `execute`, with what the environment answers to it. -/
structure Execution where
  plan : RollingUpgradePlan
  compatibility : VersionCompatibilityMatrix
  answers : ℕ → Answer

def Execution.ended (execution : Execution) (s : State) : Ended Answer State Text UpgradeResult :=
  executeExclusive sha256Hex localeCompare execution.compatibility execution.plan execution.answers s

/-- One call of `execute` after the other; a crash ends a call and leaves the instances and the journal. -/
def step (s : State) (execution : Execution) : Option State := some (execution.ended sha256Hex localeCompare s).state

end Execute

end OxScada.Scaling.Upgrade
