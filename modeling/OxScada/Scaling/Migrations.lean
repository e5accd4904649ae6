import OxScada.Edge.Sections
import OxScada.Runs.Undo

/-! The runner of reversible migrations, from one await to the next. The journal may fail to
append, with the entry kept or not, and the process may stop between any two steps. -/

namespace OxScada.Scaling.Migrations
open OxScada.Bytes OxScada.Js OxScada.Edge OxScada.Runs

inductive MigrationJournalStatus
  | started
  | applied
  | failed
  | rollbackStarted
  | rolledBack
  | rollbackFailed
  deriving DecidableEq

structure MigrationJournalEntry where
  migrationId : Text
  status : MigrationJournalStatus
  sequence : ℕ
  error : Option Text
  deriving DecidableEq

/-! ### The journal -/

abbrev MigrationJournal := List MigrationJournalEntry

def MigrationJournal.append (journal : MigrationJournal) (migrationId : Text) (status : MigrationJournalStatus)
    (error : Option Text) : MigrationJournal :=
  journal ++ [{ migrationId, status, sequence := journal.length + 1, error }]

variable (entries : MigrationJournal)

def latestMigrationStates : List (Text × MigrationJournalEntry) :=
  (entries.insertionSort (·.sequence ≤ ·.sequence)).foldl (fun states entry => mapSet states entry.migrationId entry) []

def currentAppliedMigrations : List Text :=
  ((latestMigrationStates entries).filter (·.2.status = .applied)).map (·.1)

def MigrationJournalStatus.isIncomplete (status : MigrationJournalStatus) : Bool :=
  status ∈ [MigrationJournalStatus.started, .failed, .rollbackStarted, .rollbackFailed]

def incompleteMigrations : List Text :=
  (((latestMigrationStates entries).filter (·.2.status.isIncomplete)).insertionSort
    (·.2.sequence ≥ ·.2.sequence)).map (·.1)

def statusOf (migrationId : Text) : Option MigrationJournalStatus :=
  ((latestMigrationStates entries).lookup migrationId).map (·.status)

/-! ### The runner -/

structure MigrationExecutionError where
  message : Text
  failedMigration : Text
  rollbackFailures : List Text
  deriving DecidableEq

inductive RunResult
  | returned (ids : List Text)
  | executionError (error : MigrationExecutionError)
  | error (message : Text)
  deriving DecidableEq

inductive UpStage
  | appendStarted
  | up
  | upRunning
  | appendApplied
  | appendFailed (error : Text)
  deriving DecidableEq

inductive DownStage
  | appendStarted
  | down
  | downRunning
  | appendRolledBack
  | appendFailed (error : Text)
  deriving DecidableEq

/-- What called `rollback`: the recovery of an incomplete migration, with those still to
recover, or an `up` that threw, with the failures to journal that. -/
inductive Caller
  | recoverIncomplete (migrationId : Text) (incomplete : List Text)
  | upFailed (migrationId : Text) (error : Text) (journalFailures : List Text)
  deriving DecidableEq

inductive Phase
  | idle
  | readIncomplete
  | readApplied
  | migrating (migration : Text) (rest appliedPreviously appliedThisRun : List Text) (stage : UpStage)
  | rollingBack (caller : Caller) (migration : Text) (rest failures : List Text) (stage : DownStage)
  deriving DecidableEq

structure State where
  journal : MigrationJournal := []
  phase : Phase := .idle
  result : Option RunResult := none
  calls : List (Call Text) := []
  deriving DecidableEq

/-- What becomes of an append: a failed one may have kept the entry. -/
inductive AppendOutcome
  | recorded
  | failed (kept : Bool) (error : Text)
  deriving DecidableEq

def AppendOutcome.kept : AppendOutcome → Bool
  | .recorded => true
  | .failed kept _ => kept

def AppendOutcome.error : AppendOutcome → Option Text
  | .recorded => none
  | .failed _ error => some error

inductive Act
  | run
  | entries (error : Option Text)
  | append (outcome : AppendOutcome)
  | call
  | settle (error : Option Text)
  | crash
  deriving DecidableEq

def State.finish (s : State) (result : RunResult) : State := { s with phase := .idle, result := some result }

def invalidMigration (seen : List Text) : List Text → Option Text
  | [] => none
  | migration :: rest =>
    if isBlank migration ∨ migration ∈ seen then some migration else invalidMigration (migration :: seen) rest

def State.migrateNext (s : State) (appliedPreviously appliedThisRun : List Text) : List Text → State
  | [] => s.finish (.returned appliedThisRun)
  | migration :: rest =>
    if migration ∈ appliedPreviously then s.migrateNext appliedPreviously appliedThisRun rest
    else { s with phase := .migrating migration rest appliedPreviously appliedThisRun .appendStarted }

variable (migrations : List Text)
variable (s : State)

def State.recoverNext : List Text → State
  | [] => { s with phase := .readApplied }
  | migrationId :: rest =>
    if migrationId ∈ migrations then
      { s with phase := .rollingBack (.recoverIncomplete migrationId rest) migrationId [] [] .appendStarted }
    else
      s.finish (.executionError {
        message := "incomplete migration ".toList ++ migrationId ++ " cannot be recovered without its definition".toList
        failedMigration := migrationId
        rollbackFailures := [migrationId ++ ": migration definition is unavailable".toList] })

def State.rolledBack (failures : List Text) : Caller → State
  | .recoverIncomplete migrationId incomplete =>
    if failures = [] then s.recoverNext migrations incomplete
    else
      s.finish (.executionError {
        message := "incomplete migration ".toList ++ migrationId ++ " could not be recovered".toList
        failedMigration := migrationId
        rollbackFailures := failures })
  | .upFailed migrationId error journalFailures =>
    s.finish (.executionError {
      message := "migration ".toList ++ migrationId ++ " failed: ".toList ++ error
      failedMigration := migrationId
      rollbackFailures := journalFailures ++ failures })

def State.rollbackNext (caller : Caller) (failures : List Text) : List Text → State
  | [] => s.rolledBack migrations failures caller
  | migration :: rest => { s with phase := .rollingBack caller migration rest failures .appendStarted }

def Phase.entry : Phase → Option (Text × MigrationJournalStatus × Option Text)
  | .migrating migration _ _ _ .appendStarted => some (migration, .started, none)
  | .migrating migration _ _ _ .appendApplied => some (migration, .applied, none)
  | .migrating migration _ _ _ (.appendFailed error) => some (migration, .failed, some error)
  | .rollingBack _ migration _ _ .appendStarted => some (migration, .rollbackStarted, none)
  | .rollingBack _ migration _ _ .appendRolledBack => some (migration, .rolledBack, none)
  | .rollingBack _ migration _ _ (.appendFailed error) => some (migration, .rollbackFailed, some error)
  | _ => none

def journalFailure (migration : Text) (what : String) : Option Text → List Text
  | none => []
  | some error => [migration ++ ": ".toList ++ what.toList ++ ": ".toList ++ error]

def State.afterAppend (error : Option Text) : State :=
  match s.phase with
  | .migrating migration rest appliedPreviously appliedThisRun .appendStarted =>
    match error with
    | none => { s with phase := .migrating migration rest appliedPreviously appliedThisRun .up }
    | some message => s.finish (.error message)
  | .migrating migration rest appliedPreviously appliedThisRun .appendApplied =>
    match error with
    | none => s.migrateNext appliedPreviously (appliedThisRun ++ [migration]) rest
    | some message => { s with phase := .migrating migration rest appliedPreviously appliedThisRun (.appendFailed message) }
  | .migrating migration _ _ appliedThisRun (.appendFailed message) =>
    s.rollbackNext migrations (.upFailed migration message (journalFailure migration "could not journal failure" error)) []
      (appliedThisRun ++ [migration]).reverse
  | .rollingBack caller migration rest failures .appendStarted =>
    let failures := failures ++ journalFailure migration "could not journal rollback start" error
    { s with phase := .rollingBack caller migration rest failures .down }
  | .rollingBack caller migration rest failures .appendRolledBack =>
    s.rollbackNext migrations caller
      (failures ++ journalFailure migration "rollback completed but could not be journaled" error) rest
  | .rollingBack caller migration rest failures (.appendFailed _) =>
    s.rollbackNext migrations caller (failures ++ journalFailure migration "could not journal rollback failure" error) rest
  | _ => s

def step : Act → Option State
  | .run =>
    match s.phase with
    | .idle =>
      match invalidMigration [] migrations with
      | some migration => some (s.finish (.error ("migration ids must be non-empty and unique: ".toList ++ migration)))
      | none => some { s with phase := .readIncomplete }
    | _ => some { s with result := some (.error "a migration run is already in progress".toList) }
  | .entries error =>
    match s.phase, error with
    | .readIncomplete, none => some (s.recoverNext migrations (incompleteMigrations s.journal))
    | .readApplied, none => some (s.migrateNext (currentAppliedMigrations s.journal) [] migrations)
    | .readIncomplete, some message => some (s.finish (.error message))
    | .readApplied, some message => some (s.finish (.error message))
    | _, _ => none
  | .append outcome =>
    match s.phase.entry with
    | none => none
    | some (migration, status, error) =>
      let journal := if outcome.kept then s.journal.append migration status error else s.journal
      some (State.afterAppend migrations { s with journal } outcome.error)
  | .call =>
    match s.phase with
    | .migrating migration rest appliedPreviously appliedThisRun .up =>
      some { s with
        phase := .migrating migration rest appliedPreviously appliedThisRun .upRunning
        calls := ⟨.up, migration⟩ :: s.calls }
    | .rollingBack caller migration rest failures .down =>
      some { s with
        phase := .rollingBack caller migration rest failures .downRunning
        calls := ⟨.down, migration⟩ :: s.calls }
    | _ => none
  | .settle error =>
    match s.phase, error with
    | .migrating migration rest appliedPreviously appliedThisRun .upRunning, none =>
      some { s with
        phase := .migrating migration rest appliedPreviously appliedThisRun .appendApplied
        calls := ⟨.upDone, migration⟩ :: s.calls }
    | .migrating migration rest appliedPreviously appliedThisRun .upRunning, some message =>
      some { s with
        phase := .migrating migration rest appliedPreviously appliedThisRun (.appendFailed message)
        calls := ⟨.upFailed, migration⟩ :: s.calls }
    | .rollingBack caller migration rest failures .downRunning, none =>
      some { s with
        phase := .rollingBack caller migration rest failures .appendRolledBack
        calls := ⟨.downDone, migration⟩ :: s.calls }
    | .rollingBack caller migration rest failures .downRunning, some message =>
      let failures := failures ++ [migration ++ ": ".toList ++ message]
      some { s with
        phase := .rollingBack caller migration rest failures (.appendFailed message)
        calls := ⟨.downFailed, migration⟩ :: s.calls }
    | _, _ => none
  | .crash => some { s with phase := .idle, result := none }

end OxScada.Scaling.Migrations
