import OxScada.Js.Text
import OxScada.Runs.Reachable

/-! The safe-state controller of a blueprint. Transitions run one at a time, and a step is a
stretch of one between two `await`s. The anchor backend cannot make a transition fail: without
an answer the local hash stands in for it. -/

namespace OxScada.Blueprint
open OxScada.Bytes OxScada.Js OxScada.Runs

inductive BlueprintRunState where
  | running | safeState | resuming | recovering | recoveryFailed
  deriving DecidableEq

inductive AuditTransition where
  | entered | exitRequested | exited | resumeFailed | exitAborted | recoveryFailed
  deriving DecidableEq

def AuditTransition.outcome : AuditTransition → Text
  | .resumeFailed => "resume attempt failed and the declared safe state was re-applied".toList
  | .exitAborted => "runtime resumed temporarily, but exit durability failed and the declared safe state was re-applied".toList
  | _ => "resume/exit failed and the declared safe state could not be fully restored".toList

structure SafeStateAuditEntry where
  transition : AuditTransition
  consecutiveMisses : Option ℕ
  operator : Option Text
  reason : Text
  anchorHash : Text
  timestamp : ℤ
  deriving DecidableEq

inductive EntryAuditStatus where
  | pending | durable
  deriving DecidableEq

inductive RecoveryError where
  | haltFailed | applicationFailed
  deriving DecidableEq

structure SafeStateStatus where
  runState : BlueprintRunState
  enteredAt : Option ℤ
  reason : Option Text
  consecutiveMisses : Option ℕ
  anchorHash : Option Text
  entryAuditStatus : Option EntryAuditStatus
  recoveryErrors : List RecoveryError
  deriving DecidableEq

/-! ### The actuator -/

/-- How a method of the actuator ends. One that throws may have taken effect. -/
inductive Outcome where
  | returns
  | throws (effect : Bool)
  deriving DecidableEq

def Outcome.effective : Outcome → Bool
  | .returns => true
  | .throws effect => effect

structure Actuator where
  halted : Bool
  /-- The declared safe action returned normally after the last resume. -/
  applied : Bool
  deriving DecidableEq

namespace Actuator

def halt (a : Actuator) (outcome : Outcome) : Actuator := { a with halted := a.halted || outcome.effective }

def resume (a : Actuator) (outcome : Outcome) : Actuator := ⟨a.halted && !outcome.effective, false⟩

def applyAction (a : Actuator) (outcome : Outcome) : Actuator := { a with applied := a.applied || outcome = .returns }

end Actuator

/-! ### The controller -/

inductive ControllerCall where
  | enterSafeState (reason : Text) (consecutiveMisses : ℕ)
  | resume (operator reason : Text)
  deriving DecidableEq

inductive Await where
  | entryAnchor (reason : Text) (consecutiveMisses : ℕ) (timestamp : ℤ)
  | entryAudit
  | entryAuditToResume (operator reason : Text)
  | oldRequestAudit (operator reason : Text)
  | requestAnchor (operator reason : Text) (timestamp : ℤ)
  | requestAudit (operator reason : Text)
  | exitAnchor (operator reason : Text) (timestamp : ℤ)
  | exitAudit (operator reason : Text) (entry : SafeStateAuditEntry)
  | recoveryAnchor (transition : AuditTransition) (operator reason : Text) (timestamp : ℤ)
  | recoveryAudit (entry : SafeStateAuditEntry)
  deriving DecidableEq

/-- The records that a resume or an entry writes before the runtime is touched. -/
def Await.isPersisting : Await → Bool
  | .entryAudit | .entryAuditToResume _ _ | .oldRequestAudit _ _ | .requestAudit _ _ => true
  | _ => false

inductive SafetyEvent where
  | entering
  | recorded (entry : SafeStateAuditEntry)
  | resumed
  deriving DecidableEq

structure SafeStateController where
  status : SafeStateStatus
  pendingEntryAudit : Option SafeStateAuditEntry
  pendingExitRequestAudit : Option SafeStateAuditEntry
  calls : List ControllerCall
  transition : Option Await
  finished : List Bool
  actuator : Actuator
  log : List SafetyEvent
  deriving DecidableEq

inductive ControllerAct where
  | call (call : ControllerCall)
  | begins (halt action : Outcome) (now : ℤ)
  | anchored (hash : Text)
  /-- The method that is awaited had nothing to persist. -/
  | unpended (now : ℤ)
  /-- `detail` is the message of what the audit sink or `actuator.resume` throws. -/
  | audited (ok : Bool) (resume halt action : Outcome) (detail : Text) (now : ℤ)
  deriving DecidableEq

namespace SafeStateController

def start : SafeStateController where
  status := ⟨.running, none, none, none, none, none, []⟩
  pendingEntryAudit := none
  pendingExitRequestAudit := none
  calls := []
  transition := none
  finished := []
  actuator := ⟨false, false⟩
  log := []

variable (s : SafeStateController)

def finish (resolved : Bool) : SafeStateController :=
  { s with transition := none, finished := s.finished ++ [resolved] }

def await (a : Await) : SafeStateController := { s with transition := some a }

def setRunState (runState : BlueprintRunState) (recoveryErrors : List RecoveryError) : SafeStateController :=
  { s with status := { s.status with runState, recoveryErrors } }

def persisted (entry : SafeStateAuditEntry) : SafeStateController :=
  { s with log := .recorded entry :: s.log }

def entryPersisted (entry : SafeStateAuditEntry) : SafeStateController :=
  { s.persisted entry with
    pendingEntryAudit := none
    status := { s.status with entryAuditStatus := some .durable } }

/-- `recoverToSafeState`: both measures are taken, and both must succeed. -/
def recoverToSafeState (halt action : Outcome) : SafeStateController :=
  let recoveryErrors := (if halt = .returns then [] else [.haltFailed]) ++ if action = .returns then [] else [.applicationFailed]
  let s := { s with actuator := (s.actuator.halt halt).applyAction action }
  s.setRunState (if recoveryErrors = [] then .safeState else .recoveryFailed) recoveryErrors

def recover (runtimeResumed : Bool) (operator reason : Text) (halt action : Outcome) (detail : Text) (now : ℤ) : SafeStateController :=
  let s := s.recoverToSafeState halt action
  let transition := if s.status.recoveryErrors ≠ [] then .recoveryFailed else if runtimeResumed then .exitAborted else .resumeFailed
  s.await (.recoveryAnchor transition operator (reason ++ "; ".toList ++ transition.outcome ++ ": ".toList ++ detail) now)

def enterSafeStateLocked (reason : Text) (consecutiveMisses : ℕ) (halt action : Outcome) (now : ℤ) :
    SafeStateController :=
  if s.status.runState = .safeState then s.await .entryAudit
  else
    let s := { s with log := .entering :: s.log, actuator := s.actuator.halt halt }
    if halt ≠ .returns then s.finish false
    else
      let s := { s with actuator := s.actuator.applyAction action }
      if action ≠ .returns then s.finish false else s.await (.entryAnchor reason consecutiveMisses now)

def resumeLocked (operator reason : Text) : SafeStateController :=
  if isBlank operator then s.finish false
  else if s.status.runState ≠ .safeState then s.finish false
  else s.await (.entryAuditToResume operator reason)

def resumeActuator (operator reason : Text) (resume halt action : Outcome) (detail : Text) (now : ℤ) : SafeStateController :=
  let s := { s with log := .resumed :: s.log, actuator := s.actuator.resume resume }
  if resume = .returns then (s.setRunState .resuming []).await (.exitAnchor operator reason now)
  else s.recover false operator reason halt action detail now

def anchored (hash : Text) : Option SafeStateController :=
  match s.transition with
  | some (.entryAnchor reason consecutiveMisses timestamp) =>
    some ({ s with
      status := { s.status with
        runState := .safeState
        enteredAt := some timestamp
        reason := some reason
        consecutiveMisses := some consecutiveMisses
        anchorHash := some hash
        entryAuditStatus := some .pending }
      pendingEntryAudit := some ⟨.entered, some consecutiveMisses, none, reason, hash, timestamp⟩ }.await .entryAudit)
  | some (.requestAnchor operator reason timestamp) =>
    some ({ s with
      pendingExitRequestAudit := some ⟨.exitRequested, none, some operator, reason, hash, timestamp⟩ }.await (.requestAudit operator reason))
  | some (.exitAnchor operator reason timestamp) =>
    some (s.await (.exitAudit operator reason ⟨.exited, none, some operator, reason, hash, timestamp⟩))
  | some (.recoveryAnchor transition operator reason timestamp) =>
    some (s.await (.recoveryAudit ⟨transition, none, some operator, reason, hash, timestamp⟩))
  | _ => none

/-- The stretch after a persisting method that had nothing to persist, or that has. -/
def proceed (now : ℤ) : Option SafeStateController :=
  match s.transition with
  | some .entryAudit => some (s.finish true)
  | some (.entryAuditToResume operator reason) => some (s.await (.oldRequestAudit operator reason))
  | some (.oldRequestAudit operator reason) => some (s.await (.requestAnchor operator reason now))
  | _ => none

def unpended (now : ℤ) : Option SafeStateController :=
  match s.transition with
  | some .entryAudit | some (.entryAuditToResume _ _) => if s.pendingEntryAudit = none then s.proceed now else none
  | some (.oldRequestAudit _ _) => if s.pendingExitRequestAudit = none then s.proceed now else none
  | _ => none

def audited (ok : Bool) (resume halt action : Outcome) (detail : Text) (now : ℤ) : Option SafeStateController :=
  match s.transition with
  | some .entryAudit | some (.entryAuditToResume _ _) =>
    s.pendingEntryAudit.bind fun entry => if ok then (s.entryPersisted entry).proceed now else some (s.finish false)
  | some (.oldRequestAudit _ _) =>
    s.pendingExitRequestAudit.bind fun entry =>
      if ok then { s.persisted entry with pendingExitRequestAudit := none }.proceed now else some (s.finish false)
  | some (.requestAudit operator reason) =>
    s.pendingExitRequestAudit.map fun entry =>
      if ok then { s.persisted entry with pendingExitRequestAudit := none }.resumeActuator operator reason resume halt action detail now
      else s.finish false
  | some (.exitAudit operator reason entry) =>
    some (if ok then { s.persisted entry with status := ⟨.running, none, none, none, none, none, []⟩ }.finish true
      else s.recover true operator reason halt action detail now)
  | some (.recoveryAudit entry) => some ((if ok then s.persisted entry else s).finish false)
  | _ => none

def step : ControllerAct → Option SafeStateController
  | .call call => some { s with calls := s.calls ++ [call] }
  | .begins halt action now =>
    match s.transition, s.calls with
    | none, .enterSafeState reason consecutiveMisses :: calls =>
      some ({ s with calls }.enterSafeStateLocked reason consecutiveMisses halt action now)
    | none, .resume operator reason :: calls => some ({ s with calls }.resumeLocked operator reason)
    | _, _ => none
  | .anchored hash => s.anchored hash
  | .unpended now => s.unpended now
  | .audited ok resume halt action detail now => s.audited ok resume halt action detail now

/-! ### What the status promises -/

variable (log : List SafetyEvent)

def sinceEntry : List SafetyEvent := log.takeWhile (· ≠ .entering)

def EntryDurable : Prop :=
  ∃ entry, .recorded entry ∈ sinceEntry log ∧ entry.transition = .entered

def ExitRequested : Prop :=
  ∃ entry operator, .recorded entry ∈ sinceEntry log ∧ entry.transition = .exitRequested ∧ entry.operator = some operator ∧
    isBlank operator = false

def Authorised : List SafetyEvent → Prop
  | [] => True
  | .resumed :: earlier => EntryDurable earlier ∧ ExitRequested earlier ∧ Authorised earlier
  | .entering :: earlier | .recorded _ :: earlier => Authorised earlier

/-- Between transitions the status tells the truth, and the runtime was resumed only on a
recorded request of an operator. -/
structure Honest (s : SafeStateController) : Prop where
  safe : s.transition = none → s.status.runState = .safeState → s.actuator.halted = true ∧ s.actuator.applied = true
  live : s.transition = none → s.status.runState = .running → s.actuator.halted = false
  authorised : Authorised s.log

/-- An entry from `RUNNING` does not fail once the runtime is halted. -/
def HaltCompletes (s : SafeStateController) : ControllerAct → Prop
  | .begins halt action _ =>
    match s.calls with
    | .enterSafeState _ _ :: _ => s.status.runState = .running → halt.effective = true → halt = .returns ∧ action = .returns
    | _ => True
  | _ => True

instance (s : SafeStateController) (act : ControllerAct) : Decidable (s.HaltCompletes act) := by
  unfold HaltCompletes
  split
  · split <;> infer_instance
  · infer_instance

theorem sinceEntry_cons {event : SafetyEvent} (hevent : event ≠ .entering) (log : List SafetyEvent) :
    sinceEntry (event :: log) = event :: sinceEntry log := List.takeWhile_cons_of_pos (decide_eq_true hevent)

theorem EntryDurable.cons {log : List SafetyEvent} (h : EntryDurable log) {event : SafetyEvent} (hevent : event ≠ .entering) :
    EntryDurable (event :: log) := by
  obtain ⟨entry, hmem, hentered⟩ := h
  refine ⟨entry, ?_, hentered⟩
  rw [sinceEntry_cons hevent]
  exact List.mem_cons_of_mem _ hmem

theorem entryDurable_recorded {log : List SafetyEvent} {entry : SafeStateAuditEntry} (h : entry.transition = .entered) :
    EntryDurable (.recorded entry :: log) := ⟨entry, List.mem_cons_self, h⟩

/-! ### The invariant -/

def During (s : SafeStateController) : Option Await → Prop
  | none => True
  | some .entryAudit => s.status.runState = .safeState
  | some (.entryAnchor _ _ _) => s.status.runState ≠ .safeState ∧ s.actuator.halted = true ∧ s.actuator.applied = true
  | some (.entryAuditToResume operator _) => s.status.runState = .safeState ∧ isBlank operator = false
  | some (.oldRequestAudit operator _) | some (.requestAnchor operator _ _) =>
    s.status.runState = .safeState ∧ isBlank operator = false ∧ EntryDurable s.log
  | some (.requestAudit _ _) => s.status.runState = .safeState ∧ EntryDurable s.log ∧
      ∃ entry operator, s.pendingExitRequestAudit = some entry ∧ entry.transition = .exitRequested ∧ entry.operator = some operator ∧
        isBlank operator = false
  | some (.exitAnchor _ _ _) | some (.exitAudit _ _ _) =>
    s.status.runState = .resuming ∧ s.actuator.halted = false ∧ EntryDurable s.log
  | some (.recoveryAnchor _ _ _ _) | some (.recoveryAudit _) => s.status.runState ≠ .running

structure Sound (s : SafeStateController) : Prop where
  safe : s.status.runState = .safeState → s.actuator.halted = true ∧ s.actuator.applied = true
  entry : s.status.runState = .safeState → EntryDurable s.log ∨ ∃ entry, s.pendingEntryAudit = some entry
  pending : ∀ entry ∈ s.pendingEntryAudit, entry.transition = .entered
  live : s.status.runState = .running → s.transition = none → s.actuator.halted = false
  authorised : Authorised s.log
  during : During s s.transition

theorem Sound.start : Sound start where
  safe h := by cases h
  entry h := by cases h
  pending _ h := by cases h
  live _ _ := rfl
  authorised := trivial
  during := trivial

inductive AuditMove (s : SafeStateController) (ok : Bool) (resume halt action : Outcome) (detail : Text) (now : ℤ) : SafeStateController → Prop
  | entry {a : Await} {entry : SafeStateAuditEntry} {s' : SafeStateController} (htransition : s.transition = some a)
      (ha : a = .entryAudit ∨ ∃ operator reason, a = .entryAuditToResume operator reason)
      (hpending : s.pendingEntryAudit = some entry) (h : (s.entryPersisted entry).proceed now = some s') :
      AuditMove s ok resume halt action detail now s'
  | oldRequest {operator reason : Text} {entry : SafeStateAuditEntry} {s' : SafeStateController}
      (htransition : s.transition = some (.oldRequestAudit operator reason))
      (h : { s.persisted entry with pendingExitRequestAudit := none }.proceed now = some s') : AuditMove s ok resume halt action detail now s'
  | request {operator reason : Text} {entry : SafeStateAuditEntry} (htransition : s.transition = some (.requestAudit operator reason))
      (hpending : s.pendingExitRequestAudit = some entry) :
      AuditMove s ok resume halt action detail now
        ({ s.persisted entry with pendingExitRequestAudit := none }.resumeActuator operator reason resume halt action detail now)
  | refused {a : Await} (htransition : s.transition = some a) (ha : a.isPersisting = true) :
      AuditMove s ok resume halt action detail now (s.finish false)
  | exited {operator reason : Text} {entry : SafeStateAuditEntry} (htransition : s.transition = some (.exitAudit operator reason entry))
      (hok : ok = true) :
      AuditMove s ok resume halt action detail now ({ s.persisted entry with status := ⟨.running, none, none, none, none, none, []⟩ }.finish true)
  | aborted {operator reason : Text} {entry : SafeStateAuditEntry} (htransition : s.transition = some (.exitAudit operator reason entry))
      (hok : ok = false) : AuditMove s ok resume halt action detail now (s.recover true operator reason halt action detail now)
  | recovered {entry : SafeStateAuditEntry} (htransition : s.transition = some (.recoveryAudit entry)) :
      AuditMove s ok resume halt action detail now ((if ok then s.persisted entry else s).finish false)

theorem audited_move {s s' : SafeStateController} {ok : Bool} {resume halt action : Outcome} {detail : Text} {now : ℤ}
    (h : s.audited ok resume halt action detail now = some s') : AuditMove s ok resume halt action detail now s' := by
  unfold audited at h
  split at h
  next htransition =>
    obtain ⟨entry, hpending, hanswer⟩ := Option.bind_eq_some_iff.mp h
    split_ifs at hanswer
    · exact .entry htransition (.inl rfl) hpending hanswer
    · cases hanswer
      exact .refused htransition rfl
  next operator reason htransition =>
    obtain ⟨entry, hpending, hanswer⟩ := Option.bind_eq_some_iff.mp h
    split_ifs at hanswer
    · exact .entry htransition (.inr ⟨operator, reason, rfl⟩) hpending hanswer
    · cases hanswer
      exact .refused htransition rfl
  next htransition =>
    obtain ⟨entry, -, hanswer⟩ := Option.bind_eq_some_iff.mp h
    split_ifs at hanswer
    · exact .oldRequest htransition hanswer
    · cases hanswer
      exact .refused htransition rfl
  next htransition =>
    obtain ⟨entry, hpending, rfl⟩ := Option.map_eq_some_iff.mp h
    split_ifs
    · exact .request htransition hpending
    · exact .refused htransition rfl
  next htransition =>
    cases h
    split_ifs with hok
    · exact .exited htransition hok
    · exact .aborted htransition (Bool.eq_false_of_not_eq_true hok)
  next htransition =>
    cases h
    exact .recovered htransition
  next => cases h

theorem unpended_proceed {s s' : SafeStateController} {now : ℤ} (h : s.unpended now = some s') :
    s.proceed now = some s' ∧
      (s.pendingEntryAudit = none ∨ ∃ operator reason, s.transition = some (.oldRequestAudit operator reason)) := by
  unfold unpended at h
  split at h
  · split_ifs at h with hnone
    exact ⟨h, .inl hnone⟩
  · split_ifs at h with hnone
    exact ⟨h, .inl hnone⟩
  next operator reason htransition =>
    split_ifs at h
    exact ⟨h, .inr ⟨operator, reason, htransition⟩⟩
  · cases h

section Steps
variable {s s' : SafeStateController}

theorem Sound.finish (h : Sound s) (hlive : s.status.runState = .running → s.actuator.halted = false) (resolved : Bool) :
    Sound (s.finish resolved) :=
  ⟨h.safe, h.entry, h.pending, fun hrunning _ => hlive hrunning, h.authorised, trivial⟩

variable {a : Await} {now : ℤ}

theorem Sound.await (h : Sound s) (hduring : During s (some a)) : Sound (s.await a) := by
  refine ⟨h.safe, h.entry, h.pending, fun _ hnone => ?_, h.authorised, ?_⟩
  · cases hnone
  · cases a <;> exact hduring

theorem Sound.enter (h : Sound s) (htransition : s.transition = none) {reason : Text} {consecutiveMisses : ℕ} {halt action : Outcome}
    (hcompletes : s.status.runState = .running → halt.effective = true → halt = .returns ∧ action = .returns) :
    Sound (s.enterSafeStateLocked reason consecutiveMisses halt action now) := by
  -- An entry that fails leaves the status as it was, so a halt that took effect would not show.
  have hfailed : ∀ actuator : Actuator, s.status.runState ≠ .safeState →
      (s.status.runState = .running → actuator.halted = false) →
      Sound ({ s with log := .entering :: s.log, actuator }.finish false) := by
    intro actuator hsafe hlive
    exact ⟨fun h => absurd h hsafe, fun h => absurd h hsafe, h.pending, fun hrunning _ => hlive hrunning, h.authorised, trivial⟩
  unfold enterSafeStateLocked
  split_ifs with hsafe hhalt haction
  · exact h.await hsafe
  · apply hfailed _ hsafe
    intro hrunning
    show (s.actuator.halted || halt.effective) = false
    rw [h.live hrunning htransition, Bool.false_or]
    by_contra heffective
    exact hhalt (hcompletes hrunning (Bool.eq_true_of_not_eq_false heffective)).1
  · apply hfailed _ hsafe
    intro hrunning
    have hreturns := not_not.mp hhalt
    rw [hreturns] at hcompletes
    exact absurd (hcompletes hrunning rfl).2 haction
  · rw [not_not.mp hhalt, not_not.mp haction]
    have hhalted : (s.actuator.halted || true) = true := Bool.or_true _
    have happlied : (s.actuator.applied || decide (Outcome.returns = .returns)) = true := Bool.or_true _
    exact ⟨fun h => absurd h hsafe, fun h => absurd h hsafe, h.pending, fun _ hnone => absurd hnone (Option.some_ne_none _), h.authorised,
      hsafe, hhalted, happlied⟩

theorem Sound.resume (h : Sound s) (htransition : s.transition = none) (operator reason : Text) : Sound (s.resumeLocked operator reason) := by
  unfold resumeLocked
  split_ifs with hblank hsafe
  · exact h.finish (fun hrunning => h.live hrunning htransition) false
  · exact h.finish (fun hrunning => h.live hrunning htransition) false
  · exact h.await ⟨not_not.mp hsafe, Bool.eq_false_of_not_eq_true hblank⟩

theorem Sound.recover (hentry : EntryDurable s.log) (hpending : ∀ entry ∈ s.pendingEntryAudit, entry.transition = .entered)
    (hauthorised : Authorised s.log) (runtimeResumed : Bool) (operator reason : Text) (halt action : Outcome) (detail : Text) (now : ℤ) :
    Sound (s.recover runtimeResumed operator reason halt action detail now) := by
  have hstate : ∀ state, (s.recover runtimeResumed operator reason halt action detail now).status.runState = state →
      state = .safeState ∧ halt = .returns ∧ action = .returns ∨ state = .recoveryFailed := by
    rintro state rfl
    unfold SafeStateController.recover recoverToSafeState
    cases halt <;> cases action <;> simp [setRunState, SafeStateController.await]
  refine ⟨fun hsafe => ?_, fun _ => .inl hentry, hpending, fun hrunning => ?_, hauthorised, ?_⟩
  · obtain ⟨-, rfl, rfl⟩ | hfailed := hstate _ hsafe
    · exact ⟨Bool.or_true _, Bool.or_true _⟩
    · cases hfailed
  · obtain ⟨hsafe, -⟩ | hfailed := hstate _ hrunning
    · cases hsafe
    · cases hfailed
  · intro hrunning
    obtain ⟨hsafe, -⟩ | hfailed := hstate _ hrunning
    · cases hsafe
    · cases hfailed

theorem Sound.resumeActuator (hentry : EntryDurable s.log) (hrequest : ExitRequested s.log)
    (hpending : ∀ entry ∈ s.pendingEntryAudit, entry.transition = .entered) (hauthorised : Authorised s.log) (operator reason : Text)
    (resume halt action : Outcome) (detail : Text) (now : ℤ) : Sound (s.resumeActuator operator reason resume halt action detail now) := by
  have hresumed : EntryDurable (.resumed :: s.log) := hentry.cons (by decide)
  unfold SafeStateController.resumeActuator
  split_ifs with hreturns
  · subst hreturns
    have hlive : (s.actuator.halted && !true) = false := Bool.and_false _
    refine ⟨fun hsafe => ?_, fun hsafe => ?_, hpending, fun hrunning => ?_, ⟨hentry, hrequest, hauthorised⟩, rfl, hlive, hresumed⟩
    · cases hsafe
    · cases hsafe
    · cases hrunning
  · apply Sound.recover
    · exact hresumed
    · exact hpending
    · exact ⟨hentry, hrequest, hauthorised⟩

section
variable (h : Sound s)
include h

theorem Sound.anchored {hash : Text} (hstep : s.anchored hash = some s') : Sound s' := by
  have hduring := h.during
  unfold SafeStateController.anchored at hstep
  split at hstep <;> rename_i htransition
  · cases hstep
    rw [htransition] at hduring
    obtain ⟨-, hhalted, happlied⟩ := hduring
    refine ⟨fun _ => ⟨hhalted, happlied⟩, fun _ => .inr ⟨_, rfl⟩, fun entry hmem => ?_, fun hrunning => ?_, h.authorised, rfl⟩
    · cases hmem
      rfl
    · cases hrunning
  · cases hstep
    rw [htransition] at hduring
    obtain ⟨hsafe, hblank, hentry⟩ := hduring
    exact ⟨h.safe, h.entry, h.pending, fun _ hnone => absurd hnone (Option.some_ne_none _), h.authorised,
      hsafe, hentry, _, _, rfl, rfl, rfl, hblank⟩
  · cases hstep
    rw [htransition] at hduring
    exact h.await hduring
  · cases hstep
    rw [htransition] at hduring
    exact h.await hduring
  · cases hstep

theorem Sound.proceed (hentry : s.status.runState = .safeState → EntryDurable s.log)
    (hstep : s.proceed now = some s') : Sound s' := by
  have hduring := h.during
  unfold SafeStateController.proceed at hstep
  split at hstep <;> rename_i htransition <;> cases hstep <;> rw [htransition] at hduring
  · apply h.finish
    intro hrunning
    cases hduring.symm.trans hrunning
  · exact h.await ⟨hduring.1, hduring.2, hentry hduring.1⟩
  · exact h.await hduring

theorem Sound.unpended (hstep : s.unpended now = some s') : Sound s' := by
  obtain ⟨hproceed, hunpended⟩ := unpended_proceed hstep
  refine h.proceed (fun hsafe => ?_) hproceed
  rcases hunpended with hnone | ⟨operator, reason, htransition⟩
  · rcases h.entry hsafe with hdurable | ⟨entry, hsome⟩
    · exact hdurable
    · cases hnone.symm.trans hsome
  · have hduring := h.during
    rw [htransition] at hduring
    exact hduring.2.2

theorem Sound.entryPersisted {entry : SafeStateAuditEntry} (htransition : s.transition = some a)
    (ha : a = .entryAudit ∨ ∃ operator reason, a = .entryAuditToResume operator reason) (hpending : s.pendingEntryAudit = some entry) :
    Sound (s.entryPersisted entry) ∧ EntryDurable (s.entryPersisted entry).log := by
  have hdurable : EntryDurable (.recorded entry :: s.log) := entryDurable_recorded (h.pending entry hpending)
  have hduring := h.during
  rw [htransition] at hduring
  refine ⟨⟨h.safe, fun _ => .inl hdurable, fun _ hmem => ?_, h.live, h.authorised, ?_⟩, hdurable⟩
  · cases hmem
  · show During (s.entryPersisted entry) s.transition
    rw [htransition]
    rcases ha with rfl | ⟨operator, reason, rfl⟩
    · exact hduring
    · exact hduring

theorem Sound.persisting (htransition : s.transition = some a) (ha : a.isPersisting = true) :
    s.status.runState = .safeState := by
  have hduring := h.during
  rw [htransition] at hduring
  cases a with
  | entryAudit => exact hduring
  | entryAuditToResume | oldRequestAudit | requestAudit => exact hduring.1
  | _ => cases ha

theorem Sound.persisted (entry : SafeStateAuditEntry) (pendingExitRequestAudit : Option SafeStateAuditEntry)
    (htransition : ∀ operator reason, s.transition ≠ some (.requestAudit operator reason)) :
    Sound { s.persisted entry with pendingExitRequestAudit } := by
  have hdurable : EntryDurable s.log → EntryDurable (.recorded entry :: s.log) := fun hentry => hentry.cons nofun
  have hduring := h.during
  refine ⟨h.safe, fun hsafe => (h.entry hsafe).imp_left hdurable, h.pending, h.live, h.authorised, ?_⟩
  show During _ s.transition
  cases hawait : s.transition with
  | none => trivial
  | some await =>
    rw [hawait] at hduring
    cases await with
    | requestAudit operator reason => exact absurd hawait (htransition operator reason)
    | oldRequestAudit | requestAnchor | exitAnchor | exitAudit => exact ⟨hduring.1, hduring.2.1, hdurable hduring.2.2⟩
    | _ => exact hduring

theorem Sound.audited {ok : Bool} {resume halt action : Outcome} {detail : Text}
    (hstep : s.audited ok resume halt action detail now = some s') : Sound s' := by
  have hduring := h.during
  cases audited_move hstep with
  | entry htransition ha hpending hproceed =>
    obtain ⟨hsound, hdurable⟩ := h.entryPersisted htransition ha hpending
    exact hsound.proceed (fun _ => hdurable) hproceed
  | oldRequest htransition hproceed =>
    rename_i operator reason entry
    rw [htransition] at hduring
    have hsound := h.persisted entry none (fun _ _ => by rw [htransition]; nofun)
    exact hsound.proceed (fun _ => hduring.2.2.cons nofun) hproceed
  | request htransition hsome =>
    rw [htransition] at hduring
    obtain ⟨-, hentry, request, operator, hpending, hkind, hoperator, hblank⟩ := hduring
    obtain rfl := Option.some.inj (hsome.symm.trans hpending)
    rename_i request
    have hdurable : EntryDurable (.recorded request :: s.log) := hentry.cons nofun
    have hrequest : ExitRequested (.recorded request :: s.log) := ⟨request, operator, List.mem_cons_self, hkind, hoperator, hblank⟩
    apply Sound.resumeActuator
    · exact hdurable
    · exact hrequest
    · exact h.pending
    · exact h.authorised
  | refused htransition ha =>
    apply h.finish
    intro hrunning
    cases (h.persisting htransition ha).symm.trans hrunning
  | exited htransition =>
    rw [htransition] at hduring
    obtain ⟨-, hlive, -⟩ := hduring
    refine ⟨fun hsafe => ?_, fun hsafe => ?_, h.pending, fun _ _ => hlive, h.authorised, trivial⟩
    · cases hsafe
    · cases hsafe
  | aborted htransition =>
    rw [htransition] at hduring
    exact Sound.recover hduring.2.2 h.pending h.authorised true _ _ _ _ _ _
  | recovered htransition =>
    rw [htransition] at hduring
    apply Sound.finish
    · split_ifs
      · exact h.persisted _ _ (fun _ _ => by rw [htransition]; nofun)
      · exact h
    · split_ifs <;> exact fun hrunning => absurd hrunning hduring

theorem Sound.queued (calls : List ControllerCall) : Sound { s with calls } := by
  have hduring := h.during
  refine ⟨h.safe, h.entry, h.pending, h.live, h.authorised, ?_⟩
  show During _ s.transition
  cases hawait : s.transition with
  | none => trivial
  | some await =>
    rw [hawait] at hduring
    cases await <;> exact hduring

theorem Sound.step {act : ControllerAct} (hok : s.HaltCompletes act) (hstep : step s act = some s') : Sound s' := by
  cases act with
  | call =>
    cases hstep
    exact h.queued _
  | begins halt action now =>
    unfold SafeStateController.step at hstep
    dsimp only at hstep
    unfold HaltCompletes at hok
    dsimp only at hok
    split at hstep
    next reason consecutiveMisses calls htransition hcalls =>
      cases hstep
      rw [hcalls] at hok
      exact (h.queued calls).enter htransition hok
    next operator reason calls htransition hcalls =>
      cases hstep
      exact (h.queued calls).resume htransition operator reason
    next => cases hstep
  | anchored => exact h.anchored hstep
  | unpended => exact h.unpended hstep
  | audited => exact h.audited hstep

end

end Steps

/-- While no entry fails after the halt, the status is honest and every exit is authorised. -/
theorem reachable_honest {s : SafeStateController} (hs : Reachable step HaltCompletes start s) : Honest s := by
  have hsound : Sound s := Reachable.invariant hs Sound.start fun _ _ _ h hok hstep => h.step hok hstep
  exact ⟨fun _ => hsound.safe, fun hnone hrunning => hsound.live hrunning hnone, hsound.authorised⟩

def operator : Text := "operator".toList

def abortedExit : List ControllerAct :=
  [.call (.enterSafeState [] 3), .begins .returns .returns 0, .anchored [], .audited true .returns .returns .returns [] 1,
    .call (.resume operator []), .begins .returns .returns 2, .unpended 3, .unpended 4, .anchored [], .audited true .returns .returns .returns [] 5,
    .anchored [], .audited false .returns .returns .returns [] 6, .anchored [], .audited false .returns .returns .returns [] 7]

def abortedRun : SafeStateController := (exec (checked step HaltCompletes) start abortedExit).getD start

theorem reachable_honest_aborted : (.resumed ∈ abortedRun.log ∧ abortedRun.status.runState = .safeState) ∧ Honest abortedRun := by
  have hexec : exec (checked step HaltCompletes) start abortedExit = some abortedRun := eq_some_getD (by decide +kernel) _
  exact ⟨by decide +kernel, reachable_honest (Reachable.start.of_exec_checked abortedExit hexec)⟩

def failedEntry : List ControllerAct := [.call (.enterSafeState [] 3), .begins .returns (.throws false) 0]

def failedEntryRun : SafeStateController := (exec step start failedEntry).getD start

/-- The status says that the blueprint is running. -/
theorem failed_entry_halts : ¬ ∀ s, Reachable step (fun _ _ => True) start s → Honest s := by
  intro hhonest
  have hexec : exec step start failedEntry = some failedEntryRun := eq_some_getD (by decide +kernel) _
  have hrun := Reachable.start.of_exec failedEntry (fun _ _ _ => trivial) hexec
  have hlive : failedEntryRun.actuator.halted = false := (hhonest failedEntryRun hrun).live (by decide +kernel) (by decide +kernel)
  have hhalted : failedEntryRun.actuator.halted = true := by decide +kernel
  cases hhalted.symm.trans hlive

end SafeStateController

end OxScada.Blueprint
