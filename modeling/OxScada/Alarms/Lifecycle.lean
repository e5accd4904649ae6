import OxScada.Alarms.Engine

/-! What happens to alarms after they were raised, the housekeeping, the policy, and the recovery of an exported
state; and the engine with its books. -/

namespace OxScada.Alarms
open OxScada.Bytes OxScada.Js

def PolicyRequest.over (request : PolicyRequest) (policy : SuppressionPolicy) : SuppressionPolicy where
  enabled := request.enabled.getD policy.enabled
  neverSuppressAtOrAbove := request.neverSuppressAtOrAbove.getD policy.neverSuppressAtOrAbove
  unsuppressOnRootClear := request.unsuppressOnRootClear.getD policy.unsuppressOnRootClear

namespace Correlation

variable (clock : Clock) (c : Correlation)
variable (alarmId : Text)

def setPending (change : CorrelatedAlarm → CorrelatedAlarm) : Correlation :=
  { c with pending := c.pending.map fun alarm => if alarm.id = alarmId then change alarm else alarm }

def pendingAlarm : Option CorrelatedAlarm := c.pending.find? fun alarm => alarm.id = alarmId

/-! ### Lifecycle -/

variable (actor : Option Text)

def clear (alarm : CorrelatedAlarm) : CorrelatedAlarm :=
  { alarm with state := .cleared, clearedBy := (given actor).orElse fun _ => alarm.clearedBy }

def clearPending : Correlation × List EngineEffect × ClearResult :=
  match c.pendingAlarm alarmId with
  | none => (c, [], { cleared := false })
  | some alarm =>
    if alarm.state = .cleared then (c, [], { cleared := true, clearedBy := alarm.clearedBy })
    else
      (c.setPending alarmId (clear actor), [.alarmUpdated (clear actor alarm)], { cleared := true, clearedBy := (clear actor alarm).clearedBy })

def clearMember (group : AlarmGroup) (alarmId : Text) (actor : Option Text) : Correlation × List EngineEffect × ClearResult :=
  match group.member alarmId with
  | none => (c, [], { cleared := false })
  | some alarm =>
    if alarm.state = .cleared then
      (c, [], { cleared := true, clearedBy := alarm.clearedBy, groupClosed := if group.state = .closed then some group.id else none })
    else
      let changed := (group.removeSuppressionRecord alarmId).setMember alarmId (clear actor)
      if group.state = .opened ∧ group.rootCauseAlarmId = alarmId then
        let (restored, unsuppressed, effects) := changed.unsuppressActiveMembers
        let (closed, effects') := restored.closeGroup clock .rootCauseCleared
        (c.put closed, effects ++ effects',
          { cleared := true, clearedBy := (clear actor alarm).clearedBy, groupClosed := some group.id, unsuppressed })
      else (c.put changed, [.groupUpdated changed], { cleared := true, clearedBy := (clear actor alarm).clearedBy })

def alarmCleared : Correlation × List EngineEffect × ClearResult :=
  match c.alarmIndex alarmId with
  | none => (c, [], { cleared := false })
  | some none => c.clearPending alarmId actor
  | some (some groupId) =>
    match c.getGroup groupId with
    | none => (c, [], { cleared := false })
    | some group => c.clearMember clock group alarmId actor

def acknowledge (alarm : CorrelatedAlarm) : CorrelatedAlarm :=
  { alarm with state := .acknowledged, acknowledgedBy := (given actor).orElse fun _ => alarm.acknowledgedBy }

/-- What becomes of the alarm that is acknowledged, if it can be. -/
def acknowledgement (alarm : CorrelatedAlarm) : Option Bool :=
  match alarm.state with
  | .acknowledged => some true
  | .active => none
  | .suppressed => none
  | _ => some false

def alarmAcknowledged : Correlation × List EngineEffect × Bool :=
  match c.alarmIndex alarmId with
  | none => (c, [], false)
  | some none =>
    match c.pendingAlarm alarmId with
    | none => (c, [], false)
    | some alarm =>
      match acknowledgement alarm with
      | some done => (c, [], done)
      | none => (c.setPending alarmId (acknowledge actor), [.alarmUpdated (acknowledge actor alarm)], true)
  | some (some groupId) =>
    match c.getGroup groupId with
    | none => (c, [], false)
    | some group =>
      match group.member alarmId with
      | none => (c, [], false)
      | some alarm =>
        match acknowledgement alarm with
        | some done => (c, [], done)
        | none =>
          let changed := (group.removeSuppressionRecord alarmId).setMember alarmId (acknowledge actor)
          (c.put changed, [.groupUpdated changed], true)

/-! ### Housekeeping and policy -/

def eachGroup (treat : AlarmGroup → AlarmGroup × List EngineEffect) : Correlation × List EngineEffect :=
  ({ c with groups := c.groups.map fun group => (treat group).1 }, c.groups.flatMap fun group => (treat group).2)

def isIdle (touchedAt : Text → Option ℚ) (nowMs : ℚ) (group : AlarmGroup) : Bool :=
  group.state = .opened && c.options.groupCloseAfterMs < nowMs - (touchedAt group.id).getD nowMs

def prunePendingByProcessingTime (touchedAt : Text → Option ℚ) (nowMs : ℚ) : Correlation × List EngineEffect :=
  let cutoff := nowMs - c.maxEnabledRuleWindowMs * 2
  let removedIds := (c.pending.filter fun alarm => (touchedAt alarm.id).getD nowMs < cutoff).map (·.id)
  ({ c.forget removedIds with pending := c.pending.filter fun alarm => cutoff ≤ (touchedAt alarm.id).getD nowMs }, prunedEffects removedIds)

def sweep (groupTouchedAt pendingTouchedAt : Text → Option ℚ) (nowMs : ℚ) : Correlation × List EngineEffect × List Text :=
  let closedGroups := (c.groups.filter (c.isIdle groupTouchedAt nowMs)).map (·.id)
  let (closed, effects) := c.eachGroup fun group => if c.isIdle groupTouchedAt nowMs group then group.closeGroup clock .idleTimeout else (group, [])
  let (pruned, effects') := closed.prunePendingByProcessingTime pendingTouchedAt nowMs
  let (kept, effects'') := pruned.enforceGroupCap clock
  (kept, effects ++ effects' ++ effects'', closedGroups)

def resuppress (policy : SuppressionPolicy) (topology : EquipmentTopology) (group : AlarmGroup) : AlarmGroup × List EngineEffect :=
  if group.state = .opened then
    let (settled, effects) := group.applySuppression policy topology
    (settled, effects ++ [.groupUpdated settled])
  else (group, [])

def setSuppressionPolicy (request : PolicyRequest) : Correlation × List EngineEffect × Except Text SuppressionPolicy :=
  if request.unsuppressOnRootClear = some false then
    (c, [], .error "unsuppressOnRootClear must remain enabled for fail-safe closure".toList)
  else
    let policy := request.over c.suppressionPolicy
    let (settled, effects) := ({ c with suppressionPolicy := policy } : Correlation).eachGroup (resuppress policy c.topology)
    (settled, effects, .ok policy)

def reelect (policy : SuppressionPolicy) (topology : EquipmentTopology) (group : AlarmGroup) : AlarmGroup × List EngineEffect :=
  if group.state = .opened then
    let elected := group.electRootCause topology
    let (settled, effects) := elected.applySuppression policy topology
    (settled, group.rootChange elected ++ effects ++ [.groupUpdated settled])
  else (group, [])

def reconcileTopology : Correlation × List EngineEffect := c.eachGroup (reelect c.suppressionPolicy c.topology)

/-! ### Recovery -/

/-- A group as it is taken in: a closed group cannot restore a member later, so all of its members are visible. -/
def recovered (group : AlarmGroup) : AlarmGroup :=
  let ids := group.alarms.map (·.id)
  if group.state = .closed then
    { group with
      alarms := group.alarms.map fun alarm => if alarm.state = .suppressed then { alarm with state := .active } else alarm
      alarmIds := ids
      suppressedAlarmIds := [] }
  else { group with alarmIds := ids, suppressedAlarmIds := group.suppressedAlarmIds.filter fun id => id ∈ ids }

/-- `groups.set`: a group whose id is there takes its place. -/
def setGroup (group : AlarmGroup) : Correlation :=
  if (c.getGroup group.id).isSome then c.put group else { c with groups := c.groups ++ [group] }

def takeGroup (c : Correlation) (input : AlarmGroup) : Correlation :=
  let group := recovered input
  { c.setGroup group with alarmIndex := fun id => if id ∈ group.alarmIds then some (some group.id) else c.alarmIndex id }

def takePending (c : Correlation) (input : CorrelatedAlarm) : Correlation :=
  if (c.alarmIndex input.id).isSome then c
  else { c.index input.id (some none) with pending := c.pending ++ [raised input] }

def hydrate (groups : List AlarmGroup) (pending : List CorrelatedAlarm) : Correlation :=
  pending.foldl takePending (groups.foldl takeGroup { c with groups := [], pending := [], alarmIndex := fun _ => none })

end Correlation

/-! ### The engine -/

structure CorrelationCounters where
  alarmsIngested : ℕ := 0
  groupsCreated : ℕ := 0
  groupsClosed : ℕ := 0
  alarmsSuppressed : ℕ := 0
  alarmsUnsuppressed : ℕ := 0
  deriving DecidableEq, Repr

/-- What is counted and when groups and pending alarms were last touched. -/
structure Books where
  groupLastTouchedAt : Text → Option ℚ := fun _ => none
  pendingLastTouchedAt : Text → Option ℚ := fun _ => none
  metrics : CorrelationCounters := {}
  suppressionCountedAlarmIds : Finset Text := ∅

namespace Books

variable (clock : Clock) (b : Books)

def countSuppressed (alarmId : Text) : Books :=
  if alarmId ∈ b.suppressionCountedAlarmIds then b
  else { b with
    metrics := { b.metrics with alarmsSuppressed := b.metrics.alarmsSuppressed + 1 }
    suppressionCountedAlarmIds := insert alarmId b.suppressionCountedAlarmIds }

def record (b : Books) : EngineEffect → Books
  | .alarmIngested => { b with metrics := { b.metrics with alarmsIngested := b.metrics.alarmsIngested + 1 } }
  | .groupTouched groupId => { b with groupLastTouchedAt := Function.update b.groupLastTouchedAt groupId (some (clock groupId)) }
  | .pendingTouched alarmId => { b with pendingLastTouchedAt := Function.update b.pendingLastTouchedAt alarmId (some (clock alarmId)) }
  | .pendingForgotten alarmId => { b with pendingLastTouchedAt := Function.update b.pendingLastTouchedAt alarmId none }
  | .pendingPruned alarmIds => { b with pendingLastTouchedAt := fun id => if id ∈ alarmIds then none else b.pendingLastTouchedAt id }
  | .alarmSuppressed _ alarmId _ => b.countSuppressed alarmId
  | .alarmsUnsuppressed _ alarmIds =>
    { b with metrics := { b.metrics with alarmsUnsuppressed := b.metrics.alarmsUnsuppressed + alarmIds.length } }
  | .groupCreated _ => { b with metrics := { b.metrics with groupsCreated := b.metrics.groupsCreated + 1 } }
  | .groupClosed _ => { b with metrics := { b.metrics with groupsClosed := b.metrics.groupsClosed + 1 } }
  | .groupEvicted groupId alarmIds =>
    { b with
      groupLastTouchedAt := Function.update b.groupLastTouchedAt groupId none
      suppressionCountedAlarmIds := b.suppressionCountedAlarmIds.filter fun id => id ∉ alarmIds }
  | _ => b

def recordAll (effects : List EngineEffect) : Books := effects.foldl (record clock) b

end Books

structure AlarmCorrelationEngine extends Correlation where
  books : Books

structure CorrelationEngineState where
  groups : List AlarmGroup
  pending : List CorrelatedAlarm
  metrics : CorrelationCounters
  deriving DecidableEq, Repr

namespace AlarmCorrelationEngine

variable (localeCompare : Text → Text → ℤ) (clock : Clock) (e : AlarmCorrelationEngine)

def create (options : CorrelationEngineOptions) (topology : EquipmentTopology) (rules : CorrelationRulesEngine) (policy : PolicyRequest) :
    Except Text AlarmCorrelationEngine :=
  if policy.unsuppressOnRootClear = some false then .error "unsuppressOnRootClear must remain enabled for fail-safe closure".toList
  else .ok {
    options, topology, rules, suppressionPolicy := policy.over {}, groups := [], pending := [], alarmIndex := fun _ => none, books := {} }

def after (c : Correlation) (effects : List EngineEffect) : AlarmCorrelationEngine := ⟨c, e.books.recordAll clock effects⟩

def ingest (input : CorrelatedAlarm) (groupId : Text) : AlarmCorrelationEngine × Except Text IngestResult :=
  let (c, effects, result) := e.toCorrelation.ingest localeCompare clock input groupId
  (e.after clock c effects, result)

def sweep (nowMs : ℚ) : AlarmCorrelationEngine × List Text :=
  let (c, effects, closedGroups) := e.toCorrelation.sweep clock e.books.groupLastTouchedAt e.books.pendingLastTouchedAt nowMs
  (e.after clock c effects, closedGroups)

def reconcileTopology : AlarmCorrelationEngine :=
  let (c, effects) := e.toCorrelation.reconcileTopology
  e.after clock c effects

def exportState : CorrelationEngineState := ⟨e.groups, e.pending, e.books.metrics⟩

/-- Everything is touched when it is taken in, and what is suppressed has been counted. -/
def hydrate (state : CorrelationEngineState) (now : ℚ) : AlarmCorrelationEngine :=
  let c := e.toCorrelation.hydrate state.groups state.pending
  ⟨c, {
    groupLastTouchedAt := fun id => if id ∈ c.groups.map (·.id) then some now else none
    pendingLastTouchedAt := fun id => if id ∈ c.pending.map (·.id) then some now else none
    metrics := state.metrics
    suppressionCountedAlarmIds := (state.groups.flatMap fun group => (Correlation.recovered group).suppressedAlarmIds).toFinset }⟩

end AlarmCorrelationEngine

end OxScada.Alarms
