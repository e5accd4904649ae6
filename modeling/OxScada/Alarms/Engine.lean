import OxScada.Alarms.Rules

/-! The correlation engine: alarms wait for peers or stand in groups, every open group has a root cause, and the
other members of an open group may be suppressed. What an operation does besides is written in effects: what it
emits, which touch times it sets or forgets, and what is counted. -/

namespace OxScada.Alarms
open OxScada.Bytes OxScada.Js

inductive AlarmGroupState where
  | opened | closed
  deriving DecidableEq, Repr

inductive CloseReason where
  | rootCauseCleared | idleTimeout | evicted
  deriving DecidableEq, Repr

structure SuppressionPolicy where
  enabled : Bool := false
  neverSuppressAtOrAbove : AlarmSeverity := .critical
  unsuppressOnRootClear : Bool := true
  deriving DecidableEq, Repr

structure AlarmGroup where
  id : Text
  state : AlarmGroupState
  alarms : List CorrelatedAlarm
  alarmIds : List Text
  rootCauseAlarmId : Text
  formedByRuleId : Text
  joinedVia : List (Text × Text)
  suppressedAlarmIds : List Text
  maxSeverity : AlarmSeverity
  createdAt : ℚ
  lastAlarmAt : ℚ
  closedAt : Option ℚ := none
  closeReason : Option CloseReason := none
  deriving DecidableEq, Repr

inductive EngineEffect where
  | alarmIngested
  | groupTouched (groupId : Text)
  | pendingTouched (alarmId : Text)
  | pendingForgotten (alarmId : Text)
  | alarmUpdated (alarm : CorrelatedAlarm)
  | alarmSuppressed (groupId alarmId rootCauseAlarmId : Text)
  | alarmsUnsuppressed (groupId : Text) (alarmIds : List Text)
  | rootCauseChanged (groupId previous current : Text)
  | groupCreated (group : AlarmGroup)
  | groupUpdated (group : AlarmGroup)
  | groupClosed (group : AlarmGroup)
  | groupEvicted (groupId : Text) (alarmIds : List Text)
  | pendingPruned (alarmIds : List Text)
  deriving DecidableEq, Repr

/-- What a clock shows when a group is touched or closed, or an alarm becomes pending. -/
abbrev Clock := Text → ℚ

def rootElectionTimeBucketMs : ℚ := 100

def maxSafeInteger : ℕ := 2 ^ 53 - 1

/-- Cleared and shelved alarms find no peers and are no root cause. -/
def CorrelatedAlarm.eligible (alarm : CorrelatedAlarm) : Bool := alarm.state ≠ .cleared && alarm.state ≠ .shelved

/-! ### Groups -/

structure RootScore where
  alarm : CorrelatedAlarm
  bucket : ℤ
  dominance : ℕ
  depth : ℕ

/-- The earlier bucket, then the higher dominance, then the higher place, then the smaller id. -/
def RootScore.before (a b : RootScore) : Prop :=
  a.bucket < b.bucket ∨ a.bucket = b.bucket ∧ (b.dominance < a.dominance ∨ a.dominance = b.dominance ∧
    (a.depth < b.depth ∨ a.depth = b.depth ∧ codeUnits a.alarm.id ≤ codeUnits b.alarm.id))

instance : DecidableRel RootScore.before := fun a b => by
  unfold RootScore.before
  infer_instance

def rootScore (topology : EquipmentTopology) (memberEquipment : List Text) (alarm : CorrelatedAlarm) : RootScore where
  alarm := alarm
  bucket := ⌊alarm.timestamp / rootElectionTimeBucketMs⌋
  dominance :=
    match given alarm.equipmentId with
    | some equipmentId => topology.causalDominance equipmentId memberEquipment 8
    | none => 0
  depth :=
    match given alarm.equipmentId with
    | some equipmentId => topology.depth equipmentId
    | none => maxSafeInteger

namespace AlarmGroup

variable (policy : SuppressionPolicy) (topology : EquipmentTopology) (group : AlarmGroup)

def scored : List RootScore :=
  let eligibleAlarms := group.alarms.filter (·.eligible)
  let memberEquipment := (eligibleAlarms.filterMap fun alarm => given alarm.equipmentId).eraseDups
  (eligibleAlarms.map (rootScore topology memberEquipment)).insertionSort RootScore.before

def electRootCause : AlarmGroup :=
  match group.scored topology with
  | [] => group
  | first :: _ => { group with rootCauseAlarmId := first.alarm.id }

def rootChange (elected : AlarmGroup) : List EngineEffect :=
  if elected.rootCauseAlarmId ≠ group.rootCauseAlarmId then [.rootCauseChanged group.id group.rootCauseAlarmId elected.rootCauseAlarmId]
  else []

def unsuppressActiveMembers : AlarmGroup × List Text × List EngineEffect :=
  let restored := (group.alarms.filter fun alarm => alarm.state = .suppressed).map (·.id)
  ({ group with
      alarms := group.alarms.map fun alarm => if alarm.state = .suppressed then { alarm with state := .active } else alarm
      suppressedAlarmIds := [] },
    restored, if restored = [] then [] else [.alarmsUnsuppressed group.id restored])

def shouldSuppress (alarm : CorrelatedAlarm) : Bool :=
  alarm.id ≠ group.rootCauseAlarmId
    && ((group.alarms.find? fun root => root.id = group.rootCauseAlarmId).any fun root => areSitesCompatible topology root alarm)
    && (alarm.state = .active || alarm.state = .suppressed)
    && alarm.severity.rank < policy.neverSuppressAtOrAbove.rank

def suppressEach (groupId rootId : Text) (should : CorrelatedAlarm → Bool) :
    List CorrelatedAlarm → List Text → List CorrelatedAlarm × List Text × List EngineEffect
  | [], ids => ([], ids, [])
  | alarm :: later, ids =>
    if should alarm = false ∧ alarm.state = .suppressed then
      let (alarms, ids, effects) := suppressEach groupId rootId should later (ids.filter fun id => id ≠ alarm.id)
      ({ alarm with state := .active } :: alarms, ids, .alarmsUnsuppressed groupId [alarm.id] :: effects)
    else if alarm.id ∉ ids ∧ should alarm = true then
      let (alarms, ids, effects) := suppressEach groupId rootId should later (ids ++ [alarm.id])
      ({ alarm with state := .suppressed } :: alarms, ids, .alarmSuppressed groupId alarm.id rootId :: effects)
    else
      let (alarms, ids, effects) := suppressEach groupId rootId should later ids
      (alarm :: alarms, ids, effects)

def applySuppression : AlarmGroup × List EngineEffect :=
  if policy.enabled = false then
    let (group, _, effects) := group.unsuppressActiveMembers
    (group, effects)
  else
    let (alarms, ids, effects) := suppressEach group.id group.rootCauseAlarmId (group.shouldSuppress policy topology) group.alarms group.suppressedAlarmIds
    ({ group with alarms, suppressedAlarmIds := ids }, effects)

def closeGroup (clock : Clock) (reason : CloseReason) : AlarmGroup × List EngineEffect :=
  if group.state = .closed then (group, [])
  else
    let (restored, _, effects) := group.unsuppressActiveMembers
    let closed := { restored with state := .closed, closeReason := some reason, closedAt := some (clock group.id) }
    (closed, effects ++ [.groupClosed closed])

def removeSuppressionRecord (alarmId : Text) : AlarmGroup :=
  { group with suppressedAlarmIds := group.suppressedAlarmIds.filter fun id => id ≠ alarmId }

def setMember (alarmId : Text) (change : CorrelatedAlarm → CorrelatedAlarm) : AlarmGroup :=
  { group with alarms := group.alarms.map fun alarm => if alarm.id = alarmId then change alarm else alarm }

def member (alarmId : Text) : Option CorrelatedAlarm := group.alarms.find? fun alarm => alarm.id = alarmId

/-- The group with one more member, before a root cause is elected. -/
def withMember (alarm : CorrelatedAlarm) (rule : CorrelationRule) : AlarmGroup :=
  { group with
    alarms := group.alarms ++ [alarm]
    alarmIds := group.alarmIds ++ [alarm.id]
    joinedVia := group.joinedVia ++ [(alarm.id, rule.id)]
    createdAt := min group.createdAt alarm.timestamp
    lastAlarmAt := max group.lastAlarmAt alarm.timestamp
    maxSeverity := if group.maxSeverity.rank < alarm.severity.rank then alarm.severity else group.maxSeverity }

end AlarmGroup

def byTimestamp (a b : CorrelatedAlarm) : CorrelatedAlarm × CorrelatedAlarm := if a.timestamp ≤ b.timestamp then (a, b) else (b, a)

def greatestSeverity (members : List CorrelatedAlarm) : AlarmSeverity :=
  members.foldl (fun greatest a => if greatest.rank < a.severity.rank then a.severity else greatest) .info

def newGroup (alarm peer : CorrelatedAlarm) (rule : CorrelationRule) (groupId : Text) : AlarmGroup :=
  let (first, last) := byTimestamp peer alarm
  { id := groupId
    state := .opened
    alarms := [first, last]
    alarmIds := [first.id, last.id]
    rootCauseAlarmId := first.id
    formedByRuleId := rule.id
    joinedVia := [(peer.id, rule.id), (alarm.id, rule.id)]
    suppressedAlarmIds := []
    maxSeverity := greatestSeverity [first, last]
    createdAt := first.timestamp
    lastAlarmAt := last.timestamp }

/-! ### The state -/

structure CorrelationEngineOptions where
  groupCloseAfterMs : ℕ := 10 * 60 * 1000
  maxGroupSpanMs : ℕ := 30 * 60 * 1000
  maxGroups : ℕ := 1000
  maxPendingAlarms : ℕ := 2000
  maxAlarmsPerGroup : ℕ := 128
  groupCloseAfterMs_pos : 1 ≤ groupCloseAfterMs := by decide
  maxGroupSpanMs_pos : 1 ≤ maxGroupSpanMs := by decide
  maxGroups_pos : 1 ≤ maxGroups := by decide
  maxPendingAlarms_pos : 1 ≤ maxPendingAlarms := by decide
  maxAlarmsPerGroup_pos : 2 ≤ maxAlarmsPerGroup := by decide
  deriving DecidableEq

/-- What decides about later alarms. The index has the group of an alarm, or nothing while it is pending. -/
structure Correlation where
  options : CorrelationEngineOptions
  topology : EquipmentTopology
  rules : CorrelationRulesEngine
  suppressionPolicy : SuppressionPolicy
  groups : List AlarmGroup
  pending : List CorrelatedAlarm
  alarmIndex : Text → Option (Option Text)

inductive IngestAction where
  | joinedGroup | formedGroup | standalone | duplicate
  deriving DecidableEq, Repr

structure IngestResult where
  alarmId : Text
  action : IngestAction
  groupId : Option Text := none
  ruleId : Option Text := none
  suppressed : Bool := false
  isRootCause : Bool := false
  deriving DecidableEq, Repr

structure ClearResult where
  cleared : Bool
  clearedBy : Option Text := none
  groupClosed : Option Text := none
  unsuppressed : List Text := []
  deriving DecidableEq, Repr

structure PolicyRequest where
  enabled : Option Bool := none
  neverSuppressAtOrAbove : Option AlarmSeverity := none
  unsuppressOnRootClear : Option Bool := none
  deriving DecidableEq, Repr

namespace Correlation

variable (localeCompare : Text → Text → ℤ) (clock : Clock) (c : Correlation)

def getGroup (groupId : Text) : Option AlarmGroup := c.groups.find? fun group => group.id = groupId

def put (group : AlarmGroup) : Correlation := { c with groups := c.groups.map fun old => if old.id = group.id then group else old }

def index (alarmId : Text) (place : Option (Option Text)) : Correlation := { c with alarmIndex := Function.update c.alarmIndex alarmId place }

def forget (alarmIds : List Text) : Correlation := { c with alarmIndex := fun id => if id ∈ alarmIds then none else c.alarmIndex id }

def removeFromPending (alarmId : Text) : Correlation := { c with pending := c.pending.eraseP fun alarm => alarm.id = alarmId }

def withinGroupSpan (group : AlarmGroup) (timestamp : ℚ) : Bool :=
  max group.lastAlarmAt timestamp - min group.createdAt timestamp ≤ c.options.maxGroupSpanMs

def joinGroup (alarm : CorrelatedAlarm) (group : AlarmGroup) (rule : CorrelationRule) : Correlation × AlarmGroup × List EngineEffect :=
  let joined := group.withMember alarm rule
  let elected := joined.electRootCause c.topology
  let (settled, effects) := elected.applySuppression c.suppressionPolicy c.topology
  (((c.index alarm.id (some (some group.id))).removeFromPending alarm.id).put settled, settled,
    [.groupTouched group.id, .pendingForgotten alarm.id] ++ joined.rootChange elected ++ effects ++ [.groupUpdated settled])

/-- The state of the loops that admit pending alarms to a group. -/
structure Admission where
  correlation : Correlation
  group : AlarmGroup
  effects : List EngineEffect
  admitted : Bool

def admitCandidate (a : Admission) (candidate : CorrelatedAlarm) : Admission :=
  if a.correlation.options.maxAlarmsPerGroup ≤ a.group.alarmIds.length then a
  else if a.correlation.alarmIndex candidate.id ≠ some none then a
  else if candidate.eligible = false then a
  else if a.correlation.withinGroupSpan a.group candidate.timestamp = false then a
  else
    match a.correlation.rules.evaluateJoin candidate a.group.alarms a.correlation.topology with
    | none => a
    | some rule =>
      let (correlation, group, effects) := a.correlation.joinGroup candidate a.group rule
      ⟨correlation, group, a.effects ++ effects, true⟩

def candidateBefore (a b : CorrelatedAlarm) : Prop := a.timestamp < b.timestamp ∨ a.timestamp = b.timestamp ∧ localeCompare a.id b.id ≤ 0

instance : DecidableRel (candidateBefore localeCompare) := fun a b => by
  unfold candidateBefore
  infer_instance

def candidates : List CorrelatedAlarm := c.pending.insertionSort (candidateBefore localeCompare)

def reconcilePass (c : Correlation) (group : AlarmGroup) : Admission := (c.candidates localeCompare).foldl admitCandidate ⟨c, group, [], false⟩

/-- The passes. A pass that admits an alarm leaves fewer pending, so there are no more passes than these. -/
def reconcileLoop : ℕ → Correlation → AlarmGroup → Correlation × AlarmGroup × List EngineEffect
  | 0, c, group => (c, group, [])
  | fuel + 1, c, group =>
    if group.state = .opened ∧ group.alarmIds.length < c.options.maxAlarmsPerGroup then
      let pass := reconcilePass localeCompare c group
      if pass.admitted then
        let (c, group, effects) := reconcileLoop fuel pass.correlation pass.group
        (c, group, pass.effects ++ effects)
      else (pass.correlation, pass.group, pass.effects)
    else (c, group, [])

def reconcilePending (group : AlarmGroup) : Correlation × AlarmGroup × List EngineEffect := reconcileLoop localeCompare (c.pending.length + 1) c group

def evictGroup (group : AlarmGroup) : Correlation × List EngineEffect :=
  let (_, _, effects) := group.unsuppressActiveMembers
  ({ c.forget group.alarmIds with groups := c.groups.filter fun old => old.id ≠ group.id },
    effects ++ [.groupEvicted group.id group.alarmIds])

def oldestFirst (groups : List AlarmGroup) : List AlarmGroup := groups.insertionSort fun a b => a.lastAlarmAt ≤ b.lastAlarmAt

def evictClosed (c : Correlation) : List AlarmGroup → Correlation × List EngineEffect
  | [] => (c, [])
  | group :: later =>
    if c.groups.length ≤ c.options.maxGroups then (c, [])
    else
      let (c, effects) := c.evictGroup group
      let (c, effects') := evictClosed c later
      (c, effects ++ effects')

def evictAny (c : Correlation) : List AlarmGroup → Correlation × List EngineEffect
  | [] => (c, [])
  | group :: later =>
    if c.groups.length ≤ c.options.maxGroups then (c, [])
    else
      let (closed, effects) := group.closeGroup clock .evicted
      let (c, effects') := c.evictGroup closed
      let (c, effects'') := evictAny c later
      (c, effects ++ effects' ++ effects'')

def enforceGroupCap : Correlation × List EngineEffect :=
  let (c, effects) := evictClosed c (oldestFirst (c.groups.filter fun group => group.state = .closed))
  let (c, effects') := evictAny clock c (oldestFirst c.groups)
  (c, effects ++ effects')

/-- A new group of two, and the group as it is after the cap was enforced. -/
def formGroup (alarm peer : CorrelatedAlarm) (rule : CorrelationRule) (groupId : Text) : Except Text (Correlation × AlarmGroup × List EngineEffect) :=
  if (c.getGroup groupId).isSome then .error ("Correlation group id \"".toList ++ groupId ++ "\" is already in use".toList)
  else
    let indexed := (c.index alarm.id (some (some groupId))).index peer.id (some (some groupId))
    let moved := (indexed.removeFromPending peer.id).removeFromPending alarm.id
    let (settled, effects) := ((newGroup alarm peer rule groupId).electRootCause c.topology).applySuppression c.suppressionPolicy c.topology
    let (kept, effects') := ({ moved with groups := moved.groups ++ [settled] } : Correlation).enforceGroupCap clock
    let last := (kept.getGroup groupId).getD (settled.closeGroup clock .evicted).1
    .ok (kept, last, [.groupTouched groupId, .pendingForgotten peer.id, .pendingForgotten alarm.id] ++ effects ++ effects' ++ [.groupCreated last])

def maxEnabledRuleWindowMs : ℕ := (c.rules.list.filter (·.enabled)).foldl (fun widest rule => max widest rule.config.windowMs) 1000

def prunedEffects (alarmIds : List Text) : List EngineEffect := if alarmIds = [] then [] else [.pendingPruned alarmIds]

/-- The pending alarms that are too old, and then the first ones of too many. -/
def prunePending (referenceMs : ℚ) : Correlation × List EngineEffect :=
  let cutoff := referenceMs - c.maxEnabledRuleWindowMs * 2
  let kept := c.pending.filter fun alarm => cutoff ≤ alarm.timestamp
  let old := c.pending.filter fun alarm => alarm.timestamp < cutoff
  let excess := kept.length - c.options.maxPendingAlarms
  let removedIds := (old ++ kept.take excess).map (·.id)
  ({ c.forget removedIds with pending := kept.drop excess }, prunedEffects removedIds)

def openGroups : List AlarmGroup := (c.groups.filter fun group => group.state = .opened).insertionSort fun a b => b.lastAlarmAt ≤ a.lastAlarmAt

variable (alarm : CorrelatedAlarm)

def joinable : Option (AlarmGroup × CorrelationRule) :=
  c.openGroups.findSome? fun group =>
    if c.options.maxAlarmsPerGroup ≤ group.alarmIds.length then none
    else if c.withinGroupSpan group alarm.timestamp = false then none
    else (c.rules.evaluateJoin alarm group.alarms c.topology).map fun rule => (group, rule)

/-- The last pending alarm that an alarm may pair with, with the rule. -/
def pairable : Option (CorrelatedAlarm × CorrelationRule) :=
  c.pending.reverse.findSome? fun peer =>
    if peer.eligible = false then none
    else if c.options.maxGroupSpanMs < |alarm.timestamp - peer.timestamp| then none
    else (c.rules.evaluatePair alarm peer c.topology).map fun rule => (peer, rule)

def ingestResult (action : IngestAction) (group : AlarmGroup) (rule : CorrelationRule) : IngestResult where
  alarmId := alarm.id
  action := action
  groupId := some group.id
  ruleId := some rule.id
  suppressed := alarm.id ∈ group.suppressedAlarmIds
  isRootCause := group.rootCauseAlarmId = alarm.id

def duplicateResult (alarmId : Text) (place : Option Text) : IngestResult :=
  let group := place.bind fun groupId => if groupId = [] then none else c.getGroup groupId
  { alarmId, action := .duplicate, groupId := place
    suppressed := group.any fun group => alarmId ∈ group.suppressedAlarmIds
    isRootCause := group.any fun group => group.rootCauseAlarmId = alarmId }

/-- An alarm that claims to be suppressed is active: the engine has not suppressed it. -/
def raised (input : CorrelatedAlarm) : CorrelatedAlarm := if input.state = .suppressed then { input with state := .active } else input

/-- The way of a new alarm. The id is the one that a new group would have. -/
def ingest (input : CorrelatedAlarm) (groupId : Text) : Correlation × List EngineEffect × Except Text IngestResult :=
  let alarm := raised input
  match c.alarmIndex alarm.id with
  | some place => (c, [], .ok (c.duplicateResult alarm.id place))
  | none =>
    match c.joinable alarm with
    | some (group, rule) =>
      let (c, group, effects) := c.joinGroup alarm group rule
      let (c, group, effects') := c.reconcilePending localeCompare group
      (c, .alarmIngested :: effects ++ effects', .ok (ingestResult alarm .joinedGroup group rule))
    | none =>
      match c.pairable alarm with
      | some (peer, rule) =>
        match c.formGroup clock alarm peer rule groupId with
        | .error e => (c, [.alarmIngested], .error e)
        | .ok (formed, group, effects) =>
          if (formed.getGroup groupId).isNone then (formed, .alarmIngested :: effects, .ok (ingestResult alarm .formedGroup group rule))
          else
            let (c, group, effects') := formed.reconcilePending localeCompare group
            (c, .alarmIngested :: effects ++ effects', .ok (ingestResult alarm .formedGroup group rule))
      | none =>
        let waiting := { c.index alarm.id (some none) with pending := c.pending ++ [alarm] }
        let (c, effects) := waiting.prunePending alarm.timestamp
        (c, [.alarmIngested, .pendingTouched alarm.id] ++ effects ++ [.alarmUpdated alarm], .ok { alarmId := alarm.id, action := .standalone })

end Correlation

end OxScada.Alarms
