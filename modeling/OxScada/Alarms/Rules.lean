import OxScada.Alarms.Topology

/-! The rules by which alarms belong together. An alarm belongs to a group when a rule relates it to some member,
and to no group with a member at another site. -/

namespace OxScada.Alarms
open OxScada.Bytes
open OxScada.Js (codeUnits)

inductive AlarmSeverity where
  | critical | high | medium | low | info
  deriving DecidableEq, Repr

def AlarmSeverity.rank : AlarmSeverity → ℕ
  | .critical => 4
  | .high => 3
  | .medium => 2
  | .low => 1
  | .info => 0

inductive AlarmLifecycleState where
  | active | acknowledged | cleared | shelved | suppressed
  deriving DecidableEq, Repr

structure CorrelatedAlarm where
  id : Text
  tagId : Text := []
  equipmentId : Option Text := none
  siteId : Option Text := none
  processArea : Option Text := none
  severity : AlarmSeverity := .medium
  state : AlarmLifecycleState := .active
  timestamp : ℚ
  acknowledgedBy : Option Text := none
  clearedBy : Option Text := none
  deriving DecidableEq, Repr

inductive TemporalScope where
  | sameTag | sameEquipment | processArea
  deriving DecidableEq, Repr

inductive RuleConfig where
  | causal (windowMs maxHops : ℕ)
  | hierarchy (windowMs maxDistance : ℕ)
  | temporal (windowMs : ℕ) (scope : TemporalScope)
  deriving DecidableEq, Repr

def RuleConfig.windowMs : RuleConfig → ℕ
  | .causal windowMs _ => windowMs
  | .hierarchy windowMs _ => windowMs
  | .temporal windowMs _ => windowMs

structure CorrelationRule where
  id : Text
  name : Text
  enabled : Bool
  priority : ℕ
  config : RuleConfig
  deriving DecidableEq, Repr

def defaultRules : List CorrelationRule :=
  [⟨"default-causal".toList, "Causal chain (topology causalDownstream, transitive)".toList, true, 10, .causal 30000 5⟩,
    ⟨"default-hierarchy".toList, "Equipment hierarchy (common ancestor)".toList, true, 20, .hierarchy 10000 2⟩,
    ⟨"default-tag-chatter".toList, "Same-tag chatter".toList, true, 30, .temporal 5000 .sameTag⟩,
    ⟨"default-equipment-burst".toList, "Same-equipment burst".toList, true, 40, .temporal 5000 .sameEquipment⟩]

def maxRuleWindowMs : ℕ := 24 * 60 * 60 * 1000

def maxTopologyDistance : ℕ := 64

def validateRule (rule : CorrelationRule) : Option Text :=
  if rule.id = [] ∨ 128 < (codeUnits rule.id).length then some "id must contain 1..128 characters".toList
  else if rule.name = [] ∨ 256 < (codeUnits rule.name).length then some "name must contain 1..256 characters".toList
  else if 10000 < rule.priority then some "priority must be an integer between 0 and 10000".toList
  else if rule.config.windowMs < 1 ∨ maxRuleWindowMs < rule.config.windowMs then
    some ("config.windowMs must be an integer between 1 and ".toList ++ Nat.toDigits 10 maxRuleWindowMs)
  else
    match rule.config with
    | .causal _ maxHops =>
      if maxHops < 1 ∨ maxTopologyDistance < maxHops then
        some ("causal rule requires integer config.maxHops between 1 and ".toList ++ Nat.toDigits 10 maxTopologyDistance)
      else none
    | .hierarchy _ maxDistance =>
      if maxDistance < 1 ∨ maxTopologyDistance < maxDistance then
        some ("hierarchy rule requires integer config.maxDistance between 1 and ".toList ++ Nat.toDigits 10 maxTopologyDistance)
      else none
    | .temporal _ _ => none

/-! ### Sites -/

structure EffectiveSite where
  siteId : Option Text
  conflict : Bool
  deriving DecidableEq, Repr

variable (topology : EquipmentTopology)

def effectiveSite (alarm : CorrelatedAlarm) : EffectiveSite :=
  let alarmSite := given alarm.siteId
  let topologySite := (given alarm.equipmentId).bind fun equipmentId => (topology.get equipmentId).bind fun node => given node.siteId
  match alarmSite, topologySite with
  | some a, some t => if a = t then ⟨some a, false⟩ else ⟨none, true⟩
  | some a, none => ⟨some a, false⟩
  | none, t => ⟨t, false⟩

def areSitesCompatible (a b : CorrelatedAlarm) : Bool :=
  let siteA := effectiveSite topology a
  let siteB := effectiveSite topology b
  if siteA.conflict || siteB.conflict then false else siteA.siteId = siteB.siteId

/-! ### Rules -/

def temporalScopeMatches (scope : TemporalScope) (a b : CorrelatedAlarm) : Bool :=
  match scope with
  | .sameTag => a.tagId ≠ [] && a.tagId = b.tagId
  | .sameEquipment => (given a.equipmentId).isSome && a.equipmentId = b.equipmentId
  | .processArea => (given a.processArea).isSome && a.processArea = b.processArea

def bothOnEquipment (related : Text → Text → Bool) (a b : CorrelatedAlarm) : Bool :=
  match given a.equipmentId, given b.equipmentId with
  | some equipmentA, some equipmentB => related equipmentA equipmentB
  | _, _ => false

def matchesRulePair (rule : CorrelationRule) (alarm other : CorrelatedAlarm) : Bool :=
  if areSitesCompatible topology alarm other = false then false
  else if rule.config.windowMs < |alarm.timestamp - other.timestamp| then false
  else
    match rule.config with
    | .causal _ maxHops => bothOnEquipment (fun a b => topology.isCausallyRelated a b maxHops) alarm other
    | .hierarchy _ maxDistance => bothOnEquipment (fun a b => topology.isHierarchyRelated a b maxDistance) alarm other
    | .temporal _ scope => temporalScopeMatches scope alarm other

structure CorrelationRulesEngine where
  rules : List CorrelationRule := defaultRules
  maxRules : ℕ := 1000
  deriving DecidableEq, Repr

namespace CorrelationRulesEngine

variable (engine : CorrelationRulesEngine)

def get (id : Text) : Option CorrelationRule := engine.rules.find? fun rule => rule.id = id

def set (rule : CorrelationRule) : CorrelationRulesEngine :=
  if (engine.get rule.id).isSome then { engine with rules := engine.rules.map fun old => if old.id = rule.id then rule else old }
  else { engine with rules := engine.rules ++ [rule] }

def upsert (rule : CorrelationRule) : Except Text CorrelationRulesEngine :=
  match validateRule rule with
  | some error => .error ("Invalid rule \"".toList ++ rule.id ++ "\": ".toList ++ error)
  | none =>
    if (engine.get rule.id).isNone ∧ engine.maxRules ≤ engine.rules.length then
      .error ("Rule limit of ".toList ++ Nat.toDigits 10 engine.maxRules ++ " reached".toList)
    else .ok (engine.set rule)

def remove (id : Text) : CorrelationRulesEngine := { engine with rules := engine.rules.filter fun rule => rule.id ≠ id }

def setEnabled (id : Text) (enabled : Bool) : CorrelationRulesEngine :=
  { engine with rules := engine.rules.map fun rule => if rule.id = id then { rule with enabled } else rule }

def list : List CorrelationRule := engine.rules.insertionSort fun a b => a.priority ≤ b.priority

def enabledRules : List CorrelationRule := engine.list.filter (·.enabled)

/-- The first rule that relates the alarm to some member, all members being at its site. -/
def evaluateJoin (alarm : CorrelatedAlarm) (members : List CorrelatedAlarm) (topology : EquipmentTopology) : Option CorrelationRule :=
  if members.any fun member => areSitesCompatible topology alarm member = false then none
  else engine.enabledRules.find? fun rule => members.any fun member => matchesRulePair topology rule alarm member

def evaluatePair (alarm other : CorrelatedAlarm) (topology : EquipmentTopology) : Option CorrelationRule :=
  engine.enabledRules.find? fun rule => matchesRulePair topology rule alarm other

end CorrelationRulesEngine

end OxScada.Alarms
