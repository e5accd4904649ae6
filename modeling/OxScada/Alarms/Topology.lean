import Mathlib
import OxScada.Js.Text

/-! The equipment of a plant: what contains what, and what acts on what downstream. Containment has no cycles,
and a walk along the causal edges stops where it was before. -/

namespace OxScada.Alarms
open OxScada.Bytes

structure EquipmentNode where
  equipmentId : Text
  parentId : Option Text := none
  causalDownstream : List Text := []
  siteId : Option Text := none
  deriving DecidableEq, Repr

def given (text : Option Text) : Option Text := text.filter fun t => t ≠ []

structure EquipmentTopology where
  nodes : List EquipmentNode := []
  maxNodes : ℕ := 5000
  deriving DecidableEq, Repr

def maxTraversalDepth : ℕ := 64

namespace EquipmentTopology

variable (topology : EquipmentTopology)
variable (equipmentId : Text)

def get : Option EquipmentNode := topology.nodes.find? fun node => node.equipmentId = equipmentId

def parentOf : Option Text := (topology.get equipmentId).bind fun node => given node.parentId

def downstreamOf : List Text := ((topology.get equipmentId).map (·.causalDownstream)).getD []

/-! ### Edits -/

def set (node : EquipmentNode) : EquipmentTopology :=
  if (topology.get node.equipmentId).isSome then
    { topology with nodes := topology.nodes.map fun old => if old.equipmentId = node.equipmentId then node else old }
  else { topology with nodes := topology.nodes ++ [node] }

def remove : EquipmentTopology :=
  { topology with nodes := topology.nodes.filter fun node => node.equipmentId ≠ equipmentId }

/-- The walk up to the root, which ends after as many steps as there are nodes. -/
def parentCycleFrom (startId : Text) : ℕ → Text → List Text → Bool
  | 0, _, _ => false
  | fuel + 1, current, visited =>
    match topology.parentOf current with
    | none => false
    | some parentId => current ∈ visited || parentId = startId || parentCycleFrom startId fuel parentId (current :: visited)

def hasParentCycle (startId : Text) : Bool := topology.parentCycleFrom startId (topology.nodes.length + 1) startId []

def upsert (node : EquipmentNode) : Except Text EquipmentTopology :=
  if (topology.get node.equipmentId).isNone ∧ topology.maxNodes ≤ topology.nodes.length then
    .error ("Equipment topology limit of ".toList ++ Nat.toDigits 10 topology.maxNodes ++ " nodes reached".toList)
  else
    let stored := { node with causalDownstream := node.causalDownstream.eraseDups.filter fun id => id ≠ node.equipmentId }
    if (topology.set stored).hasParentCycle node.equipmentId then
      .error ("Equipment \"".toList ++ node.equipmentId ++ "\": parentId \"".toList ++ node.parentId.getD "undefined".toList ++
        "\" would create a hierarchy cycle".toList)
    else .ok (topology.set stored)

def upsertMany (nodes : List EquipmentNode) : Except Text EquipmentTopology := nodes.foldlM upsert topology

/-! ### Containment -/

def depthFrom : ℕ → Text → List Text → ℕ
  | 0, _, _ => 0
  | fuel + 1, current, visited =>
    match topology.parentOf current with
    | none => 0
    | some parentId => if parentId ∈ visited then 0 else depthFrom fuel parentId (parentId :: visited) + 1

def depth : ℕ := topology.depthFrom maxTraversalDepth equipmentId [equipmentId]

/-- What is above a node and how many steps up, nearest first. -/
def ancestorsFrom : ℕ → Text → List (Text × ℕ) → List (Text × ℕ)
  | 0, _, found => found
  | fuel + 1, current, found =>
    match topology.parentOf current with
    | none => found
    | some parentId =>
      if parentId ∈ found.map (·.1) then found else ancestorsFrom fuel parentId (found ++ [(parentId, found.length)])

def ancestorDepths : List (Text × ℕ) := topology.ancestorsFrom maxTraversalDepth equipmentId [(equipmentId, 0)]

def depthAmong (ancestors : List (Text × ℕ)) (ancestor : Text) : Option ℕ :=
  (ancestors.find? fun entry => entry.1 = ancestor).map (·.2)

def nearer (ancestors : List (Text × ℕ)) (best : Option ℕ) (entry : Text × ℕ) : Option ℕ :=
  match depthAmong ancestors entry.1 with
  | none => best
  | some db =>
    match best with
    | none => some (max entry.2 db)
    | some nearest => if max entry.2 db < nearest then some (max entry.2 db) else some nearest

def hierarchyDistance (a b : Text) : Option ℕ :=
  if a = b then some 0 else (topology.ancestorDepths a).foldl (nearer (topology.ancestorDepths b)) none

def isHierarchyRelated (a b : Text) (maxDistance : ℕ) : Bool :=
  match topology.hierarchyDistance a b with
  | none => false
  | some distance => distance ≤ maxDistance

/-! ### Causes -/

/-- The targets of one hop: nothing where the one that is looked for is among them, else what was visited and what is new. -/
def expand (goal : Text) : List Text → List Text → List Text → Option (List Text × List Text)
  | [], visited, next => some (visited, next)
  | target :: targets, visited, next =>
    if target = goal then none
    else if target ∈ visited then expand goal targets visited next
    else expand goal targets (visited ++ [target]) (next ++ [target])

def reaches (goal : Text) : ℕ → List Text → List Text → Bool
  | 0, _, _ => false
  | hops + 1, frontier, visited =>
    if frontier = [] then false
    else
      match expand goal (frontier.flatMap topology.downstreamOf) visited [] with
      | none => true
      | some (visited, next) => reaches goal hops next visited

def isCausallyReachable (source target : Text) (maxHops : ℕ) : Bool :=
  if source = target then false
  else if (topology.get source).isNone then false
  else topology.reaches target maxHops [source] [source]

def isCausallyRelated (a b : Text) (maxHops : ℕ) : Bool := topology.isCausallyReachable a b maxHops || topology.isCausallyReachable b a maxHops

def causalDominance (candidate : Text) (others : List Text) (maxHops : ℕ) : ℕ :=
  others.countP fun other => other ≠ candidate && topology.isCausallyReachable candidate other maxHops

end EquipmentTopology

end OxScada.Alarms
