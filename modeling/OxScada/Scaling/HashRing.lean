import OxScada.Edge.MergeLaws
import OxScada.Js.Collation
import OxScada.Order.Clockwise
import OxScada.Order.Keys

/-! The consistent-hash ring. Each node has its points on a circle, and a key belongs to the node of the first point
at or after the hash of the key. -/

namespace OxScada.Scaling
open OxScada.Bytes OxScada.Js OxScada.Order OxScada.Edge

structure RingNodeInput where
  id : Text
  virtualNodes : Option ℚ := none
  deriving DecidableEq, Repr

structure RingNode where
  id : Text
  virtualNodes : ℕ
  virtualNodes_pos : 1 ≤ virtualNodes

structure RingPoint where
  hash : ℕ
  nodeId : Text
  replica : ℕ
  deriving DecidableEq, Repr

structure AssignmentChange where
  key : Text
  previous : Option Text
  current : Text
  deriving DecidableEq, Repr

def positiveInteger (n : ℚ) : Option { m : ℕ // 1 ≤ m } :=
  if h : n.isInt = true ∧ 1 ≤ n.num.toNat then some ⟨n.num.toNat, h.2⟩ else none

section
variable (hash64 : Text → ℕ) (localeCompare : Text → Text → ℤ)

/-- The difference of two hashes has the sign of their order, also as a number. -/
def compareHashes (left right : RingPoint) : ℤ := (left.hash : ℤ) - right.hash

def compareReplicas (left right : RingPoint) : ℤ := (left.replica : ℤ) - right.replica

def comparePoints : RingPoint → RingPoint → ℤ :=
  thenBy (thenBy compareHashes fun left right => localeCompare left.nodeId right.nodeId) compareReplicas

def virtualKey (nodeId : Text) (replica : ℕ) : Text := nodeId ++ '\x00' :: Nat.toDigits 10 replica

def RingNode.points (node : RingNode) : List RingPoint :=
  (List.range node.virtualNodes).map fun replica => ⟨hash64 (virtualKey node.id replica), node.id, replica⟩

def rebuild (nodes : List RingNode) : List RingPoint := (nodes.flatMap (·.points hash64)).insertionSort (Sorts (comparePoints localeCompare))

/-- The ring. Its points are those of its nodes, and each id is that of one node. -/
structure ConsistentHashRing where
  nodes : List RingNode
  points : List RingPoint
  defaultVirtualNodes : { m : ℕ // 1 ≤ m }
  ids : (nodes.map (·.id)).Nodup
  rebuilt : points = rebuild hash64 localeCompare nodes

end

theorem compares_of_localeOrder {localeCompare : Text → Text → ℤ} (h : LocaleOrder localeCompare) : Compares localeCompare :=
  ⟨fun s t => (h.swap t s).symm, h.trans⟩

namespace ConsistentHashRing

variable {hash64 : Text → ℕ} {localeCompare : Text → Text → ℤ} (ring : ConsistentHashRing hash64 localeCompare)

def setNode (nodes : List RingNode) (node : RingNode) : List RingNode :=
  if nodes.any (·.id = node.id) then nodes.map fun old => if old.id = node.id then node else old else nodes ++ [node]

theorem setNode_ids {nodes : List RingNode} (h : (nodes.map (·.id)).Nodup) (node : RingNode) : ((setNode nodes node).map (·.id)).Nodup := by
  unfold setNode
  split_ifs with hthere
  · have hsame : (nodes.map fun old => if old.id = node.id then node else old).map (·.id) = nodes.map (·.id) := by
      rw [List.map_map]
      refine List.map_congr_left fun old _ => ?_
      show (ite _ node old).id = old.id
      split_ifs with hid
      · exact hid.symm
      · rfl
    rwa [hsame]
  · have hnew : node.id ∉ nodes.map (·.id) := by simpa using hthere
    rw [List.map_append]
    exact h.append (List.nodup_singleton _) (List.disjoint_singleton.mpr hnew)

def add (input : RingNodeInput) : Except Text (ConsistentHashRing hash64 localeCompare) :=
  if isBlank input.id then .error "ring node id cannot be empty".toList
  else
    match positiveInteger (input.virtualNodes.getD ring.defaultVirtualNodes.1) with
    | none => .error ("virtualNodes for ".toList ++ input.id ++ " must be a positive integer".toList)
    | some ⟨virtualNodes, hpos⟩ =>
      let nodes := setNode ring.nodes ⟨input.id, virtualNodes, hpos⟩
      .ok ⟨nodes, rebuild hash64 localeCompare nodes, ring.defaultVirtualNodes, setNode_ids ring.ids _, rfl⟩

def create (nodes : List RingNodeInput) (defaultVirtualNodes : ℚ) : Except Text (ConsistentHashRing hash64 localeCompare) :=
  match positiveInteger defaultVirtualNodes with
  | none => .error "defaultVirtualNodes must be a positive integer".toList
  | some defaultVirtualNodes => nodes.foldlM add ⟨[], [], defaultVirtualNodes, List.nodup_nil, rfl⟩

def remove (nodeId : Text) : ConsistentHashRing hash64 localeCompare × Bool :=
  if ring.nodes.any (·.id = nodeId) then
    let nodes := ring.nodes.filter fun node => node.id ≠ nodeId
    (⟨nodes, rebuild hash64 localeCompare nodes, ring.defaultVirtualNodes, ring.ids.sublist (List.filter_sublist.map _), rfl⟩, true)
  else (ring, false)

def owner (key : Text) : Except Text Text :=
  match ring.points with
  | [] => .error "cannot assign a key without gateway nodes".toList
  | first :: later =>
    let points := first :: later
    let target := hash64 key
    let low := lowerBound (fun middle => points[middle]?.any fun point => point.hash < target) points.length 0 points.length
    .ok (points.getD (if low = points.length then 0 else low) first).nodeId

def changes (previous : Text → Option Text) : List Text → Except Text (List AssignmentChange)
  | [] => .ok []
  | key :: later => do
    let current ← ring.owner key
    let rest ← changes previous later
    if previous key ≠ some current then .ok (⟨key, previous key, current⟩ :: rest) else .ok rest

def rebalance (keys : List Text) (previous : Text → Option Text) : Except Text (List AssignmentChange) := do
  let changes ← ring.changes previous keys
  .ok (changes.insertionSort (Sorts fun left right => localeCompare left.key right.key))

/-! ### Points -/

variable {ring} {ring' : ConsistentHashRing hash64 localeCompare} {key nodeId : Text} {point : RingPoint} {input : RingNodeInput}

def pointsOf (hash64 : Text → ℕ) (nodes : Set RingNode) : Set RingPoint := {point | ∃ node ∈ nodes, point ∈ node.points hash64}

theorem nodeId_of_mem {node : RingNode} (h : point ∈ node.points hash64) : point.nodeId = node.id := by
  obtain ⟨replica, -, rfl⟩ := List.mem_map.mp h
  rfl

theorem mem_points : point ∈ ring.points ↔ point ∈ pointsOf hash64 {node | node ∈ ring.nodes} := by
  rw [ring.rebuilt, rebuild, List.mem_insertionSort, List.mem_flatMap]
  rfl

theorem points_ne_nil : ring.points ≠ [] ↔ ring.nodes ≠ [] := by
  constructor
  · intro h hnil
    rw [ring.rebuilt, hnil] at h
    exact h rfl
  · intro h hnil
    obtain ⟨node, hnode⟩ := List.exists_mem_of_ne_nil _ h
    have hmem : (⟨hash64 (virtualKey node.id 0), node.id, 0⟩ : RingPoint) ∈ ring.points :=
      mem_points.mpr ⟨node, hnode, List.mem_map.mpr ⟨0, List.mem_range.mpr node.virtualNodes_pos, rfl⟩⟩
    rw [hnil] at hmem
    cases hmem

/-! ### The order of the points -/

theorem comparePoints_compares (h : Compares localeCompare) : Compares (comparePoints localeCompare) :=
  ((Compares.sub fun point : RingPoint => (point.hash : ℤ)).thenBy (h.comap RingPoint.nodeId)).thenBy
    (Compares.sub fun point : RingPoint => (point.replica : ℤ))

theorem comparePoints_distinguishes (h : Distinguishes localeCompare) : Distinguishes (comparePoints localeCompare) := by
  intro x y hzero
  obtain ⟨hfirst, hreplica⟩ := thenBy_eq_zero.mp hzero
  obtain ⟨hhash, hid⟩ := thenBy_eq_zero.mp hfirst
  have hhash' : x.hash = y.hash := by
    unfold compareHashes at hhash
    omega
  have hreplica' : x.replica = y.replica := by
    unfold compareReplicas at hreplica
    omega
  have hid' : x.nodeId = y.nodeId := h _ _ hid
  cases x
  cases y
  simp_all

theorem hash_le_of_sorts {x y : RingPoint} (h : Sorts (comparePoints localeCompare) x y) : x.hash ≤ y.hash := by
  unfold Sorts comparePoints thenBy compareHashes at h
  split_ifs at h <;> omega

abbrev Meets (localeCompare : Text → Text → ℤ) (target : ℕ) : RingPoint → RingPoint → Prop :=
  Clockwise (Sorts (comparePoints localeCompare)) RingPoint.hash target

theorem owner_empty (h : ring.nodes = []) (key : Text) : ring.owner key = .error "cannot assign a key without gateway nodes".toList := by
  have hpoints : ring.points = [] := by
    rw [ring.rebuilt, h]
    rfl
  unfold owner
  rw [hpoints]

theorem owner_first (h : Compares localeCompare) (hne : ring.nodes ≠ []) (key : Text) :
    ∃ point, First (Meets localeCompare (hash64 key)) (pointsOf hash64 {node | node ∈ ring.nodes}) point ∧ ring.owner key = .ok point.nodeId := by
  have htotal := (comparePoints_compares h).total
  have htrans := (comparePoints_compares h).isTrans
  have hsorted : ring.points.Pairwise (Sorts (comparePoints localeCompare)) := by
    rw [ring.rebuilt]
    exact List.pairwise_insertionSort _ _
  have hset : {point | point ∈ ring.points} = pointsOf hash64 {node | node ∈ ring.nodes} := Set.ext fun _ => mem_points
  unfold owner
  cases hpoints : ring.points with
  | nil => exact absurd hpoints (points_ne_nil.mpr hne)
  | cons first later =>
    rw [hpoints] at hsorted hset
    obtain ⟨low, hlow, hle, -, -⟩ := exists_lowerBound (hash64 key) hsorted fun _ _ => hash_le_of_sorts
    dsimp only
    rw [hlow]
    have hin : (if low = (first :: later).length then 0 else low) < (first :: later).length := by
      split_ifs with hend
      · exact Nat.succ_pos _
      · exact lt_of_le_of_ne hle hend
    have hpoint := List.getElem?_eq_getElem hin
    refine ⟨(first :: later)[if low = (first :: later).length then 0 else low], ?_, ?_⟩
    · rw [← hset]
      exact first_of_search hsorted (fun _ _ => hash_le_of_sorts) hlow hpoint
    · rw [List.getD_eq_getElem?_getD, hpoint, Option.getD_some]

/-! ### What moves -/

theorem mem_setNode_new {node other : RingNode} (hnew : node.id ∉ ring.nodes.map (·.id)) :
    other ∈ setNode ring.nodes node ↔ other ∈ ring.nodes ∨ other = node := by
  have habsent : ¬ ring.nodes.any (·.id = node.id) = true := by simpa using hnew
  rw [setNode, if_neg habsent, List.mem_append, List.mem_singleton]

theorem owner_congr (h : Compares localeCompare) (hdistinct : Distinguishes localeCompare)
    (hnodes : ∀ node, node ∈ ring.nodes ↔ node ∈ ring'.nodes) (key : Text) : ring.owner key = ring'.owner key := by
  have hantisymm := (comparePoints_compares h).antisymm (comparePoints_distinguishes hdistinct)
  have hset : {node | node ∈ ring.nodes} = {node | node ∈ ring'.nodes} := Set.ext hnodes
  by_cases hempty : ring.nodes = []
  · have hempty' : ring'.nodes = [] := by
      refine List.eq_nil_iff_forall_not_mem.mpr fun node hnode => ?_
      rw [← hnodes, hempty] at hnode
      cases hnode
    rw [owner_empty hempty, owner_empty hempty']
  · have hne' : ring'.nodes ≠ [] := by
      obtain ⟨node, hnode⟩ := List.exists_mem_of_ne_nil _ hempty
      exact List.ne_nil_of_mem ((hnodes node).mp hnode)
    obtain ⟨point, hpoint, howner⟩ := owner_first h hempty key
    obtain ⟨point', hpoint', howner'⟩ := owner_first h hne' key
    rw [← hset] at hpoint'
    rw [howner, howner', hpoint.unique hpoint']

theorem add_ok (h : ring.add input = .ok ring') : ∃ node : RingNode, node.id = input.id ∧ ring'.nodes = setNode ring.nodes node := by
  unfold add at h
  split_ifs at h
  split at h
  · cases h
  · obtain rfl := Except.ok.inj h
    exact ⟨_, rfl, rfl⟩

theorem owner_add (h : Compares localeCompare) (hdistinct : Distinguishes localeCompare) (hnew : input.id ∉ ring.nodes.map (·.id))
    (hadd : ring.add input = .ok ring') (key : Text) : ring'.owner key = .ok input.id ∨ ring'.owner key = ring.owner key := by
  have hantisymm := (comparePoints_compares h).antisymm (comparePoints_distinguishes hdistinct)
  obtain ⟨node, hid, hnodes⟩ := add_ok hadd
  rw [← hid] at hnew ⊢
  have hmem : ∀ other, other ∈ ring'.nodes ↔ other ∈ ring.nodes ∨ other = node := by
    intro other
    rw [hnodes]
    exact mem_setNode_new hnew
  have hne' : ring'.nodes ≠ [] := List.ne_nil_of_mem ((hmem node).mpr (.inr rfl))
  have hset : pointsOf hash64 {other | other ∈ ring'.nodes} = pointsOf hash64 {other | other ∈ ring.nodes} ∪ {point | point ∈ node.points hash64} := by
    ext point
    constructor
    · rintro ⟨other, hother, hpoint⟩
      rcases (hmem other).mp hother with hother | rfl
      · exact .inl ⟨other, hother, hpoint⟩
      · exact .inr hpoint
    · rintro (⟨other, hother, hpoint⟩ | hpoint)
      · exact ⟨other, (hmem other).mpr (.inl hother), hpoint⟩
      · exact ⟨node, (hmem node).mpr (.inr rfl), hpoint⟩
  obtain ⟨point, hpoint, howner⟩ := owner_first h hne' key
  rw [hset] at hpoint
  rw [howner]
  rcases hpoint.of_union with hown | hother
  · exact .inl (congrArg Except.ok (nodeId_of_mem hown))
  · obtain ⟨other, hmember, -⟩ := hother.1
    obtain ⟨point', hpoint', howner'⟩ := owner_first h (List.ne_nil_of_mem hmember) key
    rw [howner', hother.unique hpoint']
    exact .inr rfl

theorem remove_nodes (nodeId : Text) : (ring.remove nodeId).1.nodes = ring.nodes.filter fun node => node.id ≠ nodeId := by
  unfold remove
  split_ifs with hthere
  · rfl
  · refine (List.filter_eq_self.mpr fun node hnode => ?_).symm
    simp only [List.any_eq_true, not_exists, not_and, decide_eq_true_eq] at hthere
    simpa using hthere node hnode

theorem owner_remove (h : Compares localeCompare) (hdistinct : Distinguishes localeCompare) (howned : ring.owner key ≠ .ok nodeId) :
    (ring.remove nodeId).1.owner key = ring.owner key := by
  have hantisymm := (comparePoints_compares h).antisymm (comparePoints_distinguishes hdistinct)
  have hnodes : (ring.remove nodeId).1.nodes = _ := remove_nodes nodeId
  generalize (ring.remove nodeId).1 = after at hnodes ⊢
  by_cases hempty : ring.nodes = []
  · rw [hempty] at hnodes
    rw [owner_empty hempty, owner_empty hnodes]
  · obtain ⟨point, hpoint, howner⟩ := owner_first h hempty key
    have hother : point.nodeId ≠ nodeId := fun hsame => howned (by rw [howner, hsame])
    obtain ⟨node, hnode, hmember⟩ := hpoint.1
    have hkept : node ∈ after.nodes := by
      rw [hnodes, List.mem_filter, ← nodeId_of_mem hmember]
      exact ⟨hnode, by simpa using hother⟩
    have hfewer : pointsOf hash64 {node | node ∈ after.nodes} ⊆ pointsOf hash64 {node | node ∈ ring.nodes} := by
      rintro p ⟨other, hin, hp⟩
      change other ∈ after.nodes at hin
      rw [hnodes] at hin
      exact ⟨other, List.mem_of_mem_filter hin, hp⟩
    obtain ⟨point', hpoint', howner'⟩ := owner_first h (List.ne_nil_of_mem hkept) key
    rw [howner, howner', (hpoint.of_subset hfewer ⟨node, hkept, hmember⟩).unique hpoint']

theorem owner_ok (h : Compares localeCompare) (hne : ring.nodes ≠ []) (key : Text) : ∃ nodeId, ring.owner key = .ok nodeId := by
  obtain ⟨point, -, howner⟩ := owner_first h hne key
  exact ⟨point.nodeId, howner⟩

/-- The change of a key whose owner is another one than before. -/
def change (ring : ConsistentHashRing hash64 localeCompare) (previous : Text → Option Text) (key : Text) : Option AssignmentChange :=
  match ring.owner key with
  | .ok current => if previous key ≠ some current then some ⟨key, previous key, current⟩ else none
  | .error _ => none

theorem changes_eq (h : Compares localeCompare) (hne : ring.nodes ≠ []) (previous : Text → Option Text) (keys : List Text) :
    ring.changes previous keys = .ok (keys.filterMap (ring.change previous)) := by
  induction keys with
  | nil => rfl
  | cons key later ih =>
    obtain ⟨current, howner⟩ := owner_ok h hne key
    rw [changes, howner, ih, List.filterMap_cons, change, howner]
    dsimp only [bind, Except.bind]
    split_ifs <;> rfl

theorem rebalance_eq (h : Compares localeCompare) (hne : ring.nodes ≠ []) (previous : Text → Option Text) (keys : List Text) :
    ∃ changes, ring.rebalance keys previous = .ok changes ∧ changes.Perm (keys.filterMap (ring.change previous)) ∧
      changes.Pairwise (Sorts fun left right => localeCompare left.key right.key) := by
  have htotal := (h.comap AssignmentChange.key).total
  have htrans := (h.comap AssignmentChange.key).isTrans
  refine ⟨_, ?_, List.perm_insertionSort _ _, List.pairwise_insertionSort _ _⟩
  unfold rebalance
  rw [changes_eq h hne]
  rfl

theorem changes_keys (h : Compares localeCompare) (hne : ring.nodes ≠ []) (previous : Text → Option Text) (keys : List Text) :
    (keys.filterMap (ring.change previous)).map (·.key) = keys.filter fun key => previous key ≠ (ring.owner key).toOption := by
  induction keys with
  | nil => rfl
  | cons key later ih =>
    obtain ⟨current, howner⟩ := owner_ok h hne key
    rw [List.filterMap_cons, List.filter_cons, change, howner, ← ih]
    by_cases hsame : previous key = some current
    · simp [hsame, Except.toOption]
    · simp [hsame, Except.toOption]

theorem change_eq_some {change : AssignmentChange} {previous : Text → Option Text} (h : ring.change previous key = some change) :
    change.previous = previous change.key ∧ ring.owner change.key = .ok change.current := by
  unfold ConsistentHashRing.change at h
  split at h
  · rename_i current howner
    split_ifs at h
    obtain rfl := Option.some.inj h
    exact ⟨rfl, howner⟩
  · cases h

/-- A ring assigns keys by the set of its nodes, and moves only what it must. -/
theorem minimal_movement (h : LocaleOrder localeCompare) (ring : ConsistentHashRing hash64 localeCompare) :
    (∀ ring' : ConsistentHashRing hash64 localeCompare, (∀ node, node ∈ ring.nodes ↔ node ∈ ring'.nodes) → ∀ key, ring.owner key = ring'.owner key) ∧
    (∀ input ring', input.id ∉ ring.nodes.map (·.id) → ring.add input = .ok ring' →
      ∀ key, ring'.owner key = .ok input.id ∨ ring'.owner key = ring.owner key) ∧
    (∀ nodeId key, ring.owner key ≠ .ok nodeId → (ring.remove nodeId).1.owner key = ring.owner key) ∧
    ∀ keys previous, ring.nodes ≠ [] → ∃ changes, ring.rebalance keys previous = .ok changes ∧
      (changes.map (·.key)).Perm (keys.filter fun key => previous key ≠ (ring.owner key).toOption) ∧
      ∀ change ∈ changes, change.previous = previous change.key ∧ ring.owner change.key = .ok change.current := by
  have hcompares := compares_of_localeOrder h
  have hdistinct : Distinguishes localeCompare := h.eq_of_zero
  refine ⟨fun ring' hnodes key => owner_congr hcompares hdistinct hnodes key, fun input ring' hnew hadd key => owner_add hcompares hdistinct hnew hadd key,
    fun nodeId key howned => owner_remove hcompares hdistinct howned, fun keys previous hne => ?_⟩
  obtain ⟨changes, hchanges, hperm, -⟩ := rebalance_eq hcompares hne previous keys
  refine ⟨changes, hchanges, ?_, fun change hchange => ?_⟩
  · rw [← changes_keys hcompares hne]
    exact hperm.map _
  · obtain ⟨key, -, hkey⟩ := List.mem_filterMap.mp (hperm.mem_iff.mp hchange)
    exact change_eq_some hkey

theorem one_replica : 1 ≤ 1 := le_rfl

theorem two_replicas : 1 ≤ 2 := one_le_two

def twoGateways : ConsistentHashRing List.length compareCodeUnits :=
  let nodes : List RingNode := [⟨['b'], 2, two_replicas⟩, ⟨['a'], 1, one_replica⟩]
  ⟨nodes, rebuild List.length compareCodeUnits nodes, ⟨2, two_replicas⟩, by decide, rfl⟩

theorem twoGateways_minimal_movement : (twoGateways.remove ['a']).1.owner ['k'] = twoGateways.owner ['k'] ∨ twoGateways.owner ['k'] = .ok ['a'] := by
  by_cases howned : twoGateways.owner ['k'] = .ok ['a']
  · exact .inr howned
  · exact .inl ((minimal_movement localeOrder_compareCodeUnits twoGateways).2.2.1 ['a'] ['k'] howned)

end ConsistentHashRing

end OxScada.Scaling
