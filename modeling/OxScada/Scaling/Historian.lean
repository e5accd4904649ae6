import OxScada.Order.StableSort
import OxScada.Scaling.HashRing

/-! The partitioned historian. Points go to the partition of their tag, and a query asks the partitions that can hold
what it wants. The partitions are stores that return what was written to them in the order of the writes. -/

namespace OxScada.Scaling
open OxScada.Bytes OxScada.Js OxScada.Order OxScada.Edge

structure HistorianPoint (V : Type) where
  tag : Text
  timestamp : Option ℤ
  value : V
  quality : Option Text := none
  deriving DecidableEq, Repr

structure HistorianQuery where
  start : Option ℤ
  stop : Option ℤ
  tags : Option (List Text) := none
  deriving DecidableEq, Repr

def timeLe : Option ℤ → Option ℤ → Bool
  | some left, some right => left ≤ right
  | _, _ => false

def timeLt : Option ℤ → Option ℤ → Bool
  | some left, some right => left < right
  | _, _ => false

structure HistorianPartition (V : Type) where
  id : Text
  points : List (HistorianPoint V) := []
  deriving DecidableEq, Repr

structure FederatedHistorianResult (V : Type) where
  points : List (HistorianPoint V)
  failures : List (Text × Text)
  deriving DecidableEq, Repr

section
variable {V : Type}

def HistorianQuery.selects (query : HistorianQuery) (point : HistorianPoint V) : Bool :=
  timeLe query.start point.timestamp && timeLe point.timestamp query.stop && query.tags.all fun tags => point.tag ∈ tags

def HistorianPartition.write (partition : HistorianPartition V) (point : HistorianPoint V) : HistorianPartition V :=
  { partition with points := partition.points ++ [point] }

def HistorianPartition.query (partition : HistorianPartition V) (query : HistorianQuery) : List (HistorianPoint V) :=
  partition.points.filter query.selects

/-- The difference of the times, or NaN, which counts as none. -/
def compareTimes (left right : HistorianPoint V) : ℤ :=
  match left.timestamp, right.timestamp with
  | some left, some right => left - right
  | _, _ => 0

def compareHistorianPoints (localeCompare : Text → Text → ℤ) : HistorianPoint V → HistorianPoint V → ℤ :=
  thenBy compareTimes fun left right => localeCompare left.tag right.tag

end

/-- The historian. The ring has the partitions as its nodes. -/
structure PartitionedHistorian (hash64 : Text → ℕ) (localeCompare : Text → Text → ℤ) (V : Type) where
  partitions : List (HistorianPartition V)
  ring : ConsistentHashRing hash64 localeCompare
  ids : (partitions.map (·.id)).Nodup
  ne : partitions ≠ []
  known : ∀ id, id ∈ ring.nodes.map (·.id) ↔ id ∈ partitions.map (·.id)

namespace ConsistentHashRing
variable {hash64 : Text → ℕ} {localeCompare : Text → Text → ℤ} {ring ring' : ConsistentHashRing hash64 localeCompare} {id : Text}

theorem mem_setNode_ids {nodes : List RingNode} {node : RingNode} :
    id ∈ (setNode nodes node).map (·.id) ↔ id ∈ nodes.map (·.id) ∨ id = node.id := by
  unfold setNode
  split_ifs with hthere
  · have hsame : (nodes.map fun old => if old.id = node.id then node else old).map (·.id) = nodes.map (·.id) := by
      rw [List.map_map]
      refine List.map_congr_left fun old _ => ?_
      show (ite _ node old).id = old.id
      split_ifs with hid
      · exact hid.symm
      · rfl
    have hmem : node.id ∈ nodes.map (·.id) := by simpa using hthere
    rw [hsame]
    refine ⟨.inl, ?_⟩
    rintro (h | rfl)
    · exact h
    · exact hmem
  · simp

theorem foldlM_add_ids {inputs : List RingNodeInput} (h : inputs.foldlM add ring = .ok ring') :
    id ∈ ring'.nodes.map (·.id) ↔ id ∈ ring.nodes.map (·.id) ∨ id ∈ inputs.map (·.id) := by
  induction inputs generalizing ring with
  | nil =>
    obtain rfl := Except.ok.inj h
    simp
  | cons input later ih =>
    rw [List.foldlM_cons] at h
    obtain ⟨next, hadd, hrest⟩ := Runs.bind_ok.mp h
    obtain ⟨node, hid, hnodes⟩ := add_ok hadd
    rw [ih hrest, hnodes, mem_setNode_ids, hid, List.map_cons, List.mem_cons, or_assoc]

theorem create_ids {inputs : List RingNodeInput} {defaultVirtualNodes : ℚ} (h : create inputs defaultVirtualNodes = .ok ring) :
    id ∈ ring.nodes.map (·.id) ↔ id ∈ inputs.map (·.id) := by
  unfold create at h
  split at h
  · cases h
  · rw [foldlM_add_ids h]
    simp

theorem owner_mem (hne : ring.nodes ≠ []) (key : Text) : ∃ nodeId ∈ ring.nodes.map (·.id), ring.owner key = .ok nodeId := by
  have hnode : ∀ point ∈ ring.points, point.nodeId ∈ ring.nodes.map (·.id) := by
    intro point hpoint
    obtain ⟨node, hmem, hown⟩ := mem_points.mp hpoint
    exact List.mem_map.mpr ⟨node, hmem, (nodeId_of_mem hown).symm⟩
  unfold owner
  cases hpoints : ring.points with
  | nil => exact absurd hpoints (points_ne_nil.mpr hne)
  | cons first later =>
    have hmem : ∀ low, (first :: later).getD low first ∈ first :: later := by
      intro low
      rw [List.getD_eq_getElem?_getD]
      cases hlow : (first :: later)[low]? with
      | none => exact List.mem_cons_self
      | some point => exact List.mem_of_getElem? hlow
    exact ⟨_, hnode _ (hpoints ▸ hmem _), rfl⟩

end ConsistentHashRing

namespace PartitionedHistorian

variable {hash64 : Text → ℕ} {localeCompare : Text → Text → ℤ} {V : Type}

/-- `new ConsistentHashRing(...)` is given no number of virtual nodes. -/
def defaultVirtualNodes : ℚ := 128

def create (partitions : List (HistorianPartition V)) : Except Text (PartitionedHistorian hash64 localeCompare V) :=
  if hne : partitions = [] then .error "at least one historian partition is required".toList
  else if hids : (partitions.map (·.id)).Nodup then
    let sorted := partitions.insertionSort (Sorts fun left right => localeCompare left.id right.id)
    have hsorted : sorted.Perm partitions := List.perm_insertionSort _ _
    match hring : ConsistentHashRing.create (sorted.map fun partition => ⟨partition.id, none⟩) defaultVirtualNodes with
    | .error error => .error error
    | .ok ring =>
      .ok ⟨sorted, ring, (hsorted.map _).nodup_iff.mpr hids, fun hnil => hne (hsorted.symm.trans (hnil ▸ .refl _)).eq_nil, fun id => by
        rw [ConsistentHashRing.create_ids hring, List.map_map]
        rfl⟩
  else .error "historian partition ids must be unique".toList

variable (historian : PartitionedHistorian hash64 localeCompare V)

/-- The id of `route(tag)`. A ring with nodes has an owner for every key. -/
def route (tag : Text) : Text :=
  match historian.ring.owner tag with
  | .ok id => id
  | .error _ => []

def write (point : HistorianPoint V) : PartitionedHistorian hash64 localeCompare V × Text :=
  let id := historian.route point.tag
  let write := fun partition : HistorianPartition V => if partition.id = id then partition.write point else partition
  have hsame : (historian.partitions.map write).map (·.id) = historian.partitions.map (·.id) := by
    rw [List.map_map]
    refine List.map_congr_left fun partition _ => ?_
    show (ite _ _ _ : HistorianPartition V).id = partition.id
    split_ifs <;> rfl
  (⟨historian.partitions.map write, historian.ring, hsame ▸ historian.ids, fun hnil => historian.ne (List.map_eq_nil_iff.mp hnil),
    fun id => hsame ▸ historian.known id⟩, id)

def writeAll (points : List (HistorianPoint V)) : PartitionedHistorian hash64 localeCompare V :=
  points.foldl (fun historian point => (historian.write point).1) historian

/-! ### Queries -/

/-- The tags by their partitions, each partition where it was met first. -/
def groupTag (groups : List (Text × List Text)) (tag : Text) : List (Text × List Text) :=
  let id := historian.route tag
  if groups.any (·.1 = id) then groups.map fun group => if group.1 = id then (group.1, group.2 ++ [tag]) else group
  else groups ++ [(id, [tag])]

def grouped (tags : List Text) : List (Text × List Text) := tags.eraseDups.foldl historian.groupTag []

def candidates (query : HistorianQuery) : List (Text × HistorianQuery) :=
  match query.tags with
  | some (tag :: later) =>
    ((historian.grouped (tag :: later)).insertionSort (Sorts fun left right => localeCompare left.1 right.1)).map fun group =>
      (group.1, { query with tags := some (sortTexts group.2) })
  | _ => historian.partitions.map fun partition => (partition.id, query)

def answer (candidate : Text × HistorianQuery) : List (HistorianPoint V) :=
  match historian.partitions.find? fun partition => partition.id = candidate.1 with
  | some partition => partition.query candidate.2
  | none => []

/-- A query, where `fails` has the errors of the partitions that do not answer. -/
def query (fails : Text → Option Text) (query : HistorianQuery) : Except Text (FederatedHistorianResult V) :=
  if timeLt query.stop query.start then .error "historian query end must not precede start".toList
  else
    let candidates := historian.candidates query
    let points := candidates.flatMap fun candidate => if (fails candidate.1).isNone then historian.answer candidate else []
    .ok {
      points := points.insertionSort (Sorts (compareHistorianPoints localeCompare))
      failures := candidates.filterMap fun candidate => (fails candidate.1).map fun error => (candidate.1, error) }

def asked (query : HistorianQuery) : List Text := (historian.candidates query).map (·.1)

/-! ### Routes -/

variable {historian} {query : HistorianQuery} {fails : Text → Option Text} {points : List (HistorianPoint V)} {id tag : Text}

theorem owner_route (historian : PartitionedHistorian hash64 localeCompare V) (tag : Text) :
    historian.ring.owner tag = .ok (historian.route tag) ∧ historian.route tag ∈ historian.partitions.map (·.id) := by
  have hne : historian.ring.nodes ≠ [] := by
    obtain ⟨partition, hpartition⟩ := List.exists_mem_of_ne_nil _ historian.ne
    intro hnil
    have hid := (historian.known partition.id).mpr (List.mem_map_of_mem hpartition)
    rw [hnil] at hid
    cases hid
  obtain ⟨nodeId, hnode, howner⟩ := ConsistentHashRing.owner_mem hne tag
  have hroute : historian.route tag = nodeId := by
    rw [route, howner]
  rw [hroute]
  exact ⟨howner, (historian.known nodeId).mp hnode⟩

/-- Each partition has the points of its tags, in the order of the writes. -/
def Holds (historian : PartitionedHistorian hash64 localeCompare V) (points : List (HistorianPoint V)) : Prop :=
  ∀ partition ∈ historian.partitions, partition.points = points.filter fun point => historian.route point.tag = partition.id

theorem write_route (point : HistorianPoint V) (tag : Text) : (historian.write point).1.route tag = historian.route tag := rfl

theorem write_ids (point : HistorianPoint V) : (historian.write point).1.partitions.map (·.id) = historian.partitions.map (·.id) := by
  unfold write
  dsimp only
  rw [List.map_map]
  refine List.map_congr_left fun partition _ => ?_
  show (ite _ _ _ : HistorianPartition V).id = partition.id
  split_ifs <;> rfl

theorem Holds.write (h : historian.Holds points) (point : HistorianPoint V) : (historian.write point).1.Holds (points ++ [point]) := by
  intro partition hpartition
  obtain ⟨old, hold, rfl⟩ := List.mem_map.mp hpartition
  have hpoints := h old hold
  rw [List.filter_append]
  show (ite _ _ _ : HistorianPartition V).points = _
  by_cases hown : old.id = historian.route point.tag
  · simp [write_route, HistorianPartition.write, hown, hpoints]
  · have hother : historian.route point.tag ≠ old.id := fun hsame => hown hsame.symm
    simp [write_route, hown, hother, hpoints]

theorem holds_writeAll {before : List (HistorianPoint V)} (h : historian.Holds before) (points : List (HistorianPoint V)) :
    (historian.writeAll points).Holds (before ++ points) ∧ (historian.writeAll points).route = historian.route ∧
      (historian.writeAll points).partitions.map (·.id) = historian.partitions.map (·.id) := by
  induction points generalizing historian before with
  | nil =>
    rw [List.append_nil]
    exact ⟨h, rfl, rfl⟩
  | cons point later ih =>
    obtain ⟨hholds, hroute, hids⟩ := ih (h.write point)
    rw [List.append_assoc] at hholds
    exact ⟨hholds, hroute, hids.trans (write_ids point)⟩

/-! ### Groups of tags -/

/-- The tags that were met, each in the group of its partition. -/
structure Grouped (historian : PartitionedHistorian hash64 localeCompare V) (met : List Text) (groups : List (Text × List Text)) : Prop where
  ids : (groups.map (·.1)).Nodup
  tags : ∀ group ∈ groups, ∀ tag, tag ∈ group.2 ↔ tag ∈ met ∧ historian.route tag = group.1
  met : ∀ id, id ∈ groups.map (·.1) ↔ ∃ tag ∈ met, historian.route tag = id

theorem Grouped.groupTag {met : List Text} {groups : List (Text × List Text)} (h : historian.Grouped met groups) (tag : Text) :
    historian.Grouped (met ++ [tag]) (historian.groupTag groups tag) := by
  unfold PartitionedHistorian.groupTag
  dsimp only
  split_ifs with hthere
  -- the partition of the tag has a group already
  · have hsame : (groups.map fun group => if group.1 = historian.route tag then (group.1, group.2 ++ [tag]) else group).map (·.1) = groups.map (·.1) := by
      rw [List.map_map]
      refine List.map_congr_left fun group _ => ?_
      show (ite _ _ _ : Text × List Text).1 = group.1
      split_ifs <;> rfl
    have hmem : historian.route tag ∈ groups.map (·.1) := by simpa using hthere
    refine ⟨hsame ▸ h.ids, ?_, fun id => ?_⟩
    · intro group hgroup other
      obtain ⟨old, hold, rfl⟩ := List.mem_map.mp hgroup
      have htags := h.tags old hold other
      split_ifs with hown
      · simp only [List.mem_append, List.mem_singleton, htags]
        constructor
        · rintro (⟨hmet, hroute⟩ | rfl)
          · exact ⟨.inl hmet, hroute⟩
          · exact ⟨.inr rfl, hown.symm⟩
        · rintro ⟨hmet | rfl, hroute⟩
          · exact .inl ⟨hmet, hroute⟩
          · exact .inr rfl
      · rw [htags, List.mem_append, List.mem_singleton]
        constructor
        · exact fun hmet => ⟨.inl hmet.1, hmet.2⟩
        · rintro ⟨hmet | rfl, hroute⟩
          · exact ⟨hmet, hroute⟩
          · exact absurd hroute.symm hown
    · rw [hsame, h.met id]
      constructor
      · rintro ⟨other, hmet, hroute⟩
        exact ⟨other, List.mem_append_left _ hmet, hroute⟩
      · rintro ⟨other, hmet, hroute⟩
        rcases List.mem_append.mp hmet with hmet | hmet
        · exact ⟨other, hmet, hroute⟩
        · rw [List.mem_singleton.mp hmet] at hroute
          exact (h.met id).mp (hroute ▸ hmem)
  · have hnew : historian.route tag ∉ groups.map (·.1) := by simpa using hthere
    refine ⟨?_, ?_, fun id => ?_⟩
    · rw [List.map_append]
      exact h.ids.append (List.nodup_singleton _) (List.disjoint_singleton.mpr hnew)
    · intro group hgroup other
      rw [List.mem_append, List.mem_singleton]
      rcases List.mem_append.mp hgroup with hold | hgroup
      · rw [h.tags group hold other]
        constructor
        · exact fun hmet => ⟨.inl hmet.1, hmet.2⟩
        · rintro ⟨hmet | rfl, hroute⟩
          · exact ⟨hmet, hroute⟩
          · exact absurd (List.mem_map.mpr ⟨group, hold, hroute.symm⟩) hnew
      · rw [List.mem_singleton.mp hgroup, List.mem_singleton]
        constructor
        · rintro rfl
          exact ⟨.inr rfl, rfl⟩
        · rintro ⟨hmet | rfl, hroute⟩
          · exact absurd ((h.met _).mpr ⟨other, hmet, hroute⟩) hnew
          · rfl
    · rw [List.map_append, List.mem_append, h.met id]
      simp only [List.map_cons, List.map_nil, List.mem_singleton, List.mem_append]
      constructor
      · rintro (⟨other, hmet, hroute⟩ | rfl)
        · exact ⟨other, .inl hmet, hroute⟩
        · exact ⟨tag, .inr rfl, rfl⟩
      · rintro ⟨other, hmet | rfl, hroute⟩
        · exact .inl ⟨other, hmet, hroute⟩
        · exact .inr hroute.symm

theorem grouped_foldl {met : List Text} {groups : List (Text × List Text)} (h : historian.Grouped met groups) (tags : List Text) :
    historian.Grouped (met ++ tags) (tags.foldl historian.groupTag groups) := by
  induction tags generalizing met groups with
  | nil =>
    rw [List.append_nil]
    exact h
  | cons tag later ih =>
    have hrest := ih (h.groupTag tag)
    rw [List.append_assoc] at hrest
    exact hrest

theorem grouped_spec (tags : List Text) : historian.Grouped tags.eraseDups (historian.grouped tags) := by
  have hstart : historian.Grouped [] [] := ⟨List.nodup_nil, by simp, by simp⟩
  exact grouped_foldl hstart tags.eraseDups

/-! ### What is asked -/

theorem asked_nodup (historian : PartitionedHistorian hash64 localeCompare V) (query : HistorianQuery) : (historian.asked query).Nodup := by
  unfold asked candidates
  split
  · rename_i tag later _
    rw [List.map_map]
    show (((historian.grouped (tag :: later)).insertionSort _).map (·.1)).Nodup
    rw [((List.perm_insertionSort _ _).map _).nodup_iff]
    exact (grouped_spec (tag :: later)).ids
  · rw [List.map_map]
    exact historian.ids

theorem mem_asked : id ∈ historian.asked query ↔
    id ∈ historian.partitions.map (·.id) ∧ ∀ tags, query.tags = some tags → tags ≠ [] → ∃ tag ∈ tags, historian.route tag = id := by
  unfold asked candidates
  split
  · rename_i tag later htags
    rw [List.map_map]
    show id ∈ ((historian.grouped (tag :: later)).insertionSort _).map (·.1) ↔ _
    rw [((List.perm_insertionSort _ _).map _).mem_iff, (grouped_spec (tag :: later)).met]
    constructor
    · rintro ⟨met, hmet, rfl⟩
      refine ⟨(owner_route historian met).2, fun tags hsame _ => ?_⟩
      rw [htags] at hsame
      obtain rfl := Option.some.inj hsame
      exact ⟨met, List.mem_eraseDups.mp hmet, rfl⟩
    · rintro ⟨-, hsome⟩
      obtain ⟨met, hmet, hroute⟩ := hsome _ htags (List.cons_ne_nil _ _)
      exact ⟨met, List.mem_eraseDups.mpr hmet, hroute⟩
  · rename_i hnone
    rw [List.map_map]
    show id ∈ historian.partitions.map (·.id) ↔ _
    refine ⟨fun hid => ⟨hid, fun tags htags hne => ?_⟩, fun h => h.1⟩
    cases tags with
    | nil => exact absurd rfl hne
    | cons tag later => exact absurd htags (hnone tag later)

theorem answer_eq (h : historian.Holds points) {candidate : Text × HistorianQuery} (hcandidate : candidate ∈ historian.candidates query) :
    historian.answer candidate = (points.filter query.selects).filter fun point => historian.route point.tag = candidate.1 := by
  have hid : candidate.1 ∈ historian.partitions.map (·.id) := (mem_asked.mp (List.mem_map_of_mem hcandidate)).1
  obtain ⟨partition, hpartition, hsame⟩ := List.mem_map.mp hid
  have hfind : historian.partitions.find? (fun partition => partition.id = candidate.1) = some partition :=
    (find?_key historian.ids).mpr ⟨hpartition, hsame⟩
  unfold answer
  rw [hfind]
  show partition.points.filter candidate.2.selects = _
  rw [h partition hpartition, List.filter_filter, List.filter_filter, hsame]
  refine List.filter_congr fun point _ => ?_
  by_cases hroute : historian.route point.tag = candidate.1
  · -- the tags that the partition is asked for are those of the query that go to it
    have htags : (candidate.2.tags.all fun tags => decide (point.tag ∈ tags)) = query.tags.all fun tags => decide (point.tag ∈ tags) := by
      unfold candidates at hcandidate
      split at hcandidate
      · rename_i tag later htags
        obtain ⟨group, hgroup, rfl⟩ := List.mem_map.mp hcandidate
        have hmem := (grouped_spec (tag :: later)).tags group ((List.mem_insertionSort _).mp hgroup) point.tag
        have hsorted : point.tag ∈ sortTexts group.2 ↔ point.tag ∈ tag :: later := by
          unfold sortTexts
          rw [List.mem_insertionSort, hmem, List.mem_eraseDups]
          exact and_iff_left hroute
        rw [htags]
        exact decide_eq_decide.mpr hsorted
      · obtain ⟨_, -, rfl⟩ := List.mem_map.mp hcandidate
        rfl
    have hrange : candidate.2.start = query.start ∧ candidate.2.stop = query.stop := by
      unfold candidates at hcandidate
      split at hcandidate
      · obtain ⟨_, -, rfl⟩ := List.mem_map.mp hcandidate
        exact ⟨rfl, rfl⟩
      · obtain ⟨_, -, rfl⟩ := List.mem_map.mp hcandidate
        exact ⟨rfl, rfl⟩
    unfold HistorianQuery.selects
    rw [htags, hrange.1, hrange.2]
    simp [hroute]
  · simp [hroute]

variable {point : HistorianPoint V}

theorem route_asked (hpoint : query.selects point = true) : historian.route point.tag ∈ historian.asked query := by
  refine mem_asked.mpr ⟨(owner_route historian point.tag).2, fun tags htags _ => ⟨point.tag, ?_, rfl⟩⟩
  unfold HistorianQuery.selects at hpoint
  rw [htags] at hpoint
  simpa using (Bool.and_eq_true_iff.mp hpoint).2

/-- What the partitions that answer have of the matching points. -/
def Kept (historian : PartitionedHistorian hash64 localeCompare V) (fails : Text → Option Text) (query : HistorianQuery)
    (points : List (HistorianPoint V)) : List (HistorianPoint V) :=
  ((⟨[], points⟩ : HistorianPartition V).query query).filter fun point => (fails (historian.route point.tag)).isNone

theorem mem_kept (h : point ∈ historian.Kept fails query points) : query.selects point = true :=
  List.of_mem_filter (List.mem_of_mem_filter h)

theorem answers_eq (h : historian.Holds points) :
    ((historian.candidates query).flatMap fun candidate => if (fails candidate.1).isNone then historian.answer candidate else []) =
      dealt (fun point => historian.route point.tag) (historian.asked query) (historian.Kept fails query points) := by
  unfold dealt asked Kept HistorianPartition.query
  rw [List.flatMap_map]
  refine List.flatMap_congr fun candidate hcandidate => ?_
  rw [List.filter_filter]
  split_ifs with hanswers
  · rw [answer_eq h hcandidate]
    refine List.filter_congr fun point _ => ?_
    by_cases hroute : historian.route point.tag = candidate.1
    · simp [hroute, hanswers]
    · simp [hroute]
  · refine (List.filter_eq_nil_iff.mpr fun point _ hpoint => hanswers ?_).symm
    obtain ⟨hroute, hnone⟩ := Bool.and_eq_true_iff.mp hpoint
    have hsame : historian.route point.tag = candidate.1 := of_decide_eq_true hroute
    rwa [hsame] at hnone

/-! ### The order of the points -/

def compareValid (localeCompare : Text → Text → ℤ) : HistorianPoint V → HistorianPoint V → ℤ :=
  thenBy (fun left right => left.timestamp.getD 0 - right.timestamp.getD 0) fun left right => localeCompare left.tag right.tag

theorem compareValid_compares (h : Compares localeCompare) : Compares (compareValid (V := V) localeCompare) :=
  (Compares.sub fun point : HistorianPoint V => point.timestamp.getD 0).thenBy (h.comap HistorianPoint.tag)

theorem valid_of_selects (h : query.selects point = true) : ∃ time, point.timestamp = some time := by
  unfold HistorianQuery.selects timeLe at h
  cases htime : point.timestamp with
  | none => simp [htime] at h
  | some time => exact ⟨time, rfl⟩

theorem compareHistorianPoints_valid {left right : HistorianPoint V} (hleft : query.selects left = true) (hright : query.selects right = true) :
    compareHistorianPoints localeCompare left right = compareValid localeCompare left right := by
  obtain ⟨time, htime⟩ := valid_of_selects hleft
  obtain ⟨time', htime'⟩ := valid_of_selects hright
  simp [compareHistorianPoints, compareValid, thenBy, compareTimes, htime, htime']

theorem sort_valid {l : List (HistorianPoint V)} (hl : ∀ point ∈ l, query.selects point = true) :
    l.insertionSort (Sorts (compareHistorianPoints localeCompare)) = l.insertionSort (Sorts (compareValid localeCompare)) := by
  have hsame := List.map_insertionSort (r := Sorts (compareHistorianPoints localeCompare)) (s := Sorts (compareValid localeCompare)) id l
    fun left hleft right hright => by
      unfold Sorts
      rw [compareHistorianPoints_valid (hl left hleft) (hl right hright)]
      rfl
  rwa [List.map_id, List.map_id] at hsame

theorem tied_iff (h : Compares localeCompare) {left right : HistorianPoint V} (hleft : query.selects left = true) (hright : query.selects right = true) :
    Tied (Sorts (compareValid localeCompare)) left right ↔ left.timestamp = right.timestamp ∧ localeCompare left.tag right.tag = 0 := by
  obtain ⟨time, htime⟩ := valid_of_selects hleft
  obtain ⟨time', htime'⟩ := valid_of_selects hright
  have hzero : Tied (Sorts (compareValid localeCompare)) left right ↔ compareValid localeCompare left right = 0 := by
    have hswap := (compareValid_compares (V := V) h).swap left right
    have hswap' := (compareValid_compares (V := V) h).swap right left
    unfold Tied Sorts
    omega
  rw [hzero]
  refine thenBy_eq_zero.trans (and_congr_left' ?_)
  rw [htime, htime', Option.getD_some, Option.getD_some, Option.some_inj]
  exact sub_eq_zero

/-! ### One store -/

theorem mem_failures {error : Text} :
    (id, error) ∈ (historian.candidates query).filterMap (fun candidate => (fails candidate.1).map fun error => (candidate.1, error)) ↔
      id ∈ historian.asked query ∧ fails id = some error := by
  unfold asked
  simp only [List.mem_filterMap, Option.map_eq_some_iff, List.mem_map, Prod.mk.injEq]
  constructor
  · rintro ⟨candidate, hcandidate, error', hfails, rfl, rfl⟩
    exact ⟨⟨candidate, hcandidate, rfl⟩, hfails⟩
  · rintro ⟨⟨candidate, hcandidate, rfl⟩, hfails⟩
    exact ⟨candidate, hcandidate, error, hfails, rfl, rfl⟩

theorem failures_nodup : (((historian.candidates query).filterMap fun candidate =>
    (fails candidate.1).map fun error => (candidate.1, error)).map (·.1)).Nodup := by
  refine List.Nodup.sublist ?_ (asked_nodup historian query)
  unfold asked
  induction historian.candidates query with
  | nil => exact List.Sublist.refl _
  | cons candidate later ih =>
    rw [List.filterMap_cons]
    cases hfails : fails candidate.1 with
    | none => exact ih.cons _
    | some error => exact ih.cons_cons _

/-- The points of a query are those that one store returns, as far as their partitions answer. -/
structure Federates (historian : PartitionedHistorian hash64 localeCompare V) (fails : Text → Option Text) (query : HistorianQuery)
    (points : List (HistorianPoint V)) (result : FederatedHistorianResult V) : Prop where
  perm : result.points.Perm (historian.Kept fails query points)
  sorted : result.points.Pairwise (Sorts (compareHistorianPoints localeCompare))
  stable : ∀ time tag, result.points.filter (fun point => point.timestamp = time ∧ point.tag = tag) =
    (historian.Kept fails query points).filter fun point => point.timestamp = time ∧ point.tag = tag
  single_iff : result.points = (historian.Kept fails query points).insertionSort (Sorts (compareHistorianPoints localeCompare)) ↔
    (historian.Kept fails query points).Pairwise fun first next => first.timestamp = next.timestamp → localeCompare first.tag next.tag = 0 →
      (historian.asked query).idxOf (historian.route first.tag) ≤ (historian.asked query).idxOf (historian.route next.tag)
  single : Distinguishes localeCompare →
    result.points = (historian.Kept fails query points).insertionSort (Sorts (compareHistorianPoints localeCompare))
  failures : ∀ id error, (id, error) ∈ result.failures ↔ fails id = some error ∧ id ∈ historian.partitions.map (·.id) ∧
    ∀ tags, query.tags = some tags → tags ≠ [] → ∃ tag ∈ tags, historian.route tag = id
  failures_nodup : (result.failures.map (·.1)).Nodup

theorem Holds.federates (h : historian.Holds points) (hcompare : Compares localeCompare) (fails : Text → Option Text)
    (hrange : timeLt query.stop query.start = false) : ∃ result, historian.query fails query = .ok result ∧ historian.Federates fails query points result := by
  have htotal := (compareValid_compares (V := V) hcompare).total
  have htrans := (compareValid_compares (V := V) hcompare).isTrans
  have hparts : ∀ point ∈ historian.Kept fails query points, historian.route point.tag ∈ historian.asked query :=
    fun point hpoint => route_asked (mem_kept hpoint)
  have hperm := dealt_perm (asked_nodup historian query) hparts
  have hdealt : ∀ point ∈ dealt (fun point => historian.route point.tag) (historian.asked query) (historian.Kept fails query points),
      query.selects point = true := fun point hpoint => mem_kept (hperm.mem_iff.mp hpoint)
  have hiff : (dealt (fun point => historian.route point.tag) (historian.asked query) (historian.Kept fails query points)).insertionSort
        (Sorts (compareHistorianPoints localeCompare)) = (historian.Kept fails query points).insertionSort (Sorts (compareHistorianPoints localeCompare)) ↔
      (historian.Kept fails query points).Pairwise fun first next => first.timestamp = next.timestamp → localeCompare first.tag next.tag = 0 →
        (historian.asked query).idxOf (historian.route first.tag) ≤ (historian.asked query).idxOf (historian.route next.tag) := by
    rw [sort_valid hdealt, sort_valid fun point => mem_kept, insertionSort_dealt_iff (asked_nodup historian query) hparts]
    refine List.Pairwise.iff_of_mem fun {first next} hfirst hnext => ?_
    rw [tied_iff hcompare (mem_kept hfirst) (mem_kept hnext), and_imp]
  unfold PartitionedHistorian.query
  rw [if_neg (by simp [hrange])]
  refine ⟨_, rfl, ?_⟩
  rw [answers_eq h]
  refine ⟨(List.perm_insertionSort _ _).trans hperm, ?_, fun time tag => ?_, hiff, fun hdistinct => hiff.mpr ?_, fun id error => ?_, failures_nodup⟩
  · dsimp only
    have hsorted := List.pairwise_insertionSort (Sorts (compareValid localeCompare))
      (dealt (fun point => historian.route point.tag) (historian.asked query) (historian.Kept fails query points))
    rw [sort_valid hdealt]
    refine hsorted.imp_of_mem fun {first next} hfirst hnext hle => ?_
    have hfirst' := hdealt first ((List.mem_insertionSort _).mp hfirst)
    have hnext' := hdealt next ((List.mem_insertionSort _).mp hnext)
    exact (compareHistorianPoints_valid hfirst' hnext').trans_le hle
  · -- points of one time and one tag are equal for the order, and in one partition
    dsimp only
    rw [insertionSort_filter, dealt_filter]
    · by_cases hin : historian.route tag ∈ historian.asked query
      · refine dealt_one (asked_nodup historian query) hin fun point hpoint => ?_
        have hown := List.of_mem_filter hpoint
        simp only [decide_eq_true_eq] at hown
        rw [hown.2]
      · have hnone : (historian.Kept fails query points).filter (fun point => point.timestamp = time ∧ point.tag = tag) = [] := by
          refine List.filter_eq_nil_iff.mpr fun point hpoint hown => hin ?_
          simp only [decide_eq_true_eq] at hown
          rw [← hown.2]
          exact hparts point hpoint
        rw [hnone]
        exact dealt_eq_nil fun point hpoint => by cases hpoint
    · intro first hfirst next hnext hown hown'
      simp only [decide_eq_true_eq] at hown hown'
      show compareHistorianPoints localeCompare first next ≤ 0
      rw [compareHistorianPoints_valid (hdealt first hfirst) (hdealt next hnext)]
      refine (thenBy_eq_zero.mpr ⟨?_, ?_⟩).le
      · rw [hown.1, hown'.1, sub_self]
      · rw [hown.2, hown'.2]
        exact hcompare.self tag
  · refine List.pairwise_of_forall_mem_list fun first _ next _ _ hzero => ?_
    rw [hdistinct _ _ hzero]
  · rw [mem_failures, mem_asked]
    exact and_comm

/-- A historian that begins empty returns for a query what one store with all the writes returns, sorted in the same
way, but for partitions that do not answer and for the order of points of one time whose tags are not told apart. -/
theorem historian_federates {ids : List Text} (hcompare : Compares localeCompare)
    (hcreate : create (ids.map fun id => (⟨id, []⟩ : HistorianPartition V)) = .ok historian) (points : List (HistorianPoint V))
    (query : HistorianQuery) (fails : Text → Option Text) :
    (timeLt query.stop query.start = true → (historian.writeAll points).query fails query = .error "historian query end must not precede start".toList) ∧
    (timeLt query.stop query.start = false → ∃ result, (historian.writeAll points).query fails query = .ok result ∧
      (historian.writeAll points).Federates fails query points result) := by
  refine ⟨fun hrange => ?_, fun hrange => ?_⟩
  · unfold PartitionedHistorian.query
    rw [if_pos hrange]
  · have hempty : historian.Holds [] := by
      intro partition hpartition
      unfold create at hcreate
      split_ifs at hcreate
      dsimp only at hcreate
      split at hcreate
      · cases hcreate
      · obtain rfl := Except.ok.inj hcreate
        obtain ⟨id, -, rfl⟩ := List.mem_map.mp ((List.mem_insertionSort _).mp hpartition)
        rfl
    exact (holds_writeAll hempty points).1.federates hcompare fails hrange

/-! ### Tags that are not told apart -/

def headHash (text : Text) : ℕ := text.head?.elim 0 Char.toNat

def decompose (text : Text) : Text := text.flatMap fun c => if c = 'é' then ['e', '\u0301'] else [c]

def compareCanonical (s t : Text) : ℤ := compareCodeUnits (decompose s) (decompose t)

theorem compareCanonical_compares : Compares compareCanonical :=
  (compares_of_localeOrder localeOrder_compareCodeUnits).comap decompose

/-- Two writes of one time, whose tags are one text in both spellings. -/
def accents : List (HistorianPoint ℕ) := [⟨['e', '\u0301'], some 0, 1, none⟩, ⟨['é'], some 0, 2, none⟩]

def ask (partitions : List Text) (query : HistorianQuery) : Except Text (FederatedHistorianResult ℕ) :=
  (@create headHash compareCanonical ℕ (partitions.map fun id => ⟨id, []⟩)).bind fun historian =>
    (historian.writeAll accents).query (fun _ => none) query

set_option maxRecDepth 20000 in
theorem two_partitions_create : ∃ historian : PartitionedHistorian headHash compareCanonical ℕ,
    create ([['a'], ['z']].map fun id => ⟨id, []⟩) = .ok historian := by
  have hok : (@create headHash compareCanonical ℕ ([['a'], ['z']].map fun id => ⟨id, []⟩)).isOk = true := by decide +kernel
  revert hok
  cases @create headHash compareCanonical ℕ ([['a'], ['z']].map fun id => ⟨id, []⟩) with
  | ok historian => exact fun _ => ⟨historian, rfl⟩
  | error error => exact fun hok => absurd hok (by simp [Except.isOk, Except.toBool])

set_option maxRecDepth 20000 in
/-- A reversed range is refused, and two partitions return the points in another order than one store. -/
theorem accents_reordered :
    ask [['a'], ['z']] ⟨some 1, some 0, none⟩ = .error "historian query end must not precede start".toList ∧
    ask [['a'], ['z']] ⟨some 0, some 0, none⟩ = .ok ⟨accents.reverse, []⟩ ∧
    ask [['a']] ⟨some 0, some 0, none⟩ = .ok ⟨accents, []⟩ := by
  decide +kernel

theorem accents_federate : ∃ historian : PartitionedHistorian headHash compareCanonical ℕ,
    create ([['a'], ['z']].map fun id => ⟨id, []⟩) = .ok historian ∧
    ∃ result, (historian.writeAll accents).query (fun _ => none) ⟨some 0, some 0, none⟩ = .ok result ∧
      (historian.writeAll accents).Federates (fun _ => none) ⟨some 0, some 0, none⟩ accents result := by
  obtain ⟨historian, hcreate⟩ := two_partitions_create
  have hfederates := historian_federates compareCanonical_compares hcreate accents ⟨some 0, some 0, none⟩ fun _ => none
  exact ⟨historian, hcreate, hfederates.2 rfl⟩

end PartitionedHistorian

end OxScada.Scaling
