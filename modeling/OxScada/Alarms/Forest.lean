import OxScada.Alarms.Topology
import OxScada.Order.Keys
import OxScada.Runs.Reachable

/-! Edits of a topology. Containment stays a forest, an edit that is refused changes nothing, and what the searches find
is what is there: the causal paths up to a length, and the nearest common ancestor. -/

namespace OxScada.Alarms
open OxScada.Bytes OxScada.Runs OxScada.Order

namespace EquipmentTopology

/-! ### Edits with their effects -/

/-- `upsert`: the node is stored, and what was there before is put back where it closes a cycle. -/
def upsertCall (topology : EquipmentTopology) (node : EquipmentNode) : Except Text Unit × EquipmentTopology :=
  let previous := topology.get node.equipmentId
  if previous.isNone ∧ topology.maxNodes ≤ topology.nodes.length then
    (.error ("Equipment topology limit of ".toList ++ Nat.toDigits 10 topology.maxNodes ++ " nodes reached".toList), topology)
  else
    let stored := { node with causalDownstream := node.causalDownstream.eraseDups.filter fun id => id ≠ node.equipmentId }
    let changed := topology.set stored
    if changed.hasParentCycle node.equipmentId then
      (.error ("Equipment \"".toList ++ node.equipmentId ++ "\": parentId \"".toList ++ node.parentId.getD "undefined".toList ++
        "\" would create a hierarchy cycle".toList),
        match previous with
        | some previous => changed.set previous
        | none => changed.remove node.equipmentId)
    else (.ok (), changed)

def upsertEach : EquipmentTopology → List EquipmentNode → Except Text Unit × EquipmentTopology
  | topology, [] => (.ok (), topology)
  | topology, node :: rest =>
    match topology.upsertCall node with
    | (.error message, changed) => (.error message, changed)
    | (.ok _, changed) => upsertEach changed rest

variable (topology : EquipmentTopology)

def upsertManyCall (nodes : List EquipmentNode) : Except Text Unit × EquipmentTopology :=
  match topology.upsertEach nodes with
  | (.error message, _) => (.error message, topology)
  | (.ok _, changed) => (.ok (), changed)

inductive Edit where
  | upsert (node : EquipmentNode)
  | upsertMany (nodes : List EquipmentNode)
  | remove (equipmentId : Text)

def edit : Edit → Except Text Unit × EquipmentTopology
  | .upsert node => topology.upsertCall node
  | .upsertMany nodes => topology.upsertManyCall nodes
  | .remove equipmentId => (.ok (), topology.remove equipmentId)

/-! ### What is above and what is downstream -/

def Link (child parent : Text) : Prop := topology.parentOf child = some parent

def Acyclic : Prop := ∀ id, ¬ Relation.TransGen topology.Link id id

def Up (topology : EquipmentTopology) : ℕ → Text → Text → Prop
  | 0, below, above => below = above
  | n + 1, below, above => ∃ parent, topology.Link below parent ∧ topology.Up n parent above

def Path (topology : EquipmentTopology) : ℕ → Text → Text → Prop
  | 0, source, target => source = target
  | n + 1, source, target => ∃ next ∈ topology.downstreamOf source, topology.Path n next target

structure Forest (topology : EquipmentTopology) : Prop where
  keys : (topology.nodes.map (·.equipmentId)).Nodup
  acyclic : topology.Acyclic

variable {topology : EquipmentTopology} {node : EquipmentNode} {a b x : Text}

/-! ### Stored and removed nodes -/

theorem get_set (topology : EquipmentTopology) (node : EquipmentNode) (x : Text) :
    (topology.set node).get x = if x = node.equipmentId then some node else topology.get x := by
  have hreplace : ∀ nodes : List EquipmentNode,
      (nodes.map fun old => if old.equipmentId = node.equipmentId then node else old).find? (fun other => other.equipmentId = x) =
        if x = node.equipmentId ∧ (nodes.find? fun other => other.equipmentId = node.equipmentId).isSome then some node
        else nodes.find? fun other => other.equipmentId = x := by
    intro nodes
    induction nodes with
    | nil => simp
    | cons old rest ih =>
      rw [List.map_cons, List.find?_cons, List.find?_cons, List.find?_cons, ih]
      by_cases hold : old.equipmentId = node.equipmentId
      · by_cases hx : x = node.equipmentId
        · simp [hold, hx]
        · simp [hold, hx, Ne.symm hx]
      · by_cases hx : old.equipmentId = x
        · simp [hx, hx ▸ hold]
        · simp [hold, hx]
  unfold set get
  by_cases hthere : (topology.nodes.find? fun other => other.equipmentId = node.equipmentId).isSome
  · rw [if_pos hthere, hreplace]
    simp [hthere]
  · rw [if_neg hthere]
    have hnone := Option.not_isSome_iff_eq_none.mp hthere
    by_cases hx : x = node.equipmentId
    · simp [hx, List.find?_append, hnone]
    · simp [hx, List.find?_append, Ne.symm hx]

theorem set_keys (h : (topology.nodes.map (·.equipmentId)).Nodup) : ((topology.set node).nodes.map (·.equipmentId)).Nodup := by
  unfold set
  split_ifs with hthere
  · have hsame : (topology.nodes.map fun old => if old.equipmentId = node.equipmentId then node else old).map (·.equipmentId) =
        topology.nodes.map (·.equipmentId) := by
      rw [List.map_map]
      refine List.map_congr_left fun old _ => ?_
      simp only [Function.comp_apply]
      split_ifs with hold
      · exact hold.symm
      · rfl
    rw [hsame]
    exact h
  · rw [Option.not_isSome_iff_eq_none, get, find?_key_none] at hthere
    rw [List.map_append]
    refine List.nodup_append.mpr ⟨h, List.nodup_singleton _, fun id hid last hlast hsame => hthere ?_⟩
    rw [← show last = node.equipmentId from List.mem_singleton.mp hlast, ← hsame]
    exact hid

theorem get_remove (topology : EquipmentTopology) (id x : Text) : (topology.remove id).get x = if x = id then none else topology.get x := by
  unfold remove get
  rw [List.find?_filter]
  split_ifs with hx
  · refine List.find?_eq_none.mpr fun other _ => ?_
    simp [hx]
  · refine congrArg (fun p => topology.nodes.find? p) (funext fun other => ?_)
    by_cases hother : other.equipmentId = x
    · simp [hother, hx]
    · simp [hother]

theorem parentOf_set (topology : EquipmentTopology) (node : EquipmentNode) (x : Text) :
    (topology.set node).parentOf x = if x = node.equipmentId then given node.parentId else topology.parentOf x := by
  unfold parentOf
  rw [get_set]
  split_ifs <;> rfl

/-- What was there before is put back. -/
theorem set_set (h : (topology.nodes.map (·.equipmentId)).Nodup) {previous : EquipmentNode}
    (hprevious : topology.get node.equipmentId = some previous) : (topology.set node).set previous = topology := by
  obtain ⟨hmem, hid⟩ := (find?_key h).mp hprevious
  have hthere : ((topology.set node).get previous.equipmentId).isSome := by
    rw [get_set, if_pos hid]
    rfl
  rw [set, if_pos hthere, set, if_pos (hprevious ▸ rfl)]
  have hsame : (topology.nodes.map fun old => if old.equipmentId = node.equipmentId then node else old).map
      (fun old => if old.equipmentId = previous.equipmentId then previous else old) = topology.nodes := by
    rw [List.map_map]
    refine (List.map_congr_left fun old hold => ?_).trans (List.map_id _)
    simp only [Function.comp_apply, id_eq]
    by_cases hown : old.equipmentId = node.equipmentId
    · rw [if_pos hown, if_pos hid.symm]
      exact key_injective h hmem hold (hid.trans hown.symm)
    · rw [if_neg hown, if_neg (hid ▸ hown)]
  simp only [hsame]

theorem remove_set (hnone : topology.get node.equipmentId = none) : (topology.set node).remove node.equipmentId = topology := by
  have hnew := find?_key_none.mp hnone
  rw [set, if_neg (by simp [hnone]), remove]
  have hsame : (topology.nodes ++ [node]).filter (fun other => other.equipmentId ≠ node.equipmentId) = topology.nodes := by
    have hkept : ∀ other ∈ topology.nodes, decide (other.equipmentId ≠ node.equipmentId) = true := by
      intro other hother
      refine decide_eq_true fun heq => hnew ?_
      rw [← heq]
      exact List.mem_map_of_mem hother
    rw [List.filter_append, List.filter_eq_self.mpr hkept]
    simp
  simp only [hsame]

/-! ### Cycles -/

/-- A path through the new link, or around it. -/
theorem transGen_set (h : Relation.TransGen (topology.set node).Link a b) :
    Relation.TransGen topology.Link a b ∨ Relation.ReflTransGen topology.Link a node.equipmentId ∧
      ∃ parent, given node.parentId = some parent ∧ Relation.ReflTransGen topology.Link parent b := by
  have hlink : ∀ {x y}, (topology.set node).Link x y → topology.Link x y ∨ x = node.equipmentId ∧ given node.parentId = some y := by
    intro x y hxy
    rw [Link, parentOf_set] at hxy
    split_ifs at hxy with hx
    · exact .inr ⟨hx, hxy⟩
    · exact .inl hxy
  induction h with
  | single hab =>
    rcases hlink hab with hold | ⟨rfl, hnew⟩
    · exact .inl (.single hold)
    · exact .inr ⟨.refl, _, hnew, .refl⟩
  | tail _ hbc ih =>
    rcases hlink hbc with hold | ⟨rfl, hnew⟩
    · rcases ih with hpath | ⟨hstart, parent, hparent, hpath⟩
      · exact .inl (hpath.tail hold)
      · exact .inr ⟨hstart, parent, hparent, hpath.tail hold⟩
    · refine .inr ⟨?_, _, hnew, .refl⟩
      rcases ih with hpath | ⟨hstart, -⟩
      · exact hpath.to_reflTransGen
      · exact hstart

/-- A path to the node does not need the link that the node had. -/
theorem reflTransGen_set (h : Relation.ReflTransGen topology.Link a node.equipmentId) :
    Relation.ReflTransGen (topology.set node).Link a node.equipmentId := by
  induction h using Relation.ReflTransGen.head_induction_on with
  | refl => exact .refl
  | @head x y hxy _ ih =>
    by_cases hx : x = node.equipmentId
    · rw [hx]
    · refine .head ?_ ih
      rw [Link, parentOf_set, if_neg hx]
      exact hxy

def Closes (topology : EquipmentTopology) (node : EquipmentNode) : Prop :=
  ∃ parent, given node.parentId = some parent ∧ Relation.ReflTransGen topology.Link parent node.equipmentId

theorem acyclic_set_iff (h : topology.Acyclic) : (topology.set node).Acyclic ↔ ¬ topology.Closes node := by
  constructor
  · rintro hacyclic ⟨parent, hparent, hpath⟩
    refine hacyclic node.equipmentId (.head' ?_ (reflTransGen_set hpath))
    rw [Link, parentOf_set, if_pos rfl, hparent]
  · intro hcloses id hcycle
    rcases transGen_set hcycle with hold | ⟨hstart, parent, hparent, hpath⟩
    · exact h id hold
    · exact hcloses ⟨parent, hparent, hpath.trans hstart⟩

variable {current : Text} {fuel n : ℕ} {visited : List Text}

/-- A walk that ends in a cycle has found one. -/
theorem cycle_of_walk {start : Text} (hstart : Relation.ReflTransGen topology.Link start current)
    (hvisited : ∀ id ∈ visited, Relation.TransGen topology.Link id current)
    (h : topology.parentCycleFrom start fuel current visited = true) : ¬ topology.Acyclic := by
  induction fuel generalizing current visited with
  | zero => cases h
  | succ fuel ih =>
    rw [parentCycleFrom] at h
    split at h
    next => cases h
    next parent hparent =>
      simp only [Bool.or_eq_true, decide_eq_true_eq] at h
      rcases h with (hmem | rfl) | hwalk
      · exact fun hacyclic => hacyclic current (hvisited current hmem)
      · exact fun hacyclic => hacyclic parent (.tail' hstart hparent)
      · refine ih (hstart.tail hparent) (fun id hid => ?_) hwalk
        rcases List.mem_cons.mp hid with rfl | hid
        · exact .single hparent
        · exact (hvisited id hid).tail hparent

/-- A walk that comes back to where it started ends within as many steps as there are nodes. -/
theorem walk_of_cycle {start : Text} (hcycle : Relation.TransGen topology.Link current start)
    (hnodup : visited.Nodup) (hnodes : visited ⊆ topology.nodes.map (·.equipmentId)) (hfuel : topology.nodes.length < visited.length + fuel) :
    topology.parentCycleFrom start fuel current visited = true := by
  induction fuel generalizing current visited with
  | zero =>
    have hlength := (hnodup.subperm hnodes).length_le
    rw [List.length_map] at hlength
    omega
  | succ fuel ih =>
    obtain ⟨parent, hparent, hrest⟩ := Relation.TransGen.head'_iff.mp hcycle
    rw [parentCycleFrom, show topology.parentOf current = some parent from hparent]
    simp only [Bool.or_eq_true, decide_eq_true_eq]
    by_cases hmem : current ∈ visited
    · exact .inl (.inl hmem)
    · by_cases hstart : parent = start
      · exact .inl (.inr hstart)
      · right
        have hthere : current ∈ topology.nodes.map (·.equipmentId) := by
          by_contra hmissing
          have hnone := find?_key_none.mpr hmissing
          rw [Link, parentOf, get, hnone] at hparent
          cases hparent
        have hpath : Relation.TransGen topology.Link parent start := by
          rcases Relation.reflTransGen_iff_eq_or_transGen.mp hrest with hsame | hpath
          · exact absurd hsame.symm hstart
          · exact hpath
        refine ih hpath (List.nodup_cons.mpr ⟨hmem, hnodup⟩) (List.cons_subset.mpr ⟨hthere, hnodes⟩) ?_
        rw [List.length_cons]
        omega

theorem hasParentCycle_set (h : topology.Acyclic) (node : EquipmentNode) :
    (topology.set node).hasParentCycle node.equipmentId = true ↔ topology.Closes node := by
  constructor
  · intro hwalk
    by_contra hcloses
    exact cycle_of_walk .refl (by simp) hwalk ((acyclic_set_iff h).mpr hcloses)
  · rintro ⟨parent, hparent, hpath⟩
    refine walk_of_cycle (.head' ?_ (reflTransGen_set hpath)) List.nodup_nil (List.nil_subset _) (by simp)
    rw [Link, parentOf_set, if_pos rfl, hparent]

/-! ### What an edit does -/

/-- What a call leaves where it throws, and where it does not. -/
def Settles (topology : EquipmentTopology) (result : Except Text Unit × EquipmentTopology) : Prop :=
  result.2.Forest ∧ ∀ message, result.1 = .error message → result.2 = topology

section
variable (h : topology.Forest)
include h

theorem upsertCall_eq (node : EquipmentNode) :
    topology.upsertCall node = match topology.upsert node with
      | .error message => (.error message, topology)
      | .ok changed => (.ok (), changed) := by
  unfold upsertCall upsert
  dsimp only
  split_ifs with hfull hcycle
  · rfl
  · dsimp only
    cases hprevious : topology.get node.equipmentId with
    | none =>
      dsimp only
      rw [remove_set]
      exact hprevious
    | some previous =>
      dsimp only
      rw [set_set h.keys]
      exact hprevious
  · rfl

theorem upsert_forest {changed : EquipmentTopology} (hupsert : topology.upsert node = .ok changed) : changed.Forest := by
  unfold upsert at hupsert
  dsimp only at hupsert
  split_ifs at hupsert with hfull hcycle
  obtain rfl := Except.ok.inj hupsert
  have hsame : topology.Closes { node with causalDownstream := node.causalDownstream.eraseDups.filter fun id => id ≠ node.equipmentId } ↔
      topology.Closes node := Iff.rfl
  refine ⟨set_keys h.keys, (acyclic_set_iff h.acyclic).mpr fun hcloses => hcycle ?_⟩
  exact (hasParentCycle_set h.acyclic _).mpr hcloses

theorem Forest.upsertCall (node : EquipmentNode) : topology.Settles (topology.upsertCall node) := by
  rw [upsertCall_eq h]
  cases hupsert : topology.upsert node with
  | error message => exact ⟨h, fun _ _ => rfl⟩
  | ok changed => exact ⟨upsert_forest h hupsert, fun _ hcontra => by cases hcontra⟩

theorem Forest.upsertEach (nodes : List EquipmentNode) : (topology.upsertEach nodes).2.Forest := by
  induction nodes generalizing topology with
  | nil => exact h
  | cons node rest ih =>
    have hcall := (h.upsertCall node).1
    rw [EquipmentTopology.upsertEach]
    rcases hone : topology.upsertCall node with ⟨_ | _, changed⟩
    · rw [hone] at hcall
      exact hcall
    · rw [hone] at hcall
      exact ih hcall

theorem remove_forest (id : Text) : (topology.remove id).Forest := by
  have hlink : ∀ x y, (topology.remove id).Link x y → topology.Link x y := by
    intro x y hxy
    rw [Link, parentOf, get_remove] at hxy
    split_ifs at hxy
    · cases hxy
    · exact hxy
  exact ⟨h.keys.sublist (List.filter_sublist.map _), fun start hcycle => h.acyclic start (Relation.TransGen.mono hlink _ _ hcycle)⟩

theorem Forest.edit (e : Edit) : topology.Settles (topology.edit e) := by
  cases e with
  | upsert node => exact h.upsertCall node
  | remove id => exact ⟨remove_forest h id, fun _ hcontra => by cases hcontra⟩
  | upsertMany nodes =>
    have heach := h.upsertEach nodes
    unfold EquipmentTopology.edit upsertManyCall
    dsimp only
    rcases hall : topology.upsertEach nodes with ⟨_ | _, changed⟩
    · exact ⟨h, fun _ _ => rfl⟩
    · rw [hall] at heach
      exact ⟨heach, fun _ hcontra => by cases hcontra⟩

end

/-! ### Causal paths -/

theorem expand_spec (goal : Text) (targets visited next : List Text) :
    match expand goal targets visited next with
    | none => goal ∈ targets
    | some (visited', next') => goal ∉ targets ∧ (∀ y, y ∈ visited' ↔ y ∈ visited ∨ y ∈ targets) ∧
        ∀ y, y ∈ next' ↔ y ∈ next ∨ y ∈ targets ∧ y ∉ visited := by
  induction targets generalizing visited next with
  | nil => simp [expand]
  | cons target rest ih =>
    rw [expand]
    by_cases hgoal : target = goal
    · simp [hgoal]
    · rw [if_neg hgoal]
      by_cases hvisited : target ∈ visited
      · rw [if_pos hvisited]
        have hrest := ih visited next
        revert hrest
        split
        · exact List.mem_cons_of_mem _
        · intro ⟨hout, hvisited', hnext'⟩
          refine ⟨?_, fun y => ?_, fun y => ?_⟩
          · simp [hout, Ne.symm hgoal]
          · rw [hvisited']
            grind
          · rw [hnext']
            grind
      · rw [if_neg hvisited]
        have hrest := ih (visited ++ [target]) (next ++ [target])
        revert hrest
        split
        · exact List.mem_cons_of_mem _
        · intro ⟨hout, hvisited', hnext'⟩
          refine ⟨?_, fun y => ?_, fun y => ?_⟩
          · simp [hout, Ne.symm hgoal]
          · rw [hvisited']
            grind
          · rw [hnext']
            grind

/-- A path out of what was visited leaves it at a node whose targets were not visited. -/
theorem path_leaves {next : List Text} {goal : Text} (hgoal : goal ∉ visited)
    (hclosed : ∀ y ∈ visited, y ∈ next ∨ ∀ z ∈ topology.downstreamOf y, z ∈ visited) (ha : a ∈ visited)
    (hpath : topology.Path n a goal) : ∃ m, 1 ≤ m ∧ m ≤ n ∧ ∃ y ∈ next, topology.Path m y goal := by
  induction n generalizing a with
  | zero => exact absurd (hpath ▸ ha) hgoal
  | succ n ih =>
    obtain ⟨y, hy, hrest⟩ := hpath
    by_cases hvisited : y ∈ visited
    · obtain ⟨m, hm, hle, hfound⟩ := ih hvisited hrest
      exact ⟨m, hm, by omega, hfound⟩
    · have hnext := (hclosed a ha).resolve_right fun hall => hvisited (hall y hy)
      exact ⟨n + 1, by omega, le_rfl, a, hnext, y, hy, hrest⟩

theorem reaches_iff {goal : Text} {hops : ℕ} {frontier : List Text} (hfrontier : frontier ⊆ visited) (hgoal : goal ∉ visited)
    (hclosed : ∀ y ∈ visited, y ∈ frontier ∨ ∀ z ∈ topology.downstreamOf y, z ∈ visited) :
    topology.reaches goal hops frontier visited = true ↔ ∃ n, 1 ≤ n ∧ n ≤ hops ∧ ∃ y ∈ frontier, topology.Path n y goal := by
  induction hops generalizing frontier visited with
  | zero =>
    refine iff_of_false (by simp [reaches]) ?_
    rintro ⟨n, hone, hzero, -⟩
    omega
  | succ hops ih =>
    rw [reaches]
    by_cases hempty : frontier = []
    · simp [hempty]
    · rw [if_neg hempty]
      have hspec := expand_spec goal (frontier.flatMap topology.downstreamOf) visited []
      rcases hexpand : expand goal (frontier.flatMap topology.downstreamOf) visited [] with _ | ⟨visited', next⟩
      · rw [hexpand] at hspec
        have hmem : goal ∈ frontier.flatMap topology.downstreamOf := hspec
        obtain ⟨y, hy, htarget⟩ := List.mem_flatMap.mp hmem
        exact iff_of_true rfl ⟨1, le_rfl, by omega, y, hy, goal, htarget, rfl⟩
      · rw [hexpand] at hspec
        obtain ⟨hout, hvisited', hnext⟩ := hspec
        dsimp only
        have hnew : ∀ y, y ∈ next ↔ y ∈ frontier.flatMap topology.downstreamOf ∧ y ∉ visited := by simpa using hnext
        have hgoal' : goal ∉ visited' := by simp [hvisited', hgoal, hout]
        have hclosed' : ∀ y ∈ visited', y ∈ next ∨ ∀ z ∈ topology.downstreamOf y, z ∈ visited' := by
          intro y hy
          by_cases hold : y ∈ visited
          · right
            intro z hz
            rw [hvisited']
            rcases hclosed y hold with hy | hall
            · exact .inr (List.mem_flatMap.mpr ⟨y, hy, hz⟩)
            · exact .inl (hall z hz)
          · exact .inl ((hnew y).mpr ⟨((hvisited' y).mp hy).resolve_left hold, hold⟩)
        rw [ih (fun y hy => (hvisited' y).mpr (.inr ((hnew y).mp hy).1)) hgoal' hclosed']
        constructor
        · rintro ⟨n, hone, hle, y, hy, hpath⟩
          obtain ⟨source, hsource, hedge⟩ := List.mem_flatMap.mp ((hnew y).mp hy).1
          exact ⟨n + 1, by omega, by omega, source, hsource, y, hedge, hpath⟩
        · rintro ⟨_ | n, hone, hle, y, hy, hpath⟩
          · omega
          · -- the first edge stays in what was visited, and the path leaves it later
            obtain ⟨z, hz, hrest⟩ := hpath
            have hinside : z ∈ visited' := (hvisited' z).mpr (.inr (List.mem_flatMap.mpr ⟨y, hy, hz⟩))
            obtain ⟨m, hm, hmn, hfound⟩ := path_leaves hgoal' hclosed' hinside hrest
            exact ⟨m, hm, by omega, hfound⟩

theorem isCausallyReachable_iff (hne : a ≠ b) (maxHops : ℕ) :
    topology.isCausallyReachable a b maxHops = true ↔ ∃ n, 1 ≤ n ∧ n ≤ maxHops ∧ topology.Path n a b := by
  unfold isCausallyReachable
  rw [if_neg hne]
  by_cases hmissing : (topology.get a).isNone
  · rw [if_pos hmissing]
    refine iff_of_false (by simp) ?_
    rintro ⟨_ | n, hone, -, hpath⟩
    · omega
    · obtain ⟨y, hy, -⟩ := hpath
      rw [downstreamOf, Option.isNone_iff_eq_none.mp hmissing] at hy
      cases hy
  · rw [if_neg hmissing, reaches_iff (List.Subset.refl _) (by simpa using Ne.symm hne) (fun y hy => .inl hy)]
    simp

/-! ### Common ancestors -/

theorem mem_ancestorsFrom (h : topology.Acyclic) {found : List (Text × ℕ)} (hne : found ≠ [])
    (hbelow : ∀ y ∈ found.map (·.1), Relation.ReflTransGen topology.Link y current) (x : Text) (d : ℕ) :
    (x, d) ∈ topology.ancestorsFrom fuel current found ↔
      (x, d) ∈ found ∨ ∃ n, n < fuel ∧ topology.Up (n + 1) current x ∧ d = found.length + n := by
  induction fuel generalizing current found with
  | zero => simp [ancestorsFrom]
  | succ fuel ih =>
    rw [ancestorsFrom]
    cases hparent : topology.parentOf current with
    | none =>
      refine (or_iff_left ?_).symm
      rintro ⟨n, -, ⟨next, hnext, -⟩, -⟩
      cases hnext.symm.trans hparent
    | some parent =>
      dsimp only
      have hnew : parent ∉ found.map (·.1) := fun hmem => h parent (.tail' (hbelow parent hmem) hparent)
      have hbelow' : ∀ y ∈ (found ++ [(parent, found.length)]).map (·.1), Relation.ReflTransGen topology.Link y parent := by
        intro y hy
        rw [List.map_append] at hy
        rcases List.mem_append.mp hy with hy | hy
        · exact (hbelow y hy).tail hparent
        · rw [List.mem_singleton.mp hy]
      rw [if_neg hnew, ih (by simp) hbelow', List.mem_append, List.mem_singleton, or_assoc]
      refine or_congr_right ?_
      rw [List.length_append, List.length_singleton]
      constructor
      · rintro (hsame | ⟨n, hn, hup, rfl⟩)
        · obtain ⟨rfl, rfl⟩ := Prod.mk.inj hsame
          exact ⟨0, by omega, ⟨x, hparent, rfl⟩, rfl⟩
        · exact ⟨n + 1, by omega, ⟨parent, hparent, hup⟩, by omega⟩
      · rintro ⟨n, hn, ⟨next, hnext, hup⟩, rfl⟩
        obtain rfl := Option.some.inj (hparent.symm.trans hnext)
        cases n with
        | zero => exact .inl (Prod.ext hup.symm rfl)
        | succ n => exact .inr ⟨n, by omega, hup, by omega⟩

/-- What is above a node, as far as the walk goes. -/
theorem mem_ancestorDepths (h : topology.Acyclic) (x : Text) (d : ℕ) :
    (x, d) ∈ topology.ancestorDepths a ↔ d ≤ maxTraversalDepth ∧ topology.Up d a x := by
  rw [ancestorDepths, mem_ancestorsFrom h (by simp) (by simp [Relation.ReflTransGen.refl])]
  constructor
  · rintro (hsame | ⟨n, hn, hup, rfl⟩)
    · obtain ⟨rfl, rfl⟩ := Prod.mk.inj (List.mem_singleton.mp hsame)
      exact ⟨Nat.zero_le _, rfl⟩
    · rw [List.length_singleton, Nat.add_comm]
      exact ⟨hn, hup⟩
  · rintro ⟨hd, hup⟩
    cases d with
    | zero => exact .inl (List.mem_singleton.mpr (Prod.ext hup.symm rfl))
    | succ d => exact .inr ⟨d, hd, hup, by rw [List.length_singleton, Nat.add_comm]⟩

def Within (maxDistance : ℕ) (distance : Option ℕ) : Prop := ∃ d, distance = some d ∧ d ≤ maxDistance

theorem within_foldl_nearer {ancestors entries : List (Text × ℕ)} (hancestors : (ancestors.map (·.1)).Nodup) (best : Option ℕ) (maxDistance : ℕ) :
    Within maxDistance (entries.foldl (nearer ancestors) best) ↔
      Within maxDistance best ∨ ∃ x da db, (x, da) ∈ entries ∧ (x, db) ∈ ancestors ∧ max da db ≤ maxDistance := by
  induction entries generalizing best with
  | nil => simp
  | cons entry rest ih =>
    have hnearer : Within maxDistance (nearer ancestors best entry) ↔
        Within maxDistance best ∨ ∃ db, (entry.1, db) ∈ ancestors ∧ max entry.2 db ≤ maxDistance := by
      have hdepth : ∀ db, depthAmong ancestors entry.1 = some db ↔ (entry.1, db) ∈ ancestors := by
        intro db
        rw [depthAmong, Option.map_eq_some_iff]
        constructor
        · rintro ⟨found, hfound, rfl⟩
          obtain ⟨hmem, hsame⟩ := (find?_key hancestors).mp hfound
          exact hsame ▸ hmem
        · exact fun hmem => ⟨_, (find?_key hancestors).mpr ⟨hmem, rfl⟩, rfl⟩
      simp only [← hdepth]
      unfold nearer Within
      cases depthAmong ancestors entry.1 with
      | none => simp
      | some db =>
        cases best with
        | none => simp
        | some nearest =>
          dsimp only
          split_ifs with hless
          · simp only [Option.some.injEq, exists_eq_left']
            omega
          · simp only [Option.some.injEq, exists_eq_left']
            omega
    rw [List.foldl_cons, ih, hnearer, or_assoc]
    refine or_congr_right ?_
    constructor
    · rintro (⟨db, hdb, hle⟩ | ⟨x, da, db, hda, hdb, hle⟩)
      · exact ⟨entry.1, entry.2, db, List.mem_cons_self, hdb, hle⟩
      · exact ⟨x, da, db, List.mem_cons_of_mem _ hda, hdb, hle⟩
    · rintro ⟨x, da, db, hda, hdb, hle⟩
      rcases List.mem_cons.mp hda with rfl | hda
      · exact .inl ⟨db, hdb, hle⟩
      · exact .inr ⟨x, da, db, hda, hdb, hle⟩

theorem ancestorsFrom_nodup (fuel : ℕ) (current : Text) {found : List (Text × ℕ)} (h : (found.map (·.1)).Nodup) :
    ((topology.ancestorsFrom fuel current found).map (·.1)).Nodup := by
  induction fuel generalizing current found with
  | zero => exact h
  | succ fuel ih =>
    rw [ancestorsFrom]
    split
    · exact h
    · rename_i parentId _
      split_ifs with hfound
      · exact h
      · refine ih parentId ?_
        rw [List.map_append]
        refine List.nodup_append.mpr ⟨h, List.nodup_singleton _, ?_⟩
        intro x hx y hy hsame
        obtain rfl := List.mem_singleton.mp hy
        exact hfound (hsame ▸ hx)

theorem ancestorDepths_nodup (equipmentId : Text) : ((topology.ancestorDepths equipmentId).map (·.1)).Nodup :=
  ancestorsFrom_nodup _ _ (List.nodup_singleton _)

theorem within_hierarchyDistance (h : topology.Acyclic) (a b : Text) (maxDistance : ℕ) :
    Within maxDistance (topology.hierarchyDistance a b) ↔
      ∃ x da db, (x, da) ∈ topology.ancestorDepths a ∧ (x, db) ∈ topology.ancestorDepths b ∧ max da db ≤ maxDistance := by
  unfold hierarchyDistance
  by_cases hsame : a = b
  · subst hsame
    have hself : (a, 0) ∈ topology.ancestorDepths a := (mem_ancestorDepths h a 0).mpr ⟨Nat.zero_le _, rfl⟩
    rw [if_pos rfl]
    exact iff_of_true ⟨0, rfl, Nat.zero_le _⟩ ⟨a, 0, 0, hself, hself, Nat.zero_le _⟩
  · rw [if_neg hsame, within_foldl_nearer (ancestorDepths_nodup b)]
    refine or_iff_right ?_
    rintro ⟨d, hd, -⟩
    cases hd

theorem within_ext {d e : Option ℕ} (h : ∀ maxDistance, Within maxDistance d ↔ Within maxDistance e) : d = e := by
  have hsome : ∀ {d e : Option ℕ} {m : ℕ}, (∀ maxDistance, Within maxDistance d ↔ Within maxDistance e) → d = some m → ∃ n, e = some n ∧ n ≤ m :=
    fun h hd => (h _).mp ⟨_, hd, le_rfl⟩
  cases hd : d with
  | none =>
    cases he : e with
    | none => rfl
    | some n =>
      obtain ⟨m, hm, -⟩ := hsome (fun k => (h k).symm) he
      cases hd.symm.trans hm
  | some m =>
    obtain ⟨n, hn, hle⟩ := hsome h hd
    obtain ⟨m', hm', hle'⟩ := hsome (fun k => (h k).symm) hn
    obtain rfl := Option.some.inj (hd.symm.trans hm')
    rw [hn, le_antisymm hle' hle]

theorem hierarchyDistance_comm (h : topology.Acyclic) (a b : Text) : topology.hierarchyDistance a b = topology.hierarchyDistance b a := by
  refine within_ext fun maxDistance => ?_
  rw [within_hierarchyDistance h, within_hierarchyDistance h]
  constructor
  · rintro ⟨x, da, db, hda, hdb, hle⟩
    exact ⟨x, db, da, hdb, hda, max_comm da db ▸ hle⟩
  · rintro ⟨x, da, db, hda, hdb, hle⟩
    exact ⟨x, db, da, hdb, hda, max_comm da db ▸ hle⟩

/-- The distances at which two nodes have common ancestors, counted from the deeper side. -/
def distances (topology : EquipmentTopology) (a b : Text) : Set ℕ :=
  {m | ∃ x da db, topology.Up da a x ∧ topology.Up db b x ∧ m = max da db}

/-- The chain above a node has at most so many steps as the walk. -/
def Short (topology : EquipmentTopology) (a : Text) : Prop := ∀ n x, topology.Up n a x → n ≤ maxTraversalDepth

theorem hierarchyDistance_iff (h : topology.Acyclic) (ha : topology.Short a) (hb : topology.Short b) (m : ℕ) :
    topology.hierarchyDistance a b = some m ↔ IsLeast (topology.distances a b) m := by
  have hwithin : ∀ maxDistance, Within maxDistance (topology.hierarchyDistance a b) ↔ ∃ d ∈ topology.distances a b, d ≤ maxDistance := by
    intro maxDistance
    rw [within_hierarchyDistance h]
    simp only [mem_ancestorDepths h]
    constructor
    · rintro ⟨x, da, db, ⟨-, hda⟩, ⟨-, hdb⟩, hle⟩
      exact ⟨_, ⟨x, da, db, hda, hdb, rfl⟩, hle⟩
    · rintro ⟨_, ⟨x, da, db, hda, hdb, rfl⟩, hle⟩
      exact ⟨x, da, db, ⟨ha da x hda, hda⟩, ⟨hb db x hdb, hdb⟩, hle⟩
  constructor
  · intro hm
    have hleast : ∀ d ∈ topology.distances a b, m ≤ d := by
      intro d hd
      obtain ⟨m', hm', hle⟩ := (hwithin d).mpr ⟨d, hd, le_rfl⟩
      rwa [Option.some.inj (hm.symm.trans hm')]
    obtain ⟨d, hd, hle⟩ := (hwithin m).mp ⟨m, hm, le_rfl⟩
    exact ⟨le_antisymm hle (hleast d hd) ▸ hd, hleast⟩
  · rintro ⟨hmem, hleast⟩
    obtain ⟨d, hd, hle⟩ := (hwithin m).mpr ⟨m, hmem, le_rfl⟩
    obtain ⟨d', hd', hle'⟩ := (hwithin d).mp ⟨d, hd, le_rfl⟩
    rw [hd, le_antisymm hle ((hleast hd').trans hle')]

/-! ### Runs -/

def editStep (topology : EquipmentTopology) (e : Edit) : Option EquipmentTopology := some (topology.edit e).2

theorem forest_empty (maxNodes : ℕ) : Forest { maxNodes } := by
  refine ⟨List.nodup_nil, fun id hcycle => ?_⟩
  obtain ⟨parent, hparent, -⟩ := Relation.TransGen.head'_iff.mp hcycle
  cases hparent

/-- After any edits containment is a forest, an edit that throws leaves what was there, an `upsert` for which there is room
throws if and only if its parent link closes a cycle, and the searches are exact. -/
theorem topology_exact {maxNodes : ℕ} (hs : Reachable editStep (fun _ _ => True) { maxNodes } topology) :
    topology.Acyclic ∧
      (∀ e message, (topology.edit e).1 = .error message → (topology.edit e).2 = topology) ∧
      (∀ node, (topology.get node.equipmentId).isSome ∨ topology.nodes.length < topology.maxNodes →
        ((∃ message, (topology.upsertCall node).1 = .error message) ↔ topology.Closes node)) ∧
      (∀ a b maxHops, a ≠ b → (topology.isCausallyReachable a b maxHops = true ↔ ∃ n, 1 ≤ n ∧ n ≤ maxHops ∧ topology.Path n a b)) ∧
      (∀ a b, topology.hierarchyDistance a b = topology.hierarchyDistance b a) ∧
      ∀ a b, topology.Short a → topology.Short b → ∀ m, topology.hierarchyDistance a b = some m ↔ IsLeast (topology.distances a b) m := by
  have hforest : topology.Forest := by
    refine hs.invariant (forest_empty maxNodes) fun s e s' h _ hstep => ?_
    obtain rfl := Option.some.inj hstep
    exact (h.edit e).1
  refine ⟨hforest.acyclic, fun e => (hforest.edit e).2, fun node hroom => ?_, fun a b maxHops hne => isCausallyReachable_iff hne maxHops,
    hierarchyDistance_comm hforest.acyclic, fun a b => hierarchyDistance_iff hforest.acyclic⟩
  have hfull : ¬ ((topology.get node.equipmentId).isNone ∧ topology.maxNodes ≤ topology.nodes.length) := by
    rintro ⟨hnone, hle⟩
    rcases hroom with hsome | hlt
    · rw [Option.isNone_iff_eq_none.mp hnone] at hsome
      cases hsome
    · omega
  rw [← show topology.Closes { node with causalDownstream := node.causalDownstream.eraseDups.filter fun id => id ≠ node.equipmentId } ↔
    topology.Closes node from Iff.rfl, ← hasParentCycle_set hforest.acyclic]
  unfold upsertCall
  dsimp only
  rw [if_neg hfull]
  split_ifs with hcycle
  · exact iff_of_true ⟨_, rfl⟩ hcycle
  · refine iff_of_false ?_ hcycle
    rintro ⟨_, hcontra⟩
    cases hcontra

/-- A pump in a line of a plant, where the plant would be put below the pump. -/
def lineTopology : List Edit :=
  [.upsert ⟨['p'], some ['l'], [['v']], none⟩, .upsert ⟨['l'], some ['a'], [], none⟩, .upsert ⟨['a'], some ['p'], [], none⟩]

theorem topology_exact_line : ∃ topology, exec editStep {} lineTopology = some topology ∧ topology.nodes.length = 2 ∧
    topology.Acyclic ∧ topology.hierarchyDistance ['p'] ['l'] = topology.hierarchyDistance ['l'] ['p'] := by
  have hexec : ∃ topology, exec editStep {} lineTopology = some topology ∧ topology.nodes.length = 2 := ⟨_, rfl, by decide +kernel⟩
  obtain ⟨topology, hexec, hlength⟩ := hexec
  have hs : Reachable editStep (fun _ _ => True) {} topology := Reachable.start.of_exec _ (fun _ _ _ => trivial) hexec
  have hexact := topology_exact hs
  exact ⟨topology, hexec, hlength, hexact.1, hexact.2.2.2.2.1 _ _⟩

end EquipmentTopology
end OxScada.Alarms
