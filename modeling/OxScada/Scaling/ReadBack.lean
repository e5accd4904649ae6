import OxScada.Scaling.LocalWrites
import OxScada.Scaling.NestedValues

/-! What a replica shows of its operations. A set at a longer path is shown over a set at a front
of it, whichever of them is later, and a tombstone hides nothing of a set at a front of its path. -/

namespace OxScada.Scaling
open OxScada.Bytes OxScada.Js OxScada.Edge OxScada.Runs

/-- The order of the paths: a path comes before those that it is a front of. -/
structure PathOrder (localeCompare : Text → Text → ℤ) : Prop where
  self : ∀ s, localeCompare s s = 0
  swap : ∀ s t, 0 < localeCompare s t ↔ localeCompare t s < 0
  trans : ∀ s t u, localeCompare s t ≤ 0 → localeCompare t u ≤ 0 → localeCompare s u ≤ 0
  front : ∀ path path', validateConfigPath path = .ok () → validateConfigPath path' = .ok () →
    splitDots path <+: splitDots path' → path ≠ path' → localeCompare path path' < 0

def Above (path path' : Text) : Prop := splitDots path <+: splitDots path' ∧ path ≠ path'

theorem splitDots_injective {path path' : Text} (h : splitDots path = splitDots path') : path = path' := by
  rw [← dotted_splitDots path, ← dotted_splitDots path', h]

theorem Above.ne_segments {path path' : Text} (h : Above path path') : splitDots path ≠ splitDots path' :=
  fun heq => h.2 (splitDots_injective heq)

section
variable (localeCompare : Text → Text → ℤ)

namespace ReplicatedConfiguration

def Shows (r : ReplicatedConfiguration) (x : ConfigurationOperation) (value : JsonValue) : Prop :=
  x ∈ r.operations localeCompare ∧ x.deleted = false ∧ hiddenByParentTombstone localeCompare x r.cells = false ∧ x.value = some value

/-- Of the shown operations at a front of the path, the one with the longest path, and no shown
operation is below the path. -/
structure Covers (r : ReplicatedConfiguration) (x : ConfigurationOperation) (value : JsonValue) (path : List Text) : Prop where
  shows : r.Shows localeCompare x value
  front : splitDots x.path <+: path
  longest : ∀ y value', r.Shows localeCompare y value' → splitDots y.path <+: path → splitDots y.path <+: splitDots x.path
  below : ∀ y value', r.Shows localeCompare y value' → path <+: splitDots y.path → path = splitDots y.path

/-- The operation is a set with the leaf at the path, and none that leads to the path is strictly
newer, nor one below it that is shown. -/
structure Decides (r : ReplicatedConfiguration) (x : ConfigurationOperation) (path : List Text) (leaf : Json) : Prop where
  mem : x ∈ r.operations localeCompare
  live : x.deleted = false
  front : splitDots x.path <+: path
  leaf : ∃ value, x.value = some value ∧ found value.1 (path.drop (splitDots x.path).length) = some leaf
  newest : ∀ y ∈ r.operations localeCompare, splitDots y.path <+: path → ¬ 0 < compareVersions localeCompare y.version x.version
  below : ∀ y value', r.Shows localeCompare y value' → path <+: splitDots y.path → ¬ 0 < compareVersions localeCompare y.version x.version

variable (r : ReplicatedConfiguration)

/-- No leaf is shown in place of what a strictly newer operation says. -/
def ShowsNewest : Prop :=
  ∀ path ≠ [], ∀ leaf, isLeaf leaf = true → found (r.value localeCompare) path = some leaf → ∃ x, r.Decides localeCompare x path leaf

def layer (x : ConfigurationOperation) : Option (List Text × Json) :=
  if x.deleted || hiddenByParentTombstone localeCompare x r.cells then none
  else x.value.map fun value => (splitDots x.path, value.1)

def layers : List (List Text × Json) := (r.operations localeCompare).filterMap (r.layer localeCompare)

theorem value_eq : r.value localeCompare = .object (replay (r.layers localeCompare)) := by
  rw [value, replay, layers, List.foldl_filterMap]
  congr 2
  funext result x
  unfold layer
  split_ifs
  · rfl
  · cases x.value <;> rfl

end ReplicatedConfiguration

variable {localeCompare} {r r' : ReplicatedConfiguration} {seen : List ConfigurationOperation} {x : ConfigurationOperation}

theorem mem_layers {layer : List Text × Json} :
    layer ∈ r.layers localeCompare ↔ ∃ x value, r.Shows localeCompare x value ∧ layer = (splitDots x.path, value.1) := by
  unfold ReplicatedConfiguration.layers ReplicatedConfiguration.layer
  rw [List.mem_filterMap]
  constructor
  · rintro ⟨x, hx, hlayer⟩
    split_ifs at hlayer with hnot
    obtain ⟨value, hvalue, rfl⟩ := Option.map_eq_some_iff.mp hlayer
    simp only [Bool.or_eq_true, not_or, Bool.not_eq_true] at hnot
    exact ⟨x, value, ⟨hx, hnot.1, hnot.2, hvalue⟩, rfl⟩
  · rintro ⟨x, value, ⟨hx, hlive, hnot, hvalue⟩, rfl⟩
    refine ⟨x, hx, ?_⟩
    rw [hlive, hnot, hvalue]
    rfl

theorem Known.lookup (h : Known r seen) {path : Text} (hmem : (path, x) ∈ r.cells) : r.cells.lookup path = some x := by
  refine lookup_of_mem hmem fun other hother => ?_
  have hsame := List.inj_on_of_nodup_map h.nodup hother hmem rfl
  exact (Prod.mk.inj hsame).2

theorem Known.mem_operations (h : Known r seen) : x ∈ r.operations localeCompare ↔ r.cells.lookup x.path = some x := by
  rw [ReplicatedConfiguration.operations, List.mem_insertionSort, List.mem_map]
  constructor
  · rintro ⟨⟨path, cell⟩, hmem, rfl⟩
    rw [(h.cell path cell hmem).1]
    exact h.lookup hmem
  · intro hlookup
    exact ⟨_, lookup_mem hlookup, rfl⟩

theorem Known.path_valid (h : Known r seen) (hx : x ∈ r.operations localeCompare) : validateConfigPath x.path = .ok () := by
  have hmem := lookup_mem (h.mem_operations.mp hx)
  exact (h.wellformed x (h.cell _ _ hmem).2).path

theorem Known.frontsFirst (h : Known r seen) (horder : PathOrder localeCompare) : FrontsFirst (r.layers localeCompare) := by
  have htotal : Std.Total fun x y : ConfigurationOperation => localeCompare x.path y.path ≤ 0 := by
    refine ⟨fun x y => ?_⟩
    rcases le_or_gt (localeCompare x.path y.path) 0 with hle | hgt
    · exact .inl hle
    · exact .inr ((horder.swap _ _).mp hgt).le
  have htrans : IsTrans ConfigurationOperation fun x y => localeCompare x.path y.path ≤ 0 := ⟨fun _ _ _ => horder.trans _ _ _⟩
  have hsorted : (r.operations localeCompare).Pairwise fun x y => localeCompare x.path y.path ≤ 0 := List.pairwise_insertionSort _ _
  have hnodup : ((r.operations localeCompare).map ConfigurationOperation.path).Nodup := by
    have hpaths : (r.cells.map (·.2)).map ConfigurationOperation.path = r.cells.map (·.1) := by
      rw [List.map_map]
      exact List.map_congr_left fun entry hentry => (h.cell _ _ hentry).1
    have hperm := (List.perm_insertionSort (fun x y : ConfigurationOperation => localeCompare x.path y.path ≤ 0) (r.cells.map (·.2))).map
      ConfigurationOperation.path
    exact hperm.nodup_iff.mpr (hpaths ▸ h.nodup)
  have hlayer : ∀ {x layer}, r.layer localeCompare x = some layer → layer.1 = splitDots x.path := by
    intro x layer hlayer
    unfold ReplicatedConfiguration.layer at hlayer
    split_ifs at hlayer
    obtain ⟨value, -, rfl⟩ := Option.map_eq_some_iff.mp hlayer
    rfl
  refine List.Pairwise.filterMap (r.layer localeCompare) (fun x y hxy layer hx layer' hy hfront => ?_)
    (List.Pairwise.and_mem.mp (hsorted.and (List.pairwise_map.mp hnodup)))
  obtain ⟨hxmem, hymem, hle, hne⟩ := hxy
  rw [hlayer hx, hlayer hy] at hfront
  have hlater := horder.front y.path x.path (h.path_valid hymem) (h.path_valid hxmem) hfront hne.symm
  exact ((horder.swap _ _).mpr hlater).not_ge hle

theorem layer_ne_nil {layer : List Text × Json} (h : layer ∈ r.layers localeCompare) : layer.1 ≠ [] := by
  obtain ⟨x, value, -, rfl⟩ := mem_layers.mp h
  exact splitDots_ne_nil x.path

/-! ### What is found in the view -/

namespace ReplicatedConfiguration.Covers
variable {value : JsonValue} {path : List Text}

theorem supplies (h : r.Covers localeCompare x value path) :
    Supplies (r.layers localeCompare) (splitDots x.path, value.1) path ∧ NoneBelow (r.layers localeCompare) path := by
  refine ⟨⟨mem_layers.mpr ⟨x, value, h.shows, rfl⟩, h.front, fun layer hlayer => ?_⟩, fun layer hlayer => ?_⟩
  · obtain ⟨y, value', hy, rfl⟩ := mem_layers.mp hlayer
    exact h.longest y value' hy
  · obtain ⟨y, value', hy, rfl⟩ := mem_layers.mp hlayer
    exact h.below y value' hy

theorem of_supplies {layer : List Text × Json} (h : Supplies (r.layers localeCompare) layer path)
    (hbelow : NoneBelow (r.layers localeCompare) path) :
    ∃ x value, r.Covers localeCompare x value path ∧ layer = (splitDots x.path, value.1) := by
  obtain ⟨x, value, hx, rfl⟩ := mem_layers.mp h.mem
  refine ⟨x, value, ⟨hx, h.front, fun y value' hy => ?_, fun y value' hy => ?_⟩, rfl⟩
  · exact h.longest _ (mem_layers.mpr ⟨y, value', hy, rfl⟩)
  · exact hbelow _ (mem_layers.mpr ⟨y, value', hy, rfl⟩)

end ReplicatedConfiguration.Covers

section Found
variable (h : Known r seen) (horder : PathOrder localeCompare) {value : JsonValue} {path : List Text}
include h horder

theorem found_covered (hcovers : r.Covers localeCompare x value path) :
    found (r.value localeCompare) path = found value.1 (path.drop (splitDots x.path).length) := by
  rw [r.value_eq]
  obtain ⟨hsupplies, hbelow⟩ := hcovers.supplies
  exact found_replay_supplied (fun _ => layer_ne_nil) (h.frontsFirst horder) hsupplies hbelow

theorem found_above (hshows : r.Shows localeCompare x value) (habove : path <+: splitDots x.path) (hne : path ≠ splitDots x.path) :
    ∃ fields : Fields, fields ≠ [] ∧ found (r.value localeCompare) path = some (.object fields) := by
  rw [r.value_eq]
  exact found_replay_above (fun _ => layer_ne_nil) (h.frontsFirst horder) (mem_layers.mpr ⟨x, value, hshows, rfl⟩) habove hne

theorem found_leaf_iff (hpath : path ≠ []) {leaf : Json} (hleaf : isLeaf leaf = true) :
    found (r.value localeCompare) path = some leaf ↔
      ∃ x value, r.Covers localeCompare x value path ∧ found value.1 (path.drop (splitDots x.path).length) = some leaf := by
  rw [r.value_eq, found_replay_leaf (fun _ => layer_ne_nil) (h.frontsFirst horder) hpath hleaf]
  constructor
  · rintro ⟨hbelow, layer, hsupplies, hfound⟩
    obtain ⟨x, value, hcovers, rfl⟩ := ReplicatedConfiguration.Covers.of_supplies hsupplies hbelow
    exact ⟨x, value, hcovers, hfound⟩
  · rintro ⟨x, value, hcovers, hfound⟩
    obtain ⟨hsupplies, hbelow⟩ := hcovers.supplies
    exact ⟨hbelow, _, hsupplies, hfound⟩

theorem found_none_iff (hpath : path ≠ []) (hbelow : NoneBelow (r.layers localeCompare) path) :
    found (r.value localeCompare) path = none ↔
      ∀ x value, r.Covers localeCompare x value path → found value.1 (path.drop (splitDots x.path).length) = none := by
  constructor
  · intro hnone x value hcovers
    rw [← found_covered h horder hcovers, hnone]
  · intro hcovered
    by_cases hsome : ∃ layer ∈ r.layers localeCompare, layer.1 <+: path
    · obtain ⟨layer, hsupplies⟩ := exists_supplies hsome
      obtain ⟨x, value, hcovers, rfl⟩ := ReplicatedConfiguration.Covers.of_supplies hsupplies hbelow
      rw [found_covered h horder hcovers, hcovered x value hcovers]
    · rw [r.value_eq]
      exact found_replay_none (fun _ => layer_ne_nil) hpath (fun layer hlayer hfront => hsome ⟨layer, hlayer, hfront⟩) hbelow

end Found

/-! ### Tombstones -/

theorem hidden_iff {cells : List (Text × ConfigurationOperation)} : hiddenByParentTombstone localeCompare x cells = true ↔
    ∃ path z, cells.lookup path = some z ∧ Above path x.path ∧ z.deleted = true ∧ 0 ≤ compareVersions localeCompare z.version x.version := by
  unfold hiddenByParentTombstone
  rw [List.any_eq_true]
  constructor
  · rintro ⟨length, hlength, hmatch⟩
    obtain ⟨hone, hlt⟩ := List.mem_range'_1.mp hlength
    split at hmatch
    next z hlookup =>
      simp only [Bool.and_eq_true, decide_eq_true_eq] at hmatch
      have hne : (splitDots x.path).take length ≠ [] := by
        rw [← List.length_pos_iff, List.length_take]
        omega
      have hsplit : splitDots (dotted ((splitDots x.path).take length)) = (splitDots x.path).take length :=
        splitDots_dotted (fun segment hsegment => dot_not_mem_segment (List.mem_of_mem_take hsegment)) hne
      refine ⟨_, z, hlookup, ⟨?_, fun heq => ?_⟩, hmatch.1, hmatch.2⟩
      · rw [hsplit]
        exact List.take_prefix _ _
      · have hsame := congrArg List.length (hsplit.symm.trans (congrArg splitDots heq))
        rw [List.length_take] at hsame
        omega
    next => cases hmatch
  · rintro ⟨path, z, hlookup, habove, hdeleted, hversion⟩
    have hlt : (splitDots path).length < (splitDots x.path).length :=
      lt_of_le_of_ne habove.1.length_le fun heq => habove.ne_segments (habove.1.eq_of_length heq)
    have hpos : 0 < (splitDots path).length := List.length_pos_iff.mpr (splitDots_ne_nil path)
    refine ⟨(splitDots path).length, List.mem_range'_1.mpr ⟨by omega, by omega⟩, ?_⟩
    rw [← List.prefix_iff_eq_take.mp habove.1, dotted_splitDots, hlookup]
    simp only [Bool.and_eq_true, decide_eq_true_eq]
    exact ⟨hdeleted, hversion⟩

/-! ### The version of a write against the versions of the replica -/

section Write
variable (h : Known r seen) {path : Text} {value : Option JsonValue} {deleted : Bool}
include h

theorem Known.actor_eq (hx : x ∈ seen) (hcounter : 2 ^ 53 ≤ x.version.counter) : x.version.actor = r.actorId := by
  rcases (h.wellformed x hx).origin with hvalid | hactor
  · exact absurd (counter_of_valid hvalid) hcounter.not_gt
  · exact hactor

theorem Known.next_nonneg (horder : PathOrder localeCompare) (hx : x ∈ seen) :
    0 ≤ compareVersions localeCompare ⟨r.nextClock, r.actorId⟩ x.version := by
  have hcounter := h.counter x hx
  have hbound := h.bound
  unfold compareVersions ReplicatedConfiguration.nextClock
  dsimp only
  split_ifs with hne
  · omega
  · rw [h.actor_eq hx (by omega), horder.self]

theorem Known.nonneg_next (horder : PathOrder localeCompare) (hx : x ∈ seen) :
    0 ≤ compareVersions localeCompare x.version ⟨r.nextClock, r.actorId⟩ ↔ 2 ^ 53 ≤ x.version.counter := by
  have hcounter := h.counter x hx
  have hbound := h.bound
  unfold compareVersions ReplicatedConfiguration.nextClock
  dsimp only
  split_ifs with hne
  · omega
  · have hend : 2 ^ 53 ≤ x.version.counter := by omega
    rw [h.actor_eq hx hend, horder.self]
    exact ⟨fun _ => hend, fun _ => le_rfl⟩

theorem Known.write (hpath : validateConfigPath path = .ok ()) (hvalue : deleted = false → value.isSome = true) :
    Known (r.write path value deleted).1 ((r.write path value deleted).2 :: seen) :=
  h.grows (write_grows h path value deleted) ⟨hpath, hvalue, .inr rfl⟩

theorem Known.mem_seen (hx : x ∈ r.operations localeCompare) : x ∈ seen :=
  (h.cell _ _ (lookup_mem (h.mem_operations.mp hx))).2

omit h in
theorem hidden_set (y : ConfigurationOperation) : hiddenByParentTombstone localeCompare y (r.write path value false).1.cells =
    hiddenByParentTombstone localeCompare y (mapDelete r.cells path) := by
  rw [Bool.eq_iff_iff, hidden_iff, hidden_iff]
  constructor
  · rintro ⟨path', z, hlookup, habove, hdeleted, hversion⟩
    rw [ReplicatedConfiguration.write, lookup_mapSet] at hlookup
    split_ifs at hlookup with heq
    · obtain rfl := Option.some.inj hlookup
      cases hdeleted
    · exact ⟨path', z, (lookup_mapDelete heq).trans hlookup, habove, hdeleted, hversion⟩
  · rintro ⟨path', z, hlookup, habove, hdeleted, hversion⟩
    have hne : path' ≠ path := by
      rintro rfl
      rw [lookup_mapDelete_self] at hlookup
      cases hlookup
    refine ⟨path', z, ?_, habove, hdeleted, hversion⟩
    rw [ReplicatedConfiguration.write, lookup_mapSet, if_neg hne, ← lookup_mapDelete hne]
    exact hlookup

theorem hidden_delete_below (horder : PathOrder localeCompare) (hx : x ∈ seen) (habove : Above path x.path) :
    hiddenByParentTombstone localeCompare x (r.write path value true).1.cells = true := by
  refine hidden_iff.mpr ⟨path, (r.write path value true).2, ?_, habove, rfl, h.next_nonneg horder hx⟩
  exact lookup_mapSet.trans (if_pos rfl)

omit h in
theorem hidden_delete_other {y : ConfigurationOperation} (hnot : ¬ Above path y.path) :
    hiddenByParentTombstone localeCompare y (r.write path value true).1.cells = hiddenByParentTombstone localeCompare y r.cells := by
  have hlookup : ∀ path', Above path' y.path → (r.write path value true).1.cells.lookup path' = r.cells.lookup path' := by
    intro path' habove
    refine lookup_mapSet.trans (if_neg ?_)
    rintro rfl
    exact hnot habove
  rw [Bool.eq_iff_iff, hidden_iff, hidden_iff]
  constructor
  · rintro ⟨path', z, hz, habove, hrest⟩
    exact ⟨path', z, hlookup path' habove ▸ hz, habove, hrest⟩
  · rintro ⟨path', z, hz, habove, hrest⟩
    exact ⟨path', z, (hlookup path' habove).trans hz, habove, hrest⟩

theorem Known.mem_operations_write (hpath : validateConfigPath path = .ok ()) (hvalue : deleted = false → value.isSome = true)
    {y : ConfigurationOperation} : y ∈ (r.write path value deleted).1.operations localeCompare ↔
      y = (r.write path value deleted).2 ∨ y.path ≠ path ∧ y ∈ r.operations localeCompare := by
  rw [(h.write hpath hvalue).mem_operations, h.mem_operations]
  have hlookup : (r.write path value deleted).1.cells.lookup y.path =
      if y.path = path then some (r.write path value deleted).2 else r.cells.lookup y.path := lookup_mapSet
  rw [hlookup]
  split_ifs with heq
  · constructor
    · intro hsome
      exact .inl (Option.some.inj hsome).symm
    · rintro (rfl | ⟨hne, -⟩)
      · rfl
      · exact absurd heq hne
  · constructor
    · exact fun hy => .inr ⟨heq, hy⟩
    · rintro (rfl | ⟨-, hy⟩)
      · exact absurd rfl heq
      · exact hy

theorem hidden_own (horder : PathOrder localeCompare) :
    hiddenByParentTombstone localeCompare (r.write path value false).2 (r.write path value false).1.cells = true ↔
      ∃ z ∈ r.operations localeCompare, z.deleted = true ∧ Above z.path path ∧ 2 ^ 53 ≤ z.version.counter := by
  rw [hidden_set, hidden_iff]
  constructor
  · rintro ⟨path', z, hlookup, habove, hdeleted, hversion⟩
    have hne : path' ≠ path := habove.2
    rw [lookup_mapDelete hne] at hlookup
    obtain ⟨rfl, hseen⟩ := h.cell _ _ (lookup_mem hlookup)
    exact ⟨z, h.mem_operations.mpr hlookup, hdeleted, habove, (h.nonneg_next horder hseen).mp hversion⟩
  · rintro ⟨z, hz, hdeleted, habove, hcounter⟩
    refine ⟨z.path, z, ?_, habove, hdeleted, (h.nonneg_next horder (h.mem_seen hz)).mpr hcounter⟩
    rw [lookup_mapDelete habove.2]
    exact h.mem_operations.mp hz

end Write

/-! ### Reading back -/

section ReadBack
variable (h : Known r seen) (horder : PathOrder localeCompare) {path : Text} (hpath : validateConfigPath path = .ok ())
include h hpath

theorem shows_set (value : JsonValue) {y : ConfigurationOperation} {value' : JsonValue} :
    (r.write path (some value) false).1.Shows localeCompare y value' ↔
      y = (r.write path (some value) false).2 ∧ value' = value ∧
          hiddenByParentTombstone localeCompare (r.write path (some value) false).2 (r.write path (some value) false).1.cells = false ∨
        y.path ≠ path ∧ y ∈ r.operations localeCompare ∧ y.deleted = false ∧
          hiddenByParentTombstone localeCompare y (mapDelete r.cells path) = false ∧ y.value = some value' := by
  unfold ReplicatedConfiguration.Shows
  rw [h.mem_operations_write hpath fun _ => rfl]
  constructor
  · rintro ⟨rfl | ⟨hne, hy⟩, hlive, hshown, hvalue⟩
    · exact .inl ⟨rfl, (Option.some.inj hvalue).symm, hshown⟩
    · exact .inr ⟨hne, hy, hlive, hidden_set y ▸ hshown, hvalue⟩
  · rintro (⟨rfl, rfl, hshown⟩ | ⟨hne, hy, hlive, hshown, hvalue⟩)
    · exact ⟨.inl rfl, rfl, hshown, rfl⟩
    · exact ⟨.inr ⟨hne, hy⟩, hlive, (hidden_set y).trans hshown, hvalue⟩

include horder

/-- A set is read back, unless the counters of the replica have come to their end, or there is
a set below it that the tombstone at its own path, if any, is all that could hide. -/
theorem set_reads_back :
    (∀ value r' operation, r.set path (some value) = .ok (r', operation) →
      found (r'.value localeCompare) (splitDots path) = some value.1) ↔
    (∀ z ∈ r.operations localeCompare, z.deleted = true → Above z.path path → z.version.counter < 2 ^ 53) ∧
      ∀ y ∈ r.operations localeCompare, y.deleted = false → Above path y.path →
        hiddenByParentTombstone localeCompare y (mapDelete r.cells path) = true := by
  have hknown : ∀ value : JsonValue, Known (r.write path (some value) false).1 _ := fun value => h.write hpath fun _ => rfl
  constructor
  · intro hreads
    have hset : ∀ value : JsonValue, validateConfigurationValue path value.1 = .ok () →
        found ((r.write path (some value) false).1.value localeCompare) (splitDots path) = some value.1 := by
      intro value hvalue
      exact hreads value _ _ (bind_unit_ok.mpr ⟨hpath, bind_unit_ok.mpr ⟨hvalue, rfl⟩⟩)
    have hnull := hset ⟨.null, .null⟩ rfl
    constructor
    · intro z hz hdeleted habove
      by_contra hcounter
      have hown : ∀ value, hiddenByParentTombstone localeCompare (r.write path value false).2 (r.write path value false).1.cells = true :=
        fun value => (hidden_own h horder).mpr ⟨z, hz, hdeleted, habove, not_lt.mp hcounter⟩
      -- the view is the same whatever is set
      obtain ⟨x, value, hcovers, hleaf⟩ := (found_leaf_iff (hknown _) horder (splitDots_ne_nil path) rfl).mp hnull
      have hsame : ∀ {y value'}, (r.write path (some ⟨.bool true, .bool true⟩) false).1.Shows localeCompare y value' ↔
          (r.write path (some ⟨.null, .null⟩) false).1.Shows localeCompare y value' := by
        intro y value'
        rw [shows_set h hpath, shows_set h hpath, hown, hown]
        simp only [Bool.true_eq_false, and_false, false_or]
      have hcovers' : (r.write path (some ⟨.bool true, .bool true⟩) false).1.Covers localeCompare x value (splitDots path) :=
        ⟨hsame.mpr hcovers.shows, hcovers.front, fun y value' hy => hcovers.longest y value' (hsame.mp hy),
          fun y value' hy => hcovers.below y value' (hsame.mp hy)⟩
      have htrue := hset ⟨.bool true, .bool true⟩ rfl
      rw [found_covered (hknown _) horder hcovers', hleaf] at htrue
      cases htrue
    · intro y hy hlive habove
      by_contra hshown
      obtain ⟨value, hvalue⟩ := Option.isSome_iff_exists.mp ((h.wellformed y (h.mem_seen hy)).value hlive)
      have hshows := (shows_set h hpath ⟨.null, .null⟩).mpr
        (.inr ⟨habove.2.symm, hy, hlive, Bool.not_eq_true _ ▸ hshown, hvalue⟩)
      obtain ⟨fields, -, hobject⟩ := found_above (hknown _) horder hshows habove.1 habove.ne_segments
      rw [hnull] at hobject
      cases hobject
  · rintro ⟨hcounters, hbelow⟩ value r' operation hset
    obtain ⟨-, hset⟩ := bind_unit_ok.mp hset
    obtain ⟨-, hset⟩ := bind_unit_ok.mp hset
    obtain ⟨rfl, rfl⟩ := Prod.mk.inj (Except.ok.inj hset)
    have hown : hiddenByParentTombstone localeCompare (r.write path (some value) false).2 (r.write path (some value) false).1.cells = false := by
      rw [← Bool.not_eq_true, hidden_own h horder]
      rintro ⟨z, hz, hdeleted, habove, hcounter⟩
      exact (hcounters z hz hdeleted habove).not_ge hcounter
    have hcovers : (r.write path (some value) false).1.Covers localeCompare (r.write path (some value) false).2 value (splitDots path) := by
      refine ⟨(shows_set h hpath value).mpr (.inl ⟨rfl, rfl, hown⟩), List.prefix_refl _, fun _ _ _ hfront => hfront, ?_⟩
      intro y value' hy hfront
      by_contra hne
      rcases (shows_set h hpath value).mp hy with ⟨rfl, -⟩ | ⟨-, hy, hlive, hshown, -⟩
      · exact hne rfl
      · rw [hbelow y hy hlive ⟨hfront, fun heq => hne (congrArg splitDots heq)⟩] at hshown
        cases hshown
    have hfound := found_covered (hknown value) horder hcovers
    have hrest : (splitDots path).drop (splitDots (r.write path (some value) false).2.path).length = [] := List.drop_length
    rw [hrest] at hfound
    exact hfound

/-- A path is empty after a delete, unless the closest set that is shown above it has something
there. -/
theorem delete_reads_back :
    (∀ r' operation, r.delete path = .ok (r', operation) → found (r'.value localeCompare) (splitDots path) = none) ↔
    ∀ y value, r.Shows localeCompare y value → Above y.path path →
      (∀ z value', r.Shows localeCompare z value' → Above z.path path → splitDots z.path <+: splitDots y.path) →
      found value.1 ((splitDots path).drop (splitDots y.path).length) = none := by
  have hknown : Known (r.write path none true).1 _ := h.write hpath fun hlive => by cases hlive
  have hdelete : ∀ {r' operation}, r.delete path = .ok (r', operation) ↔ (r', operation) = r.write path none true := by
    intro r' operation
    constructor
    · intro hcall
      exact (Except.ok.inj (bind_unit_ok.mp hcall).2).symm
    · intro hwrite
      exact bind_unit_ok.mpr ⟨hpath, congrArg Except.ok hwrite.symm⟩
  have hnone : NoneBelow ((r.write path none true).1.layers localeCompare) (splitDots path) := by
    intro layer hlayer hfront
    obtain ⟨x, value, ⟨hx, hlive, hshown, -⟩, rfl⟩ := mem_layers.mp hlayer
    by_contra hne
    rcases (h.mem_operations_write hpath fun hlive => by cases hlive).mp hx with rfl | ⟨-, hx⟩
    · cases hlive
    · rw [hidden_delete_below h horder (h.mem_seen hx) ⟨hfront, fun heq => hne (congrArg splitDots heq)⟩] at hshown
      cases hshown
  -- what leads to the path is shown as before
  have hshows : ∀ {y value}, (r.write path none true).1.Shows localeCompare y value ∧ splitDots y.path <+: splitDots path ↔
      r.Shows localeCompare y value ∧ Above y.path path := by
    intro y value
    have hother : splitDots y.path <+: splitDots path → hiddenByParentTombstone localeCompare y (r.write path none true).1.cells =
        hiddenByParentTombstone localeCompare y r.cells := by
      intro hfront
      exact hidden_delete_other fun habove => habove.2 (splitDots_injective (habove.1.eq_of_length_le hfront.length_le))
    unfold ReplicatedConfiguration.Shows
    rw [h.mem_operations_write hpath fun hlive => by cases hlive]
    constructor
    · rintro ⟨⟨rfl | ⟨hne, hy⟩, hlive, hshown, hvalue⟩, hfront⟩
      · cases hlive
      · exact ⟨⟨hy, hlive, hother hfront ▸ hshown, hvalue⟩, hfront, hne⟩
    · rintro ⟨⟨hy, hlive, hshown, hvalue⟩, hfront, hne⟩
      exact ⟨⟨.inr ⟨hne, hy⟩, hlive, (hother hfront).trans hshown, hvalue⟩, hfront⟩
  have hiff := found_none_iff hknown horder (splitDots_ne_nil path) hnone
  constructor
  · intro hreads y value hy habove hclosest
    obtain ⟨hy', hfront⟩ := hshows.mpr ⟨hy, habove⟩
    refine hiff.mp (hreads _ _ (hdelete.mpr rfl)) y value ⟨hy', hfront, fun z value' hz hfront' => ?_, fun z value' hz => ?_⟩
    · obtain ⟨hz, habove'⟩ := hshows.mp ⟨hz, hfront'⟩
      exact hclosest z value' hz habove'
    · exact hnone _ (mem_layers.mpr ⟨z, value', hz, rfl⟩)
  · intro hclosest r' operation hcall
    obtain ⟨rfl, rfl⟩ := Prod.mk.inj (hdelete.mp hcall)
    refine hiff.mpr fun y value hcovers => ?_
    obtain ⟨hy, habove⟩ := hshows.mp ⟨hcovers.shows, hcovers.front⟩
    refine hclosest y value hy habove fun z value' hz habove' => ?_
    obtain ⟨hz, hfront⟩ := hshows.mpr ⟨hz, habove'⟩
    exact hcovers.longest z value' hz hfront

end ReadBack

theorem showsNewest_iff (h : Known r seen) (horder : PathOrder localeCompare) : r.ShowsNewest localeCompare ↔
    ∀ x value path leaf, r.Covers localeCompare x value path → isLeaf leaf = true →
      found value.1 (path.drop (splitDots x.path).length) = some leaf → ∃ x', r.Decides localeCompare x' path leaf := by
  constructor
  · intro hshows x value path leaf hcovers hleaf hfound
    have hpath : path ≠ [] := by
      rintro rfl
      exact splitDots_ne_nil x.path (List.prefix_nil.mp hcovers.front)
    exact hshows path hpath leaf hleaf ((found_leaf_iff h horder hpath hleaf).mpr ⟨x, value, hcovers, hfound⟩)
  · intro hcovered path hpath leaf hleaf hfound
    obtain ⟨x, value, hcovers, hleaf'⟩ := (found_leaf_iff h horder hpath hleaf).mp hfound
    exact hcovered x value path leaf hcovers hleaf hleaf'

/-- When a replica reads its writes back, and when it shows nothing that is out of date. -/
theorem view_reads_back (horder : PathOrder localeCompare) (history : History) :
    (∀ path, validateConfigPath path = .ok () →
      ((∀ value r' operation, (history.replica localeCompare).set path (some value) = .ok (r', operation) →
          found (r'.value localeCompare) (splitDots path) = some value.1) ↔
        (∀ z ∈ (history.replica localeCompare).operations localeCompare, z.deleted = true → Above z.path path →
            z.version.counter < 2 ^ 53) ∧
          ∀ y ∈ (history.replica localeCompare).operations localeCompare, y.deleted = false → Above path y.path →
            hiddenByParentTombstone localeCompare y (mapDelete (history.replica localeCompare).cells path) = true) ∧
      ((∀ r' operation, (history.replica localeCompare).delete path = .ok (r', operation) →
          found (r'.value localeCompare) (splitDots path) = none) ↔
        ∀ y value, (history.replica localeCompare).Shows localeCompare y value → Above y.path path →
          (∀ z value', (history.replica localeCompare).Shows localeCompare z value' → Above z.path path →
            splitDots z.path <+: splitDots y.path) →
          found value.1 ((splitDots path).drop (splitDots y.path).length) = none)) ∧
    ((history.replica localeCompare).ShowsNewest localeCompare ↔
      ∀ x value path leaf, (history.replica localeCompare).Covers localeCompare x value path → isLeaf leaf = true →
        found value.1 (path.drop (splitDots x.path).length) = some leaf →
        ∃ x', (history.replica localeCompare).Decides localeCompare x' path leaf) :=
  ⟨fun _ hpath => ⟨set_reads_back history.known horder hpath, delete_reads_back history.known horder hpath⟩,
    showsNewest_iff history.known horder⟩

end

theorem pathOrder_compareCodeUnits : PathOrder compareCodeUnits where
  self := localeOrder_compareCodeUnits.self
  swap := localeOrder_compareCodeUnits.swap
  trans := localeOrder_compareCodeUnits.trans
  front path path' _ _ hfront hne := by
    have htext : path <+: path' := by
      rw [← dotted_splitDots path, ← dotted_splitDots path']
      exact dotted_front hfront
    unfold compareCodeUnits
    rw [if_pos (codeUnits_lt_of_front htext hne)]
    decide

theorem emptyObject_wellFormed : (Json.object []).WellFormed := .object List.Pairwise.nil fun _ h => absurd h List.not_mem_nil

theorem true_wellFormed : (Json.bool true).WellFormed := .bool true

theorem object_wellFormed : (Json.object [(['b'], .bool true)]).WellFormed := by
  refine .object (List.pairwise_singleton _ _) fun field hfield => ?_
  rw [List.mem_singleton.mp hfield]
  exact true_wellFormed

theorem actor_not_blank : isBlank ['l'] = false := rfl

def childFirst : History := .called (.created ⟨['l'], actor_not_blank⟩) (.set "a.b".toList (some ⟨.bool true, true_wellFormed⟩))

def objectFirst : History := .called (.created ⟨['l'], actor_not_blank⟩) (.set ['a'] (some ⟨.object [(['b'], .bool true)], object_wellFormed⟩))

def childDeleted : History := .called (.called childFirst (.set "a.c".toList (some ⟨.bool true, true_wellFormed⟩))) (.delete ['a'])

/-- The set of a child is read back below the tombstone of its parent. -/
theorem view_reads_back_below : PathOrder compareCodeUnits ∧ validateConfigPath "a.b".toList = .ok () ∧
    ∀ value r' operation, (childDeleted.replica compareCodeUnits).set "a.b".toList (some value) = .ok (r', operation) →
      found (r'.value compareCodeUnits) (splitDots "a.b".toList) = some value.1 := by
  have hcounters : ∀ z ∈ (childDeleted.replica compareCodeUnits).operations compareCodeUnits, z.version.counter < 2 ^ 53 := by
    decide +kernel
  have hpaths : ∀ y ∈ (childDeleted.replica compareCodeUnits).operations compareCodeUnits,
      splitDots "a.b".toList <+: splitDots y.path → "a.b".toList = y.path := by decide +kernel
  refine ⟨pathOrder_compareCodeUnits, rfl, ?_⟩
  refine ((view_reads_back pathOrder_compareCodeUnits childDeleted).1 "a.b".toList rfl).1.mpr ⟨?_, ?_⟩
  · exact fun z hz _ _ => hcounters z hz
  · exact fun y hy _ habove => absurd (hpaths y hy habove.1) habove.2

theorem view_out_of_date :
    (∃ r' operation, (childFirst.replica compareCodeUnits).set ['a'] (some ⟨.object [], emptyObject_wellFormed⟩) = .ok (r', operation) ∧
      found (r'.value compareCodeUnits) [['a']] = some (.object [(['b'], .bool true)])) ∧
    ∃ r' operation, (objectFirst.replica compareCodeUnits).delete "a.b".toList = .ok (r', operation) ∧
      found (r'.value compareCodeUnits) [['a'], ['b']] = some (.bool true) :=
  ⟨⟨_, _, rfl, rfl⟩, ⟨_, _, rfl, rfl⟩⟩

end OxScada.Scaling
