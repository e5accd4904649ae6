import OxScada.Edge.MergeLaws

/-! When the merge of two configurations keeps the later leaf. A leaf of one replica may lie
above a leaf of the other: both then have a version in the result, but the data has only the
lower one, however old it is. -/

namespace OxScada.Edge
open OxScada.Bytes OxScada.Js OxScada.Order

/-! ### What the merge should keep -/

section Laws
variable (localeCompare : Text → Text → ℤ)

def FieldVersion.IsNewer (version other : FieldVersion) : Prop := ∃ comparison, compareVersions localeCompare version other = .ok comparison ∧ 0 < comparison

/-- Where a leaf is newer than one of the other replica at the same path, above it or below it,
the result has not the older one in its place. -/
def Keeps (newer older merged : EdgeReplicaValue) (versions : VersionMap) : Prop :=
  ∀ path other v w, path <+: other ∨ other <+: path → leafBelow newer.data path = some v → leafBelow older.data other = some w →
    (newer.normalizedVersion (dotted path)).IsNewer localeCompare (older.normalizedVersion (dotted other)) →
    ¬ (leafBelow merged.data other = some w ∧ (dotted other, older.normalizedVersion (dotted other)) ∈ versions)

/-- The merge returns, the leaves of the result are what has a version, and newer leaves are
kept. -/
def LeafLaws (local' remote : EdgeReplicaValue) : Prop :=
  ∃ merged versions, mergeConfigurationConflict localeCompare local' remote = .ok merged ∧ merged.fieldVersions = some versions ∧
    (∀ path, (leafBelow merged.data (splitDots path)).isSome = true ↔ path ∈ versions.map (·.1)) ∧
    Keeps localeCompare local' remote merged versions ∧ Keeps localeCompare remote local' merged versions

end Laws

/-- No leaf of the configuration lies above a leaf of the other. -/
def EdgeReplicaValue.NoneAbove (value other : EdgeReplicaValue) : Prop :=
  ∀ path below, path <+: below → (leafBelow value.data path).isSome = true → (leafBelow other.data below).isSome = true → path = below

/-! ### Leaves and versions of the result -/

section Result
variable {localeCompare : Text → Text → ℤ} {a b : Replica}

theorem merge_leaves (localeCompare : Text → Text → ℤ) (h : NoInheritedVersions [a.value, b.value]) :
    ∃ merged versions, mergeConfigurationConflict localeCompare a.value b.value = .ok merged ∧ merged.fieldVersions = some versions ∧
      (∀ segments v, leafBelow merged.data segments = some v ↔ ∃ e, prune (joined localeCompare a b) ⟨segments⟩ = some e ∧ e.value = v) ∧
      ∀ path version, (path, version) ∈ versions ↔ ∃ e, joined localeCompare a b ⟨splitDots path⟩ = some e ∧ e.version = version := by
  obtain ⟨localFlat, remoteFlat, sorted, ha, hb, -, hmerge⟩ := exists_mergeResult localeCompare h
  refine ⟨_, _, hmerge, rfl, fun segments v => mergeResult_leaf ha hb, fun path version => ?_⟩
  rw [List.mem_map]
  constructor
  · rintro ⟨field, hfield, heq⟩
    obtain ⟨rfl, rfl⟩ := Prod.mk.inj heq
    obtain ⟨e, he, hvalue⟩ := (mem_joinedFields ha hb).mp hfield
    exact ⟨e, he, by rw [hvalue]⟩
  · rintro ⟨e, he, rfl⟩
    exact ⟨(path, e.value, e.version), (mem_joinedFields ha hb).mpr ⟨e, he, rfl⟩, rfl⟩

theorem entries_isSome (h : a.Complete) {segments : List Text} (hleaf : (leafBelow a.value.data segments).isSome = true) :
    (a.entries ⟨segments⟩).isSome = true := by
  have hvalue := leafBelow_eq_entries h ⟨segments⟩
  rw [hvalue, Option.isSome_map] at hleaf
  exact hleaf

theorem noneAbove_of_keys (h : NoInheritedVersions [a.value, b.value]) {value other : Replica}
    (hvalue : value = a ∨ value = b) (hother : other = a ∨ other = b) {merged : EdgeReplicaValue} {versions : VersionMap}
    (hmerge : mergeConfigurationConflict localeCompare a.value b.value = .ok merged) (hversions : merged.fieldVersions = some versions)
    (hkeys : ∀ path, (leafBelow merged.data (splitDots path)).isSome = true ↔ path ∈ versions.map (·.1)) :
    value.value.NoneAbove other.value := by
  obtain ⟨merged', versions', hmerge', hversions', hleaves, hmem⟩ := merge_leaves localeCompare h
  obtain rfl := Except.ok.inj (hmerge'.symm.trans hmerge)
  obtain rfl := Option.some.inj (hversions'.symm.trans hversions)
  have hcomplete : ∀ {r : Replica}, r = a ∨ r = b → r.Complete := by
    rintro r (rfl | rfl)
    · exact h.complete (by simp)
    · exact h.complete (by simp)
  have hjoined : ∀ {r : Replica} {segments}, r = a ∨ r = b → (leafBelow r.value.data segments).isSome = true →
      (joined localeCompare a b ⟨segments⟩).isSome = true := by
    intro r segments hr hleaf
    have hentry := entries_isSome (hcomplete hr) hleaf
    rw [joined, joinAt_isSome]
    rcases hr with rfl | rfl
    · exact .inl hentry
    · exact .inr hentry
  intro path below hprefix hleaf hleaf'
  obtain ⟨e, he⟩ := Option.isSome_iff_exists.mp (hjoined hvalue hleaf)
  have hsplit := splitDots_dotted_valid (joined_path he).2 (joined_path he).1
  have hkey : dotted path ∈ versions'.map (·.1) := by
    refine List.mem_map.mpr ⟨(dotted path, e.version), (hmem _ _).mpr ⟨e, ?_, rfl⟩, rfl⟩
    rw [hsplit]
    exact he
  have hstays := (hkeys (dotted path)).mpr hkey
  rw [hsplit] at hstays
  obtain ⟨v, hv⟩ := Option.isSome_iff_exists.mp hstays
  obtain ⟨e', he', -⟩ := (hleaves path v).mp hv
  by_contra hne
  refine (prune_eq_some.mp he').1 ⟨⟨below⟩, lt_of_le_of_ne hprefix fun heq => hne (congrArg Path.segments heq), hjoined hother hleaf'⟩

end Result

/-! ### Newer leaves -/

section Newer
variable {localeCompare : Text → Text → ℤ} {x y : Entry}

theorem compareVersions_entry (x y : Entry) : compareVersions localeCompare x.version y.version =
    .ok (if x.timestamp - y.timestamp = 0 then localeCompare x.origin y.origin else x.timestamp - y.timestamp) := by
  unfold compareVersions
  have hdifference : timeDifference x.version.timestamp y.version.timestamp = x.timestamp - y.timestamp := rfl
  rw [hdifference]
  split_ifs <;> rfl

theorem isNewer_iff : x.version.IsNewer localeCompare y.version ↔
    y.timestamp < x.timestamp ∨ y.timestamp = x.timestamp ∧ 0 < localeCompare x.origin y.origin := by
  unfold FieldVersion.IsNewer
  rw [compareVersions_entry]
  constructor
  · rintro ⟨comparison, hok, hpos⟩
    rw [← Except.ok.inj hok] at hpos
    split_ifs at hpos with hsame
    · exact .inr ⟨by omega, hpos⟩
    · exact .inl (by omega)
  · rintro (hlt | ⟨heq, hpos⟩)
    · refine ⟨_, rfl, ?_⟩
      rw [if_neg (by omega)]
      omega
    · refine ⟨_, rfl, ?_⟩
      rw [if_pos (by omega)]
      exact hpos

theorem comparison_of_newer (hswap : ∀ s t, 0 < localeCompare s t ↔ localeCompare t s < 0)
    (h : x.version.IsNewer localeCompare y.version) : 0 < x.comparison localeCompare y ∧ y.comparison localeCompare x < 0 := by
  unfold Entry.comparison
  rcases isNewer_iff.mp h with hlt | ⟨heq, hpos⟩
  · rw [if_pos (by omega), if_pos (by omega)]
    exact ⟨by omega, by omega⟩
  · have hneg := (hswap _ _).mp hpos
    have hzero : ¬ x.timestamp - y.timestamp ≠ 0 := by omega
    have hzero' : ¬ y.timestamp - x.timestamp ≠ 0 := by omega
    rw [if_neg hzero, if_neg hzero', if_pos hpos.ne', if_pos hneg.ne]
    exact ⟨hpos, hneg⟩

theorem version_ne_of_newer (hself : ∀ s, localeCompare s s = 0) (h : x.version.IsNewer localeCompare y.version) :
    x.version ≠ y.version := by
  intro heq
  rw [heq] at h
  rcases isNewer_iff.mp h with hlt | ⟨-, hpos⟩
  · exact lt_irrefl _ hlt
  · exact hpos.ne' (hself _)

end Newer

/-! ### When the laws hold -/

section Sufficient
variable {localeCompare : Text → Text → ℤ} {a b : Replica}

theorem joined_not_covered (hab : a.value.NoneAbove b.value) (hba : b.value.NoneAbove a.value) {path : Path} {e : Entry}
    (h : joined localeCompare a b path = some e) : ¬ Covered (joined localeCompare a b) path := by
  have hleaf : ∀ {r : Replica} {q : Path} {e : Entry}, r.entries q = some e → (leafBelow r.value.data q.segments).isSome = true :=
    fun hr => Option.isSome_iff_exists.mpr ⟨_, (entries_some.mp hr).1⟩
  rintro ⟨below, hlt, hsome⟩
  obtain ⟨e', he'⟩ := Option.isSome_iff_exists.mp hsome
  have hsame : path.segments ≠ below.segments := fun heq => hlt.ne (congrArg Path.mk heq)
  rcases joined_cases h with h | h <;> rcases joined_cases he' with he' | he'
  · exact entries_not_covered h ⟨below, hlt, he' ▸ rfl⟩
  · exact hsame (hab _ _ hlt.le (hleaf h) (hleaf he'))
  · exact hsame (hba _ _ hlt.le (hleaf h) (hleaf he'))
  · exact entries_not_covered h ⟨below, hlt, he' ▸ rfl⟩

theorem keeps_of_joined (hself : ∀ s, localeCompare s s = 0) {newer older : Replica} (hnewer : newer.Complete) (holder : older.Complete)
    (habove : newer.value.NoneAbove older.value) (hbelow : older.value.NoneAbove newer.value) {merged : EdgeReplicaValue} {versions : VersionMap}
    (hversions : ∀ path version, (path, version) ∈ versions → ∃ e, joined localeCompare a b ⟨splitDots path⟩ = some e ∧ e.version = version)
    (hchoice : ∀ path x y, newer.entries path = some x → older.entries path = some y → x.version.IsNewer localeCompare y.version →
      joined localeCompare a b path = some x) : Keeps localeCompare newer.value older.value merged versions := by
  rintro path other v w hcomparable hv hw hnew ⟨-, hmem⟩
  have hleaf : (leafBelow newer.value.data path).isSome = true := hv ▸ rfl
  have hleaf' : (leafBelow older.value.data other).isSome = true := hw ▸ rfl
  obtain rfl : path = other := by
    rcases hcomparable with hprefix | hprefix
    · exact habove path other hprefix hleaf hleaf'
    · exact (hbelow other path hprefix hleaf' hleaf).symm
  obtain ⟨x, hx⟩ := Option.isSome_iff_exists.mp (entries_isSome hnewer hleaf)
  obtain ⟨y, hy⟩ := Option.isSome_iff_exists.mp (entries_isSome holder hleaf')
  have hversion := (entries_some.mp hx).2
  have hversion' := (entries_some.mp hy).2
  dsimp only at hversion hversion'
  rw [hversion, hversion'] at hnew
  obtain ⟨e, he, heq⟩ := hversions _ _ hmem
  rw [splitDots_dotted_valid (entry_path hx).2 (entry_path hx).1, hchoice _ x y hx hy hnew] at he
  rw [← Option.some.inj he, hversion'] at heq
  exact version_ne_of_newer hself hnew heq

theorem leafLaws_of_noneAbove (hself : ∀ s, localeCompare s s = 0) (hswap : ∀ s t, 0 < localeCompare s t ↔ localeCompare t s < 0)
    (h : NoInheritedVersions [a.value, b.value]) (hab : a.value.NoneAbove b.value) (hba : b.value.NoneAbove a.value) :
    LeafLaws localeCompare a.value b.value := by
  obtain ⟨merged, versions, hmerge, hversions, hleaves, hmem⟩ := merge_leaves localeCompare h
  have hca : a.Complete := h.complete (by simp)
  have hcb : b.Complete := h.complete (by simp)
  refine ⟨merged, versions, hmerge, hversions, fun path => ?_, ?_, ?_⟩
  · rw [Option.isSome_iff_exists, List.mem_map]
    constructor
    · rintro ⟨v, hv⟩
      obtain ⟨e, he, -⟩ := (hleaves _ v).mp hv
      exact ⟨(path, e.version), (hmem _ _).mpr ⟨e, (prune_eq_some.mp he).2, rfl⟩, rfl⟩
    · rintro ⟨⟨path', version⟩, hentry, rfl⟩
      obtain ⟨e, he, -⟩ := (hmem _ _).mp hentry
      exact ⟨e.value, (hleaves _ _).mpr ⟨e, prune_eq_some.mpr ⟨joined_not_covered hab hba he, he⟩, rfl⟩⟩
  · refine keeps_of_joined hself hca hcb hab hba (fun path version => (hmem path version).mp) fun path x y hx hy hnew => ?_
    have hle : Entry.le localeCompare y x := (comparison_of_newer hswap hnew).1.le
    rw [joined, joinAt, hx, hy]
    exact congrArg some (greater_of_le hle)
  · refine keeps_of_joined hself hcb hca hba hab (fun path version => (hmem path version).mp) fun path x y hx hy hnew => ?_
    have hle : ¬ Entry.le localeCompare x y := not_le.mpr (comparison_of_newer hswap hnew).2
    rw [joined, joinAt, hx, hy]
    exact congrArg some (greater_of_not_le hle)

end Sufficient

section Exact
variable {localeCompare : Text → Text → ℤ}

theorem noInherited_of_laws {a b : Replica} (hab : LeafLaws localeCompare a.value b.value) (hba : LeafLaws localeCompare b.value a.value) :
    NoInheritedVersions [a.value, b.value] := by
  obtain ⟨_, _, hmerge, -⟩ := hab
  obtain ⟨_, _, hmerge', -⟩ := hba
  have hboth : ∀ name ∈ objectPrototypeNames, a.value.HasLeaf name ∨ b.value.HasLeaf name → a.value.HasLeaf name ∧ b.value.HasLeaf name := by
    rintro name hname (hleaf | hleaf)
    · exact ⟨hleaf, merge_hasLeaf hmerge hname hleaf⟩
    · exact ⟨merge_hasLeaf hmerge' hname hleaf, hleaf⟩
  rintro name hname ⟨value, hvalue, hleaf⟩
  have hleaves : a.value.HasLeaf name ∧ b.value.HasLeaf name := by
    refine hboth name hname ?_
    rcases List.mem_pair.mp hvalue with rfl | rfl
    · exact .inl hleaf
    · exact .inr hleaf
  intro value' hvalue'
  rcases List.mem_pair.mp hvalue' with rfl | rfl
  · exact ⟨hleaves.1, merge_ownVersion hmerge hname hleaves.1⟩
  · exact ⟨hleaves.2, merge_ownVersion hmerge' hname hleaves.2⟩

/-- Merging two configurations, in either order, keeps the leaves with their versions and the
newer of them, exactly if no leaf of one lies above a leaf of the other and no version is looked
up under the name of an inherited property. -/
theorem merge_leaves_iff (hself : ∀ s, localeCompare s s = 0) (hswap : ∀ s t, 0 < localeCompare s t ↔ localeCompare t s < 0)
    (a b : Replica) : LeafLaws localeCompare a.value b.value ∧ LeafLaws localeCompare b.value a.value ↔
      NoInheritedVersions [a.value, b.value] ∧ a.value.NoneAbove b.value ∧ b.value.NoneAbove a.value := by
  constructor
  · rintro ⟨hab, hba⟩
    have h := noInherited_of_laws hab hba
    obtain ⟨merged, versions, hmerge, hversions, hkeys, -⟩ := hab
    exact ⟨h, noneAbove_of_keys h (.inl rfl) (.inr rfl) hmerge hversions hkeys,
      noneAbove_of_keys h (.inr rfl) (.inl rfl) hmerge hversions hkeys⟩
  · rintro ⟨h, hab, hba⟩
    have hswapped : NoInheritedVersions [b.value, a.value] := h.subset (by simp)
    exact ⟨leafLaws_of_noneAbove hself hswap h hab hba, leafLaws_of_noneAbove hself hswap hswapped hba hab⟩

end Exact

/-! ### An older leaf that stays -/

theorem leafBelow_fieldReplica {key : Text} {value : Json} {timestamp : ℤ} {hkey : isValidKey key = true} {hwell : value.WellFormed}
    {hvalid : validateConfigurationObject value = .ok ()} (hleaf : isLeaf value = true) {segments : List Text}
    (h : (leafBelow (fieldReplica key value timestamp hkey hwell hvalid).value.data segments).isSome = true) : segments = [key] := by
  obtain ⟨v, hv⟩ := Option.isSome_iff_exists.mp h
  obtain ⟨hne, hat⟩ := leafBelow_some.mp hv
  obtain ⟨segment, rest, rfl⟩ := List.exists_cons_of_ne_nil hne
  obtain ⟨child, hget, hchild⟩ := leafAt_cons.mp hat
  obtain heq := List.mem_singleton.mp (Fields.mem_of_get? hget)
  obtain ⟨rfl, rfl⟩ := Prod.mk.inj heq
  cases rest with
  | nil => rfl
  | cons next rest =>
    rw [leafAt_cons_leaf hleaf] at hchild
    cases hchild

theorem merge_leaves_level : LeafLaws compareCodeUnits levelReplica.value modeReplica.value ∧
    LeafLaws compareCodeUnits modeReplica.value levelReplica.value := by
  have hcompare := localeOrder_compareCodeUnits
  refine (merge_leaves_iff hcompare.self hcompare.swap levelReplica modeReplica).mpr ⟨?_, ?_, ?_⟩
  · have hnone : ∀ name ∈ objectPrototypeNames, ∀ value ∈ [levelReplica.value, modeReplica.value],
        (leafAt value.data [name]).isSome = false := by decide +kernel
    rintro name hname ⟨value, hvalue, hleaf⟩
    exact absurd hleaf (Bool.eq_false_iff.mp (hnone name hname value hvalue))
  · intro path below hprefix hleaf hleaf'
    rw [leafBelow_fieldReplica rfl hleaf, leafBelow_fieldReplica rfl hleaf'] at hprefix
    exact absurd hprefix (by decide +kernel)
  · intro path below hprefix hleaf hleaf'
    rw [leafBelow_fieldReplica rfl hleaf, leafBelow_fieldReplica rfl hleaf'] at hprefix
    exact absurd hprefix (by decide +kernel)

theorem isValidKey_level : isValidKey "level".toList = true := by decide +kernel

theorem wellFormed_true : (Json.bool true).WellFormed := .bool true

theorem valid_true : validateConfigurationObject (.bool true) = .ok () := rfl

def lateReplica : Replica := fieldReplica "level".toList (.bool true) 3 isValidKey_level wellFormed_true valid_true

/-- The paths in the order of the result, and whether they are leaves of its data. -/
def leafTable : Except EdgeError EdgeReplicaValue → Option (List (Text × Bool))
  | .ok value => value.fieldVersions.map fun versions =>
    versions.map fun entry => (entry.1, (leafBelow value.data (splitDots entry.1)).isSome)
  | .error _ => none

/-- The newer leaf `level` has a version in the result, but the data has the older `level.high` in
its place. -/
theorem newer_leaf_replaced :
    leafTable (mergeConfigurationConflict compareCodeUnits lateReplica.value highReplica.value) =
      some [("level".toList, false), ("level.high".toList, true)] ∧
    ¬ ∀ localeCompare, (∀ s, localeCompare s s = 0) → (∀ s t, 0 < localeCompare s t ↔ localeCompare t s < 0) →
      ∀ a b : Replica, LeafLaws localeCompare a.value b.value := by
  have htable : leafTable (mergeConfigurationConflict compareCodeUnits lateReplica.value highReplica.value) =
      some [("level".toList, false), ("level.high".toList, true)] := by decide +kernel
  refine ⟨htable, fun h => ?_⟩
  have hcompare := localeOrder_compareCodeUnits
  obtain ⟨merged, versions, hmerge, hversions, hkeys, -⟩ := h _ hcompare.self hcompare.swap lateReplica highReplica
  rw [hmerge, leafTable, hversions, Option.map_some] at htable
  have hmem : ("level".toList, false) ∈ versions.map fun entry => (entry.1, (leafBelow merged.data (splitDots entry.1)).isSome) := by
    rw [Option.some.inj htable]
    exact List.mem_cons_self
  obtain ⟨entry, hentry, heq⟩ := List.mem_map.mp hmem
  have hleaf := (hkeys entry.1).mpr (List.mem_map_of_mem hentry)
  rw [(Prod.mk.inj heq).2] at hleaf
  cases hleaf

end OxScada.Edge
