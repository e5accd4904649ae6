import OxScada.Edge.Entries

/-! Merging configurations as a join. The merged configuration has the later leaf at every
path, pruned to the paths that have nothing below them. -/

namespace OxScada.Edge
open OxScada.Bytes OxScada.Js OxScada.Order

/-! ### The merge -/

theorem mapM_ok {α β : Type} {f : α → Except EdgeError β} {g : α → Option β} {l : List α}
    (h : ∀ x ∈ l, ∃ y, g x = some y ∧ f x = .ok y) : l.mapM f = .ok (l.filterMap g) := by
  induction l with
  | nil => rfl
  | cons x l ih =>
    obtain ⟨⟨y, hg, hf⟩, hrest⟩ := List.forall_mem_cons.mp h
    rw [List.mapM_cons, hf, ih hrest, List.filterMap_cons_some hg]
    rfl

section Versions
variable {localeCompare : Text → Text → ℤ}

theorem compareVersions_ok {left right : FieldVersion} (h : left.Proper) :
    ∃ comparison, compareVersions localeCompare left right = .ok comparison := by
  obtain ⟨origin, horigin, -⟩ := isMissing_eq_false.mp h.2
  unfold compareVersions
  split_ifs
  · rw [horigin]
    exact ⟨_, rfl⟩
  · exact ⟨_, rfl⟩

theorem insertVersion_ok {version : FieldVersion} {versions : List FieldVersion} (h : ∀ v ∈ versions, v.Proper) :
    ∃ sorted, insertVersion localeCompare version versions = .ok sorted ∧ sorted.Perm (version :: versions) := by
  induction versions with
  | nil => exact ⟨[version], rfl, List.Perm.refl _⟩
  | cons next rest ih =>
    obtain ⟨hnext, hrest⟩ := List.forall_mem_cons.mp h
    obtain ⟨comparison, hcompare⟩ := @compareVersions_ok localeCompare next version hnext
    obtain ⟨sorted, hsorted, hperm⟩ := ih hrest
    rw [insertVersion, hcompare]
    by_cases hle : comparison ≤ 0
    · exact ⟨version :: next :: rest, if_pos hle, List.Perm.refl _⟩
    · refine ⟨next :: sorted, (if_neg hle).trans ?_, (hperm.cons next).trans (List.Perm.swap ..)⟩
      rw [hsorted]
      rfl

theorem sortVersions_ok {versions : List FieldVersion} (h : ∀ v ∈ versions, v.Proper) :
    ∃ sorted, sortVersions localeCompare versions = .ok sorted ∧ sorted.Perm versions := by
  induction versions with
  | nil => exact ⟨[], rfl, List.Perm.refl _⟩
  | cons version rest ih =>
    obtain ⟨hversion, hrest⟩ := List.forall_mem_cons.mp h
    obtain ⟨sorted, hsorted, hperm⟩ := ih hrest
    obtain ⟨sorted', hinsert, hperm'⟩ := @insertVersion_ok localeCompare version sorted fun v hv => hrest v (hperm.mem_iff.mp hv)
    refine ⟨sorted', ?_, hperm'.trans (hperm.cons version)⟩
    rw [sortVersions, hsorted]
    exact hinsert

end Versions

section Joined
variable (localeCompare : Text → Text → ℤ) (a b : Replica)

noncomputable def joined : Path → Option Entry := joinAt (greater (Entry.le localeCompare)) a.entries b.entries

noncomputable def joinedFields (localFlat remoteFlat : Flat) : List (Text × Json × FieldVersion) :=
  (mergedPaths localFlat remoteFlat).filterMap fun path =>
    (joined localeCompare a b ⟨splitDots path⟩).map fun e => (path, e.value, e.version)

/-- What is returned for the merged fields and their sorted versions. -/
def mergeResult (local' remote : EdgeReplicaValue) (merged : List (Text × Json × FieldVersion)) (sorted : List FieldVersion) :
    EdgeReplicaValue where
  data := .object (build (merged.map fun field => (field.1, field.2.1)))
  fieldVersions := some (merged.map fun field => (field.1, field.2.2))
  timestamp := match sorted.head? with
    | some version => version.timestamp
    | none => maxDate local'.timestamp remote.timestamp
  origin := (sorted.head?.bind (·.origin)).or (sortTexts (local'.origin.toList ++ remote.origin.toList)).getLast?

end Joined

section Result
variable {localeCompare : Text → Text → ℤ} {a b : Replica} {localFlat remoteFlat : Flat}

variable {e : Entry} {path : Path}

theorem entry_path {r : Replica} (h : r.entries path = some e) :
    path.segments ≠ [] ∧ ValidPath path.segments := by
  obtain ⟨hne, hleaf⟩ := leafBelow_some.mp (entries_some.mp h).1
  obtain ⟨-, -, -, hvalid, -⟩ := validateReplicaValue_ok.mp r.accepted
  exact ⟨hne, leafAt_validPath hvalid hleaf⟩

theorem joined_cases (h : joined localeCompare a b path = some e) :
    a.entries path = some e ∨ b.entries path = some e := by
  unfold joined joinAt at h
  cases ha : a.entries path with
  | none =>
    rw [ha, Option.merge_none_left] at h
    exact .inr h
  | some x =>
    cases hb : b.entries path with
    | none =>
      rw [ha, hb] at h
      exact .inl h
    | some y =>
      rw [ha, hb] at h
      by_cases hle : Entry.le localeCompare y x
      · exact .inl ((congrArg some (greater_of_le hle)).symm.trans h)
      · exact .inr ((congrArg some (greater_of_not_le hle)).symm.trans h)

theorem joined_path (h : joined localeCompare a b path = some e) :
    path.segments ≠ [] ∧ ValidPath path.segments := by
  rcases joined_cases h with h | h
  · exact entry_path h
  · exact entry_path h

theorem mem_joinedFields (ha : a.Flattened localFlat) (hb : b.Flattened remoteFlat) {field : Text × Json × FieldVersion} :
    field ∈ joinedFields localeCompare a b localFlat remoteFlat ↔
      ∃ e, joined localeCompare a b ⟨splitDots field.1⟩ = some e ∧ field.2 = (e.value, e.version) := by
  unfold joinedFields
  rw [List.mem_filterMap]
  constructor
  · rintro ⟨path, -, hfield⟩
    obtain ⟨e, he, rfl⟩ := Option.map_eq_some_iff.mp hfield
    exact ⟨e, he, rfl⟩
  · rintro ⟨e, he, hfield⟩
    refine ⟨field.1, (mem_mergedPaths ha hb).mpr ?_, ?_⟩
    · rcases joined_cases he with h | h
      · rw [(entries_some.mp h).1]
        exact .inl rfl
      · rw [(entries_some.mp h).1]
        exact .inr rfl
    · rw [he, Option.map_some, ← hfield]

theorem joinedFields_sorted : (joinedFields localeCompare a b localFlat remoteFlat).Pairwise
    fun field field' => codeUnits field.1 < codeUnits field'.1 := by
  have hpaths := sortTexts_strict (List.nodup_dedup (localFlat.map (·.1) ++ remoteFlat.map (·.1)))
  refine hpaths.filterMap _ fun path path' hlt field hfield field' hfield' => ?_
  obtain ⟨e, -, rfl⟩ := Option.map_eq_some_iff.mp hfield
  obtain ⟨e', -, rfl⟩ := Option.map_eq_some_iff.mp hfield'
  exact hlt

theorem mergedFields_ok (h : NoInheritedVersions [a.value, b.value]) (ha : a.Flattened localFlat)
    (hb : b.Flattened remoteFlat) : mergedFields localeCompare a.value b.value localFlat remoteFlat =
      .ok (joinedFields localeCompare a b localFlat remoteFlat) := by
  refine mapM_ok fun path hpath => ?_
  obtain ⟨e, hjoin, hmerge⟩ := @mergeField_ok localeCompare a b localFlat remoteFlat path h ha hb hpath
  refine ⟨(path, e.value, e.version), ?_, ?_⟩
  · rw [joined, hjoin, Option.map_some]
  · rw [hmerge]
    rfl

theorem joinedFields_path (ha : a.Flattened localFlat) (hb : b.Flattened remoteFlat) :
    ∀ field ∈ joinedFields localeCompare a b localFlat remoteFlat, ValidPath (splitDots field.1) := by
  intro field hfield
  obtain ⟨e, he, -⟩ := (mem_joinedFields ha hb).mp hfield
  exact (joined_path he).2

theorem merge_eq (h : NoInheritedVersions [a.value, b.value]) {localFields remoteFields : Fields}
    (hla : a.value.data = .object localFields) (hlb : b.value.data = .object remoteFields)
    (hfa : flatten localeCompare localFields = .ok localFlat) (hfb : flatten localeCompare remoteFields = .ok remoteFlat)
    (ha : a.Flattened localFlat) (hb : b.Flattened remoteFlat) {sorted : List FieldVersion}
    (hsorted : sortVersions localeCompare ((joinedFields localeCompare a b localFlat remoteFlat).map (·.2.2)) = .ok sorted) :
    mergeConfigurationConflict localeCompare a.value b.value =
      .ok (mergeResult a.value b.value (joinedFields localeCompare a b localFlat remoteFlat) sorted) := by
  have hpaths : ∀ field ∈ (joinedFields localeCompare a b localFlat remoteFlat).map fun field => (field.1, field.2.1),
      ValidPath (splitDots field.1) := by
    intro field hfield
    obtain ⟨merged, hmerged, rfl⟩ := List.mem_map.mp hfield
    exact joinedFields_path ha hb merged hmerged
  unfold mergeConfigurationConflict
  rw [a.accepted, b.accepted, hla, hlb]
  dsimp only [bind, Except.bind]
  rw [hfa]
  dsimp only
  rw [hfb]
  dsimp only
  rw [mergedFields_ok h ha hb]
  dsimp only
  rw [hsorted]
  dsimp only
  rw [unflatten_eq hpaths]
  rfl

theorem joinedFields_proper (ha : a.Flattened localFlat) (hb : b.Flattened remoteFlat) :
    ∀ field ∈ joinedFields localeCompare a b localFlat remoteFlat, field.2.2.Proper := by
  intro field hfield
  obtain ⟨e, -, heq⟩ := (mem_joinedFields ha hb).mp hfield
  rw [heq]
  exact e.version_proper

theorem joined_leaf (h : joined localeCompare a b path = some e) :
    isLeaf e.value = true ∧ validateConfigurationObject e.value = .ok () := by
  have hleaf : ∀ {r : Replica}, r.entries path = some e →
      isLeaf e.value = true ∧ validateConfigurationObject e.value = .ok () := by
    intro r hr
    obtain ⟨-, -, -, hvalid, -⟩ := validateReplicaValue_ok.mp r.accepted
    have hsome := (leafBelow_some.mp (entries_some.mp hr).1).2
    exact ⟨leafAt_isLeaf hsome, leafAt_valid hvalid hsome⟩
  rcases joined_cases h with h | h
  · exact hleaf h
  · exact hleaf h

theorem mergeResult_accepted (ha : a.Flattened localFlat) (hb : b.Flattened remoteFlat) {sorted : List FieldVersion}
    (hperm : sorted.Perm ((joinedFields localeCompare a b localFlat remoteFlat).map (·.2.2))) :
    (mergeResult a.value b.value (joinedFields localeCompare a b localFlat remoteFlat) sorted).data.WellFormed ∧
    validateReplicaValue (mergeResult a.value b.value (joinedFields localeCompare a b localFlat remoteFlat) sorted) true =
      .ok () := by
  obtain ⟨htime, horigin, -, -, -⟩ := validateReplicaValue_ok.mp a.accepted
  obtain ⟨htime', horigin', -, -, -⟩ := validateReplicaValue_ok.mp b.accepted
  have hfield : ∀ field ∈ (joinedFields localeCompare a b localFlat remoteFlat).map fun field => (field.1, field.2.1),
      ValidPath (splitDots field.1) ∧ field.2.WellFormed ∧ validateConfigurationObject field.2 = .ok () := by
    intro field hfield
    obtain ⟨merged, hmerged, rfl⟩ := List.mem_map.mp hfield
    obtain ⟨e, he, heq⟩ := (mem_joinedFields ha hb).mp hmerged
    rw [heq]
    exact ⟨(joined_path he).2, e.wellFormed, (joined_leaf he).2⟩
  have hhead : ∀ version, sorted.head? = some version → version.Proper := by
    intro version hversion
    obtain ⟨merged, hmerged, rfl⟩ := List.mem_map.mp (hperm.mem_iff.mp (List.mem_of_head? hversion))
    exact joinedFields_proper ha hb merged hmerged
  refine ⟨?_, validateReplicaValue_ok.mpr ⟨?_, ?_, ⟨_, rfl⟩, ?_, ?_⟩⟩
  · exact build_wellFormed fun field hmem => ⟨(hfield field hmem).1, (hfield field hmem).2.1⟩
  · unfold mergeResult
    dsimp only
    cases hsorted : sorted.head? with
    | none =>
      obtain ⟨time, htime⟩ := Option.isSome_iff_exists.mp htime
      obtain ⟨time', htime'⟩ := Option.isSome_iff_exists.mp htime'
      rw [htime, htime']
      rfl
    | some version => exact (hhead version hsorted).1
  · unfold mergeResult
    dsimp only
    cases hsorted : sorted.head? with
    | none =>
      obtain ⟨origin, horigin, hpresent⟩ := isMissing_eq_false.mp horigin
      obtain ⟨origin', horigin', hpresent'⟩ := isMissing_eq_false.mp horigin'
      have hperm := sortTexts_perm [origin, origin']
      have hne : sortTexts [origin, origin'] ≠ [] := by
        intro hnil
        rw [hnil] at hperm
        exact absurd hperm.length_eq (by simp)
      rw [horigin, horigin']
      refine isMissing_eq_false.mpr ⟨(sortTexts [origin, origin']).getLast hne, List.getLast?_eq_some_getLast hne, ?_⟩
      rcases List.mem_pair.mp (hperm.mem_iff.mp (List.getLast_mem hne)) with hlast | hlast
      · rw [hlast]
        exact hpresent
      · rw [hlast]
        exact hpresent'
    | some version =>
      obtain ⟨origin, horigin, hpresent⟩ := isMissing_eq_false.mp (hhead version hsorted).2
      rw [Option.bind_some, horigin]
      exact hpresent
  · refine build_induction (P := fun fields => validateConfigurationObject (.object fields) = .ok ()) rfl
      fun fields field hmem hfields => ?_
    exact insertAt_valid (hfield field hmem).1 (hfield field hmem).2.2 hfields
  · intro versions hversions entry hentry
    obtain rfl := Option.some.inj hversions
    obtain ⟨merged, hmerged, rfl⟩ := List.mem_map.mp hentry
    exact ⟨joinedFields_path ha hb merged hmerged, joinedFields_proper ha hb merged hmerged⟩

theorem joinedFields_version (ha : a.Flattened localFlat) (hb : b.Flattened remoteFlat) {path : Text} (he : joined localeCompare a b ⟨splitDots path⟩ = some e) :
    ((joinedFields localeCompare a b localFlat remoteFlat).map fun field => (field.1, field.2.2)).lookup path =
      some e.version := by
  refine lookup_of_mem (List.mem_map.mpr ⟨(path, e.value, e.version), (mem_joinedFields ha hb).mpr ⟨e, he, rfl⟩, rfl⟩)
    fun version hversion => ?_
  obtain ⟨merged, hmerged, heq⟩ := List.mem_map.mp hversion
  obtain ⟨rfl, rfl⟩ := Prod.mk.inj heq
  obtain ⟨e', he', heq'⟩ := (mem_joinedFields ha hb).mp hmerged
  rw [heq', Option.some.inj (he'.symm.trans he)]

theorem mergeResult_leaf (ha : a.Flattened localFlat) (hb : b.Flattened remoteFlat) {sorted : List FieldVersion}
    {path : Path} {v : Json} :
    leafBelow (mergeResult a.value b.value (joinedFields localeCompare a b localFlat remoteFlat) sorted).data path.segments = some v ↔
      ∃ e, prune (joined localeCompare a b) path = some e ∧ e.value = v := by
  by_cases hne : path.segments = []
  · refine ⟨fun h => absurd hne (leafBelow_some.mp h).1, ?_⟩
    rintro ⟨e, he, -⟩
    exact absurd hne (joined_path (prune_eq_some.mp he).2).1
  have hleaf : ∀ field ∈ (joinedFields localeCompare a b localFlat remoteFlat).map fun field => (field.1, field.2.1),
      isLeaf field.2 = true := by
    intro field hfield
    obtain ⟨merged, hmerged, rfl⟩ := List.mem_map.mp hfield
    obtain ⟨e, he, heq⟩ := (mem_joinedFields ha hb).mp hmerged
    rw [heq]
    exact (joined_leaf he).1
  have hmem : ∀ {q : Path} {e : Entry}, joined localeCompare a b q = some e → (dotted q.segments, e.value) ∈
      (joinedFields localeCompare a b localFlat remoteFlat).map fun field => (field.1, field.2.1) := by
    intro q e he
    refine List.mem_map.mpr ⟨(dotted q.segments, e.value, e.version), (mem_joinedFields ha hb).mpr ⟨e, ?_, rfl⟩, rfl⟩
    rw [splitDots_dotted_valid (joined_path he).2 (joined_path he).1]
    exact he
  rw [leafBelow_some, mergeResult, leafAt_build hleaf (later_of_sorted (List.pairwise_map.mpr joinedFields_sorted)) hne]
  constructor
  · rintro ⟨-, ⟨field, hfield, hpath, rfl⟩, hmax⟩
    obtain ⟨merged, hmerged, rfl⟩ := List.mem_map.mp hfield
    obtain ⟨e, he, heq⟩ := (mem_joinedFields ha hb).mp hmerged
    refine ⟨e, prune_eq_some.mpr ⟨?_, ?_⟩, ?_⟩
    · rintro ⟨q, hlt, hsome⟩
      obtain ⟨e', he'⟩ := Option.isSome_iff_exists.mp hsome
      have hsplit := splitDots_dotted_valid (joined_path he').2 (joined_path he').1
      have hsame := hmax _ (hmem he')
      rw [hsplit] at hsame
      exact hlt.ne (congrArg Path.mk (hsame hlt.le))
    · obtain ⟨segments⟩ := path
      obtain rfl : splitDots merged.1 = segments := hpath
      exact he
    · rw [heq]
  · rintro ⟨e, he, rfl⟩
    obtain ⟨hcovered, he⟩ := prune_eq_some.mp he
    refine ⟨hne, ⟨_, hmem he, splitDots_dotted_valid (joined_path he).2 (joined_path he).1, rfl⟩, fun field hfield hprefix => ?_⟩
    obtain ⟨merged, hmerged, rfl⟩ := List.mem_map.mp hfield
    obtain ⟨e', he', -⟩ := (mem_joinedFields ha hb).mp hmerged
    by_contra hdiffer
    refine hcovered ⟨⟨splitDots merged.1⟩, lt_of_le_of_ne hprefix fun heq => hdiffer ?_, ?_⟩
    · exact congrArg Path.segments heq
    · rw [he']
      rfl

end Result

/-! ### The laws -/

section Laws
variable {localeCompare : Text → Text → ℤ} {a b c : Replica}

theorem exists_mergeResult (localeCompare : Text → Text → ℤ) (h : NoInheritedVersions [a.value, b.value]) :
    ∃ localFlat remoteFlat sorted, a.Flattened localFlat ∧ b.Flattened remoteFlat ∧
      sorted.Perm ((joinedFields localeCompare a b localFlat remoteFlat).map (·.2.2)) ∧
      mergeConfigurationConflict localeCompare a.value b.value =
        .ok (mergeResult a.value b.value (joinedFields localeCompare a b localFlat remoteFlat) sorted) := by
  obtain ⟨localFields, localFlat, hla, hfa, ha⟩ := a.exists_flattened localeCompare
  obtain ⟨remoteFields, remoteFlat, hlb, hfb, hb⟩ := b.exists_flattened localeCompare
  obtain ⟨sorted, hsorted, hperm⟩ := @sortVersions_ok localeCompare
    ((joinedFields localeCompare a b localFlat remoteFlat).map (·.2.2)) (List.forall_mem_map.mpr (joinedFields_proper ha hb))
  exact ⟨localFlat, remoteFlat, sorted, ha, hb, hperm, merge_eq h hla hlb hfa hfb ha hb hsorted⟩

/-- The merge returns a configuration whose leaves are the pruned join, each with its own
version. -/
theorem exists_merge (localeCompare : Text → Text → ℤ) (h : NoInheritedVersions [a.value, b.value]) : ∃ m : Replica,
    mergeConfigurationConflict localeCompare a.value b.value = .ok m.value ∧
      m.entries = prune (joined localeCompare a b) ∧ ∀ name, m.value.HasLeaf name → m.value.OwnVersion name := by
  obtain ⟨localFlat, remoteFlat, sorted, ha, hb, hperm, hmerge⟩ := exists_mergeResult localeCompare h
  obtain ⟨hwell, haccepted⟩ := mergeResult_accepted ha hb hperm
  have hversion : ∀ {path : Path} {e}, prune (joined localeCompare a b) path = some e →
      ((joinedFields localeCompare a b localFlat remoteFlat).map fun field => (field.1, field.2.2)).lookup
        (dotted path.segments) = some e.version := by
    intro path e he
    have hjoined := (prune_eq_some.mp he).2
    apply joinedFields_version ha hb
    rw [splitDots_dotted_valid (joined_path hjoined).2 (joined_path hjoined).1]
    exact hjoined
  refine ⟨⟨_, hwell, haccepted⟩, hmerge, ?_, ?_⟩
  · funext path
    ext e
    rw [entries_some, Replica.Holds, mergeResult_leaf ha hb]
    have hnormalized : ∀ {e'}, prune (joined localeCompare a b) path = some e' →
        (mergeResult a.value b.value (joinedFields localeCompare a b localFlat remoteFlat) sorted).normalizedVersion
          (dotted path.segments) = e'.version := by
      intro e' he'
      simp only [EdgeReplicaValue.normalizedVersion, mergeResult, readProperty, hversion he']
    constructor
    · rintro ⟨⟨e', he', hvalue⟩, heq⟩
      rw [hnormalized he'] at heq
      rw [he', Entry.ext_version hvalue heq]
    · intro he
      exact ⟨⟨e, he, rfl⟩, hnormalized he⟩
  · intro name hleaf versions hversions
    obtain rfl := Option.some.inj hversions
    obtain ⟨v, hv⟩ := Option.isSome_iff_exists.mp hleaf
    have hbelow := leafBelow_some.mpr ⟨List.cons_ne_nil name [], hv⟩
    obtain ⟨e, he, -⟩ := (@mergeResult_leaf localeCompare a b localFlat remoteFlat ha hb sorted ⟨[name]⟩ v).mp hbelow
    have hlookup := hversion he
    rw [dotted_singleton] at hlookup
    rw [hlookup]
    rfl

theorem NoInheritedVersions.subset {replicas replicas' : List EdgeReplicaValue} (h : NoInheritedVersions replicas)
    (hsubset : ∀ value ∈ replicas', value ∈ replicas) : NoInheritedVersions replicas' := by
  rintro name hname ⟨value, hvalue, hleaf⟩ value' hvalue'
  exact h name hname ⟨value, hsubset value hvalue, hleaf⟩ value' (hsubset value' hvalue')

theorem merge_comm (hlocale : LocaleOrder localeCompare) (h : NoInheritedVersions [a.value, b.value]) :
    mergeConfigurationConflict localeCompare a.value b.value = mergeConfigurationConflict localeCompare b.value a.value := by
  have := Entry.total hlocale
  have := Entry.antisymm hlocale
  obtain ⟨localFields, localFlat, hla, hfa, ha⟩ := a.exists_flattened localeCompare
  obtain ⟨remoteFields, remoteFlat, hlb, hfb, hb⟩ := b.exists_flattened localeCompare
  obtain ⟨sorted, hsorted, -⟩ := @sortVersions_ok localeCompare
    ((joinedFields localeCompare a b localFlat remoteFlat).map (·.2.2)) (List.forall_mem_map.mpr (joinedFields_proper ha hb))
  have hjoined : joined localeCompare a b = joined localeCompare b a := joinAt_comm _ greater_comm _ _
  have hpaths : mergedPaths localFlat remoteFlat = mergedPaths remoteFlat localFlat :=
    sortTexts_congr (List.perm_append_comm.dedup)
  have hfields : joinedFields localeCompare a b localFlat remoteFlat = joinedFields localeCompare b a remoteFlat localFlat := by
    rw [joinedFields, joinedFields, hjoined, hpaths]
  have htime : maxDate a.value.timestamp b.value.timestamp = maxDate b.value.timestamp a.value.timestamp := by
    cases a.value.timestamp <;> cases b.value.timestamp <;> simp [maxDate, max_comm]
  have horigin : sortTexts (a.value.origin.toList ++ b.value.origin.toList) =
      sortTexts (b.value.origin.toList ++ a.value.origin.toList) := sortTexts_congr List.perm_append_comm
  rw [merge_eq h hla hlb hfa hfb ha hb hsorted,
    merge_eq (h.subset (by simp)) hlb hla hfb hfa hb ha (hfields ▸ hsorted), mergeResult, mergeResult, ← hfields, htime, horigin]

end Laws

end OxScada.Edge
