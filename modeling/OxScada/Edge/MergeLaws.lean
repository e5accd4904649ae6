import OxScada.Edge.Merge

/-! When merging configurations is a join. A version that is looked up under the name of a
property of `Object.prototype` is found on the prototype when it is not there, and the merge
then stops with a `TypeError`. -/

namespace OxScada.Edge
open OxScada.Bytes OxScada.Js OxScada.Order OxScada.Runs

section Entries
variable {localeCompare : Text → Text → ℤ} {a b c m : Replica}

def Replica.Complete (r : Replica) : Prop :=
  ∀ name ∈ objectPrototypeNames, r.value.HasLeaf name → r.value.OwnVersion name

theorem leafBelow_eq_entries (h : a.Complete) (path : Path) :
    leafBelow a.value.data path.segments = (a.entries path).map Entry.value := by
  cases hleaf : leafBelow a.value.data path.segments with
  | none =>
    cases he : a.entries path with
    | none => rfl
    | some e =>
      rw [(entries_some.mp he).1] at hleaf
      cases hleaf
  | some v =>
    have hown : dotted path.segments ∈ objectPrototypeNames → a.value.OwnVersion (dotted path.segments) := by
      intro hname
      refine h _ hname ?_
      obtain ⟨-, -, -, hvalid, -⟩ := validateReplicaValue_ok.mp a.accepted
      obtain ⟨hne, hsome⟩ := leafBelow_some.mp hleaf
      have hsplit := splitDots_dotted_valid (leafAt_validPath hvalid hsome) hne
      rw [hasLeaf_iff hname, hsplit, hleaf]
      rfl
    obtain ⟨e, he, rfl⟩ := exists_entry hleaf hown
    rw [entries_some.mpr he, Option.map_some]

theorem data_eq_of_entries (ha : a.Complete) (hb : b.Complete) (h : a.entries = b.entries) : a.value.data = b.value.data := by
  obtain ⟨-, -, ⟨fields, hdata⟩, -, -⟩ := validateReplicaValue_ok.mp a.accepted
  obtain ⟨-, -, ⟨fields', hdata'⟩, -, -⟩ := validateReplicaValue_ok.mp b.accepted
  have hwell := a.wellFormed
  have hwell' := b.wellFormed
  have hleaf : ∀ segments, leafBelow a.value.data segments = leafBelow b.value.data segments := by
    intro segments
    have hpath := leafBelow_eq_entries ha ⟨segments⟩
    rw [h, ← leafBelow_eq_entries hb] at hpath
    exact hpath
  rw [hdata, hdata'] at hleaf ⊢
  rw [hdata] at hwell
  rw [hdata'] at hwell'
  exact eq_of_leafBelow hwell hwell' hleaf

theorem entries_not_covered {path : Path} {e : Entry} (h : a.entries path = some e) : ¬ Covered a.entries path := by
  rintro ⟨below, hlt, hsome⟩
  obtain ⟨e', he'⟩ := Option.isSome_iff_exists.mp hsome
  have hleaf := (leafBelow_some.mp (entries_some.mp h).1).2
  have hleaf' := (leafBelow_some.mp (entries_some.mp he').1).2
  obtain ⟨rest, hrest⟩ := hlt.le
  have hne : rest ≠ [] := by
    rintro rfl
    rw [List.append_nil] at hrest
    exact hlt.ne (congrArg Path.mk hrest)
  rw [← hrest, leafAt_antichain hleaf hne] at hleaf'
  cases hleaf'

theorem prune_entries (a : Replica) : prune a.entries = a.entries := by
  funext path
  cases he : a.entries path with
  | none =>
    cases hprune : prune a.entries path with
    | none => rfl
    | some e =>
      rw [(prune_eq_some.mp hprune).2] at he
      cases he
  | some e => rw [prune_of_not_covered (entries_not_covered he), he]

theorem entries_finite (a : Replica) : {path | (a.entries path).isSome}.Finite := by
  obtain ⟨fields, flat, -, -, hflat⟩ := a.exists_flattened fun _ _ => 0
  refine (List.finite_toSet (flat.map fun field => Path.mk (splitDots field.1))).subset fun path hpath => ?_
  obtain ⟨e, he⟩ := Option.isSome_iff_exists.mp hpath
  obtain ⟨hne, hvalid⟩ := entry_path he
  have hsplit := splitDots_dotted_valid hvalid hne
  have hmem : (dotted path.segments, e.value) ∈ flat := by
    rw [hflat, hsplit]
    exact (entries_some.mp he).1
  refine List.mem_map.mpr ⟨_, hmem, ?_⟩
  rw [hsplit]

theorem joined_finite (a b : Replica) : {path | (joined localeCompare a b path).isSome}.Finite := by
  refine ((entries_finite a).union (entries_finite b)).subset fun path hpath => ?_
  exact (joinAt_isSome _ _ _ path).mp hpath

end Entries

section Laws
variable {localeCompare : Text → Text → ℤ} {a b c m : Replica}

theorem NoInheritedVersions.complete {replicas : List EdgeReplicaValue} (h : NoInheritedVersions replicas)
    (ha : a.value ∈ replicas) : a.Complete :=
  fun name hname hleaf => (h name hname ⟨a.value, ha, hleaf⟩ a.value ha).2

theorem hasLeaf_iff_entries (h : a.Complete) (name : Text) :
    a.value.HasLeaf name ↔ (a.entries ⟨[name]⟩).isSome = true := by
  have hleaf := leafBelow_eq_entries h ⟨[name]⟩
  have hbelow : leafBelow a.value.data [name] = leafAt a.value.data [name] := rfl
  rw [EdgeReplicaValue.HasLeaf, ← hbelow, hleaf, Option.isSome_map]

theorem noInherited_merged (h : NoInheritedVersions [a.value, b.value, c.value]) (hm : m.entries = prune (joined localeCompare a b))
    (hown : ∀ name, m.value.HasLeaf name → m.value.OwnVersion name) : NoInheritedVersions [m.value, c.value] := by
  have hma : m.Complete := fun name _ => hown name
  have hca : a.Complete := h.complete (by simp)
  have hcb : b.Complete := h.complete (by simp)
  rintro name hname ⟨value, hvalue, hleaf⟩
  have hall : ∀ value ∈ [a.value, b.value, c.value], value.HasLeaf name ∧ value.OwnVersion name := by
    apply h name hname
    rcases List.mem_pair.mp hvalue with rfl | rfl
    · rw [hasLeaf_iff_entries hma, hm, prune_isSome] at hleaf
      rcases (joinAt_isSome _ _ _ _).mp hleaf.2 with hsome | hsome
      · exact ⟨a.value, by simp, (hasLeaf_iff_entries hca name).mpr hsome⟩
      · exact ⟨b.value, by simp, (hasLeaf_iff_entries hcb name).mpr hsome⟩
    · exact ⟨c.value, by simp, hleaf⟩
  have hmleaf : m.value.HasLeaf name := by
    obtain ⟨x, hx⟩ := Option.isSome_iff_exists.mp ((hasLeaf_iff_entries hca name).mp (hall a.value (by simp)).1)
    obtain ⟨y, hy⟩ := Option.isSome_iff_exists.mp ((hasLeaf_iff_entries hcb name).mp (hall b.value (by simp)).1)
    rw [hasLeaf_iff_entries hma, hm, prune_isSome]
    refine ⟨?_, (joinAt_isSome _ _ _ _).mpr (.inl (hx ▸ rfl))⟩
    rintro ⟨below, hlt, hsome⟩
    rcases (joinAt_isSome _ _ _ _).mp hsome with hsome | hsome
    · exact entries_not_covered hx ⟨below, hlt, hsome⟩
    · exact entries_not_covered hy ⟨below, hlt, hsome⟩
  intro value' hvalue'
  rcases List.mem_pair.mp hvalue' with rfl | rfl
  · exact ⟨hmleaf, hown name hmleaf⟩
  · exact hall c.value (by simp)

theorem merge_self (h : NoInheritedVersions [a.value]) :
    ∃ m : Replica, mergeConfigurationConflict localeCompare a.value a.value = .ok m.value ∧ m.value.data = a.value.data := by
  obtain ⟨m, hmerge, hm, hown⟩ := @exists_merge a a localeCompare (h.subset (by simp))
  refine ⟨m, hmerge, data_eq_of_entries (fun name _ => hown name) (h.complete (by simp)) ?_⟩
  rw [hm, joined, joinAt_self _ greater_idem, prune_entries]

theorem merge_assoc (hlocale : LocaleOrder localeCompare) (h : NoInheritedVersions [a.value, b.value, c.value]) :
    ∃ ab bc left right : Replica, mergeConfigurationConflict localeCompare a.value b.value = .ok ab.value ∧
      mergeConfigurationConflict localeCompare ab.value c.value = .ok left.value ∧
      mergeConfigurationConflict localeCompare b.value c.value = .ok bc.value ∧
      mergeConfigurationConflict localeCompare a.value bc.value = .ok right.value ∧
      left.value.data = right.value.data := by
  have := Entry.total hlocale
  have := Entry.antisymm hlocale
  have := Entry.isTrans hlocale
  obtain ⟨ab, hab, hentries, hown⟩ := @exists_merge a b localeCompare (h.subset (by simp))
  obtain ⟨bc, hbc, hentries', hown'⟩ := @exists_merge b c localeCompare (h.subset (by simp))
  obtain ⟨left, hleft, hl, hlown⟩ := @exists_merge ab c localeCompare (noInherited_merged h hentries hown)
  have hright : NoInheritedVersions [bc.value, a.value] := noInherited_merged (h.subset (by simp)) hentries' hown'
  obtain ⟨right, hright, hr, hrown⟩ := @exists_merge a bc localeCompare (hright.subset (by simp))
  refine ⟨ab, bc, left, right, hab, hleft, hbc, hright, data_eq_of_entries (fun name _ => hlown name) (fun name _ => hrown name) ?_⟩
  rw [hl, hr, joined, joined, hentries, hentries']
  exact prune_joinAt_assoc _ greater_comm greater_assoc (joined_finite a b) (joined_finite b c)

/-! ### Inherited versions -/

theorem mem_of_mapM_ok {α β : Type} {f : α → Except EdgeError β} {l : List α} {l' : List β} (h : l.mapM f = .ok l')
    {x : α} (hx : x ∈ l) : ∃ y, f x = .ok y := by
  induction l generalizing l' with
  | nil => exact absurd hx List.not_mem_nil
  | cons first rest ih =>
    rw [List.mapM_cons] at h
    obtain ⟨y, hy, hrest⟩ := bind_ok.mp h
    obtain ⟨ys, hys, -⟩ := bind_ok.mp hrest
    rcases List.mem_cons.mp hx with rfl | hx
    · exact ⟨y, hy⟩
    · exact ih hys hx

variable {name : Text} {value : EdgeReplicaValue}

section
variable (h : mergeConfigurationConflict localeCompare a.value b.value = .ok value)
include h

section
variable (hname : name ∈ objectPrototypeNames)
include hname

theorem mergeField_of_merge (hleaf : a.value.HasLeaf name) :
    ∃ localFlat remoteFlat field, a.Flattened localFlat ∧ b.Flattened remoteFlat ∧
      mergeField localeCompare localFlat remoteFlat (normalizedFieldVersions a.value localFlat)
        (normalizedFieldVersions b.value remoteFlat) name = .ok field := by
  obtain ⟨localFields, localFlat, hla, hfa, ha⟩ := a.exists_flattened localeCompare
  obtain ⟨remoteFields, remoteFlat, hlb, hfb, hb⟩ := b.exists_flattened localeCompare
  unfold mergeConfigurationConflict at h
  obtain ⟨-, h⟩ := bind_unit_ok.mp h
  obtain ⟨-, h⟩ := bind_unit_ok.mp h
  rw [hla, hlb] at h
  dsimp only at h
  obtain ⟨localFlat', hfa', h⟩ := bind_ok.mp h
  obtain ⟨remoteFlat', hfb', h⟩ := bind_ok.mp h
  obtain rfl := Except.ok.inj (hfa.symm.trans hfa')
  obtain rfl := Except.ok.inj (hfb.symm.trans hfb')
  obtain ⟨merged, hmerged, -⟩ := bind_ok.mp h
  have hpath : name ∈ mergedPaths localFlat remoteFlat := (mem_mergedPaths ha hb).mpr (.inl ((hasLeaf_iff hname).mp hleaf))
  obtain ⟨y, hy⟩ := mem_of_mapM_ok hmerged hpath
  obtain ⟨field, hfield, -⟩ := bind_ok.mp hy
  exact ⟨localFlat, remoteFlat, field, ha, hb, hfield⟩

theorem merge_hasLeaf (hleaf : a.value.HasLeaf name) : b.value.HasLeaf name := by
  obtain ⟨localFlat, remoteFlat, field, ha, hb, hfield⟩ := mergeField_of_merge h hname hleaf
  obtain ⟨v, hv⟩ := Option.isSome_iff_exists.mp ((hasLeaf_iff hname).mp hleaf)
  rw [hasLeaf_iff hname]
  cases hlb : leafBelow b.value.data (splitDots name) with
  | none =>
    rw [mergeField, readVersion_own ha hv, readVersion_absent hb hlb, if_pos hname] at hfield
    cases hfield
  | some w => rfl

theorem merge_ownVersion (hleaf : a.value.HasLeaf name) : a.value.OwnVersion name := by
  have hleaf' := merge_hasLeaf h hname hleaf
  obtain ⟨localFlat, remoteFlat, field, ha, hb, hfield⟩ := mergeField_of_merge h hname hleaf
  obtain ⟨v, hv⟩ := Option.isSome_iff_exists.mp ((hasLeaf_iff hname).mp hleaf)
  obtain ⟨w, hw⟩ := Option.isSome_iff_exists.mp ((hasLeaf_iff hname).mp hleaf')
  intro versions hversions
  cases hlookup : versions.lookup name with
  | none =>
    have hnormalized : a.value.normalizedVersion name = ⟨none, none⟩ := by
      simp only [EdgeReplicaValue.normalizedVersion, hversions, readProperty, hlookup, if_pos hname]
    -- the origin of an inherited function is undefined, and its method is called
    rw [mergeField, readVersion_own ha hv, readVersion_own hb hw, hnormalized] at hfield
    cases hfield
  | some version => rfl

end

end

/-! ### The join laws -/

/-- Merging the three replicas is commutative, idempotent and associative. -/
structure JoinLaws (localeCompare : Text → Text → ℤ) (a b c : EdgeReplicaValue) : Prop where
  comm : ∀ x ∈ [a, b, c], ∀ y ∈ [a, b, c], ∃ left right,
    mergeConfigurationConflict localeCompare x y = .ok left ∧ mergeConfigurationConflict localeCompare y x = .ok right ∧
      left.data = right.data ∧ left.fieldVersions = right.fieldVersions ∧
      left.timestamp = right.timestamp ∧ left.origin = right.origin
  self : ∀ x ∈ [a, b, c], ∃ merged, mergeConfigurationConflict localeCompare x x = .ok merged ∧ merged.data = x.data
  assoc : ∃ ab bc left right, mergeConfigurationConflict localeCompare a b = .ok ab ∧
    mergeConfigurationConflict localeCompare ab c = .ok left ∧ mergeConfigurationConflict localeCompare b c = .ok bc ∧
    mergeConfigurationConflict localeCompare a bc = .ok right ∧ left.data = right.data

theorem merge_join_iff (hlocale : LocaleOrder localeCompare) (a b c : Replica) :
    JoinLaws localeCompare a.value b.value c.value ↔ NoInheritedVersions [a.value, b.value, c.value] := by
  have hreplica : ∀ x ∈ [a.value, b.value, c.value], ∃ r : Replica, r.value = x := by
    simp only [List.forall_mem_cons, List.not_mem_nil, IsEmpty.forall_iff, implies_true, and_true]
    exact ⟨⟨a, rfl⟩, ⟨b, rfl⟩, ⟨c, rfl⟩⟩
  constructor
  · rintro hlaws name hname ⟨x, hx, hleaf⟩ y hy
    obtain ⟨r, rfl⟩ := hreplica x hx
    obtain ⟨s, rfl⟩ := hreplica y hy
    obtain ⟨left, -, hleft, -⟩ := hlaws.comm r.value hx s.value hy
    obtain ⟨merged, hmerged, -⟩ := hlaws.self s.value hy
    have hsleaf := merge_hasLeaf hleft hname hleaf
    exact ⟨hsleaf, merge_ownVersion hmerged hname hsleaf⟩
  · intro h
    constructor
    · intro x hx y hy
      obtain ⟨r, rfl⟩ := hreplica x hx
      obtain ⟨s, rfl⟩ := hreplica y hy
      have hpair : NoInheritedVersions [r.value, s.value] := by
        refine h.subset fun value hvalue => ?_
        rcases List.mem_pair.mp hvalue with rfl | rfl
        · exact hx
        · exact hy
      obtain ⟨merged, hmerged, -⟩ := @exists_merge r s localeCompare hpair
      exact ⟨merged.value, merged.value, hmerged, (merge_comm hlocale hpair).symm.trans hmerged, rfl, rfl, rfl, rfl⟩
    · intro x hx
      obtain ⟨r, rfl⟩ := hreplica x hx
      have hsingle : NoInheritedVersions [r.value] := h.subset fun value hvalue => List.mem_singleton.mp hvalue ▸ hx
      obtain ⟨merged, hmerged, hdata⟩ := @merge_self localeCompare r hsingle
      exact ⟨merged.value, hmerged, hdata⟩
    · obtain ⟨ab, bc, left, right, hab, hleft, hbc, hright, hdata⟩ := merge_assoc hlocale h
      exact ⟨ab.value, bc.value, left.value, right.value, hab, hleft, hbc, hright, hdata⟩

end Laws

/-- The order of the code units, which is a `localeCompare` that tells all strings apart. -/
def compareCodeUnits (s t : Text) : ℤ :=
  if codeUnits s < codeUnits t then -1 else if codeUnits t < codeUnits s then 1 else 0

theorem localeOrder_compareCodeUnits : LocaleOrder compareCodeUnits := by
  have hle : ∀ s t, compareCodeUnits s t ≤ 0 ↔ codeUnits s ≤ codeUnits t := by
    intro s t
    unfold compareCodeUnits
    split_ifs with hlt hgt
    · exact ⟨fun _ => hlt.le, fun _ => by decide⟩
    · exact ⟨fun h => absurd h (by decide), fun h => absurd h hgt.not_ge⟩
    · exact ⟨fun _ => not_lt.mp hgt, fun _ => by decide⟩
  have hlt : ∀ s t, compareCodeUnits s t < 0 ↔ codeUnits s < codeUnits t := by
    intro s t
    unfold compareCodeUnits
    split_ifs with hlt hgt
    · exact ⟨fun _ => hlt, fun _ => by decide⟩
    · exact ⟨fun h => absurd h (by decide), fun h => absurd h hlt⟩
    · exact ⟨fun h => absurd h (by decide), fun h => absurd h hlt⟩
  constructor
  · intro s
    rw [compareCodeUnits, if_neg (lt_irrefl _), if_neg (lt_irrefl _)]
  · intro s t hzero
    have hst := (hle s t).mp hzero.le
    have hnot : ¬ codeUnits s < codeUnits t := fun h => ((hlt s t).mpr h).ne hzero
    exact codeUnits_injective (le_antisymm hst (not_lt.mp hnot))
  · intro s t
    rw [hlt, ← not_le, hle, not_le]
  · intro s t u hst htu
    rw [hle] at hst htu ⊢
    exact hst.trans htu

theorem wellFormed_single {key : Text} {value : Json} (h : value.WellFormed) : (Json.object [(key, value)]).WellFormed := by
  refine .object (List.pairwise_singleton _ _) fun field hfield => ?_
  rw [List.mem_singleton.mp hfield]
  exact h

def fieldReplica (key : Text) (value : Json) (timestamp : ℤ) (hkey : isValidKey key = true) (hwell : value.WellFormed)
    (hvalid : validateConfigurationObject value = .ok ()) : Replica where
  value := ⟨.object [(key, value)], some timestamp, some ['e', 'd', 'g', 'e'], none⟩
  wellFormed := wellFormed_single hwell
  accepted := by
    refine validateReplicaValue_ok.mpr ⟨rfl, rfl, ⟨_, rfl⟩, ?_, fun versions h => (by cases h)⟩
    refine validateFields_ok.mpr fun field hfield => ?_
    rw [List.mem_singleton.mp hfield]
    exact ⟨hkey, hvalid⟩

def levelReplica : Replica := fieldReplica "level".toList (.bool true) 1 (by decide +kernel) (.bool true) rfl

def highReplica : Replica :=
  fieldReplica "level".toList (.object [("high".toList, .bool true)]) 2 (by decide +kernel) (wellFormed_single (.bool true)) rfl

def modeReplica : Replica := fieldReplica "mode".toList (.bool false) 3 (by decide +kernel) (.bool false) rfl

def toStringReplica : Replica := fieldReplica "toString".toList (.bool true) 1 (by decide +kernel) (.bool true) rfl

theorem merge_join_level : LocaleOrder compareCodeUnits ∧
    JoinLaws compareCodeUnits levelReplica.value highReplica.value modeReplica.value := by
  refine ⟨localeOrder_compareCodeUnits, (merge_join_iff localeOrder_compareCodeUnits _ _ _).mpr ?_⟩
  have hnone : ∀ name ∈ objectPrototypeNames, ∀ value ∈ [levelReplica.value, highReplica.value, modeReplica.value],
      (leafAt value.data [name]).isSome = false := by decide +kernel
  rintro name hname ⟨value, hvalue, hleaf⟩
  exact absurd hleaf (Bool.eq_false_iff.mp (hnone name hname value hvalue))

def EdgeReplicaValue.VersionsOfLeaves (value : EdgeReplicaValue) : Prop :=
  ∀ versions, value.fieldVersions = some versions → ∀ entry ∈ versions,
    (leafAt value.data (splitDots entry.1)).isSome = true

def thrown {α : Type} : Except EdgeError α → Option EdgeError
  | .ok _ => none
  | .error e => some e

theorem eq_error_of_thrown {α : Type} {x : Except EdgeError α} {e : EdgeError} (h : thrown x = some e) : x = .error e := by
  cases x with
  | ok a => cases h
  | error e' => rw [Option.some.inj h]

theorem merge_toString_throws : mergeConfigurationConflict compareCodeUnits toStringReplica.value levelReplica.value =
      .error .typeError ∧
    ¬ ∀ localeCompare, LocaleOrder localeCompare → ∀ a b c : Replica, a.value.VersionsOfLeaves → b.value.VersionsOfLeaves →
      c.value.VersionsOfLeaves → JoinLaws localeCompare a.value b.value c.value := by
  have hthrows : mergeConfigurationConflict compareCodeUnits toStringReplica.value levelReplica.value = .error .typeError :=
    eq_error_of_thrown (by decide +kernel)
  have hversions : ∀ {key value timestamp hkey hwell hvalid},
      (fieldReplica key value timestamp hkey hwell hvalid).value.VersionsOfLeaves := fun versions h => (by cases h)
  refine ⟨hthrows, fun h => ?_⟩
  obtain ⟨left, -, hleft, -⟩ := (h _ localeOrder_compareCodeUnits toStringReplica levelReplica modeReplica hversions hversions
    hversions).comm toStringReplica.value List.mem_cons_self levelReplica.value (List.mem_cons_of_mem _ List.mem_cons_self)
  rw [hthrows] at hleft
  cases hleft

end OxScada.Edge
