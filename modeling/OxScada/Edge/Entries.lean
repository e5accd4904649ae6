import OxScada.Edge.Flatten
import OxScada.Js.CanonicalJson
import OxScada.Order.PrunedJoin

/-! A configuration as a partial function from paths to versioned leaves, and the choice the
merge makes at one path. -/

namespace OxScada.Edge
open OxScada.Bytes OxScada.Js OxScada.Order OxScada.Runs

/-- `localeCompare` is a total order, and 0 only on equal strings. -/
structure LocaleOrder (localeCompare : Text → Text → ℤ) : Prop where
  self : ∀ s, localeCompare s s = 0
  eq_of_zero : ∀ s t, localeCompare s t = 0 → s = t
  swap : ∀ s t, 0 < localeCompare s t ↔ localeCompare t s < 0
  trans : ∀ s t u, localeCompare s t ≤ 0 → localeCompare t u ≤ 0 → localeCompare s u ≤ 0

namespace LocaleOrder
variable {localeCompare : Text → Text → ℤ} (h : LocaleOrder localeCompare) {s t u : Text}
include h

theorem swap_nonneg : 0 ≤ localeCompare s t ↔ localeCompare t s ≤ 0 := by
  rw [← not_lt, ← h.swap t s, not_lt]

theorem pos_of_neg (hst : localeCompare s t ≠ 0) : 0 < localeCompare s t ∨ 0 < localeCompare t s := by
  rcases lt_or_gt_of_ne hst with hneg | hpos
  · exact .inr ((h.swap t s).mpr hneg)
  · exact .inl hpos

theorem trans_pos (hst : 0 < localeCompare s t) (htu : 0 < localeCompare t u) : 0 < localeCompare s u := by
  rw [h.swap]
  have hle := h.trans u t s ((h.swap t u).mp htu).le ((h.swap s t).mp hst).le
  refine lt_of_le_of_ne hle fun hzero => ?_
  rw [h.eq_of_zero u s hzero] at htu
  have hneg := (h.swap t s).mp htu
  exact lt_asymm hst hneg

end LocaleOrder

/-! ### Versioned leaves -/

structure Entry where
  value : Json
  timestamp : ℤ
  origin : Text
  wellFormed : value.WellFormed
  present : isBlank origin = false

def Entry.version (e : Entry) : FieldVersion := ⟨some e.timestamp, some e.origin⟩

section Order
variable (localeCompare : Text → Text → ℤ)

def Entry.comparison (x y : Entry) : ℤ :=
  if x.timestamp - y.timestamp ≠ 0 then x.timestamp - y.timestamp
  else if localeCompare x.origin y.origin ≠ 0 then localeCompare x.origin y.origin
  else localeCompare (canonicalJson localeCompare x.value) (canonicalJson localeCompare y.value)

def Entry.le (x y : Entry) : Prop := 0 ≤ y.comparison localeCompare x

instance : DecidableRel (Entry.le localeCompare) := fun x y => inferInstanceAs (Decidable (0 ≤ y.comparison localeCompare x))

variable {localeCompare}

section
variable (h : LocaleOrder localeCompare)
include h

theorem Entry.le_iff {x y : Entry} : Entry.le localeCompare x y ↔
    x.timestamp < y.timestamp ∨ x.timestamp = y.timestamp ∧ (0 < localeCompare y.origin x.origin ∨
      x.origin = y.origin ∧ 0 ≤ localeCompare (canonicalJson localeCompare y.value) (canonicalJson localeCompare x.value)) := by
  unfold Entry.le Entry.comparison
  by_cases htime : y.timestamp - x.timestamp = 0
  · rw [if_neg (not_not.mpr htime)]
    have heq : x.timestamp = y.timestamp := by omega
    by_cases horigin : localeCompare y.origin x.origin = 0
    · rw [if_neg (not_not.mpr horigin)]
      have hsame := h.eq_of_zero _ _ horigin
      simp [heq, hsame, h.self]
    · rw [if_pos horigin]
      have hne : x.origin ≠ y.origin := by
        rintro hsame
        rw [hsame] at horigin
        exact horigin (h.self _)
      have hpos : 0 ≤ localeCompare y.origin x.origin ↔ 0 < localeCompare y.origin x.origin :=
        ⟨fun hle => lt_of_le_of_ne hle (Ne.symm horigin), le_of_lt⟩
      simp [heq, hne, hpos]
  · rw [if_pos htime]
    have hne : x.timestamp ≠ y.timestamp := by omega
    have hlt : 0 ≤ y.timestamp - x.timestamp ↔ x.timestamp < y.timestamp := by omega
    rw [hlt]
    exact ⟨.inl, fun hle => hle.resolve_right fun heq => hne heq.1⟩

theorem Entry.total : Std.Total (Entry.le localeCompare) := by
  constructor
  intro x y
  rw [Entry.le_iff h, Entry.le_iff h]
  rcases lt_trichotomy x.timestamp y.timestamp with hlt | heq | hgt
  · exact .inl (.inl hlt)
  · by_cases horigin : localeCompare y.origin x.origin = 0
    · have hsame := h.eq_of_zero _ _ horigin
      rcases le_or_gt 0 (localeCompare (canonicalJson localeCompare y.value) (canonicalJson localeCompare x.value)) with hle | hle
      · exact .inl (.inr ⟨heq, .inr ⟨hsame.symm, hle⟩⟩)
      · exact .inr (.inr ⟨heq.symm, .inr ⟨hsame, h.swap_nonneg.mpr hle.le⟩⟩)
    · rcases h.pos_of_neg horigin with hpos | hpos
      · exact .inl (.inr ⟨heq, .inl hpos⟩)
      · exact .inr (.inr ⟨heq.symm, .inl hpos⟩)
  · exact .inr (.inl hgt)

theorem Entry.antisymm : Std.Antisymm (Entry.le localeCompare) := by
  constructor
  intro x y hxy hyx
  rw [Entry.le_iff h] at hxy hyx
  obtain ⟨htime, hxy⟩ : x.timestamp = y.timestamp ∧ _ := by
    refine hxy.resolve_left fun hlt => ?_
    rcases hyx with hgt | ⟨heq, -⟩
    · exact lt_asymm hlt hgt
    · exact hlt.ne heq.symm
  have hyx := (hyx.resolve_left (htime ▸ lt_irrefl _)).2
  obtain ⟨horigin, hxy⟩ : x.origin = y.origin ∧ _ := by
    refine hxy.resolve_left fun hpos => ?_
    rcases hyx with hneg | ⟨heq, -⟩
    · exact lt_asymm hpos ((h.swap _ _).mp hneg)
    · rw [heq, h.self] at hpos
      exact lt_irrefl _ hpos
  have hself : ¬ 0 < localeCompare x.origin y.origin := by
    rw [horigin, h.self]
    exact lt_irrefl _
  have hyx := (hyx.resolve_left hself).2
  have htext := h.eq_of_zero _ _ (le_antisymm (h.swap_nonneg.mp hyx) hxy)
  have hvalue := canonicalJson_injective y.wellFormed x.wellFormed htext
  obtain ⟨value, timestamp, origin, _, _⟩ := x
  obtain ⟨value', timestamp', origin', _, _⟩ := y
  obtain rfl : value' = value := hvalue
  obtain rfl : timestamp = timestamp' := htime
  obtain rfl : origin = origin' := horigin
  rfl

theorem Entry.isTrans : IsTrans Entry (Entry.le localeCompare) := by
  constructor
  intro x y z hxy hyz
  rw [Entry.le_iff h] at hxy hyz ⊢
  rcases hxy with hxy | ⟨hxy, hxo⟩ <;> rcases hyz with hyz | ⟨hyz, hyo⟩
  · exact .inl (hxy.trans hyz)
  · exact .inl (hyz ▸ hxy)
  · exact .inl (hxy ▸ hyz)
  · refine .inr ⟨hxy.trans hyz, ?_⟩
    rcases hxo with hxo | ⟨hxo, hxv⟩ <;> rcases hyo with hyo | ⟨hyo, hyv⟩
    · exact .inl (h.trans_pos hyo hxo)
    · exact .inl (hyo ▸ hxo)
    · exact .inl (hxo ▸ hyo)
    · have htext := h.trans _ _ _ (h.swap_nonneg.mp hxv) (h.swap_nonneg.mp hyv)
      exact .inr ⟨hxo.trans hyo, h.swap_nonneg.mpr htext⟩

end

end Order

/-! ### Replicas -/

def FieldVersion.Proper (version : FieldVersion) : Prop :=
  version.timestamp.isSome = true ∧ isMissing version.origin = false

theorem Entry.ext_version {x y : Entry} (hvalue : x.value = y.value) (hversion : x.version = y.version) : x = y := by
  obtain ⟨value, timestamp, origin, _, _⟩ := x
  obtain ⟨value', timestamp', origin', _, _⟩ := y
  obtain rfl : value = value' := hvalue
  obtain ⟨htime, horigin⟩ := FieldVersion.mk.inj hversion
  obtain rfl : timestamp = timestamp' := Option.some.inj htime
  obtain rfl : origin = origin' := Option.some.inj horigin
  rfl

theorem Entry.version_proper (e : Entry) : e.version.Proper := ⟨rfl, e.present⟩

theorem isMissing_eq_false {origin : Option Text} :
    isMissing origin = false ↔ ∃ text, origin = some text ∧ isBlank text = false := by
  cases origin with
  | none => exact ⟨fun h => (by cases h), fun ⟨_, h, _⟩ => (by cases h)⟩
  | some text => exact ⟨fun h => ⟨text, rfl, h⟩, fun ⟨_, h, hblank⟩ => Option.some.inj h ▸ hblank⟩

theorem ite_fail_ok {α β : Type} {p : Prop} [Decidable p] {message : Text} {f : α → Except EdgeError β}
    {x : Except EdgeError β} {b : β} : (if p then (fail message : Except EdgeError α) >>= f else x) = .ok b ↔ ¬ p ∧ x = .ok b := by
  split_ifs with h
  · exact ⟨fun herror => (by cases herror), fun hnot => absurd h hnot.1⟩
  · exact ⟨fun hx => ⟨h, hx⟩, fun hx => hx.2⟩

theorem assertValidDate_ok {value : Option ℤ} {name : Text} : assertValidDate value name = .ok () ↔ value.isSome = true := by
  unfold assertValidDate fail
  split_ifs with h
  · exact ⟨fun _ => h, fun _ => rfl⟩
  · exact ⟨fun herror => (by cases herror), fun hsome => absurd hsome h⟩

theorem validateFieldVersion_ok {path : Text} {version : FieldVersion} :
    validateFieldVersion path version = .ok () ↔ ValidPath (splitDots path) ∧ version.Proper := by
  rw [validateFieldVersion, ite_fail_ok, bind_unit_ok, forM_ok, ite_fail_ok, assertValidDate_ok, Bool.not_eq_true]
  constructor
  · rintro ⟨-, hkeys, horigin, htime⟩
    exact ⟨fun segment hsegment => validateConfigurationKey_ok.mp (hkeys segment hsegment), htime, horigin⟩
  · rintro ⟨hkeys, htime, horigin⟩
    refine ⟨?_, fun segment hsegment => validateConfigurationKey_ok.mpr (hkeys segment hsegment), horigin, htime⟩
    rintro rfl
    exact absurd (hkeys [] List.mem_cons_self) (by decide)

theorem validateOptionalVersions_ok {fieldVersions : Option VersionMap} :
    (match fieldVersions with
      | some versions => validateFieldVersions versions
      | none => .ok ()) = .ok () ↔
      ∀ versions, fieldVersions = some versions → ∀ entry ∈ versions, ValidPath (splitDots entry.1) ∧ entry.2.Proper := by
  cases fieldVersions with
  | none => exact ⟨fun _ versions h => (by cases h), fun _ => rfl⟩
  | some versions =>
    dsimp only
    rw [validateFieldVersions, forM_ok]
    simp only [validateFieldVersion_ok, Option.some.injEq, forall_eq']

theorem validateReplicaValue_ok {value : EdgeReplicaValue} :
    validateReplicaValue value true = .ok () ↔ value.timestamp.isSome = true ∧ isMissing value.origin = false ∧
      (∃ fields, value.data = .object fields) ∧ validateConfigurationObject value.data = .ok () ∧
      ∀ versions, value.fieldVersions = some versions → ∀ entry ∈ versions,
        ValidPath (splitDots entry.1) ∧ entry.2.Proper := by
  rw [validateReplicaValue, bind_unit_ok, assertValidDate_ok, ite_fail_ok, bind_unit_ok, Bool.not_eq_true, if_pos rfl]
  refine and_congr_right fun _ => and_congr_right fun _ => ?_
  have hversions := @validateOptionalVersions_ok value.fieldVersions
  cases hdata : value.data with
  | object fields =>
    dsimp only
    rw [bind_unit_ok]
    constructor
    · rintro ⟨-, hvalid, hall⟩
      exact ⟨⟨fields, rfl⟩, hvalid, hversions.mp hall⟩
    · rintro ⟨-, hvalid, hall⟩
      exact ⟨assertJsonSafe_of_valid hvalid _, hvalid, hversions.mpr hall⟩
  | _ =>
    -- not an object
    refine ⟨fun h => (by cases h.2), fun h => ?_⟩
    obtain ⟨⟨fields, hfields⟩, -⟩ := h
    cases hfields

structure Replica where
  value : EdgeReplicaValue
  wellFormed : value.data.WellFormed
  accepted : validateReplicaValue value true = .ok ()

def EdgeReplicaValue.HasLeaf (value : EdgeReplicaValue) (name : Text) : Prop := (leafAt value.data [name]).isSome = true

/-- The version of the field is not looked up, or it is found before the prototype is asked. -/
def EdgeReplicaValue.OwnVersion (value : EdgeReplicaValue) (name : Text) : Prop :=
  ∀ versions, value.fieldVersions = some versions → (versions.lookup name).isSome = true

/-- A field that is named as a property of `Object.prototype` is in all of the replicas or in
none, and has a version of its own. -/
def NoInheritedVersions (replicas : List EdgeReplicaValue) : Prop :=
  ∀ name ∈ objectPrototypeNames, (∃ value ∈ replicas, value.HasLeaf name) →
    ∀ value ∈ replicas, value.HasLeaf name ∧ value.OwnVersion name

/-! ### Looking up a path -/

section Lookup
variable {α : Type} {entries : List (Text × α)} {key : Text} {value : α}

theorem lookup_mem (h : entries.lookup key = some value) : (key, value) ∈ entries := by
  obtain ⟨front, back, rfl, -⟩ := List.lookup_eq_some_iff.mp h
  exact List.mem_append_right _ List.mem_cons_self

theorem lookup_of_mem (hmem : (key, value) ∈ entries) (hunique : ∀ v, (key, v) ∈ entries → v = value) :
    entries.lookup key = some value := by
  cases hlookup : entries.lookup key with
  | none =>
    have hne := List.lookup_eq_none_iff.mp hlookup (key, value) hmem
    exact absurd hne (by simp)
  | some v => rw [hunique v (lookup_mem hlookup)]

theorem lookup_none (h : ∀ v, (key, v) ∉ entries) : entries.lookup key = none := by
  cases hlookup : entries.lookup key with
  | none => rfl
  | some v => exact absurd (lookup_mem hlookup) (h v)

end Lookup

theorem normalizedVersion_proper (r : Replica) {path : Text}
    (h : path ∈ objectPrototypeNames → r.value.OwnVersion path) : (r.value.normalizedVersion path).Proper := by
  obtain ⟨htime, horigin, -, -, hversions⟩ := validateReplicaValue_ok.mp r.accepted
  unfold EdgeReplicaValue.normalizedVersion
  cases hfields : r.value.fieldVersions with
  | none => exact ⟨htime, horigin⟩
  | some versions =>
    dsimp only
    unfold readProperty
    cases hlookup : versions.lookup path with
    | none =>
      dsimp only
      have hname : path ∉ objectPrototypeNames := by
        intro hname
        have hown := h hname versions hfields
        rw [hlookup] at hown
        cases hown
      rw [if_neg hname]
      exact ⟨htime, horigin⟩
    | some version => exact (hversions versions hfields _ (lookup_mem hlookup)).2

/-- The entry is the leaf of the configuration at a path, with the version it is merged by. -/
def Replica.Holds (r : Replica) (segments : List Text) (e : Entry) : Prop :=
  leafBelow r.value.data segments = some e.value ∧ r.value.normalizedVersion (dotted segments) = e.version

theorem holds_unique {r : Replica} {segments : List Text} {x y : Entry} (hx : r.Holds segments x) (hy : r.Holds segments y) :
    x = y := Entry.ext_version (Option.some.inj (hx.1.symm.trans hy.1)) (hx.2.symm.trans hy.2)

theorem exists_entry {r : Replica} {segments : List Text} {v : Json} (hleaf : leafBelow r.value.data segments = some v)
    (hown : dotted segments ∈ objectPrototypeNames → r.value.OwnVersion (dotted segments)) :
    ∃ e : Entry, r.Holds segments e ∧ e.value = v := by
  obtain ⟨htime, horigin⟩ := normalizedVersion_proper r hown
  obtain ⟨timestamp, htime⟩ := Option.isSome_iff_exists.mp htime
  obtain ⟨origin, horigin, hpresent⟩ := isMissing_eq_false.mp horigin
  have hwell : v.WellFormed := leafAt_wellFormed r.wellFormed (leafBelow_some.mp hleaf).2
  refine ⟨⟨v, timestamp, origin, hwell, hpresent⟩, ⟨hleaf, ?_⟩, rfl⟩
  rw [Entry.version, ← htime, ← horigin]

structure Path where
  segments : List Text

instance : PartialOrder Path where
  le p q := p.segments <+: q.segments
  le_refl p := List.prefix_refl _
  le_trans p q r := List.IsPrefix.trans
  le_antisymm := by
    rintro ⟨p⟩ ⟨q⟩ hpq hqp
    exact congrArg Path.mk (hpq.eq_of_length (le_antisymm hpq.length_le hqp.length_le))

open Classical in
noncomputable def Replica.entries (r : Replica) (path : Path) : Option Entry :=
  if h : ∃ e, r.Holds path.segments e then some h.choose else none

theorem entries_some {r : Replica} {path : Path} {e : Entry} : r.entries path = some e ↔ r.Holds path.segments e := by
  unfold Replica.entries
  split_ifs with h
  · refine ⟨fun heq => Option.some.inj heq ▸ h.choose_spec, fun he => ?_⟩
    rw [holds_unique h.choose_spec he]
  · exact ⟨fun heq => (by cases heq), fun he => absurd ⟨e, he⟩ h⟩

/-! ### One path of the merge -/

def Replica.Flattened (r : Replica) (flat : Flat) : Prop :=
  ∀ path v, (path, v) ∈ flat ↔ leafBelow r.value.data (splitDots path) = some v

theorem Replica.exists_flattened (localeCompare : Text → Text → ℤ) (r : Replica) :
    ∃ fields flat, r.value.data = .object fields ∧ flatten localeCompare fields = .ok flat ∧ r.Flattened flat := by
  obtain ⟨-, -, ⟨fields, hdata⟩, hvalid, -⟩ := validateReplicaValue_ok.mp r.accepted
  have hwell := r.wellFormed
  rw [hdata] at hvalid hwell
  obtain ⟨flat, hflat, hmem⟩ := @flatten_ok localeCompare fields hwell hvalid
  refine ⟨fields, flat, hdata, hflat, fun path v => ?_⟩
  rw [hmem, hdata, leafBelow_some]
  constructor
  · rintro ⟨-, hleaf⟩
    exact ⟨splitDots_ne_nil path, hleaf⟩
  · rintro ⟨-, hleaf⟩
    exact ⟨leafAt_validPath hvalid hleaf, hleaf⟩

section Flattened
variable {r : Replica} {flat : Flat} {segments : List Text}

theorem Replica.valid (r : Replica) : validateConfigurationObject r.value.data = .ok () := by
  obtain ⟨-, -, -, hvalid, -⟩ := validateReplicaValue_ok.mp r.accepted
  exact hvalid

theorem splitDots_leaf (h : (leafBelow r.value.data segments).isSome) : splitDots (dotted segments) = segments := by
  obtain ⟨v, hv⟩ := Option.isSome_iff_exists.mp h
  obtain ⟨hne, hleaf⟩ := leafBelow_some.mp hv
  exact splitDots_dotted_valid (leafAt_validPath r.valid hleaf) hne

theorem Replica.Flattened.leaf (h : r.Flattened flat) :
    ∀ field ∈ flat, leafAt r.value.data (splitDots field.1) = some field.2 := fun field hfield =>
  (leafBelow_some.mp ((h field.1 field.2).mp hfield)).2

theorem Replica.Flattened.front (h : r.Flattened flat) :
    ∀ field ∈ flat, ∀ path v, leafAt r.value.data path = some v → path <+: splitDots field.1 → path = splitDots field.1 := by
  rintro field hfield path v hv ⟨below, hbelow⟩
  by_cases hnil : below = []
  · rw [← hbelow, hnil, List.append_nil]
  · have hnone := leafAt_antichain hv hnil
    rw [hbelow, h.leaf field hfield] at hnone
    cases hnone

theorem Replica.Flattened.later (h : r.Flattened flat) :
    flat.Pairwise fun field later => splitDots later.1 <+: splitDots field.1 → later = field := by
  refine List.pairwise_of_forall_mem_list fun field hfield later hlater hprefix => ?_
  have hsame := h.front field hfield _ _ (h.leaf later hlater) hprefix
  have hvalue := h.leaf later hlater
  rw [hsame, h.leaf field hfield] at hvalue
  have hpath := congrArg dotted hsame
  rw [dotted_splitDots, dotted_splitDots] at hpath
  exact Prod.ext hpath (Option.some.inj hvalue).symm

theorem Replica.Flattened.build_eq (h : r.Flattened flat) {fields : Fields} (hdata : r.value.data = .object fields) :
    build flat = fields := by
  have hwell := r.wellFormed
  have hbuilt : (Json.object (build flat)).WellFormed := build_wellFormed fun field hfield =>
    ⟨leafAt_validPath r.valid (h.leaf field hfield), leafAt_wellFormed r.wellFormed (h.leaf field hfield)⟩
  rw [hdata] at hwell
  refine Json.object.inj (eq_of_leafBelow hbuilt hwell fun segments => Option.ext fun v => ?_)
  rw [leafBelow_some, leafBelow_some, ← hdata]
  refine and_congr_right fun hne => ?_
  rw [leafAt_build (fun field hfield => leafAt_isLeaf (h.leaf field hfield)) h.later hne]
  constructor
  · rintro ⟨⟨field, hfield, rfl, rfl⟩, -⟩
    exact h.leaf field hfield
  · intro hv
    have hbelow := leafBelow_some.mpr ⟨hne, hv⟩
    have hdotted : splitDots (dotted segments) = segments := splitDots_leaf (r := r) (by rw [hbelow]; rfl)
    exact ⟨⟨(dotted segments, v), (h _ v).mpr (hdotted.symm ▸ hbelow), hdotted, rfl⟩, fun field hfield => h.front field hfield _ _ hv⟩

/-- Flattening lists each leaf at a path of its own, none below another, and loses nothing. -/
theorem unflatten_flatten (localeCompare : Text → Text → ℤ) (r : Replica) :
    ∃ fields flat, r.value.data = .object fields ∧ flatten localeCompare fields = .ok flat ∧ unflatten flat = .ok fields ∧
      (∀ path v, (path, v) ∈ flat ↔ leafBelow r.value.data (splitDots path) = some v) ∧
      (∀ segments segments', (leafBelow r.value.data segments).isSome → (leafBelow r.value.data segments').isSome →
        dotted segments = dotted segments' → segments = segments') ∧
      ∀ field ∈ flat, ∀ other ∈ flat, ∀ below, other.1 ≠ field.1 ++ '.' :: below := by
  obtain ⟨fields, flat, hdata, hflat, h⟩ := r.exists_flattened localeCompare
  have hpaths : ∀ field ∈ flat, ValidPath (splitDots field.1) := fun field hfield => leafAt_validPath r.valid (h.leaf field hfield)
  refine ⟨fields, flat, hdata, hflat, ?_, h, fun segments segments' hsome hsome' heq => ?_, fun field hfield other hother below heq => ?_⟩
  · rw [unflatten_eq hpaths, h.build_eq hdata]
  · rw [← splitDots_leaf hsome, heq, splitDots_leaf hsome']
  · have hsegments : splitDots other.1 = splitDots field.1 ++ splitDots below := by
      rw [heq]
      exact List.splitOn_append_cons_self field.1 below
    have hsame := h.front other hother _ _ (h.leaf field hfield) (hsegments ▸ List.prefix_append _ _)
    exact splitDots_ne_nil below (List.self_eq_append_right.mp (hsame.trans hsegments))

end Flattened

section Field
variable {localeCompare : Text → Text → ℤ} {a b : Replica} {localFlat remoteFlat flat : Flat} {path : Text} {v : Json}

theorem valueAt_eq (h : a.Flattened flat) (hleaf : leafBelow a.value.data (splitDots path) = some v) : flat.valueAt path = v := by
  have hlookup : flat.lookup path = some v := by
    refine lookup_of_mem ((h path v).mpr hleaf) fun v' hv' => ?_
    exact Option.some.inj (((h path v').mp hv').symm.trans hleaf)
  rw [Flat.valueAt, hlookup, Option.getD_some]

theorem readVersion_own (h : a.Flattened flat) (hleaf : leafBelow a.value.data (splitDots path) = some v) :
    readProperty (normalizedFieldVersions a.value flat) path = .own (a.value.normalizedVersion path) := by
  have hlookup : (normalizedFieldVersions a.value flat).lookup path = some (a.value.normalizedVersion path) := by
    refine lookup_of_mem (List.mem_map.mpr ⟨(path, v), (h path v).mpr hleaf, rfl⟩) fun version hversion => ?_
    obtain ⟨field, -, heq⟩ := List.mem_map.mp hversion
    obtain ⟨rfl, rfl⟩ := Prod.mk.inj heq
    rfl
  rw [readProperty, hlookup]

theorem readVersion_absent (h : a.Flattened flat) (hleaf : leafBelow a.value.data (splitDots path) = none) :
    readProperty (normalizedFieldVersions a.value flat) path =
      if path ∈ objectPrototypeNames then .inherited else .undefined := by
  have hlookup : (normalizedFieldVersions a.value flat).lookup path = none := by
    refine lookup_none fun version hversion => ?_
    obtain ⟨field, hfield, heq⟩ := List.mem_map.mp hversion
    obtain ⟨rfl, -⟩ := Prod.mk.inj heq
    rw [(h field.1 field.2).mp hfield] at hleaf
    cases hleaf
  rw [readProperty, hlookup]

theorem compareFields_entry (x y : Entry) :
    compareFields localeCompare (x.value, x.version) (y.value, y.version) = .ok (x.comparison localeCompare y) := by
  rw [compareFields, compareVersions, Entry.comparison]
  by_cases htime : x.timestamp - y.timestamp = 0
  · have hdifference : timeDifference x.version.timestamp y.version.timestamp = 0 := htime
    rw [if_pos hdifference, if_neg (not_not.mpr htime)]
    by_cases horigin : localeCompare x.origin y.origin = 0
    · rw [if_neg (not_not.mpr horigin)]
      exact if_pos horigin
    · rw [if_pos horigin]
      exact if_neg horigin
  · have hdifference : timeDifference x.version.timestamp y.version.timestamp ≠ 0 := htime
    rw [if_neg hdifference, if_pos htime]
    exact if_neg htime

theorem mem_mergedPaths (ha : a.Flattened localFlat) (hb : b.Flattened remoteFlat) : path ∈ mergedPaths localFlat remoteFlat ↔
    (leafBelow a.value.data (splitDots path)).isSome = true ∨ (leafBelow b.value.data (splitDots path)).isSome = true := by
  have hkeys : ∀ {r : Replica} {flat}, r.Flattened flat →
      (path ∈ flat.map (·.1) ↔ (leafBelow r.value.data (splitDots path)).isSome = true) := by
    intro r flat h
    rw [Option.isSome_iff_exists, List.mem_map]
    constructor
    · rintro ⟨field, hfield, rfl⟩
      exact ⟨field.2, (h field.1 field.2).mp hfield⟩
    · rintro ⟨v, hv⟩
      exact ⟨(path, v), (h path v).mpr hv, rfl⟩
  rw [mergedPaths, (sortTexts_perm _).mem_iff, List.mem_dedup, List.mem_append, hkeys ha, hkeys hb]

theorem splitDots_prototypeName (h : path ∈ objectPrototypeNames) : splitDots path = [path] := by
  have hall : ∀ name ∈ objectPrototypeNames, splitDots name = [name] := by decide +kernel
  exact hall path h

theorem hasLeaf_iff (h : path ∈ objectPrototypeNames) :
    a.value.HasLeaf path ↔ (leafBelow a.value.data (splitDots path)).isSome = true := by
  rw [splitDots_prototypeName h]
  rfl

theorem entries_of_leaf (hleaf : leafBelow a.value.data (splitDots path) = some v)
    (hown : path ∈ objectPrototypeNames → a.value.OwnVersion path) :
    ∃ e, a.entries ⟨splitDots path⟩ = some e ∧ e.value = v ∧ a.value.normalizedVersion path = e.version := by
  rw [← dotted_splitDots path] at hown
  obtain ⟨e, he, hvalue⟩ := exists_entry hleaf hown
  have hversion := he.2
  rw [dotted_splitDots] at hversion
  exact ⟨e, entries_some.mpr he, hvalue, hversion⟩

theorem entries_of_absent (hleaf : leafBelow a.value.data (splitDots path) = none) : a.entries ⟨splitDots path⟩ = none := by
  cases he : a.entries ⟨splitDots path⟩ with
  | none => rfl
  | some e =>
    have hsome := (entries_some.mp he).1
    rw [hleaf] at hsome
    cases hsome

theorem mergeField_ok (h : NoInheritedVersions [a.value, b.value]) (ha : a.Flattened localFlat) (hb : b.Flattened remoteFlat)
    (hpath : path ∈ mergedPaths localFlat remoteFlat) :
    ∃ e, joinAt (greater (Entry.le localeCompare)) a.entries b.entries ⟨splitDots path⟩ = some e ∧
      mergeField localeCompare localFlat remoteFlat (normalizedFieldVersions a.value localFlat)
        (normalizedFieldVersions b.value remoteFlat) path = .ok (e.value, e.version) := by
  have hboth : path ∈ objectPrototypeNames → (a.value.HasLeaf path ∧ a.value.OwnVersion path) ∧
      b.value.HasLeaf path ∧ b.value.OwnVersion path := by
    intro hname
    have hsome : ∃ value ∈ [a.value, b.value], value.HasLeaf path := by
      rcases (mem_mergedPaths ha hb).mp hpath with hleaf | hleaf
      · exact ⟨a.value, List.mem_cons_self, (hasLeaf_iff hname).mpr hleaf⟩
      · exact ⟨b.value, List.mem_cons_of_mem _ List.mem_cons_self, (hasLeaf_iff hname).mpr hleaf⟩
    have hall := h path hname hsome
    exact ⟨hall a.value List.mem_cons_self, hall b.value (List.mem_cons_of_mem _ List.mem_cons_self)⟩
  unfold mergeField joinAt
  cases hla : leafBelow a.value.data (splitDots path) with
  | none =>
    have hname : path ∉ objectPrototypeNames := by
      intro hname
      have hleaf := (hasLeaf_iff hname).mp (hboth hname).1.1
      rw [hla] at hleaf
      cases hleaf
    cases hlb : leafBelow b.value.data (splitDots path) with
    | none =>
      rw [mem_mergedPaths ha hb, hla, hlb] at hpath
      rcases hpath with hpath | hpath <;> cases hpath
    | some v =>
      obtain ⟨e, hentry, rfl, hversion⟩ := entries_of_leaf hlb fun hname => (hboth hname).2.2
      refine ⟨e, ?_, ?_⟩
      · rw [entries_of_absent hla, hentry]
        rfl
      · rw [readVersion_absent ha hla, readVersion_own hb hlb, if_neg hname, valueAt_eq hb hlb, hversion]
        rfl
  | some v =>
    obtain ⟨e, hentry, rfl, hversion⟩ := entries_of_leaf hla fun hname => (hboth hname).1.2
    cases hlb : leafBelow b.value.data (splitDots path) with
    | none =>
      have hname : path ∉ objectPrototypeNames := by
        intro hname
        have hleaf := (hasLeaf_iff hname).mp (hboth hname).2.1
        rw [hlb] at hleaf
        cases hleaf
      refine ⟨e, ?_, ?_⟩
      · rw [entries_of_absent hlb, hentry]
        rfl
      · rw [readVersion_absent hb hlb, readVersion_own ha hla, if_neg hname, valueAt_eq ha hla, hversion]
        rfl
    | some w =>
      obtain ⟨e', hentry', rfl, hversion'⟩ := entries_of_leaf hlb fun hname => (hboth hname).2.2
      refine ⟨greater (Entry.le localeCompare) e e', ?_, ?_⟩
      · rw [hentry, hentry']
        rfl
      · rw [readVersion_own ha hla, readVersion_own hb hlb, valueAt_eq ha hla, valueAt_eq hb hlb, hversion, hversion']
        dsimp only
        rw [compareFields_entry]
        by_cases hle : Entry.le localeCompare e' e
        · rw [greater_of_le hle]
          exact if_pos hle
        · rw [greater_of_not_le hle]
          exact if_neg hle

end Field

end OxScada.Edge
