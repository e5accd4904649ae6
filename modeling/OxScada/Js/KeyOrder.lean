import OxScada.Js.CanonicalJson
import OxScada.Js.Collation
import OxScada.Order.StableSort

/-! JSON values up to the order of the keys of their objects. A sort by a comparator that calls distinct keys equal keeps such keys
in their order, so two values that are equal up to the order of keys sort to the same value where such keys agree. -/

namespace OxScada.Js
open OxScada.Bytes OxScada.Order

/-! ### Entries with keys of their own -/

section Entries
variable {α β : Type} {entries entries' : List (Text × α)}

theorem entry_unique (hnodup : (entries.map (·.1)).Nodup) {k : Text} {v w : α} (hv : (k, v) ∈ entries) (hw : (k, w) ∈ entries) : v = w := by
  have hsame := List.inj_on_of_nodup_map hnodup hv hw rfl
  exact (Prod.mk.inj hsame).2

/-- Entries with the same keys are a rearrangement of each other where entries with one key have one value. -/
theorem entries_perm (hnodup : (entries.map (·.1)).Nodup) (hnodup' : (entries'.map (·.1)).Nodup)
    (hkeys : ∀ k, k ∈ entries.map (·.1) ↔ k ∈ entries'.map (·.1)) (hvalues : ∀ k v w, (k, v) ∈ entries → (k, w) ∈ entries' → v = w) :
    entries.Perm entries' := by
  refine (List.perm_ext_iff_of_nodup hnodup.of_map hnodup'.of_map).mpr fun entry => ?_
  obtain ⟨k, v⟩ := entry
  constructor
  · intro hmem
    obtain ⟨entry, hentry, hkey⟩ := List.mem_map.mp ((hkeys k).mp (List.mem_map_of_mem hmem))
    obtain ⟨k', w⟩ := entry
    obtain rfl : k' = k := hkey
    rw [hvalues k' v w hmem hentry]
    exact hentry
  · intro hmem
    obtain ⟨entry, hentry, hkey⟩ := List.mem_map.mp ((hkeys k).mpr (List.mem_map_of_mem hmem))
    obtain ⟨k', w⟩ := entry
    obtain rfl : k' = k := hkey
    rw [← hvalues k' w v hentry hmem]
    exact hentry

/-- The keys that the comparator calls equal come in the same order. -/
def KeysAgree (compare : Text → Text → ℤ) (keys keys' : List Text) : Prop :=
  ∀ k k', compare k k' = 0 → ([k, k'].Sublist keys ↔ [k, k'].Sublist keys')

theorem idxOf_lt_of_sublist {keys : List Text} (hnodup : keys.Nodup) {k k' : Text} (h : [k, k'].Sublist keys) : keys.idxOf k < keys.idxOf k' := by
  have hpairs : keys.Pairwise fun a b => keys.idxOf a < keys.idxOf b := by
    refine List.pairwise_iff_getElem.mpr fun i j hi hj hij => ?_
    rw [hnodup.idxOf_getElem i hi, hnodup.idxOf_getElem j hj]
    exact hij
  exact List.pairwise_iff_forall_sublist.mp hpairs h

theorem sublist_of_keys {k k' : Text} (h : [k, k'].Sublist (entries.map (·.1))) :
    ∃ entry entry', [entry, entry'].Sublist entries ∧ entry.1 = k ∧ entry'.1 = k' := by
  obtain ⟨pair, hpair, heq⟩ := List.sublist_map_iff.mp h
  match pair, heq with
  | [entry, entry'], heq =>
    obtain ⟨hk, hk'⟩ : entry.1 = k ∧ entry'.1 = k' := by simpa using heq.symm
    exact ⟨entry, entry', hpair, hk, hk'⟩

variable {compare : Text → Text → ℤ} (hcompare : Compares compare)
include hcompare

theorem tied_iff (x y : Text × α) : Tied (entryLe compare) x y ↔ compare x.1 y.1 = 0 := by
  have hswap := hcompare.swap x.1 y.1
  have hswap' := hcompare.swap y.1 x.1
  unfold Tied entryLe
  omega

theorem class_agree
    (hclass : ∀ x ∈ entries, entries.filter (fun y => Tied (entryLe compare) x y) = entries'.filter fun y => Tied (entryLe compare) x y)
    {k k' : Text} (htied : compare k k' = 0) (h : [k, k'].Sublist (entries.map (·.1))) : [k, k'].Sublist (entries'.map (·.1)) := by
  obtain ⟨entry, entry', hpair, rfl, rfl⟩ := sublist_of_keys h
  have hself : Tied (entryLe compare) entry entry := (tied_iff hcompare entry entry).mpr (hcompare.self entry.1)
  have hother : Tied (entryLe compare) entry entry' := (tied_iff hcompare entry entry').mpr htied
  have hkept := hpair.filter fun y => decide (Tied (entryLe compare) entry y)
  rw [List.filter_cons_of_pos (by simpa using hself), List.filter_cons_of_pos (by simpa using hother),
    hclass entry (hpair.subset List.mem_cons_self)] at hkept
  exact (hkept.trans List.filter_sublist).map _

theorem sortEntries_eq_iff (hnodup : (entries.map (·.1)).Nodup) (hperm : entries.Perm entries') :
    sortEntries compare entries = sortEntries compare entries' ↔ KeysAgree compare (entries.map (·.1)) (entries'.map (·.1)) := by
  have htotal : Std.Total (entryLe compare (α := α)) := ⟨fun x y => (hcompare.comap fun entry : Text × α => entry.1).total.total x y⟩
  have htrans : IsTrans (Text × α) (entryLe compare) := ⟨fun x y z => hcompare.trans x.1 y.1 z.1⟩
  have hnodup' : (entries'.map (·.1)).Nodup := (hperm.map _).nodup_iff.mp hnodup
  refine (insertionSort_eq_iff hperm).trans ⟨fun hclass k k' htied => ⟨?_, ?_⟩, fun hagree x hx => ?_⟩
  · exact class_agree hcompare hclass htied
  · refine class_agree hcompare (fun y hy => ?_) htied
    exact (hclass y (hperm.mem_iff.mpr hy)).symm
  · -- both lists of the class of `x` have the order of its keys among all keys
    have hbefore : ∀ {a b : Text × α}, [a.1, b.1].Sublist (entries.map (·.1)) → (entries.map (·.1)).idxOf a.1 < (entries.map (·.1)).idxOf b.1 :=
      fun hsub => idxOf_lt_of_sublist hnodup hsub
    let before : Text × α → Text × α → Prop := fun a b => (entries.map (·.1)).idxOf a.1 < (entries.map (·.1)).idxOf b.1
    refine (hperm.filter _).eq_of_pairwise (fun a b _ _ (hab : before a b) (hba : before b a) => absurd hab (lt_asymm hba)) ?_ ?_
    · refine List.pairwise_iff_forall_sublist.mpr fun {a b} hsub => hbefore ?_
      exact (hsub.trans List.filter_sublist).map _
    · refine List.pairwise_iff_forall_sublist.mpr fun {a b} hsub => hbefore ?_
      have ha : Tied (entryLe compare) x a := by simpa using List.of_mem_filter (hsub.subset List.mem_cons_self)
      have hb : Tied (entryLe compare) x b := by simpa using List.of_mem_filter (hsub.subset (List.mem_cons_of_mem a List.mem_cons_self))
      have htied : compare a.1 b.1 = 0 :=
        (tied_iff hcompare a b).mp ⟨htrans.trans a x b ha.2 hb.1, htrans.trans b x a hb.2 ha.1⟩
      exact (hagree a.1 b.1 htied).mpr ((hsub.trans List.filter_sublist).map _)

end Entries

/-! ### Values -/

/-- A number as `JSON.stringify` spells it: digits, a fraction and an exponent with a sign. -/
def isNumberText (text : Text) : Bool :=
  let unsigned := if text.head? = some '-' then text.tail else text
  let whole := unsigned.takeWhile Char.isDigit
  let afterWhole := unsigned.dropWhile Char.isDigit
  let fraction := if afterWhole.head? = some '.' then afterWhole.tail.takeWhile Char.isDigit else []
  let exponent := if afterWhole.head? = some '.' then afterWhole.tail.dropWhile Char.isDigit else afterWhole
  (whole = ['0'] ∨ whole ≠ [] ∧ whole.head? ≠ some '0') ∧ (afterWhole.head? = some '.' → fraction ≠ []) ∧
    (exponent = [] ∨ exponent.head? = some 'e' ∧ (exponent[1]? = some '+' ∨ exponent[1]? = some '-') ∧
      exponent.drop 2 ≠ [] ∧ exponent.drop 2 = (exponent.drop 2).takeWhile Char.isDigit)

/-- A value that there is: its numbers are spelled as numbers are, and no object has a key twice. -/
inductive Json.Proper : Json → Prop
  | null : Proper .null
  | bool (value : Bool) : Proper (.bool value)
  | number (value : JsonNumber) (h : isNumberText value.text = true) : Proper (.number value)
  | string (value : Text) : Proper (.string value)
  | array {items : List Json} (h : ∀ j ∈ items, Proper j) : Proper (.array items)
  | object {fields : Fields} (hnodup : fields.keys.Nodup) (h : ∀ field ∈ fields, Proper field.2) : Proper (.object fields)

theorem Json.Proper.items {items : List Json} (h : (Json.array items).Proper) : ∀ j ∈ items, j.Proper := by
  cases h with
  | array h => exact h

theorem Json.Proper.nodup {fields : Fields} (h : (Json.object fields).Proper) : fields.keys.Nodup := by
  cases h with
  | object hnodup h => exact hnodup

theorem Json.Proper.fields {fields : Fields} (h : (Json.object fields).Proper) : ∀ field ∈ fields, field.2.Proper := by
  cases h with
  | object hnodup h => exact h

def sortKeys (fields : Fields) : Fields := fields.insertionSort fun x y => x.1 ≤ y.1

/-- The value with the fields of every object in the order of their keys. Values are equal up to the order of keys if this is the
same for them. -/
def Json.ordered (j : Json) : Json := j.rebuild sortKeys

section Ordered
variable {arrange : Fields → Fields}

theorem sortKeys_perm (fields : Fields) : (sortKeys fields).Perm fields := List.perm_insertionSort _ fields

theorem sortKeys_congr {fields fields' : Fields} (hnodup : fields.keys.Nodup) (h : fields.Perm fields') : sortKeys fields = sortKeys fields' := by
  have hsorted : ∀ l : Fields, (sortKeys l).Pairwise fun x y => x.1 ≤ y.1 := by
    intro l
    have : Std.Total fun x y : Text × Json => x.1 ≤ y.1 := ⟨fun x y => le_total _ _⟩
    have : IsTrans (Text × Json) fun x y => x.1 ≤ y.1 := ⟨fun _ _ _ => le_trans⟩
    exact List.pairwise_insertionSort _ l
  have hperm : (sortKeys fields).Perm (sortKeys fields') := (sortKeys_perm fields).trans (h.trans (sortKeys_perm fields').symm)
  refine hperm.eq_of_pairwise (fun x y hx hy hxy hyx => ?_) (hsorted fields) (hsorted fields')
  have hmem : ∀ z ∈ sortKeys fields, z ∈ fields := fun z hz => (sortKeys_perm fields).mem_iff.mp hz
  have hx' := hmem x hx
  have hy' := hmem y (hperm.mem_iff.mpr hy)
  exact List.inj_on_of_nodup_map hnodup hx' hy' (le_antisymm hxy hyx)

def KeysOnly (arrange : Fields → Fields) : Prop :=
  ∀ other fields, arrange (fields.map (rebuildField other)) = (arrange fields).map (rebuildField other)

theorem insertionSort_keysOnly (before : Text → Text → Prop) [DecidableRel before] :
    KeysOnly fun fields => fields.insertionSort fun x y => before x.1 y.1 := by
  intro other fields
  dsimp only
  exact (List.map_insertionSort (fun x y : Text × Json => before x.1 y.1) (fun x y : Text × Json => before x.1 y.1) (rebuildField other) fields
    fun _ _ _ _ => Iff.rfl).symm

theorem sortKeys_keysOnly : KeysOnly sortKeys := insertionSort_keysOnly (· ≤ ·)

theorem filter_keysOnly (keep : Text → Bool) : KeysOnly fun fields => fields.filter fun field => keep field.1 := by
  intro other fields
  dsimp only
  rw [List.filter_map]
  rfl

theorem KeysOnly.comp {first : Fields → Fields} (harrange : KeysOnly arrange) (hfirst : KeysOnly first) : KeysOnly (arrange ∘ first) := by
  intro other fields
  simp only [Function.comp_apply]
  rw [hfirst, harrange]

theorem rebuild_rebuild (harrange : KeysOnly arrange) (other : Fields → Fields) (j : Json) :
    (j.rebuild arrange).rebuild other = j.rebuild (other ∘ arrange) := by
  induction j using Json.induction with
  | null | bool | number | string => rfl
  | array items ih =>
    rw [Json.rebuild_array, Json.rebuild_array, Json.rebuild_array, List.map_map]
    congr 1
    exact List.map_congr_left ih
  | object fields ih =>
    rw [Json.rebuild_object, Json.rebuild_object, Json.rebuild_object, ← harrange, List.map_map, Function.comp_apply]
    congr 3
    apply List.map_congr_left
    intro field hfield
    exact Prod.ext rfl (ih field hfield)

theorem rebuild_congr {other : Fields → Fields} (h : ∀ fields, fields.keys.Nodup → arrange fields = other fields) {j : Json} (hj : j.Proper) :
    j.rebuild arrange = j.rebuild other := by
  induction j using Json.induction with
  | null | bool | number | string => rfl
  | array items ih =>
    rw [Json.rebuild_array, Json.rebuild_array]
    congr 1
    exact List.map_congr_left fun item hitem => ih item hitem (hj.items item hitem)
  | object fields ih =>
    have hvalues : fields.map (rebuildField arrange) = fields.map (rebuildField other) :=
      List.map_congr_left fun field hfield => Prod.ext rfl (ih field hfield (hj.fields field hfield))
    rw [Json.rebuild_object, Json.rebuild_object, hvalues]
    congr 1
    apply h
    rw [rebuildField_keys]
    exact hj.nodup

theorem Json.Proper.rebuild (harrange : ∀ fields, (arrange fields).Perm fields) {j : Json} (h : j.Proper) : (j.rebuild arrange).Proper := by
  induction j using Json.induction with
  | null | bool | number | string => exact h
  | array items ih =>
    rw [Json.rebuild_array]
    refine .array fun j hj => ?_
    obtain ⟨item, hitem, rfl⟩ := List.mem_map.mp hj
    exact ih item hitem (h.items item hitem)
  | object fields ih =>
    rw [Json.rebuild_object]
    refine .object ?_ fun field hfield => ?_
    · have hkeys := ((harrange (fields.map (rebuildField arrange))).map (·.1)).nodup_iff.mpr
      apply hkeys
      have hsame := rebuildField_keys arrange fields
      unfold Fields.keys at hsame
      rw [hsame]
      exact h.nodup
    · obtain ⟨old, hold, rfl⟩ := List.mem_map.mp ((harrange _).mem_iff.mp hfield)
      exact ih old hold (h.fields old hold)

theorem ordered_rebuild (harrange : ∀ fields, (arrange fields).Perm fields) {j : Json} (h : j.Proper) : (j.rebuild arrange).ordered = j.ordered := by
  unfold Json.ordered
  induction j using Json.induction with
  | null | bool | number | string => rfl
  | array items ih =>
    rw [Json.rebuild_array, Json.rebuild_array, Json.rebuild_array, List.map_map]
    congr 1
    exact List.map_congr_left fun j hj => ih j hj (h.items j hj)
  | object fields ih =>
    rw [Json.rebuild_object, Json.rebuild_object, Json.rebuild_object]
    congr 1
    have hvalues : (fields.map (rebuildField arrange)).map (rebuildField sortKeys) = fields.map (rebuildField sortKeys) := by
      rw [List.map_map]
      apply List.map_congr_left
      intro field hfield
      exact Prod.ext rfl (ih field hfield (h.fields field hfield))
    refine sortKeys_congr ?_ (((harrange _).map _).trans (.of_eq hvalues))
    have hkeys := ((harrange (fields.map (rebuildField arrange))).map (·.1)).nodup_iff
    rw [rebuildField_keys]
    refine hkeys.mpr ?_
    have hsame := rebuildField_keys arrange fields
    unfold Fields.keys at hsame
    rw [hsame]
    exact h.nodup

theorem ordered_object_iff {fields fields' : Fields} (hnodup : fields.keys.Nodup) :
    (Json.object fields).ordered = (Json.object fields').ordered ↔
      (fields.map (rebuildField sortKeys)).Perm (fields'.map (rebuildField sortKeys)) := by
  unfold Json.ordered
  rw [Json.rebuild_object, Json.rebuild_object, Json.object.injEq]
  constructor
  · intro h
    exact (sortKeys_perm _).symm.trans ((List.Perm.of_eq h).trans (sortKeys_perm _))
  · intro h
    refine sortKeys_congr ?_ h
    rw [rebuildField_keys]
    exact hnodup

theorem ordered_array_iff {items items' : List Json} : (Json.array items).ordered = (Json.array items').ordered ↔
    items.map Json.ordered = items'.map Json.ordered := by
  unfold Json.ordered
  rw [Json.rebuild_array, Json.rebuild_array, Json.array.injEq]

end Ordered

/-! ### Places -/

inductive Step where
  | key (k : Text)
  | index (i : ℕ)

def Json.at? : Json → List Step → Option Json
  | j, [] => some j
  | .array items, .index i :: rest => items[i]?.bind fun j => j.at? rest
  | .object fields, .key k :: rest => (Fields.get? fields k).bind fun j => j.at? rest
  | _, _ :: _ => none

/-- In the two objects at any place of both values, the keys that the comparator calls equal come in the same order. -/
def TiesAgree (compare : Text → Text → ℤ) (x y : Json) : Prop :=
  ∀ place fields fields', x.at? place = some (.object fields) → y.at? place = some (.object fields') →
    KeysAgree compare (Fields.keys fields) (Fields.keys fields')

theorem Fields.get?_eq_some {fields : Fields} (hnodup : fields.keys.Nodup) {k : Text} {v : Json} : fields.get? k = some v ↔ (k, v) ∈ fields := by
  refine ⟨Fields.mem_of_get?, fun hmem => ?_⟩
  cases hget : fields.get? k with
  | none =>
    rw [Fields.get?, Option.map_eq_none_iff, List.find?_eq_none] at hget
    have hother := hget (k, v) hmem
    simp at hother
  | some w => rw [entry_unique hnodup hmem (Fields.mem_of_get? hget)]

theorem Fields.get?_rebuild (other : Fields → Fields) (fields : Fields) (key : Text) :
    Fields.get? (fields.map (rebuildField other)) key = (Fields.get? fields key).map (Json.rebuild other) := by
  unfold Fields.get?
  rw [List.find?_map, Option.map_map, Option.map_map]
  rfl

theorem Fields.get?_perm {fields fields' : Fields} (hnodup : fields.keys.Nodup) (hperm : fields.Perm fields') (k : Text) : fields'.get? k = fields.get? k := by
  have hnodup' : fields'.keys.Nodup := (hperm.map Prod.fst).nodup_iff.mp hnodup
  ext v
  rw [Fields.get?_eq_some hnodup', Fields.get?_eq_some hnodup, hperm.mem_iff]

section Ties
variable {compare : Text → Text → ℤ}

theorem tiesAgree_leaf {x y : Json} (hx : ∀ fields, x ≠ .object fields) (hitems : ∀ items, x ≠ .array items) : TiesAgree compare x y := by
  intro place fields fields' hplace _
  cases place with
  | nil => exact absurd (Option.some.inj hplace) (hx fields)
  | cons step rest =>
    cases x with
    | array items => exact absurd rfl (hitems items)
    | object fields => exact absurd rfl (hx fields)
    | _ => simp [Json.at?] at hplace

theorem tiesAgree_array {items items' : List Json} : TiesAgree compare (.array items) (.array items') ↔
    ∀ (i : ℕ) (x y : Json), items[i]? = some x → items'[i]? = some y → TiesAgree compare x y := by
  constructor
  · intro h i x y hx hy place fields fields' hplace hplace'
    refine h (.index i :: place) fields fields' ?_ ?_
    · rw [Json.at?, hx]
      exact hplace
    · rw [Json.at?, hy]
      exact hplace'
  · intro h place fields fields' hplace hplace'
    cases place with
    | nil => cases hplace
    | cons step rest =>
      cases step with
      | key k => cases hplace
      | index i =>
        rw [Json.at?] at hplace hplace'
        obtain ⟨x, hx, hplace⟩ := Option.bind_eq_some_iff.mp hplace
        obtain ⟨y, hy, hplace'⟩ := Option.bind_eq_some_iff.mp hplace'
        exact h i x y hx hy rest fields fields' hplace hplace'

theorem tiesAgree_object {fields fields' : Fields} : TiesAgree compare (.object fields) (.object fields') ↔
    KeysAgree compare fields.keys fields'.keys ∧ ∀ k x y, fields.get? k = some x → fields'.get? k = some y → TiesAgree compare x y := by
  constructor
  · intro h
    refine ⟨h [] fields fields' rfl rfl, fun k x y hx hy place inner inner' hplace hplace' => ?_⟩
    refine h (.key k :: place) inner inner' ?_ ?_
    · rw [Json.at?, hx]
      exact hplace
    · rw [Json.at?, hy]
      exact hplace'
  · rintro ⟨hkeys, hvalues⟩ place inner inner' hplace hplace'
    cases place with
    | nil =>
      obtain rfl := Json.object.inj (Option.some.inj hplace)
      obtain rfl := Json.object.inj (Option.some.inj hplace')
      exact hkeys
    | cons step rest =>
      cases step with
      | index i => cases hplace
      | key k =>
        rw [Json.at?] at hplace hplace'
        obtain ⟨x, hx, hplace⟩ := Option.bind_eq_some_iff.mp hplace
        obtain ⟨y, hy, hplace'⟩ := Option.bind_eq_some_iff.mp hplace'
        exact hvalues k x y hx hy rest inner inner' hplace hplace'

theorem ordered_field {fields fields' : Fields}
    (h : (fields.map (rebuildField sortKeys)).Perm (fields'.map (rebuildField sortKeys))) {k : Text} {v : Json} (hv : (k, v) ∈ fields) :
    ∃ w, (k, w) ∈ fields' ∧ v.ordered = w.ordered := by
  have hmem : rebuildField sortKeys (k, v) ∈ fields'.map (rebuildField sortKeys) := h.mem_iff.mp (List.mem_map_of_mem hv)
  obtain ⟨⟨k', w⟩, hw, heq⟩ := List.mem_map.mp hmem
  obtain ⟨hkey, hvalue⟩ := Prod.mk.inj heq
  obtain rfl : k' = k := hkey
  exact ⟨w, hw, hvalue.symm⟩

theorem mem_rebuilt_keys {arrange : Fields → Fields} {fields : Fields} {k : Text} :
    k ∈ (fields.map (rebuildField arrange)).map (·.1) ↔ ∃ v, (k, v) ∈ fields := by
  have hkeys := rebuildField_keys arrange fields
  unfold Fields.keys at hkeys
  rw [hkeys, List.mem_map]
  constructor
  · rintro ⟨⟨k', v⟩, hmem, rfl⟩
    exact ⟨v, hmem⟩
  · rintro ⟨v, hmem⟩
    exact ⟨(k, v), hmem, rfl⟩

/-- Sorting the keys of two values that are equal up to their order gives one value if and only if the keys that are called equal
agree. -/
theorem rebuild_sort_iff (hcompare : Compares compare) {x y : Json} (hx : x.Proper) (hy : y.Proper) (h : x.ordered = y.ordered) :
    x.rebuild (sortEntries compare) = y.rebuild (sortEntries compare) ↔ TiesAgree compare x y := by
  induction x using Json.induction generalizing y with
  | null =>
    cases y with
    | null => exact iff_of_true rfl (tiesAgree_leaf (by simp) (by simp))
    | _ => cases h
  | bool value =>
    cases y with
    | bool value' => exact iff_of_true h (tiesAgree_leaf (by simp) (by simp))
    | _ => cases h
  | number value =>
    cases y with
    | number value' => exact iff_of_true h (tiesAgree_leaf (by simp) (by simp))
    | _ => cases h
  | string value =>
    cases y with
    | string value' => exact iff_of_true h (tiesAgree_leaf (by simp) (by simp))
    | _ => cases h
  | array items ih =>
    cases y with
    | array items' =>
      rw [ordered_array_iff] at h
      rw [Json.rebuild_array, Json.rebuild_array, Json.array.injEq, tiesAgree_array]
      have hitem : ∀ (i : ℕ) (a b : Json), items[i]? = some a → items'[i]? = some b →
          (a.rebuild (sortEntries compare) = b.rebuild (sortEntries compare) ↔ TiesAgree compare a b) := by
        intro i a b ha hb
        have horder := congrArg (·[i]?) h
        simp only [List.getElem?_map, ha, hb, Option.map_some, Option.some.injEq] at horder
        exact ih a (List.mem_of_getElem? ha) (hx.items a (List.mem_of_getElem? ha)) (hy.items b (List.mem_of_getElem? hb)) horder
      have hlength : items.length = items'.length := by simpa using congrArg List.length h
      constructor
      · intro hsame i a b ha hb
        have hrebuilt := congrArg (·[i]?) hsame
        simp only [List.getElem?_map, ha, hb, Option.map_some, Option.some.injEq] at hrebuilt
        exact (hitem i a b ha hb).mp hrebuilt
      · intro hagree
        refine List.ext_getElem (by simpa using hlength) fun i hi hi' => ?_
        rw [List.length_map] at hi hi'
        rw [List.getElem_map, List.getElem_map]
        exact (hitem i _ _ (List.getElem?_eq_getElem hi) (List.getElem?_eq_getElem hi')).mpr
          (hagree i _ _ (List.getElem?_eq_getElem hi) (List.getElem?_eq_getElem hi'))
    | _ => cases h
  | object fields ih =>
    cases y with
    | object fields' =>
      rw [ordered_object_iff hx.nodup] at h
      have hforth := fun {k v} => @ordered_field fields fields' h k v
      have hback := fun {k v} => @ordered_field fields' fields h.symm k v
      have hnodup := rebuildField_keys (sortEntries compare) fields ▸ hx.nodup
      have hnodup' := rebuildField_keys (sortEntries compare) fields' ▸ hy.nodup
      -- entries are compared under their key, wherever it stands in the other object
      have hfield : ∀ k v w, (k, v) ∈ fields → (k, w) ∈ fields' →
          (v.rebuild (sortEntries compare) = w.rebuild (sortEntries compare) ↔ TiesAgree compare v w) := by
        intro k v w hv hw
        obtain ⟨w', hw', horder⟩ := hforth hv
        rw [entry_unique hy.nodup hw' hw] at horder
        exact ih (k, v) hv (hx.fields _ hv) (hy.fields _ hw) horder
      rw [Json.rebuild_object, Json.rebuild_object, Json.object.injEq, tiesAgree_object]
      constructor
      · intro hsame
        have hperm : (fields.map (rebuildField (sortEntries compare))).Perm (fields'.map (rebuildField (sortEntries compare))) :=
          (List.perm_insertionSort _ _).symm.trans ((List.Perm.of_eq hsame).trans (List.perm_insertionSort _ _))
        have hagree := (sortEntries_eq_iff hcompare hnodup hperm).mp hsame
        rw [← rebuildField_keys (sortEntries compare) fields, ← rebuildField_keys (sortEntries compare) fields']
        refine ⟨hagree, fun k v w hv hw => ?_⟩
        have hv := (Fields.get?_eq_some hx.nodup).mp hv
        have hw := (Fields.get?_eq_some hy.nodup).mp hw
        have hmem : (k, v.rebuild (sortEntries compare)) ∈ fields'.map (rebuildField (sortEntries compare)) :=
          hperm.mem_iff.mp (List.mem_map.mpr ⟨(k, v), hv, rfl⟩)
        have hmem' : (k, w.rebuild (sortEntries compare)) ∈ fields'.map (rebuildField (sortEntries compare)) := List.mem_map.mpr ⟨(k, w), hw, rfl⟩
        exact (hfield k v w hv hw).mp (entry_unique hnodup' hmem hmem')
      · rintro ⟨hkeys, hvalues⟩
        have hperm : (fields.map (rebuildField (sortEntries compare))).Perm (fields'.map (rebuildField (sortEntries compare))) := by
          refine entries_perm hnodup hnodup' (fun k => ?_) fun k a b ha hb => ?_
          · rw [mem_rebuilt_keys, mem_rebuilt_keys]
            exact ⟨fun ⟨v, hv⟩ => (hforth hv).imp fun _ hw => hw.1, fun ⟨v, hv⟩ => (hback hv).imp fun _ hw => hw.1⟩
          · obtain ⟨⟨k', v⟩, hv, heq⟩ := List.mem_map.mp ha
            obtain ⟨rfl, rfl⟩ := Prod.mk.inj heq
            obtain ⟨⟨k', w⟩, hw, heq⟩ := List.mem_map.mp hb
            obtain ⟨rfl, rfl⟩ := Prod.mk.inj heq
            exact (hfield _ v w hv hw).mpr (hvalues _ v w ((Fields.get?_eq_some hx.nodup).mpr hv) ((Fields.get?_eq_some hy.nodup).mpr hw))
        refine (sortEntries_eq_iff hcompare hnodup hperm).mpr ?_
        have hagree := hkeys
        rw [← rebuildField_keys (sortEntries compare) fields, ← rebuildField_keys (sortEntries compare) fields'] at hagree
        exact hagree
    | _ => cases h

end Ties

end OxScada.Js
