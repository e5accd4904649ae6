import OxScada.Js.JsonParse

/-! The hash of an event, and what it says about the event. The data are rebuilt with their keys in order by assignments to a new
object, where the key `__proto__` makes no property. -/

namespace OxScada.Integrity.EventHash
open OxScada.Bytes OxScada.Js

inductive Number where
  | finite (value : JsonNumber)
  | nan
  | infinity
  | negInfinity
  deriving DecidableEq

def Number.written : Number → Json
  | .finite value => .number value
  | _ => .null

structure SCADAEvent where
  id : Text
  timestamp : Number
  type : Text
  source : Text
  data : Json

def assignSorted (data : Fields) : Record Json :=
  (sortTexts (Fields.keys data)).foldl (fun sorted key => sorted.assign key ((Fields.get? data key).getD .null)) Record.empty

def canonicalFields (data : Fields) : Fields := enumerate (assignSorted data).entries

mutual

def canonicalizeData : Json → Json
  | .array items => .array (canonicalizeItems items)
  | .object fields => .object (canonicalFields (canonicalizeFields fields))
  | j => j

def canonicalizeItems : List Json → List Json
  | [] => []
  | item :: rest => canonicalizeData item :: canonicalizeItems rest

def canonicalizeFields : List (Text × Json) → List (Text × Json)
  | [] => []
  | (key, value) :: rest => (key, canonicalizeData value) :: canonicalizeFields rest

end

def canonical (event : SCADAEvent) : Json :=
  .object [("id".toList, .string event.id), ("timestamp".toList, event.timestamp.written), ("type".toList, .string event.type),
    ("source".toList, .string event.source), ("data".toList, canonicalizeData event.data)]

def hashEvent (sha256 : Text → Text) (event : SCADAEvent) : Text := sha256 (stringify (canonical event))

/-! ### The keys of the new object -/

def withoutProto (fields : Fields) : Fields := fields.filter fun field => field.1 ≠ protoKey

theorem withoutProto_keysOnly : KeysOnly withoutProto := by
  intro other fields
  have hkeys := filter_keysOnly (fun key => key ≠ protoKey) other fields
  simpa [withoutProto] using hkeys

theorem foldl_assign (value : Text → Json) {keys : List Text} (hnodup : keys.Nodup) {made : Record Json}
    (hnew : ∀ key ∈ keys, key ∉ made.entries.map (·.1)) :
    (keys.foldl (fun sorted key => sorted.assign key (value key)) made).entries =
      made.entries ++ (keys.filter fun key => key ≠ protoKey).map fun key => (key, value key) := by
  induction keys generalizing made with
  | nil => simp
  | cons key rest ih =>
    obtain ⟨hfirst, hrest⟩ := List.nodup_cons.mp hnodup
    obtain ⟨hkey, hnew⟩ := List.forall_mem_cons.mp hnew
    rw [List.foldl_cons]
    by_cases hproto : key = protoKey
    · rw [hproto, Record.assign_protoKey, ih hrest hnew]
      simp
    · have hassign := Record.assign_new (value key) hproto hkey
      have hnew' : ∀ k ∈ rest, k ∉ (made.assign key (value key)).entries.map (·.1) := by
        intro k hk hmem
        rw [hassign, List.map_append] at hmem
        rcases List.mem_append.mp hmem with hold | hsame
        · exact hnew k hk hold
        · obtain rfl : k = key := List.mem_singleton.mp hsame
          exact hfirst hk
      rw [ih hrest hnew', hassign]
      simp [hproto]

variable {fields : Fields}

section
variable (hnodup : fields.keys.Nodup)
include hnodup

theorem assignSorted_entries :
    (assignSorted fields).entries =
      ((sortTexts fields.keys).filter fun key => key ≠ protoKey).map fun key => (key, (Fields.get? fields key).getD .null) := by
  have hsorted : (sortTexts fields.keys).Nodup := (sortTexts_perm _).nodup_iff.mpr hnodup
  have hnew : ∀ key ∈ sortTexts fields.keys, key ∉ (Record.empty : Record Json).entries.map (·.1) := by simp [Record.empty]
  rw [assignSorted, foldl_assign (fun key => (Fields.get? fields key).getD .null) hsorted hnew]
  rfl

theorem assignSorted_perm : (assignSorted fields).entries.Perm (withoutProto fields) := by
  have hvalues : ∀ field ∈ withoutProto fields, (field.1, (Fields.get? fields field.1).getD .null) = field := by
    intro field hfield
    rw [(Fields.get?_eq_some hnodup).mpr (List.mem_of_mem_filter hfield)]
    rfl
  have hperm := ((sortTexts_perm fields.keys).filter fun key => key ≠ protoKey).map fun key => (key, (Fields.get? fields key).getD .null)
  rw [assignSorted_entries hnodup]
  refine hperm.trans (.of_eq ?_)
  rw [Fields.keys, List.filter_map, List.map_map]
  exact (List.map_congr_left hvalues).trans (List.map_id _)

theorem assignSorted_sorted :
    (assignSorted fields).entries.Pairwise fun x y => codeUnits x.1 < codeUnits y.1 := by
  rw [assignSorted_entries hnodup, List.pairwise_map]
  exact (sortTexts_strict hnodup).filter _

theorem canonicalFields_perm : (canonicalFields fields).Perm (withoutProto fields) :=
  (enumerate_perm _).trans (assignSorted_perm hnodup)

end

theorem canonicalFields_congr {fields' : Fields} (hnodup : fields.keys.Nodup) (hnodup' : fields'.keys.Nodup)
    (h : (withoutProto fields).Perm (withoutProto fields')) : canonicalFields fields = canonicalFields fields' := by
  have hperm : (assignSorted fields).entries.Perm (assignSorted fields').entries :=
    (assignSorted_perm hnodup).trans (h.trans (assignSorted_perm hnodup').symm)
  have hsame := hperm.eq_of_pairwise (fun x y _ _ hxy hyx => absurd hyx (lt_asymm hxy)) (assignSorted_sorted hnodup) (assignSorted_sorted hnodup')
  rw [canonicalFields, canonicalFields, hsame]

theorem assign_rebuild (other : Fields → Fields) {made made' : Record Json} (h : made'.entries = made.entries.map (rebuildField other)) (key : Text) (value : Json) :
    (made'.assign key (value.rebuild other)).entries = (made.assign key value).entries.map (rebuildField other) := by
  have hkeys : made'.entries.map (·.1) = made.entries.map (·.1) := by
    rw [h]
    exact rebuildField_keys other made.entries
  unfold Record.assign
  by_cases hproto : key = protoKey
  · rw [if_pos hproto, if_pos hproto, h]
  · rw [if_neg hproto, if_neg hproto]
    by_cases hkey : key ∈ made.entries.map (·.1)
    · rw [dif_pos hkey, dif_pos (hkeys ▸ hkey)]
      simp only [Record.replace, h, List.map_map]
      apply List.map_congr_left
      intro entry _
      by_cases hentry : entry.1 = key
      · simp [rebuildField, hentry]
      · simp [rebuildField, hentry]
    · rw [dif_neg hkey, dif_neg (hkeys ▸ hkey)]
      simp [h, rebuildField]

theorem canonicalFields_keysOnly : KeysOnly canonicalFields := by
  intro other fields
  have hvalue : ∀ key, (Fields.get? (fields.map (rebuildField other)) key).getD .null = ((Fields.get? fields key).getD .null).rebuild other := by
    intro key
    rw [Fields.get?_rebuild]
    cases Fields.get? fields key with
    | none => rfl
    | some value => rfl
  have hassigned : (assignSorted (fields.map (rebuildField other))).entries = (assignSorted fields).entries.map (rebuildField other) := by
    unfold assignSorted
    rw [rebuildField_keys]
    -- the two objects that are being made agree after every assignment
    have hloop : ∀ (keys : List Text) (made made' : Record Json), made'.entries = made.entries.map (rebuildField other) →
        (keys.foldl (fun sorted key => sorted.assign key ((Fields.get? (fields.map (rebuildField other)) key).getD .null)) made').entries =
          (keys.foldl (fun sorted key => sorted.assign key ((Fields.get? fields key).getD .null)) made).entries.map (rebuildField other) := by
      intro keys
      induction keys with
      | nil => exact fun made made' h => h
      | cons key rest ih =>
        intro made made' h
        rw [List.foldl_cons, List.foldl_cons, hvalue]
        exact ih _ _ (assign_rebuild other h key _)
    exact hloop _ _ _ rfl
  rw [canonicalFields, hassigned]
  exact enumerate_keysOnly other _

theorem canonicalizeData_eq (j : Json) : canonicalizeData j = j.rebuild canonicalFields := by
  have hitems : ∀ items, canonicalizeItems items = items.map canonicalizeData := by
    intro items
    induction items with
    | nil => rfl
    | cons item rest ih => rw [canonicalizeItems, ih, List.map_cons]
  have hfields : ∀ fields, canonicalizeFields fields = fields.map fun field => (field.1, canonicalizeData field.2) := by
    intro fields
    induction fields with
    | nil => rfl
    | cons field rest ih =>
      obtain ⟨key, value⟩ := field
      rw [canonicalizeFields, ih, List.map_cons]
  induction j using Json.induction with
  | null | bool | number | string => rfl
  | array items ih =>
    rw [canonicalizeData, hitems, Json.rebuild_array]
    exact congrArg Json.array (List.map_congr_left ih)
  | object fields ih =>
    rw [canonicalizeData, hfields, Json.rebuild_object]
    have hvalues : (fields.map fun field => (field.1, canonicalizeData field.2)) = fields.map (rebuildField canonicalFields) :=
      List.map_congr_left fun field hfield => Prod.ext rfl (ih field hfield)
    rw [hvalues]

/-! ### What equal data are -/

/-- The data without the properties whose key is `__proto__`, at every depth. -/
def stripped (data : Json) : Json := data.rebuild withoutProto

theorem withoutProto_keys (hnodup : fields.keys.Nodup) : (Fields.keys (withoutProto fields)).Nodup :=
  hnodup.sublist (List.filter_sublist.map _)

theorem stripped_ordered {data : Json} : (stripped data).ordered = data.rebuild (sortKeys ∘ withoutProto) :=
  rebuild_rebuild withoutProto_keysOnly sortKeys data

theorem stripped_congr {x y : Json} (hx : x.Proper) (hy : y.Proper) (h : x.ordered = y.ordered) : (stripped x).ordered = (stripped y).ordered := by
  have hsorted : ∀ fields : Fields, fields.keys.Nodup → (sortKeys ∘ withoutProto) fields = ((sortKeys ∘ withoutProto) ∘ sortKeys) fields := by
    intro fields hnodup
    exact sortKeys_congr (withoutProto_keys hnodup) ((sortKeys_perm fields).symm.filter _)
  have hofOrdered : ∀ {j : Json}, j.Proper → (stripped j).ordered = j.ordered.rebuild (sortKeys ∘ withoutProto) := by
    intro j hj
    rw [stripped_ordered, rebuild_congr hsorted hj, ← rebuild_rebuild sortKeys_keysOnly]
    rfl
  rw [hofOrdered hx, hofOrdered hy, h]

/-- Canonical data are one if and only if the data without the properties `__proto__` are equal up to the order of keys. -/
theorem canonicalizeData_eq_iff {x y : Json} (hx : x.Proper) (hy : y.Proper) :
    canonicalizeData x = canonicalizeData y ↔ (stripped x).ordered = (stripped y).ordered := by
  have hsort : ∀ fields : Fields, fields.keys.Nodup → (sortKeys ∘ canonicalFields) fields = (sortKeys ∘ withoutProto) fields := by
    intro fields hnodup
    refine sortKeys_congr ?_ (canonicalFields_perm hnodup)
    exact ((canonicalFields_perm hnodup).map Prod.fst).nodup_iff.mpr (withoutProto_keys hnodup)
  have hcanonical : ∀ fields : Fields, fields.keys.Nodup → canonicalFields fields = (canonicalFields ∘ (sortKeys ∘ withoutProto)) fields := by
    intro fields hnodup
    have hkeys : (Fields.keys (sortKeys (withoutProto fields))).Nodup :=
      ((sortKeys_perm _).map Prod.fst).nodup_iff.mpr (withoutProto_keys hnodup)
    refine canonicalFields_congr hnodup hkeys ?_
    have htwice : withoutProto (withoutProto fields) = withoutProto fields := by simp [withoutProto]
    have hperm := (sortKeys_perm (withoutProto fields)).filter fun field => field.1 ≠ protoKey
    exact (List.Perm.of_eq htwice.symm).trans hperm.symm
  rw [canonicalizeData_eq, canonicalizeData_eq]
  constructor
  · intro h
    have hordered := congrArg Json.ordered h
    unfold Json.ordered at hordered
    rw [rebuild_rebuild canonicalFields_keysOnly, rebuild_rebuild canonicalFields_keysOnly, rebuild_congr hsort hx, rebuild_congr hsort hy] at hordered
    rw [stripped_ordered, stripped_ordered, hordered]
  · intro h
    rw [stripped_ordered, stripped_ordered] at h
    have hnatural := sortKeys_keysOnly.comp withoutProto_keysOnly
    rw [rebuild_congr hcanonical hx, rebuild_congr hcanonical hy, ← rebuild_rebuild hnatural, ← rebuild_rebuild hnatural, h]

/-! ### What equal hashes say -/

section Commitment
variable {sha256 : Text → Text} {a b : SCADAEvent}

/-- The events are equal, with data equal up to the order of keys. -/
def SameEvent (a b : SCADAEvent) : Prop :=
  a.id = b.id ∧ a.timestamp = b.timestamp ∧ a.type = b.type ∧ a.source = b.source ∧ a.data.ordered = b.data.ordered

/-- The events are equal in what goes into the hash: of the timestamp what is written, and of the data what is not under `__proto__`. -/
def SameHashed (a b : SCADAEvent) : Prop :=
  a.id = b.id ∧ a.timestamp.written = b.timestamp.written ∧ a.type = b.type ∧ a.source = b.source ∧
    (stripped a.data).ordered = (stripped b.data).ordered

theorem hashEvent_eq_iff (hsha256 : Function.Injective sha256) (ha : a.data.Proper) (hb : b.data.Proper) :
    hashEvent sha256 a = hashEvent sha256 b ↔ SameHashed a b := by
  have hdata := canonicalizeData_eq_iff ha hb
  unfold hashEvent SameHashed
  rw [hsha256.eq_iff, stringify_injective.eq_iff, ← hdata]
  simp [canonical]

/-- The hash commits to the event in so far as what goes into it determines the timestamp and the data. -/
theorem hashEvent_commits_iff (hsha256 : Function.Injective sha256) (ha : a.data.Proper) (hb : b.data.Proper) :
    (hashEvent sha256 a = hashEvent sha256 b ↔ SameEvent a b) ↔
      (SameHashed a b → a.timestamp = b.timestamp ∧ a.data.ordered = b.data.ordered) := by
  rw [hashEvent_eq_iff hsha256 ha hb]
  constructor
  · intro h hhashed
    obtain ⟨-, htimestamp, -, -, hdata⟩ := h.mp hhashed
    exact ⟨htimestamp, hdata⟩
  · intro h
    constructor
    · intro hhashed
      obtain ⟨htimestamp, hdata⟩ := h hhashed
      obtain ⟨hid, -, htype, hsource, -⟩ := hhashed
      exact ⟨hid, htimestamp, htype, hsource, hdata⟩
    · rintro ⟨hid, htimestamp, htype, hsource, hdata⟩
      exact ⟨hid, congrArg Number.written htimestamp, htype, hsource, stripped_congr ha hb hdata⟩

def tagged : SCADAEvent where
  id := "e1".toList
  timestamp := .finite { text := ['7'], chars := by simp [numberChars] }
  type := "reading".toList
  source := "plc".toList
  data := .object [(protoKey, .object [("value".toList, .bool true)])]

def untagged : SCADAEvent := { tagged with data := .object [] }

theorem proper_tagged : tagged.data.Proper := by
  refine .object (List.nodup_singleton _) fun field hfield => ?_
  rw [List.mem_singleton.mp hfield]
  refine .object (List.nodup_singleton _) fun field hfield => ?_
  rw [List.mem_singleton.mp hfield]
  exact .bool true

theorem proper_untagged : untagged.data.Proper := .object List.nodup_nil fun _ hfield => absurd hfield List.not_mem_nil

theorem hashEvent_commits_iff_tagged :
    (hashEvent id tagged = hashEvent id untagged ↔ SameEvent tagged untagged) ↔
      (SameHashed tagged untagged → tagged.timestamp = untagged.timestamp ∧ tagged.data.ordered = untagged.data.ordered) :=
  hashEvent_commits_iff Function.injective_id proper_tagged proper_untagged

theorem hashEvent_loses_proto : Function.Injective (id : Text → Text) ∧ tagged.data.Proper ∧ untagged.data.Proper ∧
    hashEvent id tagged = hashEvent id untagged ∧ ¬ SameEvent tagged untagged := by
  refine ⟨Function.injective_id, proper_tagged, proper_untagged, ?_, ?_⟩
  · refine (hashEvent_eq_iff Function.injective_id proper_tagged proper_untagged).mpr ⟨rfl, rfl, rfl, rfl, ?_⟩
    rfl
  · rintro ⟨-, -, -, -, hdata⟩
    have hperm := (ordered_object_iff proper_tagged.nodup).mp hdata
    have hlength := hperm.length_eq
    simp at hlength

end Commitment

end OxScada.Integrity.EventHash
