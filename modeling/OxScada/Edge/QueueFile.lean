import OxScada.Edge.Entries
import OxScada.Edge.Records
import OxScada.Js.DateParse
import OxScada.Js.Value

/-! A record in the file of the durable queue. It is written as a canonical text, and what is read from the text is validated again.
The record comes back as it was if JSON can say its data. -/

namespace OxScada.Edge
open OxScada.Bytes OxScada.Js OxScada.Runs

/-- A `StoredRecord` whose data are any value, and whose kind is any text. -/
structure QueuedRecord where
  id : Text
  timestamp : Option ℤ
  data : Value
  attempts : ℕ
  driverId : Option Text
  kind : Text
  origin : Option Text
  fieldVersions : Option VersionMap
  checksum : Text

/-! ### Validation -/

mutual

/-- `assertJsonSafe(value, path)`. What an array lacks is not visited, and neither are its other properties. -/
def assertValueSafe (path : Text) : Value → Except EdgeError Unit
  | .array items _ => assertElementsSafe path 0 items
  | .object properties => assertPropertiesSafe path properties
  | _ => .ok ()

def assertElementsSafe (path : Text) (index : ℕ) : List (Option Value) → Except EdgeError Unit
  | [] => .ok ()
  | none :: rest => assertElementsSafe path (index + 1) rest
  | some child :: rest => do
    assertValueSafe (path ++ '[' :: (Nat.repr index).toList ++ [']']) child
    assertElementsSafe path (index + 1) rest

def assertPropertiesSafe (path : Text) : List (Text × Bool × Value) → Except EdgeError Unit
  | [] => .ok ()
  | (key, _, child) :: rest => do
    if key ∈ forbiddenConfigurationKeys then
      fail (path ++ " contains forbidden key ".toList ++ key)
    assertValueSafe (path ++ '.' :: key) child
    assertPropertiesSafe path rest

end

mutual

def validateConfigurationValue : Value → Except EdgeError Unit
  | .array items _ => validateElements items
  | .object properties => validateProperties properties
  | _ => .ok ()

def validateElements : List (Option Value) → Except EdgeError Unit
  | [] => .ok ()
  | none :: rest => validateElements rest
  | some child :: rest => do
    validateConfigurationValue child
    validateElements rest

def validateProperties : List (Text × Bool × Value) → Except EdgeError Unit
  | [] => .ok ()
  | (_, false, _) :: rest => validateProperties rest
  | (key, true, child) :: rest => do
    validateConfigurationKey key
    validateConfigurationValue child
    validateProperties rest

end

def QueuedRecord.validate (record : QueuedRecord) : Except EdgeError Unit := do
  if isBlank record.id then fail "edge queue record id cannot be empty".toList
  if maxSafeInteger < record.attempts then fail ("invalid attempts for edge queue record ".toList ++ record.id)
  if record.kind ≠ EdgeRecordKind.telemetry.text ∧ record.kind ≠ EdgeRecordKind.configuration.text then
    fail ("invalid kind for edge queue record ".toList ++ record.id)
  if isMissing record.origin then fail ("invalid origin for edge queue record ".toList ++ record.id)
  if ¬ isChecksum record.checksum then fail ("invalid checksum for edge queue record ".toList ++ record.id)
  assertValidDate record.timestamp ("edge queue record ".toList ++ record.id ++ " timestamp".toList)
  assertValueSafe "$.data".toList record.data
  if record.kind = EdgeRecordKind.configuration.text then
    match record.data with
    | .object _ => validateConfigurationValue record.data
    | _ => fail ("configuration edge queue record ".toList ++ record.id ++ " must contain an object".toList)
  match record.fieldVersions with
  | some versions => validateFieldVersions versions
  | none => .ok ()

/-! ### Writing -/

def dateValue : Option ℤ → Except EdgeError Value
  | none => .error .rangeError
  | some time => .ok (.string (toISOString time))

def optionalProperty (key : Text) (value : Option Value) : List (Text × Bool × Value) := value.toList.map fun value => (key, true, value)

def versionProperty (entry : Text × FieldVersion) : Except EdgeError (Text × Bool × Value) := do
  let timestamp ← dateValue entry.2.timestamp
  return (entry.1, true, .object (("timestamp".toList, true, timestamp) :: optionalProperty "origin".toList (entry.2.origin.map .string)))

variable (record : QueuedRecord)

/-- The properties of the record without its checksum, with the dates as they are written. -/
def QueuedRecord.payload : Except EdgeError (List (Text × Bool × Value)) := do
  let timestamp ← dateValue record.timestamp
  let versions ← record.fieldVersions.mapM fun versions => versions.mapM versionProperty
  return [("id".toList, true, .string record.id), ("timestamp".toList, true, timestamp), ("data".toList, true, record.data),
      ("attempts".toList, true, .number (JsonNumber.ofNat record.attempts))] ++
    optionalProperty "driverId".toList (record.driverId.map .string) ++ [("kind".toList, true, .string record.kind)] ++
    optionalProperty "origin".toList (record.origin.map .string) ++ optionalProperty "fieldVersions".toList (versions.map .object)

def serializeRecord : Except EdgeError Value := do
  record.validate
  let properties ← QueuedRecord.payload { record with data := record.data.clone }
  return .object (properties ++ [("checksum".toList, true, .string record.checksum)])

section Hash
variable (localeCompare : Text → Text → ℤ) (sha256Hex : Buffer → Text)

def QueuedRecord.hash : Except EdgeError Text := do
  return sha256Hex (utf8 ((Value.object (← record.payload)).canonicalJson localeCompare))

def QueuedRecord.assertIntegrity : Except EdgeError Unit := do
  record.validate
  if record.checksum ≠ (← record.hash localeCompare sha256Hex) then
    fail ("edge queue integrity verification failed for record ".toList ++ record.id)

end Hash

/-! ### Reading -/

structure SerializedVersion where
  timestamp : Text
  origin : Option Text

/-- What `deserializeRecord` takes what was read for. A text that is not there is falsy, as an empty one is. -/
structure SerializedRecord where
  id : Text
  timestamp : Text
  data : Json
  attempts : ℕ
  driverId : Option Text
  kind : Text
  origin : Text
  fieldVersions : Option (List (Text × SerializedVersion))
  checksum : Text

def optionalText (fields : Fields) (key : Text) : Option (Option Text) :=
  match fields.get? key with
  | none => some none
  | some (.string text) => some (some text)
  | _ => none

def readText (fields : Fields) (key : Text) : Option Text := (optionalText fields key).map fun text => text.getD []

def readNat (fields : Fields) (key : Text) : Option ℕ :=
  match fields.get? key with
  | some (.number value) => if value.text.all Char.isDigit then some (Nat.ofDigitChars 10 value.text 0) else none
  | _ => none

def SerializedVersion.ofField (field : Text × Json) : Option (Text × SerializedVersion) :=
  match field.2 with
  | .object fields => do return (field.1, ⟨← readText fields "timestamp".toList, ← optionalText fields "origin".toList⟩)
  | _ => none

def readVersions (fields : Fields) : Option (Option (List (Text × SerializedVersion))) :=
  match fields.get? "fieldVersions".toList with
  | none => some none
  | some (.object versions) => (versions.mapM SerializedVersion.ofField).map some
  | _ => none

/-- What was read, if it has the form of a record that was written. -/
def SerializedRecord.ofJson : Json → Option SerializedRecord
  | .object fields => do
    return {
      id := ← readText fields "id".toList
      timestamp := ← readText fields "timestamp".toList
      data := ← Fields.get? fields "data".toList
      attempts := ← readNat fields "attempts".toList
      driverId := ← optionalText fields "driverId".toList
      kind := ← readText fields "kind".toList
      origin := ← readText fields "origin".toList
      fieldVersions := ← readVersions fields
      checksum := ← readText fields "checksum".toList }
  | _ => none

def SerializedVersion.deserialize (id : Text) (entry : Text × SerializedVersion) : Except EdgeError (Text × FieldVersion) :=
  match parseDate entry.2.timestamp with
  | some time => .ok (entry.1, ⟨some time, entry.2.origin⟩)
  | none => fail ("invalid field timestamp for edge queue record ".toList ++ id)

def deserializeRecord (record : SerializedRecord) : Except EdgeError QueuedRecord := do
  if record.id = [] ∨ record.checksum = [] ∨ record.kind = [] ∨ record.origin = [] then fail "corrupt edge queue record".toList
  if (parseDate record.timestamp).isNone then fail ("invalid timestamp for edge queue record ".toList ++ record.id)
  let versions ← record.fieldVersions.mapM fun versions => versions.mapM (SerializedVersion.deserialize record.id)
  let deserialized : QueuedRecord := {
    id := record.id
    timestamp := parseDate record.timestamp
    data := record.data.value
    attempts := record.attempts
    driverId := record.driverId
    kind := record.kind
    origin := some record.origin
    fieldVersions := versions
    checksum := record.checksum }
  deserialized.validate
  return deserialized

/-- How reading a record fails: `JSON.parse` throws, or the value is no record, or the record is refused. -/
inductive LoadError where
  | syntaxError (text : Text)
  | otherShape (value : Json)
  | thrown (error : EdgeError)

def reload (localeCompare : Text → Text → ℤ) (record : QueuedRecord) : Except LoadError QueuedRecord :=
  match serializeRecord record with
  | .error error => .error (.thrown error)
  | .ok value =>
    match parse (value.canonicalJson localeCompare) with
    | none => .error (.syntaxError (value.canonicalJson localeCompare))
    | some read =>
      match SerializedRecord.ofJson read with
      | none => .error (.otherShape read)
      | some serialized => (deserializeRecord serialized).mapError .thrown

/-- Records are equal, with the properties of the data and of the versions in whatever order. -/
structure QueuedRecord.Same (record back : QueuedRecord) : Prop where
  id : back.id = record.id
  timestamp : back.timestamp = record.timestamp
  data : record.data.Same back.data
  attempts : back.attempts = record.attempts
  driverId : back.driverId = record.driverId
  kind : back.kind = record.kind
  origin : back.origin = record.origin
  fieldVersions : Option.Rel List.Perm record.fieldVersions back.fieldVersions
  checksum : back.checksum = record.checksum

/-! ### Values that are accepted -/

section Accepted
variable {v : Value} {record : QueuedRecord}

theorem assertValueSafe_json (h : v.isJson = true) (path : Text) : assertValueSafe path v = assertJsonSafe path v.json := by
  induction v using Value.induction generalizing path with
  | array items named ih =>
    obtain ⟨-, hnone, hall⟩ := Value.isJson_array.mp h
    obtain ⟨values, rfl⟩ := Value.exists_items hnone
    have hvalues : ∀ w ∈ values, ∀ path, assertValueSafe path w = assertJsonSafe path w.json :=
      fun w hw => ih w (List.mem_map_of_mem hw) (hall w (List.mem_map_of_mem hw))
    have helements : ∀ index, assertElementsSafe path index (values.map some) = assertItemsSafe path index (values.map Value.json) := by
      clear ih h hnone hall
      induction values with
      | nil => exact fun _ => rfl
      | cons w rest ihrest =>
        obtain ⟨hw, hrest⟩ := List.forall_mem_cons.mp hvalues
        intro index
        rw [List.map_cons, List.map_cons, assertElementsSafe, assertItemsSafe, hw, ihrest hrest]
    rw [assertValueSafe, Value.json, assertJsonSafe, Value.jsonItems_map, helements]
  | object properties ih =>
    rw [Value.isJson, Value.propertiesJson_iff] at h
    have hproperties : assertPropertiesSafe path properties = assertFieldsSafe path (Value.jsonFields properties) := by
      induction properties with
      | nil => rfl
      | cons property rest ihrest =>
        obtain ⟨key, enumerable, w⟩ := property
        obtain ⟨⟨henumerable, hw⟩, hrest⟩ := List.forall_mem_cons.mp h
        obtain ⟨hfirst, hothers⟩ := List.forall_mem_cons.mp ih
        obtain rfl : enumerable = true := henumerable
        rw [assertPropertiesSafe, Value.jsonFields, assertFieldsSafe, hfirst hw, ihrest hothers hrest]
    rw [assertValueSafe, Value.json, assertJsonSafe, hproperties]
  | _ => rfl

theorem validateConfigurationValue_json (h : v.isJson = true) : validateConfigurationValue v = validateConfigurationObject v.json := by
  induction v using Value.induction with
  | array items named ih =>
    obtain ⟨-, hnone, hall⟩ := Value.isJson_array.mp h
    obtain ⟨values, rfl⟩ := Value.exists_items hnone
    have hvalues : ∀ w ∈ values, validateConfigurationValue w = validateConfigurationObject w.json :=
      fun w hw => ih w (List.mem_map_of_mem hw) (hall w (List.mem_map_of_mem hw))
    have helements : validateElements (values.map some) = validateItems (values.map Value.json) := by
      clear ih h hnone hall
      induction values with
      | nil => rfl
      | cons w rest ihrest =>
        obtain ⟨hw, hrest⟩ := List.forall_mem_cons.mp hvalues
        rw [List.map_cons, List.map_cons, validateElements, validateItems, hw, ihrest hrest]
    rw [validateConfigurationValue, Value.json, validateConfigurationObject, Value.jsonItems_map, helements]
  | object properties ih =>
    rw [Value.isJson, Value.propertiesJson_iff] at h
    have hproperties : validateProperties properties = validateFields (Value.jsonFields properties) := by
      induction properties with
      | nil => rfl
      | cons property rest ihrest =>
        obtain ⟨key, enumerable, w⟩ := property
        obtain ⟨⟨henumerable, hw⟩, hrest⟩ := List.forall_mem_cons.mp h
        obtain ⟨hfirst, hothers⟩ := List.forall_mem_cons.mp ih
        obtain rfl : enumerable = true := henumerable
        rw [validateProperties, Value.jsonFields, validateFields, hfirst hw, ihrest hothers hrest]
    rw [validateConfigurationValue, Value.json, validateConfigurationObject, hproperties]
  | _ => rfl

theorem validate_ok : record.validate = .ok () ↔ isBlank record.id = false ∧ record.attempts ≤ maxSafeInteger ∧
    (record.kind = EdgeRecordKind.telemetry.text ∨ record.kind = EdgeRecordKind.configuration.text) ∧ isMissing record.origin = false ∧
    isChecksum record.checksum = true ∧ record.timestamp.isSome = true ∧ assertValueSafe "$.data".toList record.data = .ok () ∧
    (record.kind = EdgeRecordKind.configuration.text →
      (∃ properties, record.data = .object properties) ∧ validateConfigurationValue record.data = .ok ()) ∧
    ∀ versions, record.fieldVersions = some versions → ∀ entry ∈ versions, ValidPath (splitDots entry.1) ∧ entry.2.Proper := by
  have hversions := @validateOptionalVersions_ok record.fieldVersions
  unfold QueuedRecord.validate
  rw [ite_fail_ok, ite_fail_ok, ite_fail_ok, ite_fail_ok, ite_fail_ok, bind_unit_ok, assertValidDate_ok, bind_unit_ok, not_and_or, not_not, not_not, not_not,
    not_lt, Bool.not_eq_true, Bool.not_eq_true]
  iterate 7 refine and_congr_right fun _ => ?_
  dsimp only
  by_cases hkind : record.kind = EdgeRecordKind.configuration.text
  · rw [if_pos hkind]
    cases record.data with
    | object properties =>
      rw [bind_unit_ok]
      exact and_congr ⟨fun h _ => ⟨⟨properties, rfl⟩, h⟩, fun h => (h hkind).2⟩ hversions
    | _ =>
      -- not an object
      refine ⟨fun h => (by cases h), fun h => ?_⟩
      obtain ⟨⟨properties, hproperties⟩, -⟩ := h.1 hkind
      cases hproperties
  · rw [if_neg hkind]
    exact hversions.trans ⟨fun h => ⟨fun hsame => absurd hsame hkind, h⟩, fun h => h.2⟩

theorem assertJsonSafe_rebuild {arrange : Fields → Fields} (harrange : ∀ fields, (arrange fields).Perm fields) {j : Json} {path : Text}
    (h : assertJsonSafe path j = .ok ()) (path' : Text) : assertJsonSafe path' (j.rebuild arrange) = .ok () := by
  induction j using Json.induction generalizing path path' with
  | array items ih =>
    have hread : ∀ {items : List Json} {index : ℕ}, assertItemsSafe path index items = .ok () → ∀ j ∈ items, ∃ path, assertJsonSafe path j = .ok () := by
      intro items
      induction items with
      | nil => exact fun _ j hj => absurd hj List.not_mem_nil
      | cons first rest ihrest =>
        intro index hsafe
        rw [assertItemsSafe, bind_unit_ok] at hsafe
        exact List.forall_mem_cons.mpr ⟨⟨_, hsafe.1⟩, ihrest hsafe.2⟩
    have hwrite : ∀ {items : List Json} {index : ℕ}, (∀ j ∈ items, ∀ path, assertJsonSafe path j = .ok ()) → assertItemsSafe path' index items = .ok () := by
      intro items
      induction items with
      | nil => exact fun _ => rfl
      | cons first rest ihrest =>
        intro index hsafe
        obtain ⟨hfirst, hrest⟩ := List.forall_mem_cons.mp hsafe
        rw [assertItemsSafe, bind_unit_ok]
        exact ⟨hfirst _, ihrest hrest⟩
    rw [Json.rebuild_array, assertJsonSafe]
    refine hwrite (List.forall_mem_map.mpr fun j hj path => ?_)
    obtain ⟨_, hsafe⟩ := hread h j hj
    exact ih j hj hsafe path
  | object fields ih =>
    have hfields : ∀ {path : Text} {fields : Fields}, assertFieldsSafe path fields = .ok () ↔
        ∀ field ∈ fields, field.1 ∉ forbiddenConfigurationKeys ∧ assertJsonSafe (path ++ '.' :: field.1) field.2 = .ok () := by
      intro path fields
      induction fields with
      | nil => exact ⟨fun _ field hfield => absurd hfield List.not_mem_nil, fun _ => rfl⟩
      | cons field rest ihrest =>
        obtain ⟨key, child⟩ := field
        rw [assertFieldsSafe, ite_fail_ok, bind_unit_ok, ihrest, List.forall_mem_cons, and_assoc]
    rw [assertJsonSafe] at h
    rw [Json.rebuild_object, assertJsonSafe]
    refine hfields.mpr fun field hfield => ?_
    obtain ⟨old, hold, rfl⟩ := List.mem_map.mp ((harrange _).mem_iff.mp hfield)
    obtain ⟨hkey, hsafe⟩ := hfields.mp h old hold
    exact ⟨hkey, ih old hold hsafe _⟩
  | _ => rfl

theorem validateConfigurationObject_rebuild {arrange : Fields → Fields} (harrange : ∀ fields, (arrange fields).Perm fields) {j : Json}
    (h : validateConfigurationObject j = .ok ()) : validateConfigurationObject (j.rebuild arrange) = .ok () := by
  induction j using Json.induction with
  | array items ih =>
    rw [validateConfigurationObject, validateItems_ok] at h
    rw [Json.rebuild_array, validateConfigurationObject, validateItems_ok]
    exact List.forall_mem_map.mpr fun j hj => ih j hj (h j hj)
  | object fields ih =>
    rw [validateConfigurationObject, validateFields_ok] at h
    rw [Json.rebuild_object, validateConfigurationObject, validateFields_ok]
    intro field hfield
    obtain ⟨old, hold, rfl⟩ := List.mem_map.mp ((harrange _).mem_iff.mp hfield)
    exact ⟨(h old hold).1, ih old hold (h old hold).2⟩
  | _ => rfl

end Accepted

end OxScada.Edge
