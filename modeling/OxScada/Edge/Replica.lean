import OxScada.Js.Json
import OxScada.Js.Text

/-! Replica values of an edge record, and how a conflict between two of them is resolved.
Telemetry keeps the later value, configuration is merged leaf by leaf. -/

namespace OxScada.Edge
open OxScada.Bytes OxScada.Js

/-- What the functions here throw: an `Error` with its message, the `TypeError` of reading a
property of `undefined`, or the `RangeError` of writing an invalid date. -/
inductive EdgeError where
  | error (message : Text)
  | typeError
  | rangeError
  deriving DecidableEq

def fail {α : Type} (message : Text) : Except EdgeError α := .error (.error message)

structure FieldVersion where
  timestamp : Option ℤ
  origin : Option Text
  deriving DecidableEq

abbrev VersionMap := List (Text × FieldVersion)

structure EdgeReplicaValue where
  data : Json
  timestamp : Option ℤ
  origin : Option Text
  fieldVersions : Option VersionMap

/-! ### Properties of ordinary objects -/

def objectPrototypeNames : List Text :=
  ["constructor".toList, "__defineGetter__".toList, "__defineSetter__".toList, "hasOwnProperty".toList,
    "__lookupGetter__".toList, "__lookupSetter__".toList, "isPrototypeOf".toList, "propertyIsEnumerable".toList,
    "toString".toList, "valueOf".toList, "__proto__".toList, "toLocaleString".toList]

/-- `object[key]` on an object that has `Object.prototype` for its prototype. -/
inductive Property (α : Type) where
  | undefined
  | own (value : α)
  | inherited

def readProperty {α : Type} (entries : List (Text × α)) (key : Text) : Property α :=
  match entries.lookup key with
  | some value => .own value
  | none => if key ∈ objectPrototypeNames then .inherited else .undefined

/-! ### Validation -/

def forbiddenConfigurationKeys : List Text := ["__proto__".toList, "constructor".toList, "prototype".toList]

def isValidKey (key : Text) : Bool := key ≠ [] ∧ '.' ∉ key ∧ key ∉ forbiddenConfigurationKeys

def validateConfigurationKey (key : Text) : Except EdgeError Unit :=
  if isValidKey key then .ok () else fail ("invalid configuration field name: ".toList ++ key)

mutual

def assertJsonSafe (path : Text) : Json → Except EdgeError Unit
  | .array items => assertItemsSafe path 0 items
  | .object fields => assertFieldsSafe path fields
  | _ => .ok ()

def assertItemsSafe (path : Text) (index : ℕ) : List Json → Except EdgeError Unit
  | [] => .ok ()
  | child :: rest => do
    assertJsonSafe (path ++ '[' :: (Nat.repr index).toList ++ [']']) child
    assertItemsSafe path (index + 1) rest

def assertFieldsSafe (path : Text) : List (Text × Json) → Except EdgeError Unit
  | [] => .ok ()
  | (key, child) :: rest => do
    if key ∈ forbiddenConfigurationKeys then
      fail (path ++ " contains forbidden key ".toList ++ key)
    assertJsonSafe (path ++ '.' :: key) child
    assertFieldsSafe path rest

end

mutual

def validateConfigurationObject : Json → Except EdgeError Unit
  | .array items => validateItems items
  | .object fields => validateFields fields
  | _ => .ok ()

def validateItems : List Json → Except EdgeError Unit
  | [] => .ok ()
  | child :: rest => do
    validateConfigurationObject child
    validateItems rest

def validateFields : List (Text × Json) → Except EdgeError Unit
  | [] => .ok ()
  | (key, child) :: rest => do
    validateConfigurationKey key
    validateConfigurationObject child
    validateFields rest

end

def assertValidDate (value : Option ℤ) (name : Text) : Except EdgeError Unit :=
  if value.isSome then .ok () else fail (name ++ " must be a valid date".toList)

def isMissing (origin : Option Text) : Bool := origin.all isBlank

def validateFieldVersion (path : Text) (version : FieldVersion) : Except EdgeError Unit := do
  if path = [] then fail "configuration field version path cannot be empty".toList
  (splitDots path).forM validateConfigurationKey
  if isMissing version.origin then fail ("configuration field ".toList ++ path ++ " requires an origin".toList)
  assertValidDate version.timestamp ("configuration field ".toList ++ path ++ " timestamp".toList)

def validateFieldVersions (versions : VersionMap) : Except EdgeError Unit :=
  versions.forM fun entry => validateFieldVersion entry.1 entry.2

def validateReplicaValue (value : EdgeReplicaValue) (configuration : Bool) : Except EdgeError Unit := do
  assertValidDate value.timestamp "replica timestamp".toList
  if isMissing value.origin then fail "replica origin cannot be empty".toList
  assertJsonSafe "$.data".toList value.data
  if configuration then
    match value.data with
    | .object _ => validateConfigurationObject value.data
    | _ => fail "configuration conflict values must be objects".toList
    match value.fieldVersions with
    | some versions => validateFieldVersions versions
    | none => .ok ()

/-! ### Flat configurations -/

abbrev Flat := List (Text × Json)

def Flat.valueAt (flat : Flat) (path : Text) : Json := (flat.lookup path).getD .null

def childPath (path key : Text) : Text := if path = [] then key else path ++ '.' :: key

/-- The leaves of the entries one after the other, or the first error. -/
def collect : List (Text × Except EdgeError Flat) → Except EdgeError Flat
  | [] => .ok []
  | (_, leaves) :: rest => do return (← leaves) ++ (← collect rest)

section Flatten
variable (localeCompare : Text → Text → ℤ)

mutual

/-- The leaves below one entry. A path is set once only, so `result.set` always appends. -/
def flattenChild (path : Text) : Json → Except EdgeError Flat
  | .object fields =>
    if fields.isEmpty then .ok [(path, .object fields)]
    else collect (sortEntries localeCompare (flattenEntries path fields))
  | child => .ok [(path, child)]

def flattenEntries (path : Text) : List (Text × Json) → List (Text × Except EdgeError Flat)
  | [] => []
  | (key, child) :: rest =>
    (key, do
      validateConfigurationKey key
      flattenChild (childPath path key) child) :: flattenEntries path rest

end

def flatten (fields : Fields) : Except EdgeError Flat :=
  collect (sortEntries localeCompare (flattenEntries localeCompare [] fields))

end Flatten

/-- `cursor` goes down the segments, and makes an object of what is not one. -/
def insertAt : Fields → List Text → Json → Fields
  | fields, [], _ => fields
  | fields, [segment], value => fields.set segment value
  | fields, segment :: next :: segments, value =>
    match fields.get? segment with
    | some (.object child) => fields.set segment (.object (insertAt child (next :: segments) value))
    | _ => fields.set segment (.object (insertAt [] (next :: segments) value))

def unflattenFrom : Fields → Flat → Except EdgeError Fields
  | result, [] => .ok result
  | result, (path, value) :: rest => do
    (splitDots path).forM validateConfigurationKey
    unflattenFrom (insertAt result (splitDots path) value) rest

def unflatten (flat : Flat) : Except EdgeError Fields := unflattenFrom [] flat

/-! ### Versions -/

def cloneFieldVersion : Property FieldVersion → Except EdgeError FieldVersion
  | .undefined => fail "missing configuration field version".toList
  | .own version => .ok version
  | .inherited => .ok ⟨none, none⟩

def EdgeReplicaValue.normalizedVersion (value : EdgeReplicaValue) (path : Text) : FieldVersion :=
  match value.fieldVersions with
  | none => ⟨value.timestamp, value.origin⟩
  | some versions =>
    match readProperty versions path with
    | .undefined => ⟨value.timestamp, value.origin⟩
    | .own version => version
    | .inherited => ⟨none, none⟩

def normalizedFieldVersions (value : EdgeReplicaValue) (flat : Flat) : VersionMap :=
  flat.map fun field => (field.1, value.normalizedVersion field.1)

/-- The difference of two times. It is 0 also for `NaN`: both leave the decision to what follows `||`. -/
def timeDifference : Option ℤ → Option ℤ → ℤ
  | some left, some right => left - right
  | _, _ => 0

def maxDate : Option ℤ → Option ℤ → Option ℤ
  | some left, some right => some (max left right)
  | _, _ => none

section Merge
variable (localeCompare : Text → Text → ℤ)

/-- `left.localeCompare(right)`, where `undefined` as the argument is compared as its text. -/
def compareOrigins (left right : Option Text) : Except EdgeError ℤ :=
  match left with
  | none => .error .typeError
  | some left => .ok (localeCompare left (right.getD "undefined".toList))

def compareVersions (left right : FieldVersion) : Except EdgeError ℤ :=
  if timeDifference left.timestamp right.timestamp = 0 then compareOrigins localeCompare left.origin right.origin
  else .ok (timeDifference left.timestamp right.timestamp)

def compareFields (left right : Json × FieldVersion) : Except EdgeError ℤ := do
  let comparison ← compareVersions localeCompare left.2 right.2
  if comparison = 0 then
    return localeCompare (canonicalJson localeCompare left.1) (canonicalJson localeCompare right.1)
  return comparison

/-- Telemetry uses timestamp LWW, then origin and canonical value as tie-breakers. -/
def compareReplicas (local' remote : EdgeReplicaValue) : Except EdgeError ℤ :=
  compareFields localeCompare (local'.data, ⟨local'.timestamp, local'.origin⟩)
    (remote.data, ⟨remote.timestamp, remote.origin⟩)

def resolveTelemetryConflict (local' remote : EdgeReplicaValue) : Except EdgeError EdgeReplicaValue := do
  validateReplicaValue local' false
  validateReplicaValue remote false
  if 0 ≤ (← compareReplicas localeCompare local' remote) then return local'
  return remote

def mergeField (localFlat remoteFlat : Flat) (localVersions remoteVersions : VersionMap) (path : Text) :
    Except EdgeError (Json × FieldVersion) :=
  match readProperty localVersions path, readProperty remoteVersions path with
  | .undefined, remoteVersion => do return (remoteFlat.valueAt path, ← cloneFieldVersion remoteVersion)
  | localVersion, .undefined => do return (localFlat.valueAt path, ← cloneFieldVersion localVersion)
  | .own localVersion, .own remoteVersion => do
    let comparison ← compareFields localeCompare (localFlat.valueAt path, localVersion)
      (remoteFlat.valueAt path, remoteVersion)
    if 0 ≤ comparison then return (localFlat.valueAt path, localVersion)
    return (remoteFlat.valueAt path, remoteVersion)
  -- `timestamp` of an inherited function is undefined
  | _, _ => .error .typeError

def insertVersion (version : FieldVersion) : List FieldVersion → Except EdgeError (List FieldVersion)
  | [] => .ok [version]
  | next :: rest => do
    if (← compareVersions localeCompare next version) ≤ 0 then return version :: next :: rest
    return next :: (← insertVersion version rest)

def sortVersions : List FieldVersion → Except EdgeError (List FieldVersion)
  | [] => .ok []
  | version :: rest => do insertVersion localeCompare version (← sortVersions rest)

def mergedPaths (localFlat remoteFlat : Flat) : List Text :=
  sortTexts (localFlat.map (·.1) ++ remoteFlat.map (·.1)).dedup

def mergedFields (local' remote : EdgeReplicaValue) (localFlat remoteFlat : Flat) :
    Except EdgeError (List (Text × Json × FieldVersion)) :=
  (mergedPaths localFlat remoteFlat).mapM fun path => do
    return (path, ← mergeField localeCompare localFlat remoteFlat (normalizedFieldVersions local' localFlat)
      (normalizedFieldVersions remote remoteFlat) path)

/-- Configuration is merged per leaf using explicit field clocks. -/
def mergeConfigurationConflict (local' remote : EdgeReplicaValue) : Except EdgeError EdgeReplicaValue := do
  validateReplicaValue local' true
  validateReplicaValue remote true
  match local'.data, remote.data with
  | .object localFields, .object remoteFields =>
    let localFlat ← flatten localeCompare localFields
    let remoteFlat ← flatten localeCompare remoteFields
    let merged ← mergedFields localeCompare local' remote localFlat remoteFlat
    let latest := (← sortVersions localeCompare (merged.map (·.2.2))).head?
    let data ← unflatten (merged.map fun field => (field.1, field.2.1))
    return {
      data := .object data
      fieldVersions := some (merged.map fun field => (field.1, field.2.2))
      timestamp := match latest with
        | some version => version.timestamp
        | none => maxDate local'.timestamp remote.timestamp
      origin := (latest.bind (·.origin)).or (sortTexts (local'.origin.toList ++ remote.origin.toList)).getLast? }
  | _, _ => fail "configuration conflict values must be objects".toList

end Merge

end OxScada.Edge
