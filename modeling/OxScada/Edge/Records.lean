import OxScada.Edge.Replica
import OxScada.Hashing.Levels
import OxScada.Js.Date

/-! Records of the edge queue, their checksums, and the Merkle root of a batch. -/

namespace OxScada.Edge
open OxScada.Bytes OxScada.Js OxScada.Hashing

inductive EdgeRecordKind where
  | telemetry | configuration
  deriving DecidableEq

def EdgeRecordKind.text : EdgeRecordKind → Text
  | .telemetry => "telemetry".toList
  | .configuration => "configuration".toList

structure StoredRecord where
  id : Text
  timestamp : Option ℤ
  data : Json
  attempts : ℕ
  driverId : Option Text
  kind : EdgeRecordKind
  origin : Option Text
  fieldVersions : Option VersionMap
  checksum : Text

def StoredRecord.replica (record : StoredRecord) : EdgeReplicaValue :=
  ⟨record.data, record.timestamp, record.origin, record.fieldVersions⟩

def StoredRecord.attempted (record : StoredRecord) : StoredRecord := { record with attempts := record.attempts + 1 }

def StoredRecord.merged (record : StoredRecord) (merged : EdgeReplicaValue) : StoredRecord :=
  { record with
    data := merged.data
    fieldVersions := merged.fieldVersions
    timestamp := merged.timestamp
    origin := merged.origin }

/-! ### What is hashed -/

def isoDate : Option ℤ → Except EdgeError Json
  | none => .error .rangeError
  | some time => .ok (.string (toISOString time))

theorem digit_mem_numberChars {c : Char} (h : c.isDigit = true) : c ∈ numberChars := by
  have hbounds : 48 ≤ c.toNat ∧ c.toNat ≤ 57 := by simpa [Char.isDigit, UInt32.le_iff_toNat_le] using h
  obtain ⟨hlow, hhigh⟩ := hbounds
  rw [← Char.ofNat_toNat c]
  interval_cases c.toNat <;> decide

def JsonNumber.ofNat (n : ℕ) : JsonNumber where
  text := Nat.toDigits 10 n
  nonempty := Nat.toDigits_ne_nil
  chars := fun _ hc => digit_mem_numberChars (Nat.isDigit_of_mem_toDigits (by decide) (by decide) hc)

def optionalField (key : Text) (value : Option Json) : Fields := value.toList.map fun value => (key, value)

def versionPayload (version : FieldVersion) : Except EdgeError Json := do
  let timestamp ← isoDate version.timestamp
  return .object (optionalField "origin".toList (version.origin.map .string) ++ [("timestamp".toList, timestamp)])

def versionsPayload : VersionMap → Except EdgeError Fields
  | [] => .ok []
  | (path, version) :: rest => do
    let value ← versionPayload version
    return (← versionsPayload rest).set path value

def integrityPayload (record : StoredRecord) : Except EdgeError Json := do
  let timestamp ← isoDate record.timestamp
  let versions ← record.fieldVersions.mapM versionsPayload
  return .object
    ([("attempts".toList, .number (JsonNumber.ofNat record.attempts)), ("data".toList, record.data)] ++
      optionalField "driverId".toList (record.driverId.map .string) ++
      optionalField "fieldVersions".toList (versions.map .object) ++
      [("id".toList, .string record.id), ("kind".toList, .string record.kind.text)] ++
      optionalField "origin".toList (record.origin.map .string) ++ [("timestamp".toList, timestamp)])

def utf8 (text : Text) : Buffer := text.flatMap String.utf8EncodeChar

def hexValue (c : Char) : Option ℕ :=
  if '0' ≤ c ∧ c ≤ '9' then some (c.toNat - '0'.toNat)
  else if 'a' ≤ c ∧ c ≤ 'f' then some (c.toNat - 'a'.toNat + 10)
  else if 'A' ≤ c ∧ c ≤ 'F' then some (c.toNat - 'A'.toNat + 10)
  else none

/-- `Buffer.from(text, "hex")`, which stops at the first pair that is not hexadecimal. -/
def fromHex : Text → Buffer
  | high :: low :: rest =>
    match hexValue high, hexValue low with
    | some high, some low => UInt8.ofNat (16 * high + low) :: fromHex rest
    | _, _ => []
  | _ => []

section Hash
variable (localeCompare : Text → Text → ℤ) (sha256Hex : Buffer → Text)

def recordChecksum (record : StoredRecord) : Except EdgeError Text := do
  return sha256Hex (utf8 (canonicalJson localeCompare (← integrityPayload record)))

def withChecksum (record : StoredRecord) : Except EdgeError StoredRecord := do
  return { record with checksum := ← recordChecksum localeCompare sha256Hex record }

def merkleBranch (left right : Text) : Text := sha256Hex (1 :: fromHex left ++ fromHex right)

/-- The rounds of the loop over the levels. The length of a level is enough of them, as every
round halves it. -/
def merkleRounds : ℕ → List Text → Text
  | 0, level => level.headD []
  | rounds + 1, level =>
    if 1 < level.length then
      merkleRounds rounds (pairUp (merkleBranch sha256Hex) (fun left => merkleBranch sha256Hex left left) level)
    else level.headD []

def merkleRoot (values : List Json) : Text :=
  if values = [] then sha256Hex [0]
  else
    merkleRounds sha256Hex values.length
      (values.map fun value => sha256Hex (0 :: utf8 (canonicalJson localeCompare value)))

end Hash

/-! ### Validation -/

def isChecksum (checksum : Text) : Bool := checksum.length = 64 ∧ checksum.all fun c => (hexValue c).isSome

def maxSafeInteger : ℕ := 2 ^ 53 - 1

def validateStoredRecord (record : StoredRecord) : Except EdgeError Unit := do
  if isBlank record.id then fail "edge queue record id cannot be empty".toList
  if maxSafeInteger < record.attempts then fail ("invalid attempts for edge queue record ".toList ++ record.id)
  if isMissing record.origin then fail ("invalid origin for edge queue record ".toList ++ record.id)
  if ¬ isChecksum record.checksum then fail ("invalid checksum for edge queue record ".toList ++ record.id)
  assertValidDate record.timestamp ("edge queue record ".toList ++ record.id ++ " timestamp".toList)
  assertJsonSafe "$.data".toList record.data
  if record.kind = .configuration then
    match record.data with
    | .object _ => validateConfigurationObject record.data
    | _ => fail ("configuration edge queue record ".toList ++ record.id ++ " must contain an object".toList)
  match record.fieldVersions with
  | some versions => validateFieldVersions versions
  | none => .ok ()

/-- The arguments of `store`. A timestamp that is given may still be an invalid date. -/
structure StoreInput where
  data : Json
  driverId : Option Text
  kind : Option EdgeRecordKind
  origin : Option Text
  timestamp : Option (Option ℤ)
  fieldVersions : Option VersionMap

/-- The record `store` makes of its arguments, without its checksum. -/
def StoreInput.unsealed (input : StoreInput) (now : Option ℤ) (id : Text) : StoredRecord where
  id
  timestamp := input.timestamp.getD now
  data := input.data
  attempts := 0
  driverId := input.driverId
  kind := input.kind.getD .telemetry
  origin := (input.origin.or input.driverId).getD "edge".toList
  fieldVersions := input.fieldVersions
  checksum := []

def StoreInput.check (input : StoreInput) (now : Option ℤ) : Except EdgeError Unit := do
  assertValidDate (input.timestamp.getD now) "record timestamp".toList
  if isBlank ((input.origin.or input.driverId).getD "edge".toList) then fail "edge record origin cannot be empty".toList
  assertJsonSafe "$.data".toList input.data
  if input.kind.getD .telemetry = .configuration then
    match input.data with
    | .object _ => validateConfigurationObject input.data
    | _ => fail "configuration records must contain a JSON object".toList
  match input.fieldVersions with
  | some versions => validateFieldVersions versions
  | none => .ok ()

section Hash
variable (localeCompare : Text → Text → ℤ) (sha256Hex : Buffer → Text)

def assertRecordIntegrity (record : StoredRecord) : Except EdgeError Unit := do
  validateStoredRecord record
  if record.checksum ≠ (← recordChecksum localeCompare sha256Hex record) then
    fail ("edge queue integrity verification failed for record ".toList ++ record.id)

def StoreInput.record (input : StoreInput) (now : Option ℤ) (id : Text) : Except EdgeError StoredRecord := do
  input.check now
  withChecksum localeCompare sha256Hex (input.unsealed now id)

end Hash

end OxScada.Edge
