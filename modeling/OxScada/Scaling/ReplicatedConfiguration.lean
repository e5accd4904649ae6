import OxScada.Edge.Service
import OxScada.Js.CanonicalJson

/-! The replicated configuration of a federation. A replica keeps one operation for each path.
Of two operations on a path it keeps the one with the later version, and of two with the same
version the one with the greater text. -/

namespace OxScada.Scaling
open OxScada.Bytes OxScada.Js OxScada.Edge

abbrev JsonValue := {j : Json // j.WellFormed}

structure LogicalVersion where
  counter : ℤ
  actor : Text
  deriving DecidableEq

structure ConfigurationOperation where
  path : Text
  version : LogicalVersion
  value : Option JsonValue
  deleted : Bool

inductive ConflictReason where
  | concurrentWrite | equivocation
  deriving DecidableEq

structure ConfigurationConflict where
  path : Text
  winner : ConfigurationOperation
  loser : ConfigurationOperation
  reason : ConflictReason

/-! ### Validation -/

def isSiteSegment : Text → Bool
  | [] => false
  | first :: rest => first.isAlphanum && rest.length ≤ 62 && rest.all fun c => c.isAlphanum || c ∈ ['_', '.', '-']

def validateConfigPath (path : Text) : Except Text Unit :=
  if path = [] ∨ path.head? = some '.' ∨ path.getLast? = some '.' ∨ (splitDots path).any (fun segment => !isSiteSegment segment) then
    .error ("invalid configuration path: ".toList ++ path)
  else .ok ()

def forbiddenKeys : List Text := ["__proto__".toList, "constructor".toList, "prototype".toList]

mutual

def validateConfigurationValue (path : Text) : Json → Except Text Unit
  | .array items => validateItems path 0 items
  | .object fields => validateFields path fields
  | _ => .ok ()

def validateItems (path : Text) (index : ℕ) : List Json → Except Text Unit
  | [] => .ok ()
  | child :: rest => do
    validateConfigurationValue (path ++ '[' :: (Nat.repr index).toList ++ [']']) child
    validateItems path (index + 1) rest

def validateFields (path : Text) : List (Text × Json) → Except Text Unit
  | [] => .ok ()
  | (key, child) :: rest => do
    if key ∈ forbiddenKeys then .error ("configuration value at ".toList ++ path ++ " has a forbidden key".toList)
    validateConfigurationValue (path ++ '.' :: key) child
    validateFields path rest

end

def isSafeInteger (n : ℤ) : Prop := -(2 ^ 53 - 1) ≤ n ∧ n ≤ 2 ^ 53 - 1

instance : DecidablePred isSafeInteger := fun n => inferInstanceAs (Decidable (-(2 ^ 53 - 1) ≤ n ∧ n ≤ 2 ^ 53 - 1))

def validateVersion (version : LogicalVersion) : Except Text Unit :=
  if ¬ isSafeInteger version.counter ∨ version.counter < 1 ∨ isBlank version.actor = true then
    .error "invalid CRDT logical version".toList
  else .ok ()

variable (operation : ConfigurationOperation)

def validateOperation : Except Text Unit := do
  validateConfigPath operation.path
  validateVersion operation.version
  if operation.deleted then .ok ()
  else match operation.value with
    | none => .error "non-delete CRDT operation requires a value".toList
    | some value => validateConfigurationValue operation.path value.1

/-! ### The order of the operations -/

def integer (n : ℤ) : JsonNumber where
  text := if n < 0 then '-' :: Nat.toDigits 10 n.natAbs else Nat.toDigits 10 n.natAbs
  nonempty := by
    split_ifs
    · exact List.cons_ne_nil _ _
    · exact Nat.toDigits_ne_nil
  chars := by
    have hdigits : ∀ c ∈ Nat.toDigits 10 n.natAbs, c ∈ numberChars :=
      fun c hc => digit_mem_numberChars (Nat.isDigit_of_mem_toDigits (by decide) (by decide) hc)
    split_ifs
    · exact List.forall_mem_cons.mpr ⟨by decide, hdigits⟩
    · exact hdigits

def LogicalVersion.toJson (version : LogicalVersion) : Json :=
  .object [("actor".toList, .string version.actor), ("counter".toList, .number (integer version.counter))]

def ConfigurationOperation.toJson : Json :=
  .object ([("deleted".toList, .bool operation.deleted), ("path".toList, .string operation.path)] ++
    optionalField "value".toList (operation.value.map (·.1)) ++ [("version".toList, operation.version.toJson)])

section
variable (localeCompare : Text → Text → ℤ)

def compareVersions (left right : LogicalVersion) : ℤ :=
  if left.counter - right.counter ≠ 0 then left.counter - right.counter else localeCompare left.actor right.actor

def ConfigurationOperation.canonical : Text :=
  canonicalJson localeCompare operation.toJson

/-! ### A replica -/

structure ReplicatedConfiguration where
  actorId : Text
  clock : ℤ := 0
  cells : List (Text × ConfigurationOperation) := []
  observedConflicts : List ConfigurationConflict := []

namespace ReplicatedConfiguration

variable (r : ReplicatedConfiguration)

/-- `++this.clock`. The number after 2⁵³ is not a number of the type, and rounds to 2⁵³. -/
def nextClock : ℤ := min (r.clock + 1) (2 ^ 53)

def write (path : Text) (value : Option JsonValue) (deleted : Bool) :
    ReplicatedConfiguration × ConfigurationOperation :=
  let operation : ConfigurationOperation := { path, value, deleted, version := ⟨r.nextClock, r.actorId⟩ }
  ({ r with clock := r.nextClock, cells := mapSet r.cells path operation }, operation)

def set (path : Text) (value : Option JsonValue) :
    Except Text (ReplicatedConfiguration × ConfigurationOperation) := do
  validateConfigPath path
  match value with
  | none => .error "configuration value cannot be undefined".toList
  | some value =>
    validateConfigurationValue path value.1
    return r.write path (some value) false

def delete (path : Text) : Except Text (ReplicatedConfiguration × ConfigurationOperation) := do
  validateConfigPath path
  return r.write path none true

def observe (conflict : ConfigurationConflict) : ReplicatedConfiguration :=
  { r with observedConflicts := r.observedConflicts ++ [conflict] }

def put (operation : ConfigurationOperation) : ReplicatedConfiguration :=
  { r with cells := mapSet r.cells operation.path operation }

def contest (current incoming : ConfigurationOperation) : ReplicatedConfiguration × Bool :=
  let comparison := compareVersions localeCompare incoming.version current.version
  let incomingCanonical := incoming.canonical localeCompare
  let currentCanonical := current.canonical localeCompare
  if comparison = 0 then
    if incomingCanonical = currentCanonical then (r, false)
    else if codeUnits currentCanonical < codeUnits incomingCanonical then
      ((r.observe ⟨incoming.path, incoming, current, .equivocation⟩).put incoming, true)
    else (r.observe ⟨incoming.path, current, incoming, .equivocation⟩, false)
  else
    let winner := if 0 < comparison then incoming else current
    let loser := if 0 < comparison then current else incoming
    let r := if incoming.version.counter = current.version.counter ∧ incomingCanonical ≠ currentCanonical then
      r.observe ⟨incoming.path, winner, loser, .concurrentWrite⟩ else r
    if 0 < comparison then (r.put incoming, true) else (r, false)

def receive (incoming : ConfigurationOperation) : ReplicatedConfiguration × Bool :=
  let r := { r with clock := max r.clock incoming.version.counter }
  match r.cells.lookup incoming.path with
  | none => (r.put incoming, true)
  | some current => r.contest localeCompare current incoming

def apply (operation : ConfigurationOperation) : Except Text (ReplicatedConfiguration × Bool) := do
  validateOperation operation
  return r.receive localeCompare operation

def operations : List ConfigurationOperation :=
  (r.cells.map (·.2)).insertionSort fun left right => localeCompare left.path right.path ≤ 0

def applyAll (r : ReplicatedConfiguration) : List ConfigurationOperation → ReplicatedConfiguration × Except Text Unit
  | [] => (r, .ok ())
  | operation :: rest =>
    match r.apply localeCompare operation with
    | .error message => (r, .error message)
    | .ok (r, _) => applyAll r rest

def merge (r other : ReplicatedConfiguration) : ReplicatedConfiguration × Except Text (List ConfigurationConflict) :=
  let result := r.applyAll localeCompare (other.operations localeCompare)
  (result.1, result.2.map fun _ => result.1.observedConflicts.drop r.observedConflicts.length)

end ReplicatedConfiguration

/-! ### The value -/

def hiddenByParentTombstone (operation : ConfigurationOperation) (cells : List (Text × ConfigurationOperation)) : Bool :=
  let segments := splitDots operation.path
  (List.range' 1 (segments.length - 1)).any fun length =>
    match cells.lookup (dotted (segments.take length)) with
    | some parent => parent.deleted && 0 ≤ compareVersions localeCompare parent.version operation.version
    | none => false

/-- What a segment of a path may inherit from `Object.prototype` are functions, so a property
that is not an object of its own is made one. -/
def setNestedValue : Fields → List Text → Json → Fields
  | root, [], _ => root
  | root, [segment], value => root.set segment value
  | root, segment :: next :: rest, value =>
    match root.get? segment with
    | some (.object existing) => root.set segment (.object (setNestedValue existing (next :: rest) value))
    | _ => root.set segment (.object (setNestedValue [] (next :: rest) value))

def ReplicatedConfiguration.value (r : ReplicatedConfiguration) : Json :=
  .object ((r.operations localeCompare).foldl (fun result operation =>
    if operation.deleted || hiddenByParentTombstone localeCompare operation r.cells then result
    else match operation.value with
      | some value => setNestedValue result (splitDots operation.path) value.1
      -- an operation that does not delete has a value
      | none => result) [])

end

end OxScada.Scaling
