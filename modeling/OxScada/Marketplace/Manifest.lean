import OxScada.Js.Record
import OxScada.Marketplace.Semver

/-! Manifests of plugins, and the values that are checked against them: grants and configurations. -/

namespace OxScada.Marketplace
open OxScada.Bytes OxScada.Js

inductive PluginCapability
  | tagsRead
  | alarmsRead
  | eventsEmit
  | log
  deriving DecidableEq, Repr

inductive ConfigFieldType
  | string
  | number
  | boolean
  | select
  deriving DecidableEq, Repr

inductive ConfigValue
  | text (value : Text)
  | number (value : ℚ)
  | flag (value : Bool)
  deriving DecidableEq, Repr

structure PluginConfigField where
  type : ConfigFieldType
  default : Option ConfigValue := none
  required : Bool
  options : Option (List Text) := none
  deriving DecidableEq, Repr

structure PluginManifest where
  id : Text
  version : Text
  requiredCapabilities : List PluginCapability
  configSchema : List (Text × PluginConfigField)
  dependencies : List (Text × Text)
  deriving DecidableEq, Repr

inductive MarketplaceError
  | notFound (pluginId : Text)
  | alreadyInstalled (pluginId : Text)
  | notInstalled (pluginId : Text)
  | notImplemented (pluginId : Text)
  | publisherRequired
  | publisherReserved
  | owned (pluginId : Text)
  | ownedBySystem (pluginId publisher : Text)
  | notNewer (pluginId version published : Text)
  | rolledBack (pluginId version published : Text)
  | current (pluginId version published : Text)
  | invalidSemver (version : Text)
  | badId (pluginId : Text)
  | badVersion (pluginId version : Text)
  | dependsOnItself (pluginId : Text)
  | badRange (pluginId range : Text)
  | selectWithoutOptions (pluginId key : Text)
  | installerRequired
  | dependencyMissing (dependency range : Text)
  | dependencyUnsatisfied (dependency version range : Text)
  | dependentsInstalled (pluginId other : Text)
  | capabilityNotDeclared (pluginId : Text) (capability : PluginCapability)
  | unknownKey (pluginId key : Text)
  | missingKey (pluginId key : Text)
  | wrongType (pluginId key : Text) (type : ConfigFieldType)
  | notAnOption (key : Text) (options : List Text)
  | disabled (pluginId : Text)
  deriving DecidableEq, Repr

/-! ### Manifests -/

def isPluginId (id : Text) : Bool :=
  match id with
  | [] => false
  | first :: rest => (first.isLower || first.isDigit) && 1 ≤ rest.length && rest.length ≤ 63 && rest.all fun c => c.isLower || c.isDigit || c == '-'

def withoutOperator (range : Text) : Text :=
  match range with
  | '^' :: rest => rest
  | '~' :: rest => rest
  | _ => range

variable (manifest : PluginManifest)

def validateManifest : Except MarketplaceError Unit := do
  if !isPluginId manifest.id then throw (.badId manifest.id)
  if (parseSemver manifest.version).isNone then throw (.badVersion manifest.id manifest.version)
  for (depId, range) in manifest.dependencies do
    if depId = manifest.id then throw (.dependsOnItself manifest.id)
    if range ≠ ['*'] ∧ (parseSemver (withoutOperator range)).isNone then throw (.badRange manifest.id range)
  for (key, field) in manifest.configSchema do
    if field.type = .select ∧ field.options.getD [] = [] then throw (.selectWithoutOptions manifest.id key)

/-! ### Grants -/

/-- The requested capabilities that are declared, each once. -/
def narrowGrants (requested : List PluginCapability) (rejectUndeclared : Bool) :
    Except MarketplaceError (List PluginCapability) :=
  requested.foldlM (fun granted capability =>
    if capability ∉ manifest.requiredCapabilities then
      if rejectUndeclared then .error (.capabilityNotDeclared manifest.id capability) else .ok granted
    else .ok (if capability ∈ granted then granted else granted ++ [capability])) []

theorem narrowGrants_subset {manifest : PluginManifest} {requested granted : List PluginCapability} {rejectUndeclared : Bool}
    (h : narrowGrants manifest requested rejectUndeclared = .ok granted) : granted ⊆ manifest.requiredCapabilities ∧ granted ⊆ requested := by
  suffices hfold : ∀ (rest before after : List PluginCapability), rest.foldlM (fun granted capability =>
      if capability ∉ manifest.requiredCapabilities then
        if rejectUndeclared then Except.error (MarketplaceError.capabilityNotDeclared manifest.id capability) else .ok granted
      else .ok (if capability ∈ granted then granted else granted ++ [capability])) before = .ok after →
      ∀ capability ∈ after, capability ∈ before ∨ capability ∈ manifest.requiredCapabilities ∧ capability ∈ rest by
    have hall := hfold requested [] granted h
    constructor
    · intro capability hcapability
      exact ((hall capability hcapability).resolve_left List.not_mem_nil).1
    · intro capability hcapability
      exact ((hall capability hcapability).resolve_left List.not_mem_nil).2
  intro rest
  induction rest with
  | nil =>
    intro before after hfold capability hcapability
    cases hfold
    exact .inl hcapability
  | cons first rest ih =>
    intro before after hfold capability hcapability
    rw [List.foldlM_cons] at hfold
    by_cases hdeclared : first ∈ manifest.requiredCapabilities
    · rw [if_neg (not_not.mpr hdeclared)] at hfold
      rcases ih _ after hfold capability hcapability with hbefore | hrest
      · split_ifs at hbefore
        · exact .inl hbefore
        · rcases List.mem_append.mp hbefore with hold | hnew
          · exact .inl hold
          · obtain rfl := List.mem_singleton.mp hnew
            exact .inr ⟨hdeclared, List.mem_cons_self⟩
      · exact .inr ⟨hrest.1, List.mem_cons_of_mem _ hrest.2⟩
    · rw [if_pos hdeclared] at hfold
      cases rejectUndeclared with
      | true => cases hfold
      | false =>
        rcases ih before after hfold capability hcapability with hbefore | hrest
        · exact .inl hbefore
        · exact .inr ⟨hrest.1, List.mem_cons_of_mem _ hrest.2⟩

/-! ### Configurations -/

def prototypeKeys : List Text :=
  ["constructor".toList, "__defineGetter__".toList, "__defineSetter__".toList, "hasOwnProperty".toList, "__lookupGetter__".toList,
    "__lookupSetter__".toList, "isPrototypeOf".toList, "propertyIsEnumerable".toList, "toString".toList, "valueOf".toList, protoKey,
    "toLocaleString".toList]

def hasKey (keys : List Text) (key : Text) : Bool := key ∈ keys || key ∈ prototypeKeys

def ConfigValue.hasType : ConfigValue → ConfigFieldType → Bool
  | .text _, .string => true
  | .text _, .select => true
  | .number _, .number => true
  | .flag _, .boolean => true
  | _, _ => false

/-- One field of `validateConfig`. What a key has from the prototype is of no type that a field can have. -/
def validateField (config : Record ConfigValue) (key : Text) (field : PluginConfigField) :
    Except MarketplaceError (Option ConfigValue) := do
  let value ← match config.entries.lookup key with
    | some value => pure (some value)
    | none =>
      if key ∈ prototypeKeys then throw (.wrongType manifest.id key field.type)
      else
        match field.default with
        | some value => pure (some value)
        | none => if field.required then throw (.missingKey manifest.id key) else pure none
  match value with
  | none => return none
  | some value =>
    if !value.hasType field.type then throw (.wrongType manifest.id key field.type)
    match field.type, field.options, value with
    | .select, some options, .text choice => if choice ∉ options then throw (.notAnOption key options)
    | _, _, _ => pure ()
    return some value

def validateConfig (config : Record ConfigValue) : Except MarketplaceError (Record ConfigValue) := do
  for (key, _) in config.entries do
    if !hasKey (manifest.configSchema.map (·.1)) key then throw (.unknownKey manifest.id key)
  manifest.configSchema.foldlM (fun (result : Record ConfigValue) (key, field) => do
    match ← validateField manifest config key field with
    | none => return result
    | some value => return result.assign key value) Record.empty

end OxScada.Marketplace
