import OxScada.Marketplace.Manifest

/-! The engine of the marketplace: published manifests with their owners, installed plugins, and the runs of their
handlers. A call is suspended while the store saves, and other calls run in between. -/

namespace OxScada.Marketplace
open OxScada.Bytes OxScada.Js OxScada.Peers

structure MarketplaceEntry where
  manifest : PluginManifest
  publisher : Text
  publishedAt : ℤ
  updatedAt : ℤ
  installs : ℕ
  deriving DecidableEq, Repr

inductive PluginStatus
  | installed
  | running
  | stopped
  | disabled
  | error
  deriving DecidableEq, Repr

/-- The part of an installed plugin that is stored, with the grants that its installation asked for as a ghost. -/
structure StoredInstallation where
  manifest : PluginManifest
  status : PluginStatus
  config : Record ConfigValue
  grantedCapabilities : List PluginCapability
  installedBy : Text
  installedAt : ℤ
  requested : List PluginCapability

structure InstalledPlugin extends StoredInstallation where
  startedAt : Option ℤ
  lastError : Option Text
  available : Bool

structure InstallRequest where
  config : Option (Record ConfigValue) := none
  grants : Option (List PluginCapability) := none
  installedBy : Text

structure PluginStats where
  invocations : ℕ := 0
  failures : ℕ := 0
  consecutiveFailures : ℕ := 0
  /-- `true` for a success. -/
  recent : List Bool := []
  deriving DecidableEq, Repr

inductive AfterCommit
  | done
  | disabled
  | resetFailures (pluginId : Text)
  | update (plugin : ℕ) (entry : MarketplaceEntry)
  | restart (pluginId : Text)
  deriving DecidableEq

/-- What is saved, and what is done with it then. Plugins are objects of the heap. -/
inductive Save
  | publish (entry : MarketplaceEntry)
  | installation (entry : MarketplaceEntry) (plugin : InstalledPlugin)
  | installs (entry : MarketplaceEntry) (plugin : InstalledPlugin)
  | uninstall (pluginId : Text)
  | commit (plugin : ℕ) (next : InstalledPlugin) (after : AfterCommit)

/-- A suspended call: the store has not answered, it has, a commit came back, a handler runs. -/
inductive Flight
  | saving (save : Save)
  | saved (ok : Bool) (save : Save)
  | committed (after : AfterCommit)
  | handling (pluginId : Text)

/-- The engine and its store. Objects that were disabled and not enabled since are in `blocked`, as a ghost. -/
structure AgentMarketplace where
  errorWindow : ℕ := 20
  autoDisableAfter : ℕ := 5
  registry : Text → Option MarketplaceEntry := fun _ => none
  installed : Text → Option ℕ := fun _ => none
  objects : List InstalledPlugin := []
  implementations : List Text := []
  stats : Text → Option PluginStats := fun _ => none
  storedEntries : Text → Option MarketplaceEntry := fun _ => none
  storedInstallations : Text → Option StoredInstallation := fun _ => none
  flights : List Flight := []
  blocked : List ℕ := []

inductive MarketplaceCall
  | publish (manifest : PluginManifest) (publisher : Text) (now : ℤ)
  | publishSystemManifest (manifest : PluginManifest) (now : ℤ)
  | install (pluginId : Text) (request : InstallRequest) (now : ℤ)
  | update (pluginId : Text)
  | configure (pluginId : Text) (config : Record ConfigValue)
  | start (pluginId : Text) (now : ℤ)
  | stop (pluginId : Text)
  | disable (pluginId : Text)
  | enable (pluginId : Text)
  | uninstall (pluginId : Text)
  | registerImplementation (pluginId : Text)
  | unregisterImplementation (pluginId : Text)
  | invoke (pluginId : Text)
  | outcome (index : ℕ) (error : Option Text)
  | settle (index : ℕ) (ok : Bool)
  | resume (index : ℕ) (now : ℤ)

/-- What the store has when the engine loads. Ids are primary keys. -/
structure MarketplaceSnapshot where
  entries : List MarketplaceEntry
  installations : List StoredInstallation
  entries_nodup : (entries.map (·.manifest.id)).Nodup
  installations_nodup : (installations.map (·.manifest.id)).Nodup

def systemPublisher : Text := "system:builtin".toList

def reservedPublisherPrefix : Text := "system:".toList

/-- A plugin that was running when the server stopped is not running now. -/
def toRestoredStatus (status : PluginStatus) : PluginStatus := if status = .running then .stopped else status

namespace AgentMarketplace

def load (implementations : List Text) (snapshot : MarketplaceSnapshot) : AgentMarketplace where
  registry id := snapshot.entries.find? (·.manifest.id = id)
  installed id := snapshot.installations.findIdx? (·.manifest.id = id)
  objects := snapshot.installations.map fun record => { record with
    status := toRestoredStatus record.status, startedAt := none, lastError := none, available := record.manifest.id ∈ implementations }
  implementations
  stats id := (snapshot.installations.find? (·.manifest.id = id)).map fun _ => {}
  storedEntries id := snapshot.entries.find? (·.manifest.id = id)
  storedInstallations id := snapshot.installations.find? (·.manifest.id = id)

variable (s : AgentMarketplace)
variable (pluginId : Text)

def getInstalled : Option InstalledPlugin := (s.installed pluginId).bind (s.objects[·]?)

def listInstalled : List InstalledPlugin :=
  (List.range s.objects.length).filterMap fun plugin => s.objects[plugin]?.filter fun record => s.installed record.manifest.id = some plugin

def take (flight : Flight) : AgentMarketplace := { s with flights := s.flights ++ [flight] }

def save (save : Save) : AgentMarketplace := s.take (.saving save)

def modifyObject (plugin : ℕ) (f : InstalledPlugin → InstalledPlugin) : AgentMarketplace := { s with objects := s.objects.modify plugin f }

def commit (plugin : ℕ) (next : InstalledPlugin) (after : AfterCommit) : AgentMarketplace := s.save (.commit plugin next after)

def requireInstalled : Except MarketplaceError (ℕ × InstalledPlugin) :=
  match s.installed pluginId with
  | none => .error (.notInstalled pluginId)
  | some plugin =>
    match s.objects[plugin]? with
    | none => .error (.notInstalled pluginId)
    | some record => .ok (plugin, record)

/-- A call that throws before its first save leaves everything as it is. -/
def orThrow {α : Type} (result : Except MarketplaceError α) (next : α → AgentMarketplace) : AgentMarketplace :=
  match result with
  | .error _ => s
  | .ok value => next value

/-! ### Registry -/

def compareVersions (a b : Text) : Except MarketplaceError Float :=
  match compareSemver a b with
  | some order => .ok order
  | none => .error (.invalidSemver (if (parseSemver a).isNone then a else b))

variable (manifest : PluginManifest)

def checkEntry (publisher : Text) (allowSameVersion : Bool) (now : ℤ) : Except MarketplaceError MarketplaceEntry := do
  validateManifest manifest
  match s.registry manifest.id with
  | none => return { manifest, publisher, publishedAt := now, updatedAt := now, installs := 0 }
  | some existing =>
    if existing.publisher ≠ publisher then throw (.owned manifest.id)
    let order ← compareVersions manifest.version existing.manifest.version
    if order < 0 ∨ (order == 0 && !allowSameVersion) = true then throw (.notNewer manifest.id manifest.version existing.manifest.version)
    return { manifest, publisher, publishedAt := existing.publishedAt, updatedAt := now, installs := existing.installs }

def checkPublish (publisher : Text) (now : ℤ) : Except MarketplaceError MarketplaceEntry := do
  let identity := trim publisher
  if identity = [] then throw .publisherRequired
  if reservedPublisherPrefix.isPrefixOf identity then throw .publisherReserved
  s.checkEntry manifest identity false now

def checkSystemManifest (now : ℤ) : Except MarketplaceError MarketplaceEntry := do
  match s.registry manifest.id with
  | none => s.checkEntry manifest systemPublisher true now
  | some existing =>
    if existing.publisher ≠ systemPublisher then throw (.ownedBySystem manifest.id existing.publisher)
    let order ← compareVersions manifest.version existing.manifest.version
    if order < 0 then throw (.rolledBack manifest.id manifest.version existing.manifest.version)
    s.checkEntry manifest systemPublisher true now

/-! ### Implementations -/

def setAvailable (available : Bool) : AgentMarketplace :=
  match s.installed pluginId with
  | none => s
  | some plugin => s.modifyObject plugin fun record => { record with available }

def registerImplementation : AgentMarketplace :=
  ({ s with implementations := pluginId :: s.implementations } : AgentMarketplace).setAvailable pluginId true

def unregisterImplementation : AgentMarketplace :=
  ({ s with implementations := s.implementations.filter (· ≠ pluginId) } : AgentMarketplace).setAvailable pluginId false

/-! ### Lifecycle -/

/-- Dependencies must be installed and satisfy the declared range. -/
def checkDependencies : Except MarketplaceError Unit :=
  manifest.dependencies.forM fun (depId, range) =>
    match s.getInstalled depId with
    | none => throw (.dependencyMissing depId range)
    | some dependency =>
      if satisfiesRange dependency.manifest.version range = false then throw (.dependencyUnsatisfied depId dependency.manifest.version range)
      else pure ()

def checkInstall (request : InstallRequest) (now : ℤ) : Except MarketplaceError (MarketplaceEntry × InstalledPlugin) :=
  match s.registry pluginId with
  | none => throw (.notFound pluginId)
  | some entry => do
    if (s.installed pluginId).isSome then throw (.alreadyInstalled pluginId)
    let installedBy := trim request.installedBy
    if installedBy = [] then throw .installerRequired
    s.checkDependencies entry.manifest
    let requested := request.grants.getD entry.manifest.requiredCapabilities
    let grantedCapabilities ← narrowGrants entry.manifest requested true
    let config ← validateConfig entry.manifest (request.config.getD Record.empty)
    return (entry, {
      manifest := entry.manifest, status := .installed, config, grantedCapabilities, installedBy, installedAt := now, requested
      startedAt := none, lastError := none, available := pluginId ∈ s.implementations })

def checkUpdate : Except MarketplaceError (ℕ × InstalledPlugin × MarketplaceEntry) := do
  let (plugin, record) ← s.requireInstalled pluginId
  match s.registry pluginId with
  | none => throw (.notFound pluginId)
  | some entry =>
    let order ← compareVersions entry.manifest.version record.manifest.version
    if order ≤ 0 then throw (.current pluginId record.manifest.version entry.manifest.version)
    return (plugin, record, entry)

def updated (record : InstalledPlugin) (entry : MarketplaceEntry) : Except MarketplaceError InstalledPlugin := do
  let config ← validateConfig entry.manifest record.config
  let grantedCapabilities ← narrowGrants entry.manifest record.grantedCapabilities false
  return { record with
    config, grantedCapabilities, manifest := entry.manifest, status := .installed, lastError := none, available := entry.manifest.id ∈ s.implementations }

/-- `update` after the plugin was stopped, or at once if it did not run. -/
def updateTo (plugin : ℕ) (entry : MarketplaceEntry) (after : AfterCommit) : AgentMarketplace :=
  match s.objects[plugin]? with
  | none => s
  | some record => s.orThrow (s.updated record entry) fun next => s.commit plugin next after

def stopped (record : InstalledPlugin) : InstalledPlugin := { record with status := .stopped, startedAt := none }

def update : AgentMarketplace :=
  s.orThrow (s.checkUpdate pluginId) fun (plugin, record, entry) =>
    if record.status = .running then s.commit plugin (stopped record) (.update plugin entry)
    else s.updateTo plugin entry .done

def configure (config : Record ConfigValue) : AgentMarketplace :=
  s.orThrow (s.requireInstalled pluginId) fun (plugin, record) =>
    s.orThrow (validateConfig record.manifest config) fun config => s.commit plugin { record with config } .done

def start (now : ℤ) : AgentMarketplace :=
  s.orThrow (s.requireInstalled pluginId) fun (plugin, record) =>
    if record.status = .disabled then s
    else if record.available = false then s
    else if record.status = .running then s
    else s.commit plugin { record with status := .running, startedAt := some now, lastError := none } (.resetFailures pluginId)

def stop : AgentMarketplace :=
  s.orThrow (s.requireInstalled pluginId) fun (plugin, record) =>
    if record.status = .running ∨ record.status = .error then s.commit plugin (stopped record) .done else s

def disable : AgentMarketplace :=
  s.orThrow (s.requireInstalled pluginId) fun (plugin, record) => s.commit plugin { record with status := .disabled, startedAt := none } .disabled

def enable : AgentMarketplace :=
  s.orThrow (s.requireInstalled pluginId) fun (plugin, record) =>
    let s := { s with blocked := s.blocked.filter (· ≠ plugin) }
    if record.status = .disabled ∨ record.status = .error then s.commit plugin { record with status := .stopped } (.resetFailures pluginId) else s

def checkUninstall : Except MarketplaceError Unit := do
  let _ ← s.requireInstalled pluginId
  s.listInstalled.forM fun other =>
    if other.manifest.id ≠ pluginId ∧ hasKey (other.manifest.dependencies.map (·.1)) pluginId = true then
      throw (.dependentsInstalled pluginId other.manifest.id)
    else pure ()

/-! ### Execution -/

def invoke : AgentMarketplace :=
  match s.getInstalled pluginId with
  | none => s
  | some record => if pluginId ∉ s.implementations then s else if record.status ≠ .running then s else s.take (.handling pluginId)

/-- The outcome of a handler, with the error where it failed. -/
def recordOutcome (error : Option Text) : AgentMarketplace :=
  match s.installed pluginId, s.stats pluginId with
  | some plugin, some stats =>
    let recent := stats.recent ++ [error.isNone]
    let stats := { stats with
      invocations := stats.invocations + 1
      recent := if s.errorWindow < recent.length then recent.tail else recent }
    match error with
    | none => { s with stats := Function.update s.stats pluginId (some { stats with consecutiveFailures := 0 }) }
    | some message =>
      let stats := { stats with failures := stats.failures + 1, consecutiveFailures := stats.consecutiveFailures + 1 }
      let s := ({ s with stats := Function.update s.stats pluginId (some stats) } : AgentMarketplace).modifyObject plugin fun record =>
        { record with lastError := some message }
      match s.objects[plugin]? with
      | none => s
      | some record =>
        if s.autoDisableAfter ≤ stats.consecutiveFailures ∧ record.status = .running then
          s.commit plugin { record with status := .error, startedAt := none } .done
        else s
  | _, _ => s

/-! ### Steps -/

def persist (save : Save) : AgentMarketplace :=
  match save with
  | .publish entry => { s with storedEntries := Function.update s.storedEntries entry.manifest.id (some entry) }
  | .installation _ plugin =>
    { s with storedInstallations := Function.update s.storedInstallations plugin.manifest.id (some plugin.toStoredInstallation) }
  | .installs entry _ => { s with storedEntries := Function.update s.storedEntries entry.manifest.id (some entry) }
  | .uninstall pluginId => { s with storedInstallations := Function.update s.storedInstallations pluginId none }
  | .commit _ next _ => { s with storedInstallations := Function.update s.storedInstallations next.manifest.id (some next.toStoredInstallation) }

def apply (save : Save) : AgentMarketplace :=
  match save with
  | .publish entry => { s with registry := Function.update s.registry entry.manifest.id (some entry) }
  | .installation entry plugin => s.save (.installs { entry with installs := entry.installs + 1 } plugin)
  | .installs entry plugin => { s with
      installed := Function.update s.installed entry.manifest.id (some s.objects.length)
      objects := s.objects ++ [plugin]
      stats := Function.update s.stats entry.manifest.id (some {})
      registry := Function.update s.registry entry.manifest.id (some entry) }
  | .uninstall pluginId => { s with
      installed := Function.update s.installed pluginId none
      stats := Function.update s.stats pluginId none }
  | .commit plugin next after =>
    let s := s.modifyObject plugin fun _ => next
    match after with
    | .done => s
    | .disabled => { s with blocked := plugin :: s.blocked }
    | after => s.take (.committed after)

def proceed (after : AfterCommit) (now : ℤ) : AgentMarketplace :=
  match after with
  | .done => s
  | .disabled => s
  | .resetFailures pluginId =>
    { s with stats := Function.update s.stats pluginId ((s.stats pluginId).map fun stats => { stats with consecutiveFailures := 0 }) }
  | .update plugin entry => s.updateTo plugin entry (.restart entry.manifest.id)
  | .restart pluginId => s.start pluginId now

def settle (index : ℕ) (ok : Bool) : AgentMarketplace :=
  match s.flights[index]? with
  | some (.saving save) =>
    let s := { s with flights := s.flights.set index (.saved ok save) }
    if ok then s.persist save else s
  | _ => s

def resume (index : ℕ) (now : ℤ) : AgentMarketplace :=
  let landed := { s with flights := s.flights.eraseIdx index }
  match s.flights[index]? with
  | some (.saved ok save) => if ok then landed.apply save else landed
  | some (.committed after) => landed.proceed after now
  | _ => s

def outcome (index : ℕ) (error : Option Text) : AgentMarketplace :=
  match s.flights[index]? with
  | some (.handling pluginId) => ({ s with flights := s.flights.eraseIdx index } : AgentMarketplace).recordOutcome pluginId error
  | _ => s

def step (call : MarketplaceCall) : AgentMarketplace :=
  match call with
  | .publish manifest publisher now => s.orThrow (s.checkPublish manifest publisher now) fun entry => s.save (.publish entry)
  | .publishSystemManifest manifest now => s.orThrow (s.checkSystemManifest manifest now) fun entry => s.save (.publish entry)
  | .install pluginId request now => s.orThrow (s.checkInstall pluginId request now) fun (entry, plugin) => s.save (.installation entry plugin)
  | .update pluginId => s.update pluginId
  | .configure pluginId config => s.configure pluginId config
  | .start pluginId now => s.start pluginId now
  | .stop pluginId => s.stop pluginId
  | .disable pluginId => s.disable pluginId
  | .enable pluginId => s.enable pluginId
  | .uninstall pluginId => s.orThrow (s.checkUninstall pluginId) fun _ => s.save (.uninstall pluginId)
  | .registerImplementation pluginId => s.registerImplementation pluginId
  | .unregisterImplementation pluginId => s.unregisterImplementation pluginId
  | .invoke pluginId => s.invoke pluginId
  | .outcome index error => s.outcome index error
  | .settle index ok => s.settle index ok
  | .resume index now => s.resume index now

end AgentMarketplace
end OxScada.Marketplace
