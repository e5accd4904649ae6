import OxScada.Marketplace.Ownership

/-! The grants and the dependencies of installed plugins. Grants are part of the record that a save carries.
Dependencies are looked at when a plugin is installed and when one is uninstalled, before the save. -/

namespace OxScada.Marketplace
open OxScada.Bytes OxScada.Js OxScada.Runs

def StoredInstallation.Allowed (record : StoredInstallation) : Prop :=
  record.grantedCapabilities ⊆ record.manifest.requiredCapabilities ∧ record.grantedCapabilities ⊆ record.requested

def Save.installing : Save → Option InstalledPlugin
  | .installation _ plugin => some plugin
  | .installs _ plugin => some plugin
  | _ => none

/-- What is loaded is allowed, and its dependencies are met. -/
structure MarketplaceSnapshot.Sound (snapshot : MarketplaceSnapshot) : Prop where
  allowed : ∀ record ∈ snapshot.installations, record.Allowed
  met : ∀ record ∈ snapshot.installations, ∀ dependency ∈ record.manifest.dependencies,
    ∃ other ∈ snapshot.installations, other.manifest.id = dependency.1 ∧ satisfiesRange other.manifest.version dependency.2 = true

namespace AgentMarketplace
variable (s : AgentMarketplace)

def installedPart (pluginId : Text) : Option StoredInstallation := (s.installed pluginId).bind s.part

variable (manifest : PluginManifest)

/-- The dependencies are installed with versions in their ranges. -/
def Met : Prop :=
  ∀ dependency ∈ manifest.dependencies, ∃ other, s.installedPart dependency.1 = some other ∧ satisfiesRange other.manifest.version dependency.2 = true

/-- The manifest is that of a plugin that is installed or being installed. -/
def Claims : Prop :=
  (∃ id record, s.installedPart id = some record ∧ record.manifest = manifest) ∨
    ∃ save ∈ s.pendings, ∃ plugin, save.installing = some plugin ∧ plugin.manifest = manifest

/-- The manifest may replace that of the installed plugin: its dependencies are met and stay, and its version is in the
ranges of those that depend on it. -/
def Fits : Prop :=
  (∀ dependency ∈ manifest.dependencies, dependency.1 ≠ manifest.id →
    (∃ other, s.installedPart dependency.1 = some other ∧ satisfiesRange other.manifest.version dependency.2 = true) ∧
      .uninstall dependency.1 ∉ s.pendings) ∧
    ∀ other, s.Claims other ∨ other = manifest → ∀ dependency ∈ other.dependencies, dependency.1 = manifest.id →
      satisfiesRange manifest.version dependency.2 = true

/-- No installation overlaps with another one of the plugin or with the end of one of its dependencies, and a manifest
that replaces another one fits. -/
def Fitting (call : MarketplaceCall) : Prop :=
  match call with
  | .install pluginId request now => ∀ entry plugin, s.checkInstall pluginId request now = .ok (entry, plugin) →
      (∀ id, .uninstall id ∈ s.pendings → id ∉ plugin.manifest.dependencies.map (·.1)) ∧
        ∀ save ∈ s.pendings, ∀ other, save.installing = some other → other.manifest.id ≠ pluginId
  | .uninstall pluginId => ∀ save ∈ s.pendings, ∀ plugin, save.installing = some plugin → pluginId ∉ plugin.manifest.dependencies.map (·.1)
  | .resume index _ => ∀ plugin next after record, s.flights[index]? = some (.saved true (.commit plugin next after)) →
      s.installed next.manifest.id = some plugin → s.part plugin = some record → next.manifest ≠ record.manifest → s.Fits next.manifest
  | _ => True

def Named (plugin : ℕ) (id : Text) : Prop := ∃ record, s.part plugin = some record ∧ record.manifest.id = id

def TidySave : Save → Prop
  | .installation entry plugin => entry.manifest.id = plugin.manifest.id ∧ plugin.Allowed
  | .installs entry plugin => entry.manifest.id = plugin.manifest.id ∧ plugin.Allowed
  | .commit plugin next after => next.Allowed ∧ s.Named plugin next.manifest.id ∧ ∀ target entry, after = .update target entry → s.Named target entry.manifest.id
  | _ => True

/-- Objects and saves are of the plugins that they are kept under, and their grants are allowed. -/
structure Tidy (s : AgentMarketplace) : Prop where
  keys : ∀ id entry, s.registry id = some entry → entry.manifest.id = id
  named : ∀ id plugin, s.installed id = some plugin → s.Named plugin id
  allowed : ∀ plugin record, s.part plugin = some record → record.Allowed
  saves : ∀ save ∈ s.pendings, s.TidySave save
  updating : ∀ plugin entry, .committed (.update plugin entry) ∈ s.flights → s.Named plugin entry.manifest.id

def ClosedSave (s : AgentMarketplace) : Save → Prop
  | .installation _ plugin => s.Met plugin.manifest ∧ s.installed plugin.manifest.id = none
  | .installs _ plugin => s.Met plugin.manifest ∧ s.installed plugin.manifest.id = none
  | .uninstall id => ∀ manifest, s.Claims manifest → manifest.id ≠ id → id ∉ manifest.dependencies.map (·.1)
  | _ => True

/-- The plugins that are installed have their dependencies, and this stays so when the saves are back. -/
structure Closed (s : AgentMarketplace) : Prop where
  met : ∀ id record, s.installedPart id = some record → s.Met record.manifest
  saves : ∀ save ∈ s.pendings, s.ClosedSave save
  one : ((s.pendings.filterMap Save.installing).map (·.manifest.id)).Nodup

variable {s s₀ : AgentMarketplace} {call : MarketplaceCall} {flight : Flight} {save : Save} {id pluginId : Text} {manifest : PluginManifest}

/-! ### Frames -/

structure Narrows (s₀ s : AgentMarketplace) : Prop where
  installed : s.installed = s₀.installed
  parts : ∀ id, s.installedPart id = s₀.installedPart id
  pendings : s.pendings.Sublist s₀.pendings

structure Keeps (s₀ s : AgentMarketplace) : Prop where
  registry : s.registry = s₀.registry
  installed : s.installed = s₀.installed
  objects : ∀ plugin, s.part plugin = s₀.part plugin
  pendings : s.pendings.Sublist s₀.pendings
  committed : ∀ after, .committed after ∈ s.flights → .committed after ∈ s₀.flights

theorem Quiet.keeps (h : Quiet s₀ s) : Keeps s₀ s := by
  refine ⟨h.registry, h.installed, h.objects, h.pendings ▸ List.Sublist.refl _, fun after hmem => (h.flights _ hmem).resolve_right ?_⟩
  rintro ⟨pluginId, hsame⟩
  cases hsame

theorem Keeps.narrows (h : Keeps s₀ s) : Narrows s₀ s := by
  refine ⟨h.installed, fun id => ?_, h.pendings⟩
  unfold AgentMarketplace.installedPart
  rw [h.installed]
  congr 1
  funext plugin
  exact h.objects plugin

variable {plugin index : ℕ} {entry : MarketplaceEntry} {now : ℤ} {next object : InstalledPlugin} {s' : AgentMarketplace}

theorem Keeps.named (h : Keeps s₀ s) : s.Named plugin id ↔ s₀.Named plugin id := by
  unfold Named
  rw [h.objects]

theorem Narrows.met (h : Narrows s₀ s) : s.Met manifest ↔ s₀.Met manifest := by
  unfold Met
  simp only [h.parts]

theorem Narrows.claims (h : Narrows s₀ s) (hclaims : s.Claims manifest) : s₀.Claims manifest := by
  rcases hclaims with ⟨id, record, hrecord, hmanifest⟩ | ⟨save, hsave, hplugin⟩
  · exact .inl ⟨id, record, h.parts id ▸ hrecord, hmanifest⟩
  · exact .inr ⟨save, h.pendings.subset hsave, hplugin⟩

theorem Narrows.fits (h : Narrows s₀ s) (hfits : s₀.Fits manifest) : s.Fits manifest := by
  refine ⟨fun dependency hdependency hne => ?_, fun other hother => hfits.2 other (hother.imp_left h.claims)⟩
  obtain ⟨hmet, hleaving⟩ := hfits.1 dependency hdependency hne
  refine ⟨?_, fun hmem => hleaving (h.pendings.subset hmem)⟩
  rw [h.parts]
  exact hmet

theorem Keeps.tidySave (h : Keeps s₀ s) (hsave : s₀.TidySave save) : s.TidySave save := by
  cases save with
  | publish | uninstall => trivial
  | installation | installs => exact hsave
  | commit plugin next after => exact ⟨hsave.1, h.named.mpr hsave.2.1, fun target entry hafter => h.named.mpr (hsave.2.2 target entry hafter)⟩

theorem Narrows.closedSave (h : Narrows s₀ s) (hsave : s₀.ClosedSave save) : s.ClosedSave save := by
  cases save with
  | publish | commit => trivial
  | installation | installs => exact ⟨h.met.mpr hsave.1, h.installed ▸ hsave.2⟩
  | uninstall id => exact fun manifest hclaims => hsave manifest (h.claims hclaims)

theorem Tidy.keeps (h : s₀.Tidy) (hkeeps : Keeps s₀ s) : s.Tidy := by
  refine ⟨hkeeps.registry ▸ h.keys, fun id plugin hplugin => ?_, fun plugin record hrecord => ?_, fun save hsave => ?_, fun plugin entry hmem => ?_⟩
  · rw [hkeeps.installed] at hplugin
    exact hkeeps.named.mpr (h.named id plugin hplugin)
  · rw [hkeeps.objects] at hrecord
    exact h.allowed plugin record hrecord
  · exact hkeeps.tidySave (h.saves save (hkeeps.pendings.subset hsave))
  · exact hkeeps.named.mpr (h.updating plugin entry (hkeeps.committed _ hmem))

theorem Closed.narrows (h : s₀.Closed) (hnarrows : Narrows s₀ s) : s.Closed := by
  refine ⟨fun id record hrecord => ?_, fun save hsave => ?_, ?_⟩
  · rw [hnarrows.parts] at hrecord
    exact hnarrows.met.mpr (h.met id record hrecord)
  · exact hnarrows.closedSave (h.saves save (hnarrows.pendings.subset hsave))
  · exact h.one.sublist ((hnarrows.pendings.filterMap _).map _)

/-! ### A save begins -/

theorem pendings_save (s : AgentMarketplace) (save : Save) : (s.save save).pendings = s.pendings ++ [save] := List.filterMap_append ..

theorem Tidy.saving (h : s.Tidy) (hsave : s.TidySave save) : (s.save save).Tidy := by
  refine ⟨h.keys, h.named, h.allowed, fun other hother => ?_, fun plugin entry hmem => h.updating plugin entry ?_⟩
  · rw [pendings_save] at hother
    rcases List.mem_append.mp hother with hold | hnew
    · exact h.saves other hold
    · obtain rfl := List.mem_singleton.mp hnew
      exact hsave
  · rcases List.mem_append.mp hmem with hold | hnew
    · exact hold
    · cases List.mem_singleton.mp hnew

theorem claims_save (hclaims : (s.save save).Claims manifest) : s.Claims manifest ∨ ∃ plugin, save.installing = some plugin ∧ plugin.manifest = manifest := by
  rcases hclaims with hinstalled | ⟨other, hother, hplugin⟩
  · exact .inl (.inl hinstalled)
  · rw [pendings_save] at hother
    rcases List.mem_append.mp hother with hold | hnew
    · exact .inl (.inr ⟨other, hold, hplugin⟩)
    · obtain rfl := List.mem_singleton.mp hnew
      exact .inr hplugin

/-- A save begins. What it installs needs no plugin that is on its way out, and is not on its way in already. -/
theorem Closed.saving (h : s.Closed) (hsave : s.ClosedSave save)
    (hnew : ∀ plugin, save.installing = some plugin → (∀ id, .uninstall id ∈ s.pendings → plugin.manifest.id ≠ id → id ∉ plugin.manifest.dependencies.map (·.1)) ∧
      plugin.manifest.id ∉ (s.pendings.filterMap Save.installing).map (·.manifest.id)) : (s.save save).Closed := by
  have hclosed : ∀ other, other ∈ s.pendings ∨ other = save → s.ClosedSave other → (s.save save).ClosedSave other := by
    intro other hmem hother
    cases other with
    | publish | commit => trivial
    | installation | installs => exact hother
    | uninstall id =>
      intro manifest hclaims
      rcases claims_save hclaims with hold | ⟨plugin, hplugin, rfl⟩
      · exact hother manifest hold
      · refine (hnew plugin hplugin).1 id (hmem.resolve_right ?_)
        rintro rfl
        cases hplugin
  refine ⟨h.met, fun other hother => ?_, ?_⟩
  · rw [pendings_save] at hother
    rcases List.mem_append.mp hother with hold | hlast
    · exact hclosed other (.inl hold) (h.saves other hold)
    · obtain rfl := List.mem_singleton.mp hlast
      exact hclosed _ (.inr rfl) hsave
  · rw [pendings_save, List.filterMap_append, List.filterMap_cons]
    cases hinstalling : save.installing with
    | none => simpa using h.one
    | some plugin =>
      rw [List.filterMap_nil, List.map_append]
      refine List.nodup_append.mpr ⟨h.one, List.nodup_singleton _, fun first hfirst second hsecond hsame => ?_⟩
      obtain rfl := List.mem_singleton.mp hsecond
      rw [hsame] at hfirst
      exact (hnew plugin hinstalling).2 hfirst

/-! ### Checks -/

theorem forM_ok {ε α : Type} {l : List α} {f : α → Except ε Unit} : l.forM f = .ok () ↔ ∀ a ∈ l, f a = .ok () := by
  induction l with
  | nil =>
    refine ⟨fun _ a ha => ?_, fun _ => rfl⟩
    cases ha
  | cons a rest ih =>
    rw [List.forall_mem_cons, ← ih]
    exact bind_unit_ok

theorem checkDependencies_ok (h : s.checkDependencies manifest = .ok ()) {dependency : Text × Text} (hdependency : dependency ∈ manifest.dependencies) :
    ∃ other, s.getInstalled dependency.1 = some other ∧ satisfiesRange other.manifest.version dependency.2 = true := by
  unfold checkDependencies at h
  have hchecked := forM_ok.mp h dependency hdependency
  dsimp only at hchecked
  split at hchecked
  · cases hchecked
  · rename_i other hother
    split_ifs at hchecked with hrange
    exact ⟨other, hother, by simpa using hrange⟩

theorem installedPart_eq (s : AgentMarketplace) (id : Text) : s.installedPart id = (s.getInstalled id).map InstalledPlugin.toStoredInstallation := by
  unfold installedPart getInstalled
  cases s.installed id <;> rfl

theorem checkInstall_ok {request : InstallRequest} {plugin : InstalledPlugin}
    (h : s.checkInstall pluginId request now = .ok (entry, plugin)) :
    s.registry pluginId = some entry ∧ s.installed pluginId = none ∧ plugin.manifest = entry.manifest ∧ plugin.Allowed ∧ s.Met entry.manifest := by
  refine ⟨checkInstall_registry h, ?_⟩
  unfold checkInstall at h
  split at h
  · cases h
  · rename_i registered hregistered
    dsimp only at h
    by_cases hinstalled : (s.installed pluginId).isSome
    · rw [if_pos hinstalled] at h
      cases h
    rw [if_neg hinstalled] at h
    by_cases hinstaller : Peers.trim request.installedBy = []
    · rw [if_pos hinstaller] at h
      cases h
    rw [if_neg hinstaller] at h
    obtain ⟨hdependencies, h⟩ := bind_unit_ok.mp h
    obtain ⟨granted, hgranted, h⟩ := bind_ok.mp h
    obtain ⟨config, -, h⟩ := bind_ok.mp h
    cases h
    refine ⟨by simpa using hinstalled, rfl, narrowGrants_subset hgranted, fun dependency hdependency => ?_⟩
    obtain ⟨other, hother, hrange⟩ := checkDependencies_ok hdependencies hdependency
    exact ⟨other.toStoredInstallation, by rw [installedPart_eq, hother]; rfl, hrange⟩

theorem hasKey_of_mem {keys : List Text} {key : Text} (h : key ∈ keys) : hasKey keys key = true := by
  unfold hasKey
  simp [h]

theorem checkUninstall_ok (h : s.checkUninstall pluginId = .ok ()) {other : InstalledPlugin} (hother : other ∈ s.listInstalled) (hid : other.manifest.id ≠ pluginId) :
    pluginId ∉ other.manifest.dependencies.map (·.1) := by
  unfold checkUninstall at h
  obtain ⟨found, -, h⟩ := bind_ok.mp h
  have hchecked := forM_ok.mp h other hother
  intro hdependency
  rw [if_pos ⟨hid, hasKey_of_mem hdependency⟩] at hchecked
  cases hchecked

theorem mem_listInstalled (h : s.Tidy) {record : StoredInstallation} (hrecord : s.installedPart id = some record) :
    ∃ plugin ∈ s.listInstalled, plugin.toStoredInstallation = record ∧ plugin.manifest.id = id := by
  obtain ⟨plugin, hplugin, hpart⟩ := Option.bind_eq_some_iff.mp hrecord
  obtain ⟨named, hnamed, hid⟩ := h.named id plugin hplugin
  obtain rfl : named = record := Option.some.inj (hnamed.symm.trans hpart)
  obtain ⟨object, hobject, rfl⟩ := Option.map_eq_some_iff.mp hpart
  have hlt : plugin < s.objects.length := (List.getElem?_eq_some_iff.mp hobject).1
  refine ⟨object, List.mem_filterMap.mpr ⟨plugin, List.mem_range.mpr hlt, ?_⟩, rfl, hid⟩
  rw [hobject, Option.filter_some, if_pos]
  rw [hid, hplugin]
  simp

/-! ### Steps -/

theorem updated_ok {record : InstalledPlugin} (h : s.updated record entry = .ok next) :
    next.manifest = entry.manifest ∧ next.requested = record.requested ∧ next.grantedCapabilities ⊆ entry.manifest.requiredCapabilities ∧
      next.grantedCapabilities ⊆ record.grantedCapabilities := by
  unfold updated at h
  obtain ⟨config, -, h⟩ := bind_ok.mp h
  obtain ⟨granted, hgranted, h⟩ := bind_ok.mp h
  cases h
  exact ⟨rfl, rfl, narrowGrants_subset hgranted⟩

theorem Tidy.updates (h : s.Tidy) (hupdates : s.Updates call plugin entry) : s.Named plugin entry.manifest.id := by
  rcases hupdates with ⟨pluginId, record, rfl, hcheck⟩ | ⟨index, now, rfl, hflight⟩
  · obtain ⟨hrequire, hregistry⟩ := checkUpdate_ok hcheck
    rw [h.keys pluginId entry hregistry]
    exact h.named pluginId plugin (requireInstalled_ok hrequire).1
  · exact h.updating plugin entry (List.mem_of_getElem? hflight)

theorem Tidy.change (h₀ : s₀.Tidy) (h : s.Tidy) (hkeeps : Keeps s₀ s) {record : InstalledPlugin} {after : AfterCommit}
    (hrecord : s.objects[plugin]? = some record) (hchange : Change s₀ s call plugin record next after) : s.TidySave (.commit plugin next after) := by
  have hpart : s.part plugin = some record.toStoredInstallation := by rw [part, hrecord]; rfl
  have hallowed := h.allowed plugin _ hpart
  have hnamed : s.Named plugin record.manifest.id := ⟨_, hpart, rfl⟩
  have hupdates : ∀ {entry}, s₀.Updates call plugin entry → s.Named plugin entry.manifest.id := fun hupdates => hkeeps.named.mpr (h₀.updates hupdates)
  cases hchange with
  | configure | start | stop | disable | enable | fail => exact ⟨hallowed, hnamed, fun target entry hafter => by cases hafter⟩
  | stopToUpdate hupdate hstatus =>
    refine ⟨hallowed, hnamed, ?_⟩
    rintro _ _ ⟨⟩
    exact hupdates hupdate
  | update hafter hupdate hnext =>
    rename_i entry
    obtain ⟨hmanifest, hrequested, hdeclared, hgranted⟩ := updated_ok hnext
    refine ⟨⟨hmanifest.symm ▸ hdeclared, hrequested.symm ▸ fun capability hmem => hallowed.2 (hgranted hmem)⟩, hmanifest.symm ▸ hupdates hupdate, ?_⟩
    rintro target _ rfl
    rcases hafter with hdone | ⟨pluginId, hrestart⟩
    · cases hdone
    · cases hrestart

theorem Tidy.begins (h₀ : s₀.Tidy) (hquiet : Quiet s₀ s) (hbegins : Begins s₀ s call save) : (s.save save).Tidy := by
  have hkeeps := hquiet.keeps
  have h : s.Tidy := h₀.keeps hkeeps
  refine h.saving ?_
  cases hbegins with
  | publish | publishSystemManifest | uninstall => trivial
  | install hcall hcheck =>
    obtain ⟨-, -, hmanifest, hallowed, -⟩ := checkInstall_ok hcheck
    exact ⟨hmanifest ▸ rfl, hallowed⟩
  | commit hrecord hchange => exact h₀.change h hkeeps hrecord hchange

theorem Closed.begins (h₀ : s₀.Closed) (htidy : s₀.Tidy) (hquiet : Quiet s₀ s) (hbegins : Begins s₀ s call save) (hfitting : s₀.Fitting call) :
    (s.save save).Closed := by
  have hnarrows := hquiet.keeps.narrows
  refine (h₀.narrows hnarrows).saving ?_ ?_
  · cases hbegins with
    | publish | publishSystemManifest | commit => trivial
    | install hcall hcheck =>
      obtain ⟨hregistry, hinstalled, hmanifest, -, hmet⟩ := checkInstall_ok hcheck
      refine ⟨hnarrows.met.mpr (hmanifest ▸ hmet), ?_⟩
      rw [hnarrows.installed, hmanifest, htidy.keys _ _ hregistry, hinstalled]
    | uninstall hcall hcheck =>
      rename_i pluginId
      subst hcall
      intro manifest hclaims hid
      rcases hnarrows.claims hclaims with ⟨id, record, hrecord, rfl⟩ | ⟨other, hother, plugin, hplugin, rfl⟩
      · obtain ⟨object, hobject, rfl, -⟩ := mem_listInstalled htidy hrecord
        exact checkUninstall_ok hcheck hobject hid
      · exact hfitting other hother plugin hplugin
  · cases hbegins with
    | install hcall hcheck =>
      rename_i pluginId request now entry plugin
      subst hcall
      rintro _ ⟨⟩
      obtain ⟨hregistry, -, hmanifest, -, -⟩ := checkInstall_ok hcheck
      obtain ⟨hleaving, harriving⟩ := hfitting entry plugin hcheck
      refine ⟨fun id hmem _ => hleaving id (hnarrows.pendings.subset hmem), fun hmem => ?_⟩
      obtain ⟨other, hother, hid⟩ := List.mem_map.mp hmem
      obtain ⟨first, hfirst, hinstalling⟩ := List.mem_filterMap.mp hother
      refine harriving first (hnarrows.pendings.subset hfirst) other hinstalling (hid.trans ?_)
      rw [hmanifest, htidy.keys _ _ hregistry]
    | _ =>
      -- nothing is installed
      rintro _ ⟨⟩

/-! ### Answers of the store -/

theorem filterMap_set_sublist {α β : Type*} {f : α → Option β} {l : List α} {a b : α} (h : l[index]? = some a) (hf : f b = f a ∨ f b = none) :
    ((l.set index b).filterMap f).Sublist (l.filterMap f) := by
  induction l generalizing index with
  | nil => exact List.Sublist.refl _
  | cons c l ih =>
    cases index with
    | zero =>
      obtain rfl : c = a := by simpa using h
      rw [List.set_cons_zero, List.filterMap_cons, List.filterMap_cons]
      rcases hf with hsame | hnone
      · rw [hsame]
      · rw [hnone]
        cases f c with
        | none => exact List.Sublist.refl _
        | some d => exact List.sublist_cons_self _ _
    | succ index =>
      have hrest := ih (by simpa using h)
      rw [List.set_cons_succ, List.filterMap_cons, List.filterMap_cons]
      cases f c with
      | none => exact hrest
      | some d => exact hrest.cons_cons d

theorem persist_frame (s : AgentMarketplace) (save : Save) : (s.persist save).registry = s.registry ∧ (s.persist save).installed = s.installed ∧
    (s.persist save).objects = s.objects ∧ (s.persist save).flights = s.flights := by
  cases save <;> exact ⟨rfl, rfl, rfl, rfl⟩

theorem keeps_settled (hflight : s.flights[index]? = some (.saving save)) {ok : Bool} (hregistry : s'.registry = s.registry)
    (hinstalled : s'.installed = s.installed) (hobjects : s'.objects = s.objects) (hflights : s'.flights = s.flights.set index (.saved ok save)) : Keeps s s' := by
  refine ⟨hregistry, hinstalled, fun plugin => by rw [part, part, hobjects], ?_, fun after hmem => ?_⟩
  · rw [AgentMarketplace.pendings, hflights]
    refine filterMap_set_sublist hflight ?_
    cases ok with
    | true => exact .inl rfl
    | false => exact .inr rfl
  · rw [hflights] at hmem
    rcases List.mem_or_eq_of_mem_set hmem with hold | hnew
    · exact hold
    · cases hnew

theorem keeps_answered (hflight : s.flights[index]? = some (.saving save)) (ok : Bool) :
    Keeps s (if ok then ({ s with flights := s.flights.set index (.saved ok save) } : AgentMarketplace).persist save
      else { s with flights := s.flights.set index (.saved ok save) }) := by
  split_ifs with hok
  · obtain ⟨hregistry, hinstalled, hobjects, hflights⟩ := persist_frame { s with flights := s.flights.set index (.saved ok save) } save
    exact keeps_settled hflight hregistry hinstalled hobjects hflights
  · exact keeps_settled hflight rfl rfl rfl rfl

/-! ### Saves that are back -/

theorem update_some {α : Type*} {f : Text → Option α} {key key' : Text} {value : Option α} {found : α} (h : Function.update f key value key' = some found) :
    key' = key ∧ value = some found ∨ key' ≠ key ∧ f key' = some found := by
  by_cases hsame : key' = key
  · subst hsame
    rw [Function.update_self] at h
    exact .inl ⟨rfl, h⟩
  · rw [Function.update_of_ne hsame] at h
    exact .inr ⟨hsame, h⟩

theorem landed_pendings (hflight : s.flights[index]? = some (.saved true save)) :
    (save :: ({ s with flights := s.flights.eraseIdx index } : AgentMarketplace).pendings).Perm s.pendings :=
  (landed_cases hflight).filterMap Flight.pending

theorem keeps_landed (s : AgentMarketplace) (index : ℕ) : Keeps s { s with flights := s.flights.eraseIdx index } :=
  ⟨rfl, rfl, fun _ => rfl, (List.eraseIdx_sublist _ _).filterMap _, fun _ hmem => (List.eraseIdx_sublist _ _).subset hmem⟩

theorem part_lt (h : s.Named plugin id) : plugin < s.objects.length := by
  obtain ⟨record, hrecord, -⟩ := h
  obtain ⟨object, hobject, -⟩ := Option.map_eq_some_iff.mp hrecord
  exact (List.getElem?_eq_some_iff.mp hobject).1

section
variable (hobjects : s'.objects = s.objects ++ [object])
include hobjects

theorem part_append (hlt : plugin < s.objects.length) : s'.part plugin = s.part plugin := by
  rw [part, part, hobjects, List.getElem?_append_left hlt]

theorem named_append (h : s.Named plugin id) : s'.Named plugin id := by
  have hsame := part_append hobjects (part_lt h)
  obtain ⟨record, hrecord, hid⟩ := h
  exact ⟨record, hsame.trans hrecord, hid⟩

theorem part_new :
    s'.part s.objects.length = some object.toStoredInstallation := by
  rw [part, hobjects, List.getElem?_append_right le_rfl, Nat.sub_self]
  rfl

end

theorem Tidy.installs (h : s.Tidy) (hsave : s.TidySave (.installs entry object)) :
    (s.apply (.installs entry object)).Tidy := by
  obtain ⟨hid, hallowed⟩ := hsave
  have hobjects : (s.apply (.installs entry object)).objects = s.objects ++ [object] := rfl
  have hnamed : ∀ {plugin id}, s.Named plugin id → (s.apply (.installs entry object)).Named plugin id := fun hnamed => named_append hobjects hnamed
  refine ⟨fun id other hother => ?_, fun id plugin hplugin => ?_, fun plugin record hrecord => ?_, fun save hsave => ?_, fun plugin other hmem => ?_⟩
  · rcases update_some hother with ⟨rfl, hentry⟩ | ⟨-, hold⟩
    · rw [← Option.some.inj hentry]
    · exact h.keys id other hold
  · rcases update_some hplugin with ⟨rfl, hnew⟩ | ⟨-, hold⟩
    · rw [← Option.some.inj hnew]
      exact ⟨object.toStoredInstallation, part_new hobjects, hid.symm⟩
    · exact hnamed (h.named id plugin hold)
  · by_cases hlt : plugin < s.objects.length
    · exact h.allowed plugin record ((part_append hobjects hlt).symm.trans hrecord)
    · have hlength : plugin < (s.objects ++ [object]).length := by
        obtain ⟨found, hfound, -⟩ := Option.map_eq_some_iff.mp hrecord
        exact (List.getElem?_eq_some_iff.mp hfound).1
      obtain rfl : plugin = s.objects.length := by
        rw [List.length_append, List.length_singleton] at hlength
        omega
      obtain rfl : object.toStoredInstallation = record := Option.some.inj ((part_new hobjects).symm.trans hrecord)
      exact hallowed
  · have hold := h.saves save hsave
    cases save with
    | publish | uninstall => trivial
    | installation | installs => exact hold
    | commit plugin next after => exact ⟨hold.1, hnamed hold.2.1, fun target other hafter => hnamed (hold.2.2 target other hafter)⟩
  · exact hnamed (h.updating plugin other hmem)

theorem part_modify (s : AgentMarketplace) (plugin : ℕ) (next : InstalledPlugin) (other : ℕ) : (s.modifyObject plugin fun _ => next).part other =
    if other = plugin then (s.part plugin).map fun _ => next.toStoredInstallation else s.part other := by
  unfold part modifyObject
  rw [List.getElem?_modify]
  by_cases hsame : other = plugin
  · subst hsame
    rw [if_pos rfl]
    cases s.objects[other]? <;> simp
  · rw [if_neg hsame]
    cases s.objects[other]? <;> simp [Ne.symm hsame]

theorem named_modify {target : ℕ} (htarget : s.Named target next.manifest.id) (h : s.Named plugin id) :
    (s.modifyObject target fun _ => next).Named plugin id := by
  obtain ⟨record, hrecord, hid⟩ := h
  by_cases hsame : plugin = target
  · subst hsame
    obtain ⟨found, hfound, hnext⟩ := htarget
    obtain rfl : found = record := Option.some.inj (hfound.symm.trans hrecord)
    refine ⟨next.toStoredInstallation, ?_, hnext.symm.trans hid⟩
    rw [part_modify, if_pos rfl, hrecord]
    rfl
  · refine ⟨record, ?_, hid⟩
    rw [part_modify, if_neg hsame, hrecord]

theorem Tidy.modify (h : s.Tidy) (hnext : next.Allowed) (htarget : s.Named plugin next.manifest.id) :
    (s.modifyObject plugin fun _ => next).Tidy := by
  have hnamed : ∀ {other id}, s.Named other id → (s.modifyObject plugin fun _ => next).Named other id := fun hother => named_modify htarget hother
  refine ⟨h.keys, fun id other hother => hnamed (h.named id other hother), fun other record hrecord => ?_, fun save hsave => ?_,
    fun other entry hmem => hnamed (h.updating other entry hmem)⟩
  · rw [part_modify] at hrecord
    split_ifs at hrecord with hsame
    · obtain ⟨_, -, rfl⟩ := Option.map_eq_some_iff.mp hrecord
      exact hnext
    · exact h.allowed other record hrecord
  · have hold := h.saves save hsave
    cases save with
    | publish | uninstall => trivial
    | installation | installs => exact hold
    | commit target other after => exact ⟨hold.1, hnamed hold.2.1, fun target entry hafter => hnamed (hold.2.2 target entry hafter)⟩

theorem Tidy.take (h : s.Tidy) {after : AfterCommit} (hafter : ∀ plugin entry, after = .update plugin entry → s.Named plugin entry.manifest.id) :
    (s.take (.committed after)).Tidy := by
  have hpendings : (s.take (.committed after)).pendings = s.pendings := (List.filterMap_append ..).trans (List.append_nil _)
  refine ⟨h.keys, h.named, h.allowed, fun save hsave => ?_, fun plugin entry hmem => ?_⟩
  · rw [hpendings] at hsave
    have hold := h.saves save hsave
    cases save <;> exact hold
  · rcases List.mem_append.mp hmem with hold | hnew
    · exact h.updating plugin entry hold
    · obtain rfl := Flight.committed.inj (List.mem_singleton.mp hnew)
      exact hafter plugin entry rfl

theorem Tidy.apply (h : s.Tidy) (hsave : s.TidySave save) : (s.apply save).Tidy := by
  cases save with
  | publish entry =>
    refine ⟨fun id other hother => ?_, h.named, h.allowed, fun save hsave => ?_, h.updating⟩
    · rcases update_some hother with ⟨rfl, hentry⟩ | ⟨-, hold⟩
      · rw [← Option.some.inj hentry]
      · exact h.keys id other hold
    · have hold := h.saves save hsave
      cases save <;> exact hold
  | installation entry object => exact h.saving hsave
  | installs entry object => exact h.installs hsave
  | uninstall pluginId =>
    refine ⟨h.keys, fun id plugin hplugin => ?_, h.allowed, fun save hsave => ?_, h.updating⟩
    · rcases update_some hplugin with ⟨-, hnone⟩ | ⟨-, hold⟩
      · cases hnone
      · exact h.named id plugin hold
    · have hold := h.saves save hsave
      cases save <;> exact hold
  | commit plugin next after =>
    obtain ⟨hallowed, htarget, hupdate⟩ := hsave
    have hmodified := h.modify hallowed htarget
    have hafter : ∀ target entry, after = .update target entry → (s.modifyObject plugin fun _ => next).Named target entry.manifest.id :=
      fun target entry hsame => named_modify htarget (hupdate target entry hsame)
    cases after with
    | done => exact hmodified
    | disabled =>
      refine ⟨hmodified.keys, hmodified.named, hmodified.allowed, fun save hsave => ?_, hmodified.updating⟩
      have hold := hmodified.saves save hsave
      cases save <;> exact hold
    | resetFailures | update | restart => exact hmodified.take hafter

theorem tidy_step (h : s.Tidy) : (s.step call).Tidy := by
  have houtcome := step_outcome s call
  generalize s.step call = t at houtcome ⊢
  cases houtcome with
  | quiet hquiet => exact h.keeps hquiet.keeps
  | begins hquiet hbegins => exact h.begins hquiet hbegins
  | settled hcall hflight => exact h.keeps (keeps_answered hflight _)
  | landed hcall hflight =>
    rename_i index now save
    have hkeeps := keeps_landed s index
    have hmem : save ∈ s.pendings := (landed_pendings hflight).mem_iff.mp List.mem_cons_self
    exact (h.keeps hkeeps).apply (hkeeps.tidySave (h.saves save hmem))

/-! ### Dependencies of installed plugins -/

/-- The plugin on its way in needs none that is on its way out, and no other one of it is on its way in. -/
def Arrives (s : AgentMarketplace) (manifest : PluginManifest) : Prop :=
  (∀ id, .uninstall id ∈ s.pendings → manifest.id ≠ id → id ∉ manifest.dependencies.map (·.1)) ∧
    manifest.id ∉ (s.pendings.filterMap Save.installing).map (·.manifest.id)

theorem Closed.arrives (h : s.Closed) {pendings : List Save} (hperm : (save :: pendings).Perm s.pendings) (hnarrows : Narrows s s₀)
    (hpendings : s₀.pendings = pendings) {plugin : InstalledPlugin} (hplugin : save.installing = some plugin) : s₀.Arrives plugin.manifest := by
  subst hpendings
  refine ⟨fun id hmem hid => ?_, ?_⟩
  · refine h.saves _ (hnarrows.pendings.subset hmem) plugin.manifest ?_ hid
    exact .inr ⟨save, hperm.mem_iff.mp List.mem_cons_self, plugin, hplugin, rfl⟩
  · have hnodup := ((hperm.filterMap Save.installing).map (·.manifest.id)).nodup_iff.mpr h.one
    rw [List.filterMap_cons, hplugin, List.map_cons] at hnodup
    exact (List.nodup_cons.mp hnodup).1

theorem Closed.installs (h : s.Closed) (htidy : s.Tidy) (hid : entry.manifest.id = object.manifest.id)
    (hsave : s.ClosedSave (.installs entry object)) (harrives : s.Arrives object.manifest) : (s.apply (.installs entry object)).Closed := by
  obtain ⟨hmet, hnone⟩ := hsave
  obtain ⟨hleaving, hone⟩ := harrives
  have hobjects : (s.apply (.installs entry object)).objects = s.objects ++ [object] := rfl
  have hinstalled : (s.apply (.installs entry object)).installed = Function.update s.installed object.manifest.id (some s.objects.length) :=
    congrArg (fun id => Function.update s.installed id (some s.objects.length)) hid
  have hpendings : (s.apply (.installs entry object)).pendings = s.pendings := rfl
  -- what was installed stays, and the plugin is new
  have hold : ∀ {id record}, s.installedPart id = some record → (s.apply (.installs entry object)).installedPart id = some record := by
    intro id record hrecord
    obtain ⟨plugin, hplugin, hpart⟩ := Option.bind_eq_some_iff.mp hrecord
    have hne : id ≠ object.manifest.id := by
      rintro rfl
      rw [hnone] at hplugin
      cases hplugin
    rw [AgentMarketplace.installedPart, hinstalled, Function.update_of_ne hne, hplugin, Option.bind_some, part_append hobjects (part_lt (htidy.named id plugin hplugin))]
    exact hpart
  have hcases : ∀ {id record}, (s.apply (.installs entry object)).installedPart id = some record →
      s.installedPart id = some record ∨ id = object.manifest.id ∧ record = object.toStoredInstallation := by
    intro id record hrecord
    obtain ⟨plugin, hplugin, hpart⟩ := Option.bind_eq_some_iff.mp hrecord
    rw [hinstalled] at hplugin
    rcases update_some hplugin with ⟨rfl, hnew⟩ | ⟨-, hkept⟩
    · rw [← Option.some.inj hnew, part_new hobjects] at hpart
      exact .inr ⟨rfl, (Option.some.inj hpart).symm⟩
    · rw [part_append hobjects (part_lt (htidy.named id plugin hkept))] at hpart
      exact .inl (Option.bind_eq_some_iff.mpr ⟨plugin, hkept, hpart⟩)
  have hmets : ∀ {manifest}, s.Met manifest → (s.apply (.installs entry object)).Met manifest := by
    intro manifest hmanifest dependency hdependency
    obtain ⟨other, hother, hrange⟩ := hmanifest dependency hdependency
    exact ⟨other, hold hother, hrange⟩
  refine ⟨fun id record hrecord => ?_, fun save hsave => ?_, h.one⟩
  · rcases hcases hrecord with hkept | ⟨-, rfl⟩
    · exact hmets (h.met id record hkept)
    · exact hmets hmet
  · rw [hpendings] at hsave
    have hclosed := h.saves save hsave
    have hother : ∀ plugin, save.installing = some plugin → s.installed plugin.manifest.id = none →
        (s.apply (.installs entry object)).installed plugin.manifest.id = none := by
      intro plugin hplugin hnot
      rw [hinstalled, Function.update_of_ne]
      · exact hnot
      · intro hsame
        refine hone (List.mem_map.mpr ⟨plugin, List.mem_filterMap.mpr ⟨save, hsave, hplugin⟩, hsame⟩)
    cases save with
    | publish | commit => trivial
    | installation other plugin => exact ⟨hmets hclosed.1, hother plugin rfl hclosed.2⟩
    | installs other plugin => exact ⟨hmets hclosed.1, hother plugin rfl hclosed.2⟩
    | uninstall id =>
      intro manifest hclaims hne
      rcases hclaims with ⟨other, record, hrecord, rfl⟩ | hpending
      · rcases hcases hrecord with hkept | ⟨-, rfl⟩
        · exact hclosed record.manifest (.inl ⟨other, record, hkept, rfl⟩) hne
        · exact hleaving id hsave hne
      · exact hclosed manifest (.inr hpending) hne

theorem Closed.uninstall (h : s.Closed) (htidy : s.Tidy) (hsave : s.ClosedSave (.uninstall pluginId)) : (s.apply (.uninstall pluginId)).Closed := by
  have hinstalled : (s.apply (.uninstall pluginId)).installed = Function.update s.installed pluginId none := rfl
  have hcases : ∀ {id record}, (s.apply (.uninstall pluginId)).installedPart id = some record → id ≠ pluginId ∧ s.installedPart id = some record := by
    intro id record hrecord
    obtain ⟨plugin, hplugin, hpart⟩ := Option.bind_eq_some_iff.mp hrecord
    rw [hinstalled] at hplugin
    rcases update_some hplugin with ⟨-, hnone⟩ | ⟨hne, hkept⟩
    · cases hnone
    · exact ⟨hne, Option.bind_eq_some_iff.mpr ⟨plugin, hkept, hpart⟩⟩
  have hclaims : ∀ {manifest}, (s.apply (.uninstall pluginId)).Claims manifest → s.Claims manifest := by
    rintro manifest (⟨id, record, hrecord, hmanifest⟩ | hpending)
    · exact .inl ⟨id, record, (hcases hrecord).2, hmanifest⟩
    · exact .inr hpending
  have hmets : ∀ {manifest}, s.Met manifest → s.Claims manifest → manifest.id ≠ pluginId → (s.apply (.uninstall pluginId)).Met manifest := by
    intro manifest hmanifest hclaims hne dependency hdependency
    obtain ⟨other, hother, hrange⟩ := hmanifest dependency hdependency
    have hkept : dependency.1 ≠ pluginId := by
      intro hsame
      exact hsave manifest hclaims hne (hsame ▸ List.mem_map_of_mem hdependency)
    refine ⟨other, ?_, hrange⟩
    rw [AgentMarketplace.installedPart, hinstalled, Function.update_of_ne hkept]
    exact hother
  -- what is on its way in has no object yet, and so does not depend on itself
  have harriving : ∀ {save plugin}, save ∈ s.pendings → save.installing = some plugin → s.Met plugin.manifest → s.installed plugin.manifest.id = none →
      (s.apply (.uninstall pluginId)).Met plugin.manifest ∧ (s.apply (.uninstall pluginId)).installed plugin.manifest.id = none := by
    intro save plugin hmem hplugin hmet hnone
    have hnot : (s.apply (.uninstall pluginId)).installed plugin.manifest.id = none := by
      rw [hinstalled, Function.update_apply, hnone, ite_self]
    by_cases hsame : plugin.manifest.id = pluginId
    · have hsame' : (s.apply (.uninstall pluginId)).installed = s.installed := by
        rw [hinstalled, ← hsame, ← hnone, Function.update_eq_self]
      have hparts : ∀ id, (s.apply (.uninstall pluginId)).installedPart id = s.installedPart id := by
        intro id
        rw [AgentMarketplace.installedPart, hsame']
        rfl
      have hnarrows : Narrows s (s.apply (.uninstall pluginId)) := ⟨hsame', hparts, List.Sublist.refl _⟩
      exact ⟨hnarrows.met.mpr hmet, hnot⟩
    · exact ⟨hmets hmet (.inr ⟨save, hmem, plugin, hplugin, rfl⟩) hsame, hnot⟩
  refine ⟨fun id record hrecord => ?_, fun save hmem => ?_, h.one⟩
  · obtain ⟨hne, hkept⟩ := hcases hrecord
    refine hmets (h.met id record hkept) (.inl ⟨id, record, hkept, rfl⟩) ?_
    obtain ⟨object, -, rfl, hid⟩ := mem_listInstalled htidy hkept
    exact hid ▸ hne
  · have hclosed := h.saves save hmem
    cases save with
    | publish | commit => trivial
    | installation | installs => exact harriving hmem rfl hclosed.1 hclosed.2
    | uninstall id => exact fun manifest hmanifest => hclosed manifest (hclaims hmanifest)

theorem Closed.modify (h : s.Closed) (htidy : s.Tidy) (htarget : s.Named plugin next.manifest.id)
    (hfits : ∀ record, s.installed next.manifest.id = some plugin → s.part plugin = some record → next.manifest ≠ record.manifest → s.Fits next.manifest) :
    (s.modifyObject plugin fun _ => next).Closed := by
  obtain ⟨record, hrecord, hid⟩ := htarget
  by_cases hplugin : s.installed next.manifest.id = some plugin
  · have hpart : s.installedPart next.manifest.id = some record := Option.bind_eq_some_iff.mpr ⟨plugin, hplugin, hrecord⟩
    have hnew : (s.modifyObject plugin fun _ => next).installedPart next.manifest.id = some next.toStoredInstallation := by
      refine Option.bind_eq_some_iff.mpr ⟨plugin, hplugin, ?_⟩
      rw [part_modify, if_pos rfl, hrecord]
      rfl
    have hother : ∀ {id}, id ≠ next.manifest.id → (s.modifyObject plugin fun _ => next).installedPart id = s.installedPart id := by
      intro id hne
      refine Option.bind_congr fun other hinstalled => ?_
      rw [part_modify, if_neg]
      rintro rfl
      obtain ⟨found, hfound, hname⟩ := htidy.named id other hinstalled
      obtain rfl : found = record := Option.some.inj (hfound.symm.trans hrecord)
      exact hne (hname.symm.trans hid)
    -- the manifest is that of the plugin, or it fits
    have hmanifest : next.manifest = record.manifest ∨ s.Fits next.manifest := by
      by_cases hsame : next.manifest = record.manifest
      · exact .inl hsame
      · exact .inr (hfits record hplugin hrecord hsame)
    have hclaims : ∀ {manifest}, (s.modifyObject plugin fun _ => next).Claims manifest → s.Claims manifest ∨ manifest = next.manifest := by
      rintro manifest (⟨id, found, hfound, rfl⟩ | hpending)
      · by_cases hsame : id = next.manifest.id
        · subst hsame
          rw [hnew] at hfound
          exact .inr (Option.some.inj hfound ▸ rfl)
        · rw [hother hsame] at hfound
          exact .inl (.inl ⟨id, found, hfound, rfl⟩)
      · exact .inl (.inr hpending)
    have hmets : ∀ {manifest}, s.Met manifest → s.Claims manifest → (s.modifyObject plugin fun _ => next).Met manifest := by
      intro manifest hmet hclaimed dependency hdependency
      obtain ⟨found, hfound, hrange⟩ := hmet dependency hdependency
      by_cases hsame : dependency.1 = next.manifest.id
      · refine ⟨next.toStoredInstallation, hsame ▸ hnew, ?_⟩
        rcases hmanifest with heq | hfit
        · rw [hsame, hpart] at hfound
          obtain rfl := Option.some.inj hfound
          rw [heq]
          exact hrange
        · exact hfit.2 manifest (.inl hclaimed) dependency hdependency hsame
      · exact ⟨found, (hother hsame).trans hfound, hrange⟩
    have hmet : (s.modifyObject plugin fun _ => next).Met next.manifest := by
      rcases hmanifest with heq | hfit
      · rw [heq]
        exact hmets (h.met _ record hpart) (.inl ⟨_, record, hpart, rfl⟩)
      · intro dependency hdependency
        by_cases hsame : dependency.1 = next.manifest.id
        · exact ⟨next.toStoredInstallation, hsame ▸ hnew, hfit.2 next.manifest (.inr rfl) dependency hdependency hsame⟩
        · obtain ⟨⟨found, hfound, hrange⟩, -⟩ := hfit.1 dependency hdependency hsame
          exact ⟨found, (hother hsame).trans hfound, hrange⟩
    refine ⟨fun id found hfound => ?_, fun save hmem => ?_, h.one⟩
    · by_cases hsame : id = next.manifest.id
      · subst hsame
        rw [hnew] at hfound
        obtain rfl := Option.some.inj hfound
        exact hmet
      · rw [hother hsame] at hfound
        exact hmets (h.met id found hfound) (.inl ⟨id, found, hfound, rfl⟩)
    · have hclosed := h.saves save hmem
      cases save with
      | publish | commit => trivial
      | installation other object => exact ⟨hmets hclosed.1 (.inr ⟨_, hmem, object, rfl, rfl⟩), hclosed.2⟩
      | installs other object => exact ⟨hmets hclosed.1 (.inr ⟨_, hmem, object, rfl, rfl⟩), hclosed.2⟩
      | uninstall id =>
        intro manifest hclaimed hne
        rcases hclaims hclaimed with hold | rfl
        · exact hclosed manifest hold hne
        · rcases hmanifest with heq | hfit
          · rw [heq] at hne ⊢
            exact hclosed record.manifest (.inl ⟨_, record, hpart, rfl⟩) hne
          · intro hneeded
            obtain ⟨dependency, hdependency, rfl⟩ := List.mem_map.mp hneeded
            exact (hfit.1 dependency hdependency (Ne.symm hne)).2 hmem
  · -- the record is of an object that is not installed any more
    have hsame : ∀ id, (s.modifyObject plugin fun _ => next).installedPart id = s.installedPart id := by
      intro id
      refine Option.bind_congr fun other hinstalled => ?_
      rw [part_modify, if_neg]
      rintro rfl
      obtain ⟨found, hfound, hname⟩ := htidy.named id other hinstalled
      obtain rfl : found = record := Option.some.inj (hfound.symm.trans hrecord)
      rw [← hid, hname] at hplugin
      exact hplugin hinstalled
    exact h.narrows ⟨rfl, hsame, List.Sublist.refl _⟩

theorem Closed.landed (h : s.Closed) (htidy : s.Tidy) (hflight : s.flights[index]? = some (.saved true save))
    (hfitting : s.Fitting (.resume index now)) : (({ s with flights := s.flights.eraseIdx index } : AgentMarketplace).apply save).Closed := by
  have hkeeps := keeps_landed s index
  have hnarrows := hkeeps.narrows
  have hperm := landed_pendings hflight
  have hmem : save ∈ s.pendings := hperm.mem_iff.mp List.mem_cons_self
  have hclosed := h.narrows hnarrows
  have htidied := htidy.keeps hkeeps
  have hsave := hnarrows.closedSave (h.saves save hmem)
  have harrives : ∀ {plugin}, save.installing = some plugin →
      ({ s with flights := s.flights.eraseIdx index } : AgentMarketplace).Arrives plugin.manifest := fun hplugin => h.arrives hperm hnarrows rfl hplugin
  have hnamed := hkeeps.tidySave (htidy.saves save hmem)
  cases save with
  | publish entry => exact hclosed.narrows ⟨rfl, fun _ => rfl, List.Sublist.refl _⟩
  | installation entry object =>
    refine hclosed.saving hsave ?_
    rintro plugin ⟨⟩
    exact harrives rfl
  | installs entry object => exact hclosed.installs htidied hnamed.1 hsave (harrives rfl)
  | uninstall pluginId => exact hclosed.uninstall htidied hsave
  | commit plugin next after =>
    have hmodified := hclosed.modify htidied hnamed.2.1 fun record hinstalled hpart hmanifest =>
      hnarrows.fits (hfitting plugin next after record hflight hinstalled hpart hmanifest)
    have htake : ∀ after, ((({ s with flights := s.flights.eraseIdx index } : AgentMarketplace).modifyObject plugin fun _ => next).take (.committed after)).Closed := by
      intro after
      have hpendings : ((({ s with flights := s.flights.eraseIdx index } : AgentMarketplace).modifyObject plugin fun _ => next).take (.committed after)).pendings =
          (({ s with flights := s.flights.eraseIdx index } : AgentMarketplace).modifyObject plugin fun _ => next).pendings :=
        (List.filterMap_append ..).trans (List.append_nil _)
      refine hmodified.narrows ⟨rfl, fun _ => rfl, ?_⟩
      rw [hpendings]
    cases after with
    | done => exact hmodified
    | disabled => exact hmodified.narrows ⟨rfl, fun _ => rfl, List.Sublist.refl _⟩
    | resetFailures | update | restart => exact htake _

theorem closed_step (htidy : s.Tidy) (h : s.Closed) (hfitting : s.Fitting call) : (s.step call).Closed := by
  have houtcome := step_outcome s call
  generalize s.step call = t at houtcome ⊢
  cases houtcome with
  | quiet hquiet => exact h.narrows hquiet.keeps.narrows
  | begins hquiet hbegins => exact h.begins htidy hquiet hbegins hfitting
  | settled hcall hflight => exact h.narrows (keeps_answered hflight _).narrows
  | landed hcall hflight =>
    subst hcall
    exact h.landed htidy hflight hfitting

/-! ### Runs -/

def restored (record : StoredInstallation) : StoredInstallation := { record with status := toRestoredStatus record.status }

variable (implementations : List Text)

theorem load_part (snapshot : MarketplaceSnapshot) (plugin : ℕ) :
    (load implementations snapshot).part plugin = snapshot.installations[plugin]?.map restored := by
  unfold part load
  rw [List.getElem?_map, Option.map_map]
  rfl

theorem load_installedPart (snapshot : MarketplaceSnapshot) (id : Text) :
    (load implementations snapshot).installedPart id = (snapshot.installations.find? (·.manifest.id = id)).map restored := by
  rw [List.find?_eq_bind_findIdx?_getElem?, Option.map_bind]
  unfold AgentMarketplace.installedPart
  congr 1
  funext plugin
  exact load_part implementations snapshot plugin

theorem tidy_load {snapshot : MarketplaceSnapshot} (hsound : snapshot.Sound) : (load implementations snapshot).Tidy := by
  refine ⟨fun id entry hentry => ?_, fun id plugin hplugin => ?_, fun plugin record hrecord => ?_, fun save hsave => ?_, fun plugin entry hmem => ?_⟩
  · have hfound := List.find?_some hentry
    simpa using hfound
  · have hindex : snapshot.installations.findIdx? (·.manifest.id = id) = some plugin := hplugin
    obtain ⟨hlt, hid, -⟩ := List.findIdx?_eq_some_iff_getElem.mp hindex
    have hname : snapshot.installations[plugin].manifest.id = id := by simpa using hid
    refine ⟨restored snapshot.installations[plugin], ?_, hname⟩
    rw [load_part, List.getElem?_eq_getElem hlt]
    rfl
  · rw [load_part] at hrecord
    obtain ⟨stored, hstored, rfl⟩ := Option.map_eq_some_iff.mp hrecord
    exact hsound.allowed stored (List.mem_of_getElem? hstored)
  · cases hsave
  · cases hmem

theorem closed_load {snapshot : MarketplaceSnapshot} (hsound : snapshot.Sound) : (load implementations snapshot).Closed := by
  refine ⟨fun id record hrecord dependency hdependency => ?_, fun save hsave => ?_, List.nodup_nil⟩
  · rw [load_installedPart] at hrecord
    obtain ⟨stored, hstored, rfl⟩ := Option.map_eq_some_iff.mp hrecord
    obtain ⟨other, hother, hid, hrange⟩ := hsound.met stored (List.mem_of_find?_eq_some hstored) dependency hdependency
    refine ⟨restored other, ?_, hrange⟩
    rw [load_installedPart]
    -- the ids of stored installations are unique
    cases hfind : snapshot.installations.find? (·.manifest.id = dependency.1) with
    | none =>
      have hnone := List.find?_eq_none.mp hfind other hother
      exact absurd hid (by simpa using hnone)
    | some found =>
      have hname : found.manifest.id = dependency.1 := by simpa using List.find?_some hfind
      have hsame := List.inj_on_of_nodup_map snapshot.installations_nodup (List.mem_of_find?_eq_some hfind) hother (hname.trans hid.symm)
      rw [hsame]
      rfl
  · cases hsave

/-- The grants of an installed plugin are declared and were asked for. Its dependencies are installed, with versions in their ranges,
if every manifest that replaces that of an installed plugin fits, and no installation overlaps with another one of the plugin or with
the end of one of its dependencies. -/
theorem dependencies_met {snapshot : MarketplaceSnapshot} (hsound : snapshot.Sound) (calls : List MarketplaceCall) :
    (∀ id record, (calls.foldl step (load implementations snapshot)).installedPart id = some record → record.Allowed) ∧
      (Throughout step Fitting (load implementations snapshot) calls → ∀ id record,
        (calls.foldl step (load implementations snapshot)).installedPart id = some record →
          (calls.foldl step (load implementations snapshot)).Met record.manifest) := by
  constructor
  · intro id record hrecord
    have htidy : (calls.foldl step (load implementations snapshot)).Tidy := foldl_invariant (fun s call h => tidy_step h) (tidy_load implementations hsound) calls
    obtain ⟨plugin, -, hpart⟩ := Option.bind_eq_some_iff.mp hrecord
    exact htidy.allowed plugin record hpart
  · intro hfitting
    have hkeep : ∀ (s : AgentMarketplace) (call : MarketplaceCall), s.Tidy ∧ s.Closed → s.Fitting call → (s.step call).Tidy ∧ (s.step call).Closed :=
      fun s call h hcall => ⟨tidy_step h.1, closed_step h.1 h.2 hcall⟩
    exact (hfitting.invariant hkeep ⟨tidy_load implementations hsound, closed_load implementations hsound⟩).2.met

def gizmo : PluginManifest :=
  { id := "gizmo".toList, version := "1.0.0".toList, requiredCapabilities := [.log], configSchema := [], dependencies := [("gadget".toList, "^1.0.0".toList)] }

def gadgetInstallation : StoredInstallation where
  manifest := gadget "1.0.0".toList
  status := .installed
  config := Record.empty
  grantedCapabilities := [.log]
  installedBy := "alice".toList
  installedAt := 0
  requested := [.log]

/-- The gadget is installed, and the gizmo that depends on it is published. -/
def withGadget : MarketplaceSnapshot where
  entries := [{ manifest := gadget "1.0.0".toList, publisher := "alice".toList, publishedAt := 0, updatedAt := 0, installs := 1 },
    { manifest := gizmo, publisher := "alice".toList, publishedAt := 0, updatedAt := 0, installs := 0 }]
  installations := [gadgetInstallation]
  entries_nodup := by decide
  installations_nodup := by decide

theorem sound_withGadget : withGadget.Sound := by
  refine ⟨List.forall_mem_singleton.mpr ⟨List.Subset.refl _, List.Subset.refl _⟩, List.forall_mem_singleton.mpr fun dependency hdependency => ?_⟩
  cases hdependency

def installGizmo : List MarketplaceCall :=
  [.install "gizmo".toList { installedBy := "bob".toList } 0, .settle 0 true, .resume 0 1, .settle 0 true, .resume 0 2]

theorem fitting_idle {request : InstallRequest} (h : s.pendings = []) : s.Fitting (.install pluginId request now) := by
  intro entry plugin hcheck
  rw [h]
  exact ⟨fun id hmem => absurd hmem List.not_mem_nil, fun save hmem => absurd hmem List.not_mem_nil⟩

def Flight.commits : Flight → Option ℕ
  | .saved true (.commit plugin _ _) => some plugin
  | _ => none

theorem fitting_resume (h : (s.flights[index]?.bind Flight.commits).isNone = true) : s.Fitting (.resume index now) := by
  intro plugin next after record hflight
  rw [hflight] at h
  cases h

theorem dependencies_met_gizmo :
    (∀ id record, (installGizmo.foldl step (load [] withGadget)).installedPart id = some record → record.Allowed) ∧
      ∀ id record, (installGizmo.foldl step (load [] withGadget)).installedPart id = some record →
        (installGizmo.foldl step (load [] withGadget)).Met record.manifest := by
  have hmet := dependencies_met [] sound_withGadget installGizmo
  refine ⟨hmet.1, hmet.2 ⟨fitting_idle rfl, trivial, fitting_resume ?_, trivial, fitting_resume ?_, trivial⟩⟩
  · decide +kernel
  · decide +kernel

/-- The gadget and the gizmo are installed, and then the gadget is updated to a version that the gizmo does not accept. -/
def updateGadget : List MarketplaceCall :=
  [.publish (gadget "1.0.0".toList) "alice".toList 0, .settle 0 true, .resume 0 0,
    .install "gadget".toList { installedBy := "bob".toList } 0, .settle 0 true, .resume 0 0, .settle 0 true, .resume 0 0,
    .publish gizmo "alice".toList 0, .settle 0 true, .resume 0 0,
    .install "gizmo".toList { installedBy := "bob".toList } 0, .settle 0 true, .resume 0 0, .settle 0 true, .resume 0 0,
    .publish (gadget "2.0.0".toList) "alice".toList 0, .settle 0 true, .resume 0 0,
    .update "gadget".toList, .settle 0 true, .resume 0 0]

/-- An installed plugin has a dependency that is installed with a version out of the range. -/
theorem updateGadget_breaks : ∃ record, (updateGadget.foldl step (load [] noPlugins)).installedPart "gizmo".toList = some record ∧
    ¬ (updateGadget.foldl step (load [] noPlugins)).Met record.manifest := by
  have hgizmo : ((updateGadget.foldl step (load [] noPlugins)).installedPart "gizmo".toList).map (·.manifest) = some gizmo := by decide +kernel
  have hgadget : ((updateGadget.foldl step (load [] noPlugins)).installedPart "gadget".toList).map
      (fun other => satisfiesRange other.manifest.version "^1.0.0".toList) = some false := by decide +kernel
  obtain ⟨record, hrecord, hmanifest⟩ := Option.map_eq_some_iff.mp hgizmo
  refine ⟨record, hrecord, fun hmet => ?_⟩
  rw [hmanifest] at hmet
  obtain ⟨other, hother, hrange⟩ := hmet ("gadget".toList, "^1.0.0".toList) List.mem_cons_self
  rw [hother, Option.map_some, hrange] at hgadget
  cases hgadget

end AgentMarketplace
end OxScada.Marketplace
