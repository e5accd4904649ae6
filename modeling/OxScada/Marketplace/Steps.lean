import OxScada.Marketplace.Engine

/-! What a step of the marketplace can do: it changes nothing that is stored, or a save begins, takes effect, or comes
back to its call. -/

namespace OxScada.Marketplace
open OxScada.Bytes OxScada.Js

/-- The save that a flight waits for, or that has succeeded. -/
def Flight.pending : Flight → Option Save
  | .saving save => some save
  | .saved true save => some save
  | _ => none

namespace AgentMarketplace

def pendings (s : AgentMarketplace) : List Save := s.flights.filterMap Flight.pending

def part (s : AgentMarketplace) (plugin : ℕ) : Option StoredInstallation := s.objects[plugin]?.map InstalledPlugin.toStoredInstallation

structure Quiet (s₀ s : AgentMarketplace) : Prop where
  registry : s.registry = s₀.registry
  installed : s.installed = s₀.installed
  storedEntries : s.storedEntries = s₀.storedEntries
  storedInstallations : s.storedInstallations = s₀.storedInstallations
  objects : ∀ plugin, s.part plugin = s₀.part plugin
  flights : ∀ flight ∈ s.flights, flight ∈ s₀.flights ∨ ∃ pluginId, flight = .handling pluginId
  kept : ∀ flight ∈ s₀.flights, flight.pending ≠ none → flight ∈ s.flights
  pendings : s.pendings = s₀.pendings
  blocked : s.blocked ⊆ s₀.blocked

def Updates (s : AgentMarketplace) (call : MarketplaceCall) (plugin : ℕ) (entry : MarketplaceEntry) : Prop :=
  (∃ pluginId record, call = .update pluginId ∧ s.checkUpdate pluginId = .ok (plugin, record, entry)) ∨
    ∃ index now, call = .resume index now ∧ s.flights[index]? = some (.committed (.update plugin entry))

inductive Change (s₀ s : AgentMarketplace) (call : MarketplaceCall) (plugin : ℕ) (record : InstalledPlugin) : InstalledPlugin → AfterCommit → Prop
  | configure (config : Record ConfigValue) : Change s₀ s call plugin record { record with config } .done
  | start (pluginId : Text) (now : ℤ) (h : record.status ≠ .disabled) :
    Change s₀ s call plugin record { record with status := .running, startedAt := some now, lastError := none } (.resetFailures pluginId)
  | stop (h : record.status = .running ∨ record.status = .error) : Change s₀ s call plugin record (stopped record) .done
  | stopToUpdate {entry : MarketplaceEntry} (hupdates : s₀.Updates call plugin entry) (h : record.status = .running) : Change s₀ s call plugin record (stopped record) (.update plugin entry)
  | disable : Change s₀ s call plugin record { record with status := .disabled, startedAt := none } .disabled
  | enable (pluginId : Text) (h : plugin ∉ s.blocked) : Change s₀ s call plugin record { record with status := .stopped } (.resetFailures pluginId)
  | fail (h : record.status = .running) : Change s₀ s call plugin record { record with status := .error, startedAt := none } .done
  | update {entry : MarketplaceEntry} {next : InstalledPlugin} {after : AfterCommit} (hafter : after = .done ∨ ∃ pluginId, after = .restart pluginId)
    (hupdates : s₀.Updates call plugin entry)
    (h : s.updated record entry = .ok next) : Change s₀ s call plugin record next after

inductive Begins (s₀ s : AgentMarketplace) (call : MarketplaceCall) : Save → Prop
  | publish {manifest : PluginManifest} {publisher : Text} {now : ℤ} {entry : MarketplaceEntry} (hcall : call = .publish manifest publisher now)
    (h : s₀.checkPublish manifest publisher now = .ok entry) : Begins s₀ s call (.publish entry)
  | publishSystemManifest {manifest : PluginManifest} {now : ℤ} {entry : MarketplaceEntry} (hcall : call = .publishSystemManifest manifest now)
    (h : s₀.checkSystemManifest manifest now = .ok entry) : Begins s₀ s call (.publish entry)
  | install {pluginId : Text} {request : InstallRequest} {now : ℤ} {entry : MarketplaceEntry} {plugin : InstalledPlugin}
    (hcall : call = .install pluginId request now) (h : s₀.checkInstall pluginId request now = .ok (entry, plugin)) :
    Begins s₀ s call (.installation entry plugin)
  | uninstall {pluginId : Text} (hcall : call = .uninstall pluginId) (h : s₀.checkUninstall pluginId = .ok ()) : Begins s₀ s call (.uninstall pluginId)
  | commit {plugin : ℕ} {record next : InstalledPlugin} {after : AfterCommit} (hrecord : s.objects[plugin]? = some record)
    (hchange : Change s₀ s call plugin record next after) : Begins s₀ s call (.commit plugin next after)

inductive Outcome (s : AgentMarketplace) (call : MarketplaceCall) : AgentMarketplace → Prop
  | quiet {s' : AgentMarketplace} (h : Quiet s s') : Outcome s call s'
  | begins {s' : AgentMarketplace} {save : Save} (h : Quiet s s') (hbegins : Begins s s' call save) : Outcome s call (s'.save save)
  | settled {index : ℕ} {ok : Bool} {save : Save} (hcall : call = .settle index ok) (h : s.flights[index]? = some (.saving save)) :
    Outcome s call (if ok then ({ s with flights := s.flights.set index (.saved ok save) } : AgentMarketplace).persist save
      else { s with flights := s.flights.set index (.saved ok save) })
  | landed {index : ℕ} {now : ℤ} {save : Save} (hcall : call = .resume index now) (h : s.flights[index]? = some (.saved true save)) :
    Outcome s call (({ s with flights := s.flights.eraseIdx index } : AgentMarketplace).apply save)

variable {s s₀ s₁ : AgentMarketplace} {call : MarketplaceCall} {pluginId : Text} {plugin : ℕ} {record : InstalledPlugin}

/-! ### Steps that are quiet -/

theorem quiet_refl (s : AgentMarketplace) : Quiet s s :=
  ⟨rfl, rfl, rfl, rfl, fun _ => rfl, fun _ hflight => .inl hflight, fun _ hflight _ => hflight, rfl, fun _ hblocked => hblocked⟩

theorem filterMap_eraseIdx {α β : Type*} {f : α → Option β} {l : List α} {index : ℕ} {a : α} (h : l[index]? = some a) (hnone : f a = none) :
    (l.eraseIdx index).filterMap f = l.filterMap f := by
  induction l generalizing index with
  | nil => rfl
  | cons b l ih =>
    cases index with
    | zero =>
      obtain rfl : b = a := by simpa using h
      rw [List.eraseIdx_cons_zero, List.filterMap_cons, hnone]
    | succ index => rw [List.eraseIdx_cons_succ, List.filterMap_cons, List.filterMap_cons, ih (by simpa using h)]

theorem quiet_land {index : ℕ} {flight : Flight} (h : s.flights[index]? = some flight) (hpending : flight.pending = none) :
    Quiet s { s with flights := s.flights.eraseIdx index } := by
  obtain ⟨hlt, hget⟩ := List.getElem?_eq_some_iff.mp h
  have hperm : (flight :: s.flights.eraseIdx index).Perm s.flights := hget ▸ List.getElem_cons_eraseIdx_perm hlt
  refine ⟨rfl, rfl, rfl, rfl, fun _ => rfl, fun other hother => .inl ((List.eraseIdx_sublist _ _).subset hother), fun other hother hopen => ?_,
    filterMap_eraseIdx h hpending, fun _ hblocked => hblocked⟩
  refine (List.mem_cons.mp (hperm.mem_iff.mpr hother)).resolve_left ?_
  rintro rfl
  exact hopen hpending

/-- Changes of the statistics, the implementations, the ghost, and of what is not stored of a plugin. -/
theorem Quiet.of_eq (h : Quiet s₀ s) {s' : AgentMarketplace} (hregistry : s'.registry = s.registry) (hinstalled : s'.installed = s.installed)
    (hentries : s'.storedEntries = s.storedEntries) (hinstallations : s'.storedInstallations = s.storedInstallations) (hflights : s'.flights = s.flights)
    (hblocked : s'.blocked ⊆ s.blocked)
    (hobjects : ∀ plugin, s'.part plugin = s.part plugin) : Quiet s₀ s' :=
  ⟨hregistry.trans h.registry, hinstalled.trans h.installed, hentries.trans h.storedEntries, hinstallations.trans h.storedInstallations,
    fun plugin => (hobjects plugin).trans (h.objects plugin), hflights ▸ h.flights, hflights ▸ h.kept,
    (congrArg (List.filterMap Flight.pending) hflights).trans h.pendings, fun _ hmem => h.blocked (hblocked hmem)⟩

theorem modifyObject_part (s : AgentMarketplace) (plugin : ℕ) {f : InstalledPlugin → InstalledPlugin}
    (hf : ∀ record, (f record).toStoredInstallation = record.toStoredInstallation) (other : ℕ) :
    (s.modifyObject plugin f).part other = s.part other := by
  unfold part modifyObject
  rw [List.getElem?_modify, Option.map_eq_map, Option.map_map]
  apply congrArg (fun g => Option.map g s.objects[other]?)
  funext record
  simp only [Function.comp_apply]
  split_ifs
  · exact hf record
  · rfl

theorem Quiet.modifyObject (h : Quiet s₀ s) (plugin : ℕ) {f : InstalledPlugin → InstalledPlugin}
    (hf : ∀ record, (f record).toStoredInstallation = record.toStoredInstallation) : Quiet s₀ (s.modifyObject plugin f) := by
  refine h.of_eq rfl rfl rfl rfl rfl ?_ (s.modifyObject_part plugin hf)
  exact fun _ hblocked => hblocked

theorem Quiet.setAvailable (h : Quiet s₀ s) (pluginId : Text) (available : Bool) : Quiet s₀ (s.setAvailable pluginId available) := by
  unfold AgentMarketplace.setAvailable
  split
  · exact h
  · apply h.modifyObject
    intro record
    rfl

/-! ### Calls -/

theorem requireInstalled_ok (h : s.requireInstalled pluginId = .ok (plugin, record)) :
    s.installed pluginId = some plugin ∧ s.objects[plugin]? = some record := by
  unfold requireInstalled at h
  split at h
  · cases h
  · rename_i found hfound
    split at h
    · cases h
    · rename_i object hobject
      cases h
      exact ⟨hfound, hobject⟩

theorem Outcome.orThrow {α : Type} {result : Except MarketplaceError α} {next : α → AgentMarketplace} (hquiet : Quiet s s₁)
    (h : ∀ value, result = .ok value → Outcome s call (next value)) : Outcome s call (s₁.orThrow result next) := by
  cases result with
  | error _ => exact .quiet hquiet
  | ok value => exact h value rfl

variable {after : AfterCommit}

theorem Outcome.commit (hquiet : Quiet s s₁) (hrecord : s₁.objects[plugin]? = some record) {next : InstalledPlugin}
    (hchange : Change s s₁ call plugin record next after) : Outcome s call (s₁.commit plugin next after) := .begins hquiet (.commit hrecord hchange)

theorem Outcome.updateTo (hquiet : Quiet s s₁) {entry : MarketplaceEntry} (hafter : after = .done ∨ ∃ pluginId, after = .restart pluginId)
    (hupdates : s.Updates call plugin entry) : Outcome s call (s₁.updateTo plugin entry after) := by
  unfold AgentMarketplace.updateTo
  split
  · exact .quiet hquiet
  · rename_i record hrecord
    exact .orThrow hquiet fun next hnext => .commit hquiet hrecord (.update hafter hupdates hnext)

theorem checkUpdate_ok {entry : MarketplaceEntry} (h : s.checkUpdate pluginId = .ok (plugin, record, entry)) :
    s.requireInstalled pluginId = .ok (plugin, record) ∧ s.registry pluginId = some entry := by
  unfold checkUpdate at h
  cases hrequire : s.requireInstalled pluginId with
  | error _ =>
    rw [hrequire] at h
    cases h
  | ok found =>
    obtain ⟨found, object⟩ := found
    rw [hrequire] at h
    cases hregistry : s.registry pluginId with
    | none =>
      rw [hregistry] at h
      cases h
    | some registered =>
      rw [hregistry] at h
      cases hcompare : compareVersions registered.manifest.version object.manifest.version with
      | error _ =>
        simp only [bind, Except.bind, hcompare] at h
        cases h
      | ok order =>
        simp only [bind, Except.bind, hcompare] at h
        by_cases horder : order ≤ 0
        · rw [if_pos horder] at h
          cases h
        · rw [if_neg horder] at h
          cases h
          exact ⟨rfl, rfl⟩

theorem outcome_update : Outcome s (.update pluginId) (s.update pluginId) := by
  unfold update
  refine .orThrow (quiet_refl s) fun ⟨plugin, record, entry⟩ hcheck => ?_
  obtain ⟨hrequire, -⟩ := checkUpdate_ok hcheck
  obtain ⟨-, hrecord⟩ := requireInstalled_ok hrequire
  dsimp only
  split_ifs with hrunning
  · exact .commit (quiet_refl s) hrecord (.stopToUpdate (.inl ⟨pluginId, record, rfl, hcheck⟩) hrunning)
  · exact .updateTo (quiet_refl s) (.inl rfl) (.inl ⟨pluginId, record, rfl, hcheck⟩)

theorem outcome_configure {config : Record ConfigValue} : Outcome s (.configure pluginId config) (s.configure pluginId config) := by
  unfold configure
  refine .orThrow (quiet_refl s) fun ⟨plugin, record⟩ hrequire => ?_
  obtain ⟨-, hrecord⟩ := requireInstalled_ok hrequire
  exact .orThrow (quiet_refl s) fun config _ => .commit (quiet_refl s) hrecord (.configure config)

theorem Outcome.start {now : ℤ} (hquiet : Quiet s s₁) : Outcome s call (s₁.start pluginId now) := by
  unfold AgentMarketplace.start
  refine .orThrow hquiet fun ⟨plugin, record⟩ hrequire => ?_
  obtain ⟨-, hrecord⟩ := requireInstalled_ok hrequire
  dsimp only
  split_ifs with hdisabled
  · exact .quiet hquiet
  · exact .quiet hquiet
  · exact .quiet hquiet
  · exact .commit hquiet hrecord (.start pluginId now hdisabled)

theorem outcome_stop : Outcome s (.stop pluginId) (s.stop pluginId) := by
  unfold stop
  refine .orThrow (quiet_refl s) fun ⟨plugin, record⟩ hrequire => ?_
  obtain ⟨-, hrecord⟩ := requireInstalled_ok hrequire
  dsimp only
  split_ifs with hstatus
  · exact .commit (quiet_refl s) hrecord (.stop hstatus)
  · exact .quiet (quiet_refl s)

theorem outcome_disable : Outcome s (.disable pluginId) (s.disable pluginId) := by
  unfold disable
  refine .orThrow (quiet_refl s) fun ⟨plugin, record⟩ hrequire => ?_
  obtain ⟨-, hrecord⟩ := requireInstalled_ok hrequire
  exact .commit (quiet_refl s) hrecord .disable

theorem outcome_enable : Outcome s (.enable pluginId) (s.enable pluginId) := by
  unfold enable
  refine .orThrow (quiet_refl s) fun ⟨plugin, record⟩ hrequire => ?_
  obtain ⟨-, hrecord⟩ := requireInstalled_ok hrequire
  have hquiet : Quiet s { s with blocked := s.blocked.filter (· ≠ plugin) } := by
    refine (quiet_refl s).of_eq rfl rfl rfl rfl rfl ?_ fun _ => rfl
    exact List.filter_subset_self _
  dsimp only
  split_ifs
  · refine .commit hquiet hrecord (.enable pluginId ?_)
    simp
  · exact .quiet hquiet

theorem Outcome.recordOutcome {error : Option Text} (hquiet : Quiet s s₁) : Outcome s call (s₁.recordOutcome pluginId error) := by
  unfold AgentMarketplace.recordOutcome
  split
  · rename_i plugin stats hplugin hstats
    dsimp only
    split
    · refine .quiet (hquiet.of_eq rfl rfl rfl rfl rfl ?_ fun _ => rfl)
      exact fun _ hblocked => hblocked
    · rename_i message
      have hstats : ∀ stats, Quiet s { s₁ with stats } := by
        intro stats
        refine hquiet.of_eq rfl rfl rfl rfl rfl ?_ fun _ => rfl
        exact fun _ hblocked => hblocked
      generalize Function.update s₁.stats pluginId _ = changed
      have hfailed := (hstats changed).modifyObject plugin (f := fun record => { record with lastError := some message }) fun _ => rfl
      split
      · exact .quiet hfailed
      · rename_i record hrecord
        split_ifs with hfail
        · exact .commit hfailed hrecord (.fail hfail.2)
        · exact .quiet hfailed
  · exact .quiet hquiet

theorem Outcome.proceed {now : ℤ} (hquiet : Quiet s s₁)
    (hupdates : ∀ plugin entry, after = .update plugin entry → s.Updates call plugin entry) : Outcome s call (s₁.proceed after now) := by
  cases after with
  | done | disabled => exact .quiet hquiet
  | resetFailures pluginId =>
    refine .quiet (hquiet.of_eq rfl rfl rfl rfl rfl ?_ fun _ => rfl)
    exact fun _ hblocked => hblocked
  | update plugin entry => exact .updateTo hquiet (.inr ⟨_, rfl⟩) (hupdates plugin entry rfl)
  | restart pluginId => exact .start hquiet

theorem step_outcome (s : AgentMarketplace) (call : MarketplaceCall) : Outcome s call (s.step call) := by
  have hrefl := quiet_refl s
  cases call with
  | publish manifest publisher now => exact .orThrow hrefl fun entry hcheck => .begins hrefl (.publish rfl hcheck)
  | publishSystemManifest manifest now => exact .orThrow hrefl fun entry hcheck => .begins hrefl (.publishSystemManifest rfl hcheck)
  | install pluginId request now => exact .orThrow hrefl fun ⟨entry, plugin⟩ hcheck => .begins hrefl (.install rfl hcheck)
  | update pluginId => exact outcome_update
  | configure pluginId config => exact outcome_configure
  | start pluginId now => exact .start hrefl
  | stop pluginId => exact outcome_stop
  | disable pluginId => exact outcome_disable
  | enable pluginId => exact outcome_enable
  | uninstall pluginId => exact .orThrow hrefl fun _ hcheck => .begins hrefl (.uninstall rfl hcheck)
  | registerImplementation pluginId =>
    have hregistered : Quiet s { s with implementations := pluginId :: s.implementations } := by
      refine hrefl.of_eq rfl rfl rfl rfl rfl ?_ fun _ => rfl
      exact fun _ hblocked => hblocked
    exact .quiet (hregistered.setAvailable pluginId true)
  | unregisterImplementation pluginId =>
    have hregistered : Quiet s { s with implementations := s.implementations.filter (· ≠ pluginId) } := by
      refine hrefl.of_eq rfl rfl rfl rfl rfl ?_ fun _ => rfl
      exact fun _ hblocked => hblocked
    exact .quiet (hregistered.setAvailable pluginId false)
  | invoke pluginId =>
    show Outcome s _ (s.invoke pluginId)
    unfold invoke
    split
    · exact .quiet hrefl
    · rename_i record hrecord
      by_cases hhandler : pluginId ∉ s.implementations
      · rw [if_pos hhandler]
        exact .quiet hrefl
      rw [if_neg hhandler]
      by_cases hstatus : record.status ≠ .running
      · rw [if_pos hstatus]
        exact .quiet hrefl
      · rw [if_neg hstatus]
        refine .quiet ⟨rfl, rfl, rfl, rfl, fun _ => rfl, fun flight hflight => ?_, fun flight hflight _ => List.mem_append_left _ hflight, ?_,
          fun _ hblocked => hblocked⟩
        · exact (List.mem_append.mp hflight).imp_right fun hnew => ⟨pluginId, List.mem_singleton.mp hnew⟩
        · exact (List.filterMap_append ..).trans (List.append_nil _)
  | outcome index error =>
    show Outcome s _ (s.outcome index error)
    unfold outcome
    split
    · rename_i pluginId hflight
      exact .recordOutcome (quiet_land hflight rfl)
    · exact .quiet hrefl
  | settle index ok =>
    show Outcome s _ (s.settle index ok)
    unfold settle
    split
    · rename_i save hflight
      exact .settled rfl hflight
    · exact .quiet hrefl
  | resume index now =>
    show Outcome s _ (s.resume index now)
    unfold resume
    dsimp only
    split
    · rename_i ok save hflight
      cases ok with
      | true => exact .landed rfl hflight
      | false => exact .quiet (quiet_land hflight rfl)
    · rename_i after hflight
      refine .proceed (quiet_land hflight rfl) ?_
      rintro plugin entry rfl
      exact .inr ⟨index, now, rfl, hflight⟩
    · exact .quiet hrefl

end AgentMarketplace
end OxScada.Marketplace
