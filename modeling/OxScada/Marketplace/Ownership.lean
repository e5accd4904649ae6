import OxScada.Marketplace.Steps
import OxScada.Runs.Reachable
import OxScada.Runs.Throughout

/-! The owner and the version of a registered plugin. Both are checked before an entry is saved, and the registry gets the
entry when the save is back. -/

namespace OxScada.Marketplace
open OxScada.Bytes OxScada.Js OxScada.Runs

def Newer (version old : Text) : Prop := ∃ order, compareSemver version old = some order ∧ 0 < order

/-- The entry may replace the other one: the owner is the same, and the manifest is the same or newer. -/
def MarketplaceEntry.Succeeds (entry existing : MarketplaceEntry) : Prop :=
  entry.publisher = existing.publisher ∧ (entry.manifest = existing.manifest ∨ Newer entry.manifest.version existing.manifest.version)

def Save.target : Save → Option MarketplaceEntry
  | .publish entry => some entry
  | .installation entry _ => some { entry with installs := entry.installs + 1 }
  | .installs entry _ => some entry
  | _ => none

def Flight.target (flight : Flight) : Option MarketplaceEntry := flight.pending.bind Save.target

/-- The entry that the store has got and the registry has not. -/
def Flight.stores : Flight → Option MarketplaceEntry
  | .saved true (.publish entry) => some entry
  | .saved true (.installs entry _) => some entry
  | _ => none

theorem target_of_stores {flight : Flight} {entry : MarketplaceEntry} (h : flight.stores = some entry) : flight.target = some entry := by
  unfold Flight.stores at h
  split at h
  · exact h
  · exact h
  · cases h

namespace AgentMarketplace
variable (s : AgentMarketplace)

/-- Each other entry of the plugin that is on its way to the registry is this one. -/
def Unraced (entry : MarketplaceEntry) : Prop :=
  ∀ flight ∈ s.flights, ∀ other, flight.target = some other → other.manifest.id = entry.manifest.id → other = entry

/-- No call begins to write an entry while another one of the plugin is on its way, and the comparison of a published
version is a number. A manifest of the system is published again as it is or newer. -/
def Orderly (call : MarketplaceCall) : Prop :=
  match call with
  | .publish manifest publisher now => ∀ entry, s.checkPublish manifest publisher now = .ok entry → s.Unraced entry ∧
      ∀ existing order, s.registry manifest.id = some existing → compareSemver manifest.version existing.manifest.version = some order → order.isNaN = false
  | .publishSystemManifest manifest now => ∀ entry, s.checkSystemManifest manifest now = .ok entry → s.Unraced entry ∧
      ∀ existing, s.registry manifest.id = some existing → manifest = existing.manifest ∨ Newer manifest.version existing.manifest.version
  | .install pluginId request now => ∀ entry plugin, s.checkInstall pluginId request now = .ok (entry, plugin) →
      s.Unraced { entry with installs := entry.installs + 1 }
  | _ => True

/-- What the step replaces in the registry may be replaced, and the store has the entries of the registry if no call is
running then. -/
def Held (call : MarketplaceCall) : Prop :=
  (∀ id existing, s.registry id = some existing → ∃ entry, (s.step call).registry id = some entry ∧ entry.Succeeds existing) ∧
    ((s.step call).flights = [] → (s.step call).storedEntries = (s.step call).registry)

/-- The entries that are on their way are one for each plugin, each may replace the registered one, and the store has
those that it has saved. -/
structure Owned (s : AgentMarketplace) : Prop where
  keys : ∀ id entry, s.registry id = some entry → entry.manifest.id = id
  one : ∀ flight ∈ s.flights, ∀ entry, flight.target = some entry → s.Unraced entry
  follows : ∀ flight ∈ s.flights, ∀ entry, flight.target = some entry → ∀ existing, s.registry entry.manifest.id = some existing → entry.Succeeds existing
  effective : ∀ flight ∈ s.flights, ∀ entry, flight.stores = some entry → s.storedEntries entry.manifest.id = some entry
  agreed : ∀ id, (∃ flight ∈ s.flights, ∃ entry, flight.stores = some entry ∧ entry.manifest.id = id) ∨ s.storedEntries id = s.registry id

variable {s s₀ : AgentMarketplace} {call : MarketplaceCall} {flight : Flight} {entry : MarketplaceEntry} {save : Save}

theorem succeeds_refl (entry : MarketplaceEntry) : entry.Succeeds entry := ⟨rfl, .inl rfl⟩

theorem owned_load (implementations : List Text) (snapshot : MarketplaceSnapshot) : (load implementations snapshot).Owned := by
  refine ⟨fun id entry hentry => ?_, ?_, ?_, ?_, fun id => .inr rfl⟩
  · have hfound := List.find?_some hentry
    simpa using hfound
  all_goals
    intro flight hflight
    cases hflight

/-! ### Checks -/

theorem compareVersions_ok {a b : Text} {order : Float} (h : compareVersions a b = .ok order) : compareSemver a b = some order := by
  unfold compareVersions at h
  split at h
  · rename_i order' hcompare
    cases h
    exact hcompare
  · cases h

variable {manifest : PluginManifest} {now : ℤ}

theorem checkEntry_ok {publisher : Text} {allowSameVersion : Bool}
    (h : s.checkEntry manifest publisher allowSameVersion now = .ok entry) :
    entry.manifest = manifest ∧ entry.publisher = publisher ∧ ∀ existing, s.registry manifest.id = some existing →
      existing.publisher = publisher ∧ ∃ order, compareSemver manifest.version existing.manifest.version = some order ∧
        ¬ order < 0 ∧ ¬ (order == 0 && !allowSameVersion) = true := by
  unfold checkEntry at h
  obtain ⟨-, h⟩ := bind_unit_ok.mp h
  split at h
  · rename_i hregistry
    cases h
    refine ⟨rfl, rfl, fun existing hexisting => ?_⟩
    rw [hregistry] at hexisting
    cases hexisting
  · rename_i existing hregistry
    by_cases howner : existing.publisher ≠ publisher
    · rw [if_pos howner] at h
      cases h
    rw [if_neg howner] at h
    obtain ⟨order, hcompare, h⟩ := bind_ok.mp h
    by_cases horder : order < 0 ∨ (order == 0 && !allowSameVersion) = true
    · rw [if_pos horder] at h
      cases h
    rw [if_neg horder] at h
    cases h
    refine ⟨rfl, rfl, fun other hother => ?_⟩
    obtain rfl : existing = other := Option.some.inj (hregistry.symm.trans hother)
    rw [not_or] at horder
    exact ⟨not_not.mp howner, order, compareVersions_ok hcompare, horder.1, horder.2⟩

theorem checkPublish_ok {publisher : Text} (h : s.checkPublish manifest publisher now = .ok entry) :
    ∃ identity, s.checkEntry manifest identity false now = .ok entry := by
  unfold checkPublish at h
  dsimp only at h
  by_cases hempty : Peers.trim publisher = []
  · rw [if_pos hempty] at h
    cases h
  rw [if_neg hempty] at h
  by_cases hreserved : reservedPublisherPrefix.isPrefixOf (Peers.trim publisher) = true
  · rw [if_pos hreserved] at h
    cases h
  rw [if_neg hreserved] at h
  exact ⟨_, h⟩

theorem checkSystemManifest_ok (h : s.checkSystemManifest manifest now = .ok entry) :
    s.checkEntry manifest systemPublisher true now = .ok entry := by
  unfold checkSystemManifest at h
  split at h
  · exact h
  · rename_i existing hregistry
    by_cases howner : existing.publisher ≠ systemPublisher
    · rw [if_pos howner] at h
      cases h
    rw [if_neg howner] at h
    obtain ⟨order, -, h⟩ := bind_ok.mp h
    split_ifs at h
    · cases h
    · exact h

theorem checkInstall_registry {pluginId : Text} {request : InstallRequest} {plugin : InstalledPlugin}
    (h : s.checkInstall pluginId request now = .ok (entry, plugin)) : s.registry pluginId = some entry := by
  unfold checkInstall at h
  split at h
  · cases h
  · rename_i registered hregistered
    dsimp only at h
    by_cases hinstalled : (s.installed pluginId).isSome
    · rw [if_pos hinstalled] at h
      cases h
    rw [if_neg hinstalled] at h
    by_cases hinstaller : Peers.trim request.installedBy = []
    · rw [if_pos hinstaller] at h
      cases h
    rw [if_neg hinstaller] at h
    obtain ⟨-, h⟩ := bind_unit_ok.mp h
    obtain ⟨granted, -, h⟩ := bind_ok.mp h
    obtain ⟨config, -, h⟩ := bind_ok.mp h
    cases h
    exact hregistered

/-! ### Steps -/

theorem Owned.quiet (h : s₀.Owned) (hquiet : Quiet s₀ s) : s.Owned := by
  have hflights : ∀ flight ∈ s.flights, ∀ entry, flight.target = some entry → flight ∈ s₀.flights := by
    intro flight hflight entry hentry
    refine (hquiet.flights flight hflight).resolve_right ?_
    rintro ⟨pluginId, rfl⟩
    cases hentry
  refine ⟨hquiet.registry.symm ▸ h.keys, fun flight hflight entry hentry other hother target htarget => ?_,
    fun flight hflight entry hentry => ?_, fun flight hflight entry hentry => ?_, fun id => ?_⟩
  · exact h.one flight (hflights flight hflight entry hentry) entry hentry other (hflights other hother target htarget) target htarget
  · rw [hquiet.registry]
    exact h.follows flight (hflights flight hflight entry hentry) entry hentry
  · rw [hquiet.storedEntries]
    exact h.effective flight (hflights flight hflight entry (target_of_stores hentry)) entry hentry
  · rw [hquiet.storedEntries, hquiet.registry]
    refine (h.agreed id).imp_left ?_
    rintro ⟨flight, hflight, entry, hentry, hid⟩
    refine ⟨flight, hquiet.kept flight hflight fun hnone => ?_, entry, hentry, hid⟩
    have htarget := target_of_stores hentry
    unfold Flight.target at htarget
    rw [hnone] at htarget
    cases htarget

theorem Owned.take (h : s.Owned) (hstores : flight.stores = none) (htarget : ∀ entry, flight.target = some entry → s.Unraced entry ∧
    ∀ existing, s.registry entry.manifest.id = some existing → entry.Succeeds existing) : (s.take flight).Owned := by
  have hcases : ∀ other ∈ (s.take flight).flights, other ∈ s.flights ∨ other = flight := by
    intro other hother
    exact (List.mem_append.mp hother).imp_right List.mem_singleton.mp
  refine ⟨h.keys, fun first hfirst entry hentry second hsecond other hother hid => ?_, fun other hother entry hentry => ?_,
    fun other hother entry hentry => ?_, fun id => ?_⟩
  · rcases hcases first hfirst with hold | hnew
    · rcases hcases second hsecond with hold' | hnew'
      · exact h.one first hold entry hentry second hold' other hother hid
      · rw [hnew'] at hother
        exact ((htarget other hother).1 first hold entry hentry hid.symm).symm
    · rw [hnew] at hentry
      rcases hcases second hsecond with hold' | hnew'
      · exact (htarget entry hentry).1 second hold' other hother hid
      · rw [hnew'] at hother
        exact Option.some.inj (hother.symm.trans hentry)
  · rcases hcases other hother with hother | rfl
    · exact h.follows other hother entry hentry
    · exact (htarget entry hentry).2
  · rcases hcases other hother with hother | rfl
    · exact h.effective other hother entry hentry
    · rw [hstores] at hentry
      cases hentry
  · refine (h.agreed id).imp_left ?_
    rintro ⟨other, hother, hrest⟩
    exact ⟨other, List.mem_append_left _ hother, hrest⟩

theorem Owned.begins (h : s₀.Owned) (hquiet : Quiet s₀ s) (hbegins : Begins s₀ s call save) (horderly : s₀.Orderly call) : (s.save save).Owned := by
  have hunraced : ∀ entry, s₀.Unraced entry → s.Unraced entry := by
    intro entry hunraced flight hflight other hother
    refine hunraced flight ?_ other hother
    refine (hquiet.flights flight hflight).resolve_right ?_
    rintro ⟨pluginId, rfl⟩
    cases hother
  have hsave : (∀ entry, (Flight.saving save).target = some entry → s.Unraced entry ∧
      ∀ existing, s.registry entry.manifest.id = some existing → entry.Succeeds existing) → (s.save save).Owned := (h.quiet hquiet).take rfl
  cases hbegins with
  | publish hcall hcheck =>
    rename_i manifest publisher now entry
    subst hcall
    obtain ⟨hraced, hnumber⟩ := horderly entry hcheck
    obtain ⟨identity, hentry⟩ := checkPublish_ok hcheck
    obtain ⟨hmanifest, hpublisher, hexisting⟩ := checkEntry_ok hentry
    refine hsave ?_
    rintro _ ⟨⟩
    refine ⟨hunraced entry hraced, fun existing hregistered => ?_⟩
    rw [hquiet.registry, hmanifest] at hregistered
    obtain ⟨howner, order, horder, hneg, hzero⟩ := hexisting existing hregistered
    refine ⟨hpublisher.trans howner.symm, .inr ⟨order, hmanifest.symm ▸ horder, pos_of_order hneg ?_ (hnumber existing order hregistered horder)⟩⟩
    simpa using hzero
  | publishSystemManifest hcall hcheck =>
    rename_i manifest now entry
    subst hcall
    obtain ⟨hraced, hnewer⟩ := horderly entry hcheck
    obtain ⟨hmanifest, hpublisher, hexisting⟩ := checkEntry_ok (checkSystemManifest_ok hcheck)
    refine hsave ?_
    rintro _ ⟨⟩
    refine ⟨hunraced entry hraced, fun existing hregistered => ?_⟩
    rw [hquiet.registry, hmanifest] at hregistered
    refine ⟨hpublisher.trans (hexisting existing hregistered).1.symm, ?_⟩
    rw [hmanifest]
    exact hnewer existing hregistered
  | install hcall hcheck =>
    rename_i pluginId request now entry plugin
    subst hcall
    have hregistry := checkInstall_registry hcheck
    refine hsave ?_
    rintro _ ⟨⟩
    refine ⟨hunraced _ (horderly entry plugin hcheck), fun existing hregistered => ?_⟩
    have hid := h.keys pluginId entry hregistry
    dsimp only at hregistered
    rw [hquiet.registry, hid, hregistry] at hregistered
    obtain rfl := Option.some.inj hregistered
    exact succeeds_refl entry
  | uninstall | commit =>
    refine hsave ?_
    rintro _ ⟨⟩

theorem Owned.settled (h : s.Owned) {index : ℕ} (hflight : s.flights[index]? = some (.saving save)) (ok : Bool) :
    (if ok then ({ s with flights := s.flights.set index (.saved ok save) } : AgentMarketplace).persist save
      else { s with flights := s.flights.set index (.saved ok save) }).Owned := by
  have hmem := List.mem_of_getElem? hflight
  obtain ⟨hlt, hget⟩ := List.getElem?_eq_some_iff.mp hflight
  have hafter : (s.flights.set index (.saved ok save)).Perm (.saved ok save :: s.flights.eraseIdx index) := List.set_perm_cons_eraseIdx hlt _
  have hbefore : (Flight.saving save :: s.flights.eraseIdx index).Perm s.flights := hget ▸ List.getElem_cons_eraseIdx_perm hlt
  have hcases : ∀ flight ∈ s.flights.set index (.saved ok save), flight = .saved ok save ∨ flight ∈ s.flights := by
    intro flight hflight
    exact (List.mem_cons.mp (hafter.mem_iff.mp hflight)).imp_right fun hold => (List.eraseIdx_sublist _ _).subset hold
  have hstays : ∀ flight ∈ s.flights, ∀ entry, flight.stores = some entry → flight ∈ s.flights.set index (.saved ok save) := by
    intro flight hflight entry hentry
    refine hafter.mem_iff.mpr (List.mem_cons_of_mem _ ((List.mem_cons.mp (hbefore.mem_iff.mpr hflight)).resolve_left ?_))
    rintro rfl
    cases hentry
  -- what is on its way was so before
  have htarget : ∀ flight ∈ s.flights.set index (.saved ok save), ∀ entry, flight.target = some entry → ∃ old ∈ s.flights, old.target = some entry := by
    intro flight hflight entry hentry
    rcases hcases flight hflight with rfl | hold
    · cases ok with
      | true => exact ⟨_, hmem, hentry⟩
      | false => cases hentry
    · exact ⟨flight, hold, hentry⟩
  have hone : ∀ flight ∈ s.flights.set index (.saved ok save), ∀ entry, flight.target = some entry →
      ∀ other ∈ s.flights.set index (.saved ok save), ∀ target, other.target = some target → target.manifest.id = entry.manifest.id → target = entry := by
    intro flight hflight entry hentry other hother target hother'
    obtain ⟨old, hold, holdEntry⟩ := htarget flight hflight entry hentry
    obtain ⟨before, hbefore, hbeforeEntry⟩ := htarget other hother target hother'
    exact h.one old hold entry holdEntry before hbefore target hbeforeEntry
  have hfollows : ∀ flight ∈ s.flights.set index (.saved ok save), ∀ entry, flight.target = some entry → ∀ existing,
      s.registry entry.manifest.id = some existing → entry.Succeeds existing := by
    intro flight hflight entry hentry
    obtain ⟨old, hold, holdEntry⟩ := htarget flight hflight entry hentry
    exact h.follows old hold entry holdEntry
  -- the store either has what it had, or the entry of this flight
  by_cases hstored : ∃ entry, (Flight.saved ok save).stores = some entry
  · obtain ⟨entry, hentry⟩ := hstored
    have hok : ok = true := by
      cases ok with
      | true => rfl
      | false => cases hentry
    subst hok
    have hpersist : (({ s with flights := s.flights.set index (.saved true save) } : AgentMarketplace).persist save) =
        { s with flights := s.flights.set index (.saved true save), storedEntries := Function.update s.storedEntries entry.manifest.id (some entry) } := by
      cases save with
      | publish | installs =>
        cases hentry
        rfl
      | installation | uninstall | commit => cases hentry
    rw [if_pos rfl, hpersist]
    have hself : (Flight.saved true save) ∈ s.flights.set index (.saved true save) := hafter.mem_iff.mpr List.mem_cons_self
    refine ⟨h.keys, hone, hfollows, fun flight hflight other hother => ?_, fun id => ?_⟩
    · dsimp only
      by_cases hsame : other.manifest.id = entry.manifest.id
      · rw [hsame, Function.update_self]
        exact congrArg some (hone _ hself entry (target_of_stores hentry) flight hflight other (target_of_stores hother) hsame).symm
      · rw [Function.update_of_ne hsame]
        rcases hcases flight hflight with rfl | hold
        · obtain rfl := Option.some.inj (hentry.symm.trans hother)
          exact absurd rfl hsame
        · exact h.effective flight hold other hother
    · by_cases hsame : id = entry.manifest.id
      · exact .inl ⟨_, hself, entry, hentry, hsame.symm⟩
      · dsimp only
        rw [Function.update_of_ne hsame]
        refine (h.agreed id).imp_left ?_
        rintro ⟨flight, hflight, other, hother, hid⟩
        exact ⟨flight, hstays flight hflight other hother, other, hother, hid⟩
  · have hsame : ∀ t : AgentMarketplace, t.registry = s.registry → t.storedEntries = s.storedEntries → t.flights = s.flights.set index (.saved ok save) → t.Owned := by
      intro t hregistry hentries hflights
      refine ⟨hregistry.symm ▸ h.keys, fun flight hflight entry hentry other hother => ?_, fun flight hflight entry hentry => ?_,
        fun flight hflight entry hentry => ?_, fun id => ?_⟩
      · rw [hflights] at hflight hother
        exact hone flight hflight entry hentry other hother
      · rw [hflights] at hflight
        rw [hregistry]
        exact hfollows flight hflight entry hentry
      · rw [hflights] at hflight
        rw [hentries]
        rcases hcases flight hflight with rfl | hold
        · exact absurd ⟨entry, hentry⟩ hstored
        · exact h.effective flight hold entry hentry
      · rw [hflights, hregistry, hentries]
        refine (h.agreed id).imp_left ?_
        rintro ⟨flight, hflight, entry, hentry, hid⟩
        exact ⟨flight, hstays flight hflight entry hentry, entry, hentry, hid⟩
    cases ok with
    | false => exact hsame _ rfl rfl rfl
    | true =>
      cases save with
      | publish other => exact absurd ⟨other, rfl⟩ hstored
      | installs other plugin => exact absurd ⟨other, rfl⟩ hstored
      | installation | uninstall | commit => exact hsame _ rfl rfl rfl

theorem landed_cases {index : ℕ} (hflight : s.flights[index]? = some flight) : (flight :: s.flights.eraseIdx index).Perm s.flights := by
  obtain ⟨hlt, hget⟩ := List.getElem?_eq_some_iff.mp hflight
  exact hget ▸ List.getElem_cons_eraseIdx_perm hlt

theorem Owned.register (h : ({ s with flights := flight :: s.flights } : AgentMarketplace).Owned) (hentry : flight.stores = some entry)
    {t : AgentMarketplace} (hregistry : t.registry = Function.update s.registry entry.manifest.id (some entry)) (hentries : t.storedEntries = s.storedEntries)
    (hflights : t.flights = s.flights) : t.Owned := by
  have htarget := target_of_stores hentry
  refine ⟨fun id other hother => ?_, fun first hfirst other hother second hsecond => ?_, fun first hfirst other hother existing hexisting => ?_,
    fun first hfirst => ?_, fun id => ?_⟩
  · rw [hregistry] at hother
    by_cases hsame : id = entry.manifest.id
    · rw [hsame, Function.update_self] at hother
      rw [hsame, Option.some.inj hother]
    · rw [Function.update_of_ne hsame] at hother
      exact h.keys id other hother
  · rw [hflights] at hfirst hsecond
    exact h.one first (List.mem_cons_of_mem _ hfirst) other hother second (List.mem_cons_of_mem _ hsecond)
  · rw [hflights] at hfirst
    rw [hregistry] at hexisting
    by_cases hsame : other.manifest.id = entry.manifest.id
    · rw [hsame, Function.update_self] at hexisting
      -- it is the entry that was registered
      have hother' := h.one flight List.mem_cons_self entry htarget first (List.mem_cons_of_mem _ hfirst) other hother hsame
      rw [hother', Option.some.inj hexisting]
      exact succeeds_refl existing
    · rw [Function.update_of_ne hsame] at hexisting
      exact h.follows first (List.mem_cons_of_mem _ hfirst) other hother existing hexisting
  · rw [hflights] at hfirst
    rw [hentries]
    exact h.effective first (List.mem_cons_of_mem _ hfirst)
  · rw [hflights, hregistry, hentries]
    by_cases hsame : id = entry.manifest.id
    · rw [hsame, Function.update_self]
      exact .inr (h.effective flight List.mem_cons_self entry hentry)
    · rw [Function.update_of_ne hsame]
      refine (h.agreed id).imp_left ?_
      rintro ⟨first, hfirst, other, hother, hid⟩
      rcases List.mem_cons.mp hfirst with hlanded | hrest
      · rw [hlanded] at hother
        obtain rfl := Option.some.inj (hentry.symm.trans hother)
        exact absurd hid.symm hsame
      · exact ⟨first, hrest, other, hother, hid⟩

theorem Owned.land (h : ({ s with flights := flight :: s.flights } : AgentMarketplace).Owned) (hstores : flight.stores = none) : s.Owned := by
  refine ⟨h.keys, fun first hfirst other hother second hsecond => h.one first (List.mem_cons_of_mem _ hfirst) other hother second (List.mem_cons_of_mem _ hsecond),
    fun first hfirst => h.follows first (List.mem_cons_of_mem _ hfirst), fun first hfirst => h.effective first (List.mem_cons_of_mem _ hfirst),
    fun id => (h.agreed id).imp_left ?_⟩
  rintro ⟨first, hfirst, other, hother, hid⟩
  refine ⟨first, (List.mem_cons.mp hfirst).resolve_left ?_, other, hother, hid⟩
  rintro rfl
  rw [hstores] at hother
  cases hother

theorem apply_registry (s : AgentMarketplace) (save : Save) :
    (s.apply save).registry = s.registry ∨ ∃ entry, (Flight.saved true save).stores = some entry ∧
      (s.apply save).registry = Function.update s.registry entry.manifest.id (some entry) := by
  cases save with
  | publish entry => exact .inr ⟨entry, rfl, rfl⟩
  | installation | uninstall => exact .inl rfl
  | installs entry plugin => exact .inr ⟨entry, rfl, rfl⟩
  | commit plugin next after => cases after <;> exact .inl rfl

theorem Owned.apply (h : ({ s with flights := .saved true save :: s.flights } : AgentMarketplace).Owned) : (s.apply save).Owned := by
  cases save with
  | publish entry =>
    have hentry : (Flight.saved true (.publish entry)).stores = some entry := rfl
    exact h.register hentry rfl rfl rfl
  | installs entry plugin =>
    have hentry : (Flight.saved true (.installs entry plugin)).stores = some entry := rfl
    exact h.register hentry rfl rfl rfl
  | installation entry plugin =>
    have hland : s.Owned := h.land rfl
    refine hland.take rfl ?_
    rintro _ ⟨⟩
    refine ⟨fun other hother target htarget hid => ?_, h.follows _ List.mem_cons_self _ rfl⟩
    exact h.one _ List.mem_cons_self _ rfl other (List.mem_cons_of_mem _ hother) target htarget hid
  | uninstall pluginId =>
    have hland : s.Owned := h.land rfl
    exact ⟨hland.keys, hland.one, hland.follows, hland.effective, hland.agreed⟩
  | commit plugin next after =>
    have hland : s.Owned := h.land rfl
    have hmodified : (s.modifyObject plugin fun _ => next).Owned := ⟨hland.keys, hland.one, hland.follows, hland.effective, hland.agreed⟩
    have htake : ∀ after, ((s.modifyObject plugin fun _ => next).take (.committed after)).Owned := by
      intro after
      refine hmodified.take rfl ?_
      rintro _ ⟨⟩
    cases after with
    | done => exact hmodified
    | disabled => exact ⟨hmodified.keys, hmodified.one, hmodified.follows, hmodified.effective, hmodified.agreed⟩
    | resetFailures | update | restart => exact htake _

theorem Owned.perm (h : s.Owned) {flights : List Flight} (hperm : flights.Perm s.flights) : ({ s with flights } : AgentMarketplace).Owned := by
  refine ⟨h.keys, fun first hfirst other hother second hsecond => h.one first (hperm.mem_iff.mp hfirst) other hother second (hperm.mem_iff.mp hsecond),
    fun first hfirst => h.follows first (hperm.mem_iff.mp hfirst), fun first hfirst => h.effective first (hperm.mem_iff.mp hfirst),
    fun id => (h.agreed id).imp_left ?_⟩
  rintro ⟨first, hfirst, hrest⟩
  exact ⟨first, hperm.mem_iff.mpr hfirst, hrest⟩

theorem owned_step (h : s.Owned) (horderly : s.Orderly call) : (s.step call).Owned := by
  have houtcome := step_outcome s call
  generalize s.step call = t at houtcome ⊢
  cases houtcome with
  | quiet hquiet => exact h.quiet hquiet
  | begins hquiet hbegins => exact h.begins hquiet hbegins horderly
  | settled hcall hflight => exact h.settled hflight _
  | landed hcall hflight => exact Owned.apply (h.perm (landed_cases hflight))

theorem held_of_owned (h : s.Owned) (horderly : s.Orderly call) : s.Held call := by
  constructor
  · have houtcome := step_outcome s call
    generalize s.step call = t at houtcome ⊢
    have hsame : t.registry = s.registry → ∀ id existing, s.registry id = some existing → ∃ entry, t.registry id = some entry ∧ entry.Succeeds existing := by
      intro hregistry id existing hexisting
      exact ⟨existing, hregistry ▸ hexisting, succeeds_refl existing⟩
    cases houtcome with
    | quiet hquiet => exact hsame hquiet.registry
    | begins hquiet hbegins => exact hsame hquiet.registry
    | settled hcall hflight =>
      rename_i index ok save
      refine hsame ?_
      split_ifs
      · cases save <;> rfl
      · rfl
    | landed hcall hflight =>
      rename_i index now save
      rcases apply_registry { s with flights := s.flights.eraseIdx index } save with hregistry | ⟨entry, hentry, hregistry⟩
      · exact hsame hregistry
      · intro id existing hexisting
        rw [hregistry]
        by_cases hid : id = entry.manifest.id
        · subst hid
          refine ⟨entry, Function.update_self _ _ _, ?_⟩
          exact h.follows _ (List.mem_of_getElem? hflight) entry (target_of_stores hentry) existing hexisting
        · exact ⟨existing, (Function.update_of_ne hid _ _).trans hexisting, succeeds_refl existing⟩
  · intro hidle
    funext id
    refine ((owned_step h horderly).agreed id).resolve_left ?_
    rintro ⟨flight, hflight, -⟩
    rw [hidle] at hflight
    cases hflight

/-- If no call begins to write an entry while another entry of the plugin is on its way, the owner of a registered plugin
stays, its versions grow, and the store has what the registry has when no call is running. -/
theorem ownership_held (implementations : List Text) (snapshot : MarketplaceSnapshot) (calls : List MarketplaceCall)
    (horderly : Throughout step Orderly (load implementations snapshot) calls) : Throughout step Held (load implementations snapshot) calls :=
  Throughout.gives (I := Owned) (fun _ _ h hcall => owned_step h hcall) (fun _ _ h hcall => held_of_owned h hcall) (owned_load implementations snapshot) horderly

/-! ### Publications of one plugin -/

theorem unraced_idle (h : s.flights = []) (entry : MarketplaceEntry) : s.Unraced entry := by
  intro flight hflight
  rw [h] at hflight
  cases hflight

def noPlugins : MarketplaceSnapshot := { entries := [], installations := [], entries_nodup := List.nodup_nil, installations_nodup := List.nodup_nil }

def gadget (version : Text) : PluginManifest :=
  { id := "gadget".toList, version, requiredCapabilities := [.log], configSchema := [], dependencies := [] }

def publishedInTurn : List MarketplaceCall :=
  [.publish (gadget "1.0.0".toList) "alice".toList 0, .settle 0 true, .resume 0 1, .publish (gadget "1.1.0".toList) "alice".toList 2, .settle 0 true, .resume 0 3]

theorem publishedInTurn_held : Throughout step Held (load [] noPlugins) publishedInTurn := by
  refine ownership_held [] noPlugins publishedInTurn ⟨fun entry _ => ⟨unraced_idle rfl entry, fun existing order hregistered => ?_⟩, trivial, trivial,
    fun entry _ => ⟨unraced_idle ?_ entry, fun existing order hregistered hcompare => ?_⟩, trivial, trivial, trivial⟩
  · cases hregistered
  · decide +kernel
  · have hversion : (((((load [] noPlugins).step (.publish (gadget "1.0.0".toList) "alice".toList 0)).step (.settle 0 true)).step (.resume 0 1)).registry
        "gadget".toList).map (·.manifest.version) = some "1.0.0".toList := by decide +kernel
    have hnumber : (compareSemver "1.1.0".toList "1.0.0".toList).map Float.isNaN = some false := by decide +kernel
    rw [show (gadget "1.1.0".toList).id = "gadget".toList from rfl] at hregistered
    rw [hregistered] at hversion
    rw [← Option.some.inj hversion] at hnumber
    rw [show (gadget "1.1.0".toList).version = "1.1.0".toList from rfl] at hcompare
    rw [show (compareSemver "1.1.0".toList existing.manifest.version) = some order from hcompare] at hnumber
    exact Option.some.inj hnumber

def publishedAtOnce : List MarketplaceCall :=
  [.publish (gadget "1.0.0".toList) "alice".toList 0, .publish (gadget "1.0.0".toList) "mallory".toList 0, .settle 0 true, .settle 1 true, .resume 0 1, .resume 0 2]

theorem publishedAtOnce_hijacked : ¬ Throughout step Held (load [] noPlugins) publishedAtOnce := by
  intro h
  obtain ⟨-, -, -, -, -, ⟨hkept, -⟩, -⟩ := h
  have howners : (((publishedAtOnce.take 5).foldl step (load [] noPlugins)).registry "gadget".toList).map (·.publisher) = some "alice".toList ∧
      ((publishedAtOnce.foldl step (load [] noPlugins)).registry "gadget".toList).map (·.publisher) = some "mallory".toList := by decide +kernel
  obtain ⟨existing, hexisting, halice⟩ := Option.map_eq_some_iff.mp howners.1
  obtain ⟨entry, hentry, hsame, -⟩ := hkept "gadget".toList existing hexisting
  have hmallory : some entry.publisher = some "mallory".toList := by
    rw [← howners.2]
    exact (congrArg (Option.map (·.publisher)) hentry).symm
  rw [hsame, halice] at hmallory
  cases hmallory

end AgentMarketplace
end OxScada.Marketplace
