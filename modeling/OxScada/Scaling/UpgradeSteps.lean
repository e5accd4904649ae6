import OxScada.Edge.Entries
import OxScada.Edge.Sections
import OxScada.Scaling.Upgrade
import OxScada.Order.Pointwise

/-! What the parts of the rolling upgrade do to the instances: the recovery of an interrupted one,
the upgrade of an instance, and the undoing of it. Each is told over the answers that the
environment may give. -/

namespace OxScada.Scaling.Upgrade
open OxScada.Bytes OxScada.Edge OxScada.Runs

variable {ok : Answer → Prop}

def Fails (ok : Answer → Prop) : Prop := ∃ answer, ok answer ∧ answer.fate ≠ .succeeds

/-! ### Calls -/

section Calls
variable {pre : State → Prop} {instanceId : Text}

variable {post : Post State Text Unit}

theorem sideEffect_meets {effect : Instance → Instance}
    (hdone : ∀ s, pre s → post.done () (s.touch instanceId effect))
    (hpartly : ∀ s version traffic, pre s → Fails ok →
      (∀ message, post.threw message (s.touch instanceId fun inst => { inst with version, traffic })) ∧
        post.stopped (s.touch instanceId fun inst => { inst with version, traffic })) :
    Meets ok pre (sideEffect instanceId effect) post := by
  apply Meets.call
  intro answer s hok hs
  cases hfate : answer.fate with
  | succeeds =>
    dsimp only
    exact hdone s hs
  | fails =>
    have hfails : Fails ok := ⟨answer, hok, by simp [hfate]⟩
    dsimp only
    exact (hpartly s answer.version answer.traffic hs hfails).1 answer.message
  | stops =>
    have hfails : Fails ok := ⟨answer, hok, by simp [hfate]⟩
    dsimp only
    exact (hpartly s answer.version answer.traffic hs hfails).2

theorem ask_meets {α : Type} {reply : Answer → State → α} {post : Post State Text α}
    (hdone : ∀ answer s, ok answer → pre s → post.done (reply answer s) s)
    (hfails : ∀ s, pre s → Fails ok → (∀ message, post.threw message s) ∧ post.stopped s) : Meets ok pre (ask reply) post := by
  apply Meets.call
  intro answer s hok hs
  cases hfate : answer.fate with
  | succeeds =>
    dsimp only
    exact hdone answer s hok hs
  | fails =>
    dsimp only
    exact (hfails s hs ⟨answer, hok, by simp [hfate]⟩).1 answer.message
  | stops =>
    dsimp only
    exact (hfails s hs ⟨answer, hok, by simp [hfate]⟩).2

theorem append_meets {targetVersion originalVersion : Text} {status : UpgradeJournalStatus} {error : Option Text}
    (hdone : ∀ s journal, pre s → post.done () { s with journal })
    (hfails : ∀ s journal, pre s → Fails ok → (∀ message, post.threw message { s with journal }) ∧ post.stopped { s with journal }) :
    Meets ok pre (append targetVersion instanceId originalVersion status error) post := by
  apply Meets.call
  intro answer s hok hs
  cases hfate : answer.fate with
  | succeeds =>
    dsimp only
    exact hdone s _ hs
  | fails =>
    have hnot : Fails ok := ⟨answer, hok, by simp [hfate]⟩
    dsimp only
    split_ifs
    · exact (hfails s _ hs hnot).1 answer.message
    · exact (hfails s s.journal hs hnot).1 answer.message
  | stops =>
    have hnot : Fails ok := ⟨answer, hok, by simp [hfate]⟩
    dsimp only
    split_ifs
    · exact (hfails s _ hs hnot).2
    · exact (hfails s s.journal hs hnot).2

theorem emit_meets {event : UpgradeEvent} (h : ∀ s events, pre s → post.done () { s with events }) :
    Meets ok pre (emit event) post :=
  Meets.modify fun s hs => h s _ hs

theorem lift_meets {α : Type} {result : Except Text α} {post : Post State Text α}
    (hok : ∀ a, result = .ok a → ∀ s, pre s → post.done a s)
    (herror : ∀ message, result = .error message → ∀ s, pre s → post.threw message s) : Meets ok pre (lift result) post := by
  cases hresult : result with
  | ok a => exact Meets.pure (hok a hresult)
  | error message => exact Meets.throw (herror message hresult)

end Calls

/-! ### Recovery -/

structure Aside (instanceId : Text) (inv : State → Prop) : Prop where
  touch : ∀ s effect, (∀ inst, (effect inst).id = inst.id) → inv s → inv (s.touch instanceId effect)
  journal : ∀ s journal, inv s → inv { s with journal }
  events : ∀ s events, inv s → inv { s with events }

def On (instanceId : Text) (s : State) : Prop := ∀ inst ∈ s.instances, inst.id = instanceId → inst.traffic = true

section Recovery
variable {inv : State → Prop} {instanceId : Text} {entry : UpgradeJournalEntry} {inst : DeploymentInstance} {healthTimeoutMs : Option ℚ}

theorem on_touch (s : State) : On instanceId (s.touch instanceId fun inst => { inst with traffic := true }) := by
  intro inst hinst hid
  obtain ⟨before, -, rfl⟩ := List.mem_map.mp hinst
  split_ifs at hid ⊢ with heq
  · rfl
  · exact absurd hid heq

section
variable (h : Aside instanceId inv)
include h

theorem restoreTraffic_meets :
    Meets ok inv (restoreTraffic instanceId) ⟨fun _ s => inv s ∧ On instanceId s, fun _ s => inv s ∧ Fails ok, fun s => inv s ∧ Fails ok⟩ := by
  apply sideEffect_meets
  · intro s hs
    exact ⟨h.touch s _ (fun _ => rfl) hs, on_touch s⟩
  · intro s version traffic hs hfails
    have hinv := h.touch s (fun inst => { inst with version, traffic }) (fun _ => rfl) hs
    exact ⟨fun _ => ⟨hinv, hfails⟩, hinv, hfails⟩

theorem rollback_meets {version : Text} :
    Meets ok inv (rollback instanceId version) ⟨fun _ => inv, fun _ s => inv s ∧ Fails ok, fun s => inv s ∧ Fails ok⟩ := by
  apply sideEffect_meets
  · intro s hs
    exact h.touch s _ (fun _ => rfl) hs
  · intro s version traffic hs hfails
    have hinv := h.touch s (fun inst => { inst with version, traffic }) (fun _ => rfl) hs
    exact ⟨fun _ => ⟨hinv, hfails⟩, hinv, hfails⟩

theorem append_aside {targetVersion id originalVersion : Text} {status : UpgradeJournalStatus}
    {error : Option Text} :
    Meets ok inv (append targetVersion id originalVersion status error) ⟨fun _ => inv, fun _ s => inv s ∧ Fails ok, fun s => inv s ∧ Fails ok⟩ := by
  apply append_meets
  · intro s journal hs
    exact h.journal s journal hs
  · intro s journal hs hfails
    exact ⟨fun _ => ⟨h.journal s journal hs, hfails⟩, h.journal s journal hs, hfails⟩

theorem aside_on {targetVersion id originalVersion : Text} {status : UpgradeJournalStatus}
    {error : Option Text} :
    Meets ok (fun s => inv s ∧ On instanceId s) (append targetVersion id originalVersion status error)
      ⟨fun _ s => inv s ∧ On instanceId s, fun _ s => inv s ∧ Fails ok, fun s => inv s ∧ Fails ok⟩ := by
  apply append_meets
  · rintro s journal ⟨hs, hon⟩
    exact ⟨h.journal s journal hs, hon⟩
  · rintro s journal ⟨hs, -⟩ hfails
    exact ⟨fun _ => ⟨h.journal s journal hs, hfails⟩, h.journal s journal hs, hfails⟩

end

theorem recoverOriginal_meets (h : Aside entry.instanceId inv) :
    Meets ok inv (recoverOriginal entry) ⟨fun _ s => inv s ∧ On entry.instanceId s, fun _ s => inv s ∧ Fails ok, fun s => inv s ∧ Fails ok⟩ := by
  unfold recoverOriginal
  apply Meets.bind _ (append_aside h)
  intro _
  apply Meets.tryCatch _
  · apply Meets.bind _ (rollback_meets h)
    intro _
    apply Meets.bind _ (restoreTraffic_meets h)
    intro _
    exact aside_on h
  · intro error
    have hfailed : ∀ s journal, inv s ∧ Fails ok → inv { s with journal } ∧ Fails ok :=
      fun s journal hs => ⟨h.journal s journal hs.1, hs.2⟩
    have happend : Meets ok (fun s => inv s ∧ Fails ok)
        (append entry.targetVersion entry.instanceId entry.originalVersion .rollbackFailed (some error))
        ⟨fun _ s => inv s ∧ Fails ok, fun _ s => inv s ∧ Fails ok, fun s => inv s ∧ Fails ok⟩ :=
      append_meets hfailed fun s journal hs _ => ⟨fun _ => hfailed s journal hs, hfailed s journal hs⟩
    exact Meets.bind _ (Meets.tryCatch _ happend fun _ => Meets.pure fun _ => id) fun _ => Meets.throw fun _ => id

theorem recoverTarget_meets (h : Aside inst.id inv) (hentry : entry.instanceId = inst.id) :
    Meets ok inv (recoverTarget inst entry healthTimeoutMs) ⟨fun _ s => inv s ∧ On inst.id s, fun _ s => inv s ∧ Fails ok, fun s => inv s ∧ Fails ok⟩ := by
  unfold recoverTarget
  have hwait : Meets ok inv (waitUntilHealthy inst.id entry.targetVersion healthTimeoutMs)
      ⟨fun _ => inv, fun _ s => inv s ∧ Fails ok, fun s => inv s ∧ Fails ok⟩ :=
    ask_meets (fun _ _ _ => id) fun s hs hfails => ⟨fun _ => ⟨hs, hfails⟩, hs, hfails⟩
  apply Meets.bind _ hwait
  intro healthy
  cases healthy with
  | true =>
    apply Meets.bind _ (append_aside h)
    intro _
    apply Meets.bind _ (restoreTraffic_meets h)
    intro _
    exact aside_on h
  | false =>
    rw [← hentry] at h ⊢
    exact recoverOriginal_meets h

theorem recoverInstance_meets (h : Aside inst.id inv) {entry : Option UpgradeJournalEntry} (hentry : ∀ e ∈ entry, e.instanceId = inst.id) :
    Meets ok inv (recoverInstance inst healthTimeoutMs entry)
      ⟨fun _ s => inv s ∧ On inst.id s, fun _ s => inv s ∧ (Fails ok ∨ (entry = none ∧ inst.healthy = false)), fun s => inv s ∧ Fails ok⟩ := by
  cases entry with
  | none =>
    dsimp only [recoverInstance]
    split_ifs with hhealthy
    · exact (restoreTraffic_meets h).weaken (fun _ => id) (fun _ _ => id) (fun _ _ hs => ⟨hs.1, .inl hs.2⟩) fun _ => id
    · exact Meets.throw fun s hs => ⟨hs, .inr ⟨rfl, by simpa using hhealthy⟩⟩
  | some entry =>
    have hid := hentry entry rfl
    have horiginal : Meets ok inv (recoverOriginal entry) ⟨fun _ s => inv s ∧ On inst.id s, fun _ s => inv s ∧ Fails ok, fun s => inv s ∧ Fails ok⟩ := by
      rw [← hid] at h ⊢
      exact recoverOriginal_meets h
    dsimp only [recoverInstance]
    split_ifs
    · exact horiginal.weaken (fun _ => id) (fun _ _ => id) (fun _ _ hs => ⟨hs.1, .inl hs.2⟩) fun _ => id
    · exact (recoverTarget_meets h hid).weaken (fun _ => id) (fun _ _ => id) (fun _ _ hs => ⟨hs.1, .inl hs.2⟩) fun _ => id
    · exact horiginal.weaken (fun _ => id) (fun _ _ => id) (fun _ _ hs => ⟨hs.1, .inl hs.2⟩) fun _ => id

end Recovery

/-! ### The latest entries -/

section Latest
variable {journal : List UpgradeJournalEntry} {latest states : List (Text × UpgradeJournalEntry)} {id : Text}

theorem fold_latest {entries : List UpgradeJournalEntry}
    (h : entries.foldlM (fun states entry => do
      validateUpgradeJournalEntry entry
      .ok (mapSet states entry.instanceId entry)) states = Except.ok latest) :
    (∀ entry ∈ entries, validateUpgradeJournalEntry entry = .ok ()) ∧
      ∀ id, (latest.lookup id = none ↔ states.lookup id = none ∧ ∀ entry ∈ entries, entry.instanceId ≠ id) ∧
        ((∀ entry ∈ states.lookup id, entry.instanceId = id ∧ validateUpgradeJournalEntry entry = .ok ()) →
          ∀ entry ∈ latest.lookup id, entry.instanceId = id ∧ validateUpgradeJournalEntry entry = .ok ()) := by
  induction entries generalizing states with
  | nil =>
    obtain rfl := Except.ok.inj h
    simp
  | cons first rest ih =>
    rw [List.foldlM_cons, bind_assoc] at h
    obtain ⟨hvalid, hrest⟩ := bind_unit_ok.mp h
    obtain ⟨hall, hlookup⟩ := ih hrest
    refine ⟨List.forall_mem_cons.mpr ⟨hvalid, hall⟩, fun id => ⟨?_, fun hstates => (hlookup id).2 fun entry hentry => ?_⟩⟩
    · rw [(hlookup id).1, lookup_mapSet, List.forall_mem_cons]
      by_cases heq : id = first.instanceId
      · simp [heq]
      · rw [if_neg heq]
        tauto
    · rw [lookup_mapSet] at hentry
      split_ifs at hentry with heq
      · obtain rfl := Option.some.inj hentry
        exact ⟨heq.symm, hvalid⟩
      · exact hstates entry hentry

section
variable (h : latestUpgradeStates journal = .ok latest)
include h

theorem latest_none : latest.lookup id = none ↔ ∀ entry ∈ journal, entry.instanceId ≠ id := by
  rw [((fold_latest h).2 id).1]
  simp [List.mem_insertionSort]

theorem latest_entry :
    ∀ entry ∈ latest.lookup id, entry.instanceId = id ∧ validateUpgradeJournalEntry entry = .ok () :=
  ((fold_latest h).2 id).2 fun entry hentry => (by cases hentry)

theorem latest_valid : ∀ entry ∈ journal, validateUpgradeJournalEntry entry = .ok () := by
  intro entry hentry
  exact (fold_latest h).1 entry ((List.mem_insertionSort _).mpr hentry)

end

theorem fold_latest_ok {entries : List UpgradeJournalEntry} (h : ∀ entry ∈ entries, validateUpgradeJournalEntry entry = .ok ()) :
    ∃ latest, entries.foldlM (fun states entry => do
      validateUpgradeJournalEntry entry
      .ok (mapSet states entry.instanceId entry)) states = Except.ok latest := by
  induction entries generalizing states with
  | nil => exact ⟨states, rfl⟩
  | cons first rest ih =>
    have hrest : ∀ entry ∈ rest, validateUpgradeJournalEntry entry = .ok () := fun entry hentry => h entry (List.mem_cons_of_mem _ hentry)
    obtain ⟨latest, hlatest⟩ := @ih (mapSet states first.instanceId first) hrest
    refine ⟨latest, ?_⟩
    rw [List.foldlM_cons, h first List.mem_cons_self]
    exact hlatest

theorem latest_ok (h : ∀ entry ∈ journal, validateUpgradeJournalEntry entry = .ok ()) :
    ∃ latest, latestUpgradeStates journal = .ok latest :=
  fold_latest_ok fun entry hentry => h entry ((List.mem_insertionSort _).mp hentry)

end Latest

/-! ### Reconciliation -/

section Reconciliation
variable {deployed : List Deployment} {latest : List (Text × UpgradeJournalEntry)} {healthTimeoutMs : Option ℚ}

def ToRecover (todo : List DeploymentInstance) (s : State) : Prop :=
  ∀ inst ∈ s.instances, inst.traffic = true ∨ ∃ d ∈ todo, d.id = inst.id ∧ d.trafficEnabled = some false

structure Untouched (deployed : List Deployment) (s : State) : Prop where
  deployments : s.deployments = deployed
  changed : s.changed = []
  failures : s.rollbackFailures = []

/-- Drained, unhealthy, and the journal does not tell of it. -/
def Abandoned (latest : List (Text × UpgradeJournalEntry)) (d : DeploymentInstance) : Prop :=
  latest.lookup d.id = none ∧ d.healthy = false ∧ d.trafficEnabled = some false

theorem reconcileInstance_meets (hlatest : ∀ id, ∀ entry ∈ latest.lookup id, entry.instanceId = id) (d : DeploymentInstance)
    (rest : List DeploymentInstance) :
    Meets ok (fun s => Untouched deployed s ∧ ToRecover (d :: rest) s) (reconcileInstance latest healthTimeoutMs d)
      ⟨fun _ s => Untouched deployed s ∧ ToRecover rest s,
        fun _ s => s.deployments = deployed ∧ (Fails ok ∨ (Abandoned latest d ∧ ToRecover (d :: rest) s)),
        fun s => s.deployments = deployed ∧ Fails ok⟩ := by
  dsimp only [reconcileInstance]
  by_cases hskip : isIncomplete (latest.lookup d.id) = false ∧ d.trafficEnabled ≠ some false
  · rw [if_pos hskip]
    apply Meets.pure
    rintro s ⟨hs, hdrained⟩
    refine ⟨hs, fun inst hinst => (hdrained inst hinst).imp_right ?_⟩
    rintro ⟨d', hd', hid, htraffic⟩
    refine ⟨d', (List.mem_cons.mp hd').resolve_left ?_, hid, htraffic⟩
    rintro rfl
    exact hskip.2 htraffic
  · rw [if_neg hskip]
    let inv : State → Prop := fun s => Untouched deployed s ∧ ∀ inst ∈ s.instances, inst.id = d.id ∨ inst.traffic = true ∨
      ∃ d' ∈ rest, d'.id = inst.id ∧ d'.trafficEnabled = some false
    have haside : Aside d.id inv := by
      refine ⟨?_, fun s journal hs => ⟨⟨hs.1.1, hs.1.2, hs.1.3⟩, hs.2⟩, fun s events hs => ⟨⟨hs.1.1, hs.1.2, hs.1.3⟩, hs.2⟩⟩
      rintro s effect hid ⟨hs, hothers⟩
      refine ⟨⟨hs.1, hs.2, hs.3⟩, fun inst hinst => ?_⟩
      obtain ⟨before, hbefore, rfl⟩ := List.mem_map.mp hinst
      split_ifs with heq
      · exact .inl ((hid before).trans heq)
      · exact hothers before hbefore
    apply Meets.bind fun _ => inv
    · apply emit_meets
      rintro s events ⟨hs, hdrained⟩
      refine haside.events s events ⟨hs, fun inst hinst => ?_⟩
      rcases hdrained inst hinst with hon | ⟨d', hd', hid, htraffic⟩
      · exact .inr (.inl hon)
      · rcases List.mem_cons.mp hd' with rfl | hrest
        · exact .inl hid.symm
        · exact .inr (.inr ⟨d', hrest, hid, htraffic⟩)
    intro _
    apply Meets.tryCatch fun _ s => inv s ∧ (Fails ok ∨ (latest.lookup d.id = none ∧ d.healthy = false))
    · refine Meets.bind _ ((recoverInstance_meets haside (hlatest d.id)).weaken (fun _ => id) (fun _ _ => id) (fun _ _ => id) ?_) ?_
      · intro s hs
        exact ⟨hs.1.1.deployments, hs.2⟩
      intro _
      apply emit_meets
      rintro s events ⟨⟨hs, hothers⟩, hon⟩
      refine ⟨⟨hs.1, hs.2, hs.3⟩, fun inst hinst => ?_⟩
      rcases hothers inst hinst with hid | hother
      · exact .inl (hon inst hinst hid)
      · exact hother
    · intro error
      apply Meets.bind fun _ s => inv s ∧ (Fails ok ∨ (latest.lookup d.id = none ∧ d.healthy = false))
      · apply emit_meets
        intro s events hs
        exact ⟨haside.events s events hs.1, hs.2⟩
      intro _
      apply Meets.throw
      rintro s ⟨⟨hs, hothers⟩, hfails⟩
      refine ⟨hs.deployments, hfails.imp_right fun hnone => ?_⟩
      have htraffic : d.trafficEnabled = some false := by
        by_contra htraffic
        refine hskip ⟨?_, htraffic⟩
        rw [hnone.1]
        rfl
      refine ⟨⟨hnone.1, hnone.2, htraffic⟩, fun inst hinst => ?_⟩
      rcases hothers inst hinst with hid | hon | ⟨d', hd', hid, hdrained⟩
      · exact .inr ⟨d, List.mem_cons_self, hid.symm, htraffic⟩
      · exact .inl hon
      · exact .inr ⟨d', List.mem_cons_of_mem _ hd', hid, hdrained⟩

def AllOn (s : State) : Prop := ∀ inst ∈ s.instances, inst.traffic = true

/-- What stands in the way of the reconciliation, when no call fails. -/
def Stuck (journal : List UpgradeJournalEntry) (first : List DeploymentInstance) : Prop :=
  (∃ entry ∈ journal, validateUpgradeJournalEntry entry ≠ .ok ()) ∨
    ∃ d ∈ first, (∀ entry ∈ journal, entry.instanceId ≠ d.id) ∧ d.healthy = false ∧ d.trafficEnabled = some false

theorem reconcileInterrupted_meets {journal : List UpgradeJournalEntry} {first : List DeploymentInstance} :
    Meets ok (fun s => s.journal = journal ∧ Untouched deployed s ∧ ToRecover first s) (reconcileInterrupted first healthTimeoutMs)
      ⟨fun _ s => Untouched deployed s ∧ AllOn s, fun _ s => s.deployments = deployed ∧ (Fails ok ∨ (Stuck journal first ∧ ToRecover first s)),
        fun s => s.deployments = deployed ∧ Fails ok⟩ := by
  unfold reconcileInterrupted
  apply Meets.bind fun read s => read = journal ∧ Untouched deployed s ∧ ToRecover first s
  · apply ask_meets
    · rintro answer s - hs
      exact hs
    · rintro s ⟨-, hs, -⟩ hfails
      exact ⟨fun _ => ⟨hs.deployments, .inl hfails⟩, hs.deployments, hfails⟩
  intro read
  apply Meets.bind fun latest s => latestUpgradeStates journal = .ok latest ∧ Untouched deployed s ∧ ToRecover first s
  · apply lift_meets
    · rintro latest hlatest s ⟨rfl, hs⟩
      exact ⟨hlatest, hs⟩
    · rintro message herror s ⟨rfl, hs, hdrained⟩
      refine ⟨hs.deployments, .inr ⟨.inl ?_, hdrained⟩⟩
      by_contra hall
      push Not at hall
      obtain ⟨latest, hlatest⟩ := latest_ok hall
      rw [hlatest] at herror
      cases herror
  intro latest
  refine Meets.given fun hlatest => ?_
  have hloop : Meets ok (fun s => (∀ d ∈ first, d ∈ first) ∧ Untouched deployed s ∧ ToRecover first s)
        (first.forM (reconcileInstance latest healthTimeoutMs))
        ⟨fun _ s => Untouched deployed s ∧ AllOn s, fun _ s => s.deployments = deployed ∧ (Fails ok ∨ (Stuck journal first ∧ ToRecover first s)),
          fun s => s.deployments = deployed ∧ Fails ok⟩ := by
    apply Meets.forM fun todo s => (∀ d ∈ todo, d ∈ first) ∧ Untouched deployed s ∧ ToRecover todo s
    · intro d rest
      refine Meets.given fun hfirst => (reconcileInstance_meets (fun _ entry hentry => (latest_entry hlatest entry hentry).1) d rest).weaken (fun _ => id) ?_ ?_ fun _ => id
      · intro _ s hs
        exact ⟨fun d' hd' => hfirst d' (List.mem_cons_of_mem _ hd'), hs⟩
      · rintro _ s ⟨hdeployed, hfails⟩
        refine ⟨hdeployed, hfails.imp_right ?_⟩
        rintro ⟨habandoned, hdrained⟩
        have hnone := (latest_none hlatest).mp habandoned.1
        refine ⟨.inr ⟨d, hfirst d List.mem_cons_self, hnone, habandoned.2⟩, fun inst hinst => (hdrained inst hinst).imp_right ?_⟩
        rintro ⟨d', hd', htraffic⟩
        exact ⟨d', hfirst d' hd', htraffic⟩
    · rintro s ⟨-, hs, hdrained⟩
      refine ⟨hs, fun inst hinst => (hdrained inst hinst).resolve_right ?_⟩
      rintro ⟨d, hd, -⟩
      cases hd
  exact hloop.of_pre fun s hs => ⟨fun _ => id, hs⟩

end Reconciliation

/-! ### The upgrade of one instance -/

/-- How an instance stands to what it was before the upgrade. -/
structure Same (b w : Instance) : Prop where
  id : w.id = b.id
  zone : w.zone = b.zone

structure Altered (changed : List Text) (b w : Instance) : Prop extends Same b w where
  untouched : b.id ∉ changed → w = b

def Upgraded (target : Text) (w : Instance) : Prop := w.version = target ∧ w.traffic = true

/-- The instance at hand is as told, and the others that were changed are upgraded. -/
structure Working (target : Text) (changed : List Text) (instanceId : Text) (now : Instance → Instance → Prop) (b w : Instance) : Prop
    extends Altered changed b w where
  upgraded : b.id ∈ changed → b.id ≠ instanceId → Upgraded target w
  now : b.id = instanceId → now b w

def Certified (compatibility : VersionCompatibilityMatrix) (deployed : List Deployment) (s : State) : Prop :=
  ∀ d ∈ s.deployments, d ∈ deployed ∨ compatibility.assertCompatible d.fromVersion d.toVersion = .ok ()

theorem forall₂_touch {R R' : Instance → Instance → Prop} {base ws : List Instance} {instanceId : Text} {effect : Instance → Instance}
    (h : List.Forall₂ R base ws) (hR : ∀ b w, R b w → R' b (if w.id = instanceId then effect w else w)) :
    List.Forall₂ R' base (ws.map fun w => if w.id = instanceId then effect w else w) := by
  rw [List.forall₂_map_right_iff]
  exact h.imp hR

section Working
variable {target instanceId : Text} {changed : List Text} {now now' : Instance → Instance → Prop} {base : List Instance} {s : State}

theorem Working.touch {b w : Instance} {effect : Instance → Instance} (h : Working target changed instanceId now b w)
    (hmem : instanceId ∈ changed) (hsame : ∀ w, Same w (effect w)) (hnow : now b w → now' b (effect w)) :
    Working target changed instanceId now' b (if w.id = instanceId then effect w else w) := by
  by_cases hid : w.id = instanceId
  · rw [if_pos hid]
    have hb : b.id = instanceId := h.id.symm.trans hid
    exact {
      id := (hsame w).id.trans h.id
      zone := (hsame w).zone.trans h.zone
      untouched := fun hnot => absurd (hb ▸ hmem) hnot
      upgraded := fun _ hne => absurd hb hne
      now := fun _ => hnow (h.now hb) }
  · rw [if_neg hid]
    exact { h with now := fun hb => absurd (h.id.trans hb) hid }

theorem Altered.touch {b w : Instance} {effect : Instance → Instance} (h : Altered changed b w)
    (hmem : instanceId ∈ changed) (hsame : ∀ w, Same w (effect w)) : Altered changed b (if w.id = instanceId then effect w else w) := by
  by_cases hid : w.id = instanceId
  · rw [if_pos hid]
    exact {
      id := (hsame w).id.trans h.id
      zone := (hsame w).zone.trans h.zone
      untouched := fun hnot => absurd ((h.id.symm.trans hid) ▸ hmem) hnot }
  · rw [if_neg hid]
    exact h

end Working

/-- The instances of the adapter, and what the call of `execute` has told so far. -/
structure Upgrading (compatibility : VersionCompatibilityMatrix) (deployed : List Deployment) (base : List Instance)
    (R : Instance → Instance → Prop) (s : State) : Prop where
  world : List.Forall₂ R base s.instances
  certified : Certified compatibility deployed s
  failures : s.rollbackFailures = []
  reconciled : s.reconciled = base
  changed : ∀ id ∈ s.changed, ∃ b ∈ base, b.id = id

structure Remaining (compatibility : VersionCompatibilityMatrix) (base : List Instance) (target : Text) (changed : List Text)
    (todo : List DeploymentInstance) : Prop where
  pending : ∀ b ∈ base, b.version ≠ target → b.id ∈ changed ∨ ∃ d ∈ todo, d.id = b.id
  known : ∀ d ∈ todo, compatibility.assertCompatible d.version target = .ok () ∧ ∃ b ∈ base, b.id = d.id ∧ b.version = d.version
  fresh : ∀ d ∈ todo, d.id ∉ changed
  nodup : (todo.map (·.id)).Nodup

section Upgrade
variable {compatibility : VersionCompatibilityMatrix} {deployed : List Deployment} {base : List Instance} {target : Text}
  {changed : List Text} {instanceId : Text} {now now' : Instance → Instance → Prop} {plan : RollingUpgradePlan}

def Forward (compatibility : VersionCompatibilityMatrix) (deployed : List Deployment) (base : List Instance) (target : Text)
    (todo : List DeploymentInstance) (s : State) : Prop :=
  Remaining compatibility base target s.changed todo ∧
    Upgrading compatibility deployed base (fun b w => Altered s.changed b w ∧ (b.id ∈ s.changed → Upgraded target w)) s

def Cut (ok : Answer → Prop) (compatibility : VersionCompatibilityMatrix) (deployed : List Deployment) (s : State) : Prop :=
  Certified compatibility deployed s ∧ Fails ok

def AtWork (compatibility : VersionCompatibilityMatrix) (deployed : List Deployment) (base : List Instance) (target : Text)
    (changed : List Text) (instanceId : Text) (now : Instance → Instance → Prop) (s : State) : Prop :=
  s.changed = changed ∧ Upgrading compatibility deployed base (Working target changed instanceId now) s

def Halted (compatibility : VersionCompatibilityMatrix) (deployed : List Deployment) (base : List Instance) (s : State) : Prop :=
  Upgrading compatibility deployed base (Altered s.changed) s

variable {s : State} {todo : List DeploymentInstance}

theorem AtWork.halted (h : AtWork compatibility deployed base target changed instanceId now s) :
    Halted compatibility deployed base s := by
  obtain ⟨rfl, h⟩ := h
  exact { h with world := h.world.imp fun _ _ hw => hw.toAltered }

theorem append_atWork {targetVersion id originalVersion : Text} {status : UpgradeJournalStatus} {error : Option Text} :
    Meets ok (AtWork compatibility deployed base target changed instanceId now) (append targetVersion id originalVersion status error)
      ⟨fun _ => AtWork compatibility deployed base target changed instanceId now, fun _ => Halted compatibility deployed base,
        Cut ok compatibility deployed⟩ := by
  have hkeep : ∀ s journal, AtWork compatibility deployed base target changed instanceId now s →
      AtWork compatibility deployed base target changed instanceId now { s with journal } :=
    fun s journal hs => ⟨hs.1, hs.2.1, hs.2.2, hs.2.3, hs.2.4, hs.2.5⟩
  exact append_meets hkeep fun s journal hs hfails => ⟨fun _ => (hkeep s journal hs).halted, hs.2.certified, hfails⟩

theorem sideEffect_atWork {effect : Instance → Instance} (hmem : instanceId ∈ changed) (hsame : ∀ w, Same w (effect w))
    (hnow : ∀ b w, now b w → now' b (effect w)) :
    Meets ok (AtWork compatibility deployed base target changed instanceId now) (sideEffect instanceId effect)
      ⟨fun _ => AtWork compatibility deployed base target changed instanceId now', fun _ => Halted compatibility deployed base,
        Cut ok compatibility deployed⟩ := by
  apply sideEffect_meets
  · rintro s ⟨hchanged, hs⟩
    exact ⟨hchanged, { hs with world := forall₂_touch hs.world fun b w hw => hw.touch hmem hsame (hnow b w) }⟩
  · rintro s version traffic ⟨rfl, hs⟩ hfails
    have hpartly : ∀ w, Same w { w with version, traffic } := fun w => ⟨rfl, rfl⟩
    have hhalted : Halted compatibility deployed base (s.touch instanceId fun inst => { inst with version, traffic }) :=
      { hs with world := forall₂_touch hs.world fun b w hw => hw.toAltered.touch hmem hpartly }
    exact ⟨fun _ => hhalted, hs.certified, hfails⟩

theorem deploy_atWork (hnodup : (base.map (·.id)).Nodup) (hmem : instanceId ∈ changed) {version : Text}
    (hcompatible : compatibility.assertCompatible version target = .ok ()) (hknown : ∃ b ∈ base, b.id = instanceId ∧ b.version = version) :
    Meets ok (AtWork compatibility deployed base target changed instanceId fun b w => w.version = b.version) (deploy instanceId target)
      ⟨fun _ => AtWork compatibility deployed base target changed instanceId fun _ w => w.version = target,
        fun _ => Halted compatibility deployed base, Cut ok compatibility deployed⟩ := by
  unfold deploy
  apply Meets.bind fun _ => AtWork compatibility deployed base target changed instanceId fun b w => w.version = b.version
  · apply Meets.modify
    rintro s ⟨hchanged, hs⟩
    refine ⟨hchanged, { hs with certified := fun d hd => ?_ }⟩
    rcases List.mem_append.mp hd with hnew | hold
    · obtain ⟨w, hw, rfl⟩ := List.mem_map.mp hnew
      obtain ⟨hw, hid⟩ := List.mem_filter.mp hw
      obtain ⟨b, hb, hworking⟩ := Order.forall₂_right hs.world hw
      obtain ⟨b', hb', hid', hversion⟩ := hknown
      have hbid : b.id = instanceId := hworking.id.symm.trans (of_decide_eq_true hid)
      obtain rfl := List.inj_on_of_nodup_map hnodup hb hb' (hbid.trans hid'.symm)
      refine .inr ?_
      dsimp only
      rw [hworking.now hbid, hversion]
      exact hcompatible
    · exact hs.certified d hold
  · intro _
    exact sideEffect_atWork hmem (fun w => ⟨rfl, rfl⟩) fun _ _ _ => rfl

theorem emit_keeps {inv : State → Prop} {event : UpgradeEvent} {post : Post State Text Unit} (hpost : post.done () = inv)
    (h : ∀ s events, inv s → inv { s with events }) : Meets ok inv (emit event) post := by
  apply emit_meets
  rw [hpost]
  exact h

theorem forward_events (s : State) (events : List UpgradeEvent)
    (h : Forward compatibility deployed base target todo s) : Forward compatibility deployed base target todo { s with events } :=
  ⟨h.1, h.2.1, h.2.2, h.2.3, h.2.4, h.2.5⟩

theorem halted_events (s : State) (events : List UpgradeEvent) (h : Halted compatibility deployed base s) :
    Halted compatibility deployed base { s with events } :=
  ⟨h.1, h.2, h.3, h.4, h.5⟩

theorem AtWork.forward {d : DeploymentInstance} {before : List Text}
    (hremaining : Remaining compatibility base target before (d :: todo))
    (h : AtWork compatibility deployed base target (before ++ [d.id]) d.id (fun _ w => Upgraded target w) s) :
    Forward compatibility deployed base target todo s := by
  obtain ⟨hchanged, h⟩ := h
  obtain ⟨hd, hnodup⟩ := List.nodup_cons.mp (List.map_cons ▸ hremaining.nodup)
  refine ⟨hchanged ▸ ⟨fun b hb hne => ?_, fun d' hd' => hremaining.known d' (List.mem_cons_of_mem _ hd'), fun d' hd' => ?_, hnodup⟩,
    { h with world := h.world.imp fun b w hw => ⟨hchanged ▸ hw.toAltered, fun hmem => ?_⟩ }⟩
  · rcases hremaining.pending b hb hne with hmem | ⟨d', hd', hid⟩
    · exact .inl (List.mem_append_left _ hmem)
    · rcases List.mem_cons.mp hd' with rfl | hrest
      · exact .inl (List.mem_append_right _ (List.mem_singleton.mpr hid.symm))
      · exact .inr ⟨d', hrest, hid⟩
  · rw [List.mem_append, List.mem_singleton]
    rintro (hmem | hid)
    · exact hremaining.fresh d' (List.mem_cons_of_mem _ hd') hmem
    · exact hd (List.mem_map.mpr ⟨d', hd', hid⟩)
  · rw [hchanged] at hmem
    by_cases hid : b.id = d.id
    · exact hw.now hid
    · exact hw.upgraded hmem hid

theorem forward_atWork {d : DeploymentInstance} {before : List Text}
    (hremaining : Remaining compatibility base target before (d :: todo)) (hchanged : s.changed = before)
    (h : Upgrading compatibility deployed base (fun b w => Altered before b w ∧ (b.id ∈ before → Upgraded target w)) s) :
    AtWork compatibility deployed base target (before ++ [d.id]) d.id (fun b w => w = b) { s with changed := s.changed ++ [d.id] } := by
  have hfresh := hremaining.fresh d List.mem_cons_self
  refine ⟨by rw [hchanged], { h with world := h.world.imp fun b w hw => ?_, changed := fun id hid => ?_ }⟩
  · obtain ⟨haltered, hupgraded⟩ := hw
    exact {
      toSame := haltered.toSame
      untouched := fun hnot => haltered.untouched fun hmem => hnot (List.mem_append_left _ hmem)
      upgraded := fun hmem hne => hupgraded ((List.mem_append.mp hmem).resolve_right fun hid => hne (List.mem_singleton.mp hid))
      now := fun hid => haltered.untouched (hid ▸ hfresh) }
  · rcases List.mem_append.mp hid with hold | hnew
    · exact h.changed id hold
    · obtain ⟨-, b, hb, hbid, -⟩ := hremaining.known d List.mem_cons_self
      exact ⟨b, hb, hbid.trans (List.mem_singleton.mp hnew).symm⟩

theorem applyInstance_meets (hnodup : (base.map (·.id)).Nodup) (stage : UpgradeStage) (d : DeploymentInstance)
    (todo : List DeploymentInstance) :
    Meets ok (Forward compatibility deployed base plan.targetVersion (d :: todo)) (applyInstance plan stage d)
      ⟨fun _ => Forward compatibility deployed base plan.targetVersion todo, fun _ => Halted compatibility deployed base,
        Cut ok compatibility deployed⟩ := by
  apply Meets.freeze State.changed
  intro before
  dsimp only [applyInstance]
  let ready : State → Prop := fun s => Remaining compatibility base plan.targetVersion before (d :: todo) ∧ s.changed = before ∧
    Upgrading compatibility deployed base (fun b w => Altered before b w ∧ (b.id ∈ before → Upgraded plan.targetVersion w)) s
  have hhalted : ∀ s, ready s → Halted compatibility deployed base s := by
    rintro s ⟨-, rfl, hs⟩
    exact { hs with world := hs.world.imp fun _ _ hw => hw.1 }
  apply Meets.bind fun _ => ready
  · apply emit_meets
    rintro s events ⟨rfl, hremaining, hs⟩
    exact ⟨hremaining, rfl, hs.1, hs.2, hs.3, hs.4, hs.5⟩
  intro _
  apply Meets.tryCatch fun _ => Halted compatibility deployed base
  · apply Meets.bind fun _ => ready
    · have hkeep : ∀ s journal, ready s → ready { s with journal } :=
        fun s journal hs => ⟨hs.1, hs.2.1, hs.2.2.1, hs.2.2.2, hs.2.2.3, hs.2.2.4, hs.2.2.5⟩
      exact append_meets hkeep fun s journal hs hfails => ⟨fun _ => hhalted _ (hkeep s journal hs), hs.2.2.certified, hfails⟩
    intro _
    refine Meets.given fun hremaining => ?_
    have hmem : d.id ∈ before ++ [d.id] := List.mem_append_right _ (List.mem_singleton.mpr rfl)
    obtain ⟨hcompatible, hknown⟩ := hremaining.known d List.mem_cons_self
    apply Meets.bind fun _ => AtWork compatibility deployed base plan.targetVersion (before ++ [d.id]) d.id fun b w => w = b
    · apply Meets.modify
      rintro s ⟨hchanged, hs⟩
      exact forward_atWork hremaining hchanged hs
    intro _
    apply Meets.bind fun _ => AtWork compatibility deployed base plan.targetVersion (before ++ [d.id]) d.id fun b w => w.version = b.version
    · exact sideEffect_atWork hmem (fun w => ⟨rfl, rfl⟩) fun b w heq => by rw [heq]
    intro _
    apply Meets.bind _ (deploy_atWork hnodup hmem hcompatible hknown)
    intro _
    apply Meets.bind _ append_atWork
    intro _
    apply Meets.bind fun _ => AtWork compatibility deployed base plan.targetVersion (before ++ [d.id]) d.id fun _ w => w.version = plan.targetVersion
    · exact ask_meets (fun _ _ _ => id) fun s hs hfails => ⟨fun _ => hs.halted, hs.2.certified, hfails⟩
    intro healthy
    cases healthy with
    | false => exact Meets.throw fun s hs => hs.halted
    | true =>
      apply Meets.bind _ append_atWork
      intro _
      apply Meets.bind fun _ => AtWork compatibility deployed base plan.targetVersion (before ++ [d.id]) d.id fun _ w => Upgraded plan.targetVersion w
      · exact sideEffect_atWork hmem (fun w => ⟨rfl, rfl⟩) fun b w heq => ⟨heq, rfl⟩
      intro _
      apply Meets.bind _ append_atWork
      intro _
      apply emit_meets
      intro s events hs
      exact forward_events s events (hs.forward hremaining)
  · intro error
    apply Meets.bind fun _ => Halted compatibility deployed base
    · exact emit_keeps rfl halted_events
    intro _
    exact Meets.throw fun _ => id

end Upgrade

/-! ### Undoing the changes -/

def Known (originals : List (Text × Text)) (b : Instance) : Prop := b.traffic = true ∧ originals.lookup b.id = some b.version

/-- Unless a call failed, what is not still to be undone is as before. -/
structure Undoing (originals : List (Text × Text)) (changed todo failures : List Text) (now : Instance → Instance → Prop)
    (b w : Instance) : Prop extends Altered changed b w where
  known : Known originals b
  restored : b.id ∈ changed → b.id ∉ todo → failures = [] → w = b
  now : now b w

structure Restoring (ok : Answer → Prop) (compatibility : VersionCompatibilityMatrix) (deployed : List Deployment) (base : List Instance)
    (originals : List (Text × Text)) (changed todo : List Text) (now : Instance → Instance → Prop) (s : State) : Prop where
  noted : s.changed = changed
  certified : Certified compatibility deployed s
  reconciled : s.reconciled = base
  failures : s.rollbackFailures ≠ [] → Fails ok
  world : List.Forall₂ (Undoing originals changed todo s.rollbackFailures now) base s.instances

section Restoring
variable {compatibility : VersionCompatibilityMatrix} {deployed : List Deployment} {base : List Instance} {originals : List (Text × Text)}
  {changed todo rest : List Text} {instanceId : Text} {now now' : Instance → Instance → Prop} {plan : RollingUpgradePlan} {s : State}

theorem Restoring.failed (h : Restoring ok compatibility deployed base originals changed todo now s) (hfails : Fails ok) (message : Text) :
    Restoring ok compatibility deployed base originals changed rest (fun _ _ => True)
      { s with rollbackFailures := s.rollbackFailures ++ [message] } where
  noted := h.noted
  certified := h.certified
  reconciled := h.reconciled
  failures _ := hfails
  world := h.world.imp fun b w hw =>
    { toAltered := hw.toAltered
      known := hw.known
      restored := fun _ _ hnone => absurd hnone (by simp)
      now := trivial }

theorem Restoring.weaken (h : Restoring ok compatibility deployed base originals changed todo now s)
    (hrestored : ∀ b w, Undoing originals changed todo s.rollbackFailures now b w → b.id ∈ changed → b.id ∉ rest → s.rollbackFailures = [] → w = b) :
    Restoring ok compatibility deployed base originals changed rest (fun _ _ => True) s :=
  { h with world := h.world.imp fun b w hw => { hw with restored := hrestored b w hw, now := trivial } }

theorem restoring_journal (journal : List UpgradeJournalEntry) (h : Restoring ok compatibility deployed base originals changed todo now s) :
    Restoring ok compatibility deployed base originals changed todo now { s with journal } :=
  ⟨h.1, h.2, h.3, h.4, h.5⟩

theorem restoring_events (events : List UpgradeEvent) (h : Restoring ok compatibility deployed base originals changed todo now s) :
    Restoring ok compatibility deployed base originals changed todo now { s with events } :=
  ⟨h.1, h.2, h.3, h.4, h.5⟩

theorem sideEffect_restoring {effect : Instance → Instance} (hmem : instanceId ∈ changed) (hsame : ∀ w, Same w (effect w))
    (hnow : ∀ b w, Known originals b → Same b w → now b w → b.id = instanceId → now' b (effect w))
    (hother : ∀ b w, b.id ≠ instanceId → now' b w) :
    Meets ok (Restoring ok compatibility deployed base originals changed (instanceId :: rest) now) (sideEffect instanceId effect)
      ⟨fun _ => Restoring ok compatibility deployed base originals changed (instanceId :: rest) now',
        fun _ s => Restoring ok compatibility deployed base originals changed (instanceId :: rest) (fun _ _ => True) s ∧ Fails ok,
        Cut ok compatibility deployed⟩ := by
  have htouch : ∀ {effect : Instance → Instance} {now' : Instance → Instance → Prop} {failures : List Text} (b w : Instance),
      (∀ w, Same w (effect w)) → (∀ b w, Known originals b → Same b w → now b w → b.id = instanceId → now' b (effect w)) →
      (∀ b w, b.id ≠ instanceId → now' b w) → Undoing originals changed (instanceId :: rest) failures now b w →
      Undoing originals changed (instanceId :: rest) failures now' b (if w.id = instanceId then effect w else w) := by
    intro effect now' failures b w hsame hnow hother hw
    refine { toAltered := hw.toAltered.touch hmem hsame, known := hw.known, restored := fun hb hnot hnone => ?_, now := ?_ }
    · rw [if_neg]
      · exact hw.restored hb hnot hnone
      · intro hid
        exact hnot (List.mem_cons.mpr (.inl (hw.id.symm.trans hid)))
    · by_cases hid : w.id = instanceId
      · rw [if_pos hid]
        exact hnow b w hw.known hw.toSame hw.now (hw.id.symm.trans hid)
      · rw [if_neg hid]
        exact hother b w fun hb => hid (hw.id.trans hb)
  apply sideEffect_meets
  · intro s hs
    exact { hs with world := forall₂_touch hs.world fun b w => htouch b w hsame hnow hother }
  · intro s version traffic hs hfails
    have hpartly : ∀ w, Same w { w with version, traffic } := fun w => ⟨rfl, rfl⟩
    refine ⟨fun _ => ⟨?_, hfails⟩, hs.certified, hfails⟩
    exact { hs with world := forall₂_touch hs.world fun b w => htouch b w hpartly (fun _ _ _ _ _ _ => trivial) fun _ _ _ => trivial }

theorem tell_restoring {targetVersion originalVersion : Text} {status : UpgradeJournalStatus} {error : Option Text}
    {message : Text → Text} {threw : Text → State → Prop} (hdone : ∀ s, Restoring ok compatibility deployed base originals changed todo now s →
      Restoring ok compatibility deployed base originals changed rest (fun _ _ => True) s) :
    Meets ok (Restoring ok compatibility deployed base originals changed todo now)
      (Program.tryCatch (append targetVersion instanceId originalVersion status error) fun error => rollbackFailure (message error))
      ⟨fun _ => Restoring ok compatibility deployed base originals changed rest (fun _ _ => True), threw,
        Cut ok compatibility deployed⟩ := by
  apply Meets.tryCatch fun _ s => Restoring ok compatibility deployed base originals changed todo now s ∧ Fails ok
  · refine append_meets (fun s journal hs => hdone _ (restoring_journal journal hs)) fun s journal hs hfails => ?_
    exact ⟨fun _ => ⟨restoring_journal journal hs, hfails⟩, hs.certified, hfails⟩
  · intro error
    exact Meets.modify fun s hs => hs.1.failed hs.2 _

theorem rollbackInstance_meets {threw : Text → State → Prop} (hmem : instanceId ∈ changed) :
    Meets ok (Restoring ok compatibility deployed base originals changed (instanceId :: rest) fun _ _ => True)
      (rollbackInstance plan originals instanceId)
      ⟨fun _ => Restoring ok compatibility deployed base originals changed rest fun _ _ => True, threw,
        Cut ok compatibility deployed⟩ := by
  dsimp only [rollbackInstance]
  apply Meets.bind fun _ => Restoring ok compatibility deployed base originals changed (instanceId :: rest) fun _ _ => True
  · exact emit_meets fun s events hs => restoring_events events hs
  intro _
  apply Meets.bind _ (tell_restoring fun _ => id)
  intro _
  apply Meets.tryCatch fun _ s =>
    Restoring ok compatibility deployed base originals changed (instanceId :: rest) (fun _ _ => True) s ∧ Fails ok
  · apply Meets.bind fun _ => Restoring ok compatibility deployed base originals changed (instanceId :: rest)
      fun b w => b.id = instanceId → w.version = b.version
    · refine sideEffect_restoring hmem (fun w => ⟨rfl, rfl⟩) (fun b w hknown _ _ hid _ => ?_) fun b w hne hid => absurd hid hne
      rw [← hid, hknown.2]
      rfl
    intro _
    apply Meets.bind fun _ => Restoring ok compatibility deployed base originals changed (instanceId :: rest) fun b w => b.id = instanceId → w = b
    · refine sideEffect_restoring hmem (fun w => ⟨rfl, rfl⟩) (fun b w hknown hsame hversion hid _ => ?_) fun b w hne hid => absurd hid hne
      obtain ⟨id, zone, version, traffic⟩ := b
      obtain ⟨rfl, -⟩ := hknown
      rw [hversion hid, hsame.id, hsame.zone]
    intro _
    apply Meets.bind fun _ => Restoring ok compatibility deployed base originals changed rest fun _ _ => True
    · refine tell_restoring fun s hs => ?_
      refine hs.weaken fun b w hw hb hnot hnone => ?_
      by_cases hid : b.id = instanceId
      · exact hw.now hid
      · exact hw.restored hb (fun hor => (List.mem_cons.mp hor).elim hid hnot) hnone
    intro _
    exact emit_meets fun s events hs => restoring_events events hs
  · intro error
    apply Meets.bind fun _ => Restoring ok compatibility deployed base originals changed rest fun _ _ => True
    · exact Meets.modify fun s hs => hs.1.failed hs.2 _
    intro _
    apply Meets.bind _ (tell_restoring fun _ => id)
    intro _
    exact emit_meets fun s events hs => restoring_events events hs

end Restoring

end OxScada.Scaling.Upgrade
