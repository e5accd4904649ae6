import OxScada.Edge.Entries
import OxScada.Scaling.Migrations

/-! Runs of the migration runner. Migrations are undone in reverse order while no rollback goes
on past a `down` that threw and the journal tells what the runner called. -/

namespace OxScada.Scaling.Migrations
open OxScada.Bytes OxScada.Edge OxScada.Runs

/-! ### The journal -/

section Journal
variable {journal : MigrationJournal} {m n : Text} {status : MigrationJournalStatus} {error : Option Text}

structure Numbered (journal : MigrationJournal) : Prop where
  sorted : journal.Pairwise (·.sequence ≤ ·.sequence)
  bounded : ∀ entry ∈ journal, entry.sequence ≤ journal.length

theorem numbered_nil : Numbered [] := ⟨List.Pairwise.nil, fun entry h => (by cases h)⟩

theorem Numbered.append (h : Numbered journal) : Numbered (journal.append m status error) where
  sorted := by
    refine List.pairwise_append.mpr ⟨h.sorted, List.pairwise_singleton _ _, ?_⟩
    intro entry hentry new hnew
    obtain rfl := List.mem_singleton.mp hnew
    exact Nat.le_succ_of_le (h.bounded entry hentry)
  bounded := by
    intro entry hentry
    have hlength : (journal.append m status error).length = journal.length + 1 := List.length_append
    rw [hlength]
    rcases List.mem_append.mp hentry with hold | hnew
    · exact Nat.le_succ_of_le (h.bounded entry hold)
    · obtain rfl := List.mem_singleton.mp hnew
      exact le_rfl

theorem Numbered.latest_eq (h : Numbered journal) :
    latestMigrationStates journal = journal.foldl (fun states entry => mapSet states entry.migrationId entry) [] := by
  rw [latestMigrationStates, List.Pairwise.insertionSort_eq h.sorted]

theorem Numbered.latest_append (h : Numbered journal) :
    latestMigrationStates (journal.append m status error) = mapSet (latestMigrationStates journal) m
      { migrationId := m, status, sequence := journal.length + 1, error } := by
  rw [h.append.latest_eq, h.latest_eq, MigrationJournal.append, List.foldl_append]
  rfl

theorem Numbered.statusOf_append (h : Numbered journal) :
    statusOf (journal.append m status error) = Function.update (statusOf journal) m (some status) := by
  funext id
  rw [statusOf, h.latest_append, lookup_mapSet, Function.update_apply]
  by_cases hid : id = m
  · rw [if_pos hid, if_pos hid]
    rfl
  · rw [if_neg hid, if_neg hid]
    rfl

theorem keys_foldl_nodup {entries : MigrationJournal} {states : List (Text × MigrationJournalEntry)}
    (h : (states.map (·.1)).Nodup) :
    ((entries.foldl (fun states entry => mapSet states entry.migrationId entry) states).map (·.1)).Nodup := by
  induction entries generalizing states with
  | nil => exact h
  | cons entry entries ih => exact ih (mapSet_keys_nodup h)

theorem latest_keys_nodup : ((latestMigrationStates journal).map (·.1)).Nodup := keys_foldl_nodup List.nodup_nil

theorem mem_latest {entry : MigrationJournalEntry} :
    (m, entry) ∈ latestMigrationStates journal ↔ (latestMigrationStates journal).lookup m = some entry := by
  refine ⟨fun hmem => lookup_of_mem hmem fun v hv => ?_, lookup_mem⟩
  have hpair := List.inj_on_of_nodup_map latest_keys_nodup hv hmem rfl
  exact (Prod.ext_iff.mp hpair).2

theorem statusOf_eq_some : statusOf journal m = some status ↔
    ∃ entry, (m, entry) ∈ latestMigrationStates journal ∧ entry.status = status := by
  rw [statusOf, Option.map_eq_some_iff]
  exact exists_congr fun entry => and_congr_left' mem_latest.symm

theorem mem_filter_keys {p : MigrationJournalStatus → Bool} :
    m ∈ ((latestMigrationStates journal).filter (p ·.2.status)).map (·.1) ↔ ∃ status, statusOf journal m = some status ∧ p status = true := by
  rw [List.mem_map]
  constructor
  · rintro ⟨⟨id, entry⟩, hmem, rfl⟩
    obtain ⟨hentry, hp⟩ := List.mem_filter.mp hmem
    exact ⟨entry.status, statusOf_eq_some.mpr ⟨entry, hentry, rfl⟩, hp⟩
  · rintro ⟨status, hstatus, hp⟩
    obtain ⟨entry, hentry, rfl⟩ := statusOf_eq_some.mp hstatus
    exact ⟨(m, entry), List.mem_filter.mpr ⟨hentry, hp⟩, rfl⟩

theorem mem_currentApplied : m ∈ currentAppliedMigrations journal ↔ statusOf journal m = some .applied := by
  rw [currentAppliedMigrations, mem_filter_keys (p := fun status => decide (status = .applied))]
  constructor
  · rintro ⟨status, hstatus, hp⟩
    rw [hstatus, of_decide_eq_true hp]
  · intro h
    exact ⟨_, h, decide_eq_true rfl⟩

/-- Not settled: to be recovered before anything else is run. -/
def Incomplete (status : Option MigrationJournalStatus) : Prop := ∃ s, status = some s ∧ s.isIncomplete = true

theorem mem_incomplete : m ∈ incompleteMigrations journal ↔ Incomplete (statusOf journal m) := by
  rw [incompleteMigrations, ((List.perm_insertionSort _ _).map _).mem_iff, mem_filter_keys]
  rfl

theorem incomplete_nodup : (incompleteMigrations journal).Nodup := by
  rw [incompleteMigrations, ((List.perm_insertionSort _ _).map _).nodup_iff]
  exact latest_keys_nodup.sublist (List.filter_sublist.map _)

end Journal

/-! ### What a run may meet -/

def Phase.announcing : Phase → Option Text
  | .migrating m _ _ _ .appendStarted => some m
  | _ => none

/-- The migration that is journaled as started and not yet called. -/
def Phase.starting : Phase → Option Text
  | .migrating m _ _ _ .up => some m
  | _ => none

/-- The migration whose `down` was called and is not yet journaled as ended. -/
def Phase.downCalled : Phase → Option Text
  | .rollingBack _ m _ _ .downRunning => some m
  | .rollingBack _ m _ _ .appendRolledBack => some m
  | .rollingBack _ m _ _ (.appendFailed _) => some m
  | _ => none

def Phase.pastFailure : Phase → Bool
  | .rollingBack _ _ rest _ (.appendFailed _) => rest ≠ []
  | _ => false

/-- The journal is not left with a migration "started" over others that came up since its own
last `up`, nor "applied" when its `down` was called; and no rollback goes on past a `down`
that threw. -/
def Allowed (s : State) : Act → Prop
  | .append outcome =>
    (outcome.error ≠ none → outcome.kept = true → ∀ m ∈ s.phase.announcing, Ready s.calls m) ∧
      (outcome.kept = false → ∀ m ∈ s.phase.downCalled, statusOf s.journal m ≠ some .applied) ∧
      s.phase.pastFailure = false
  | .crash =>
    (∀ m ∈ s.phase.starting, Ready s.calls m) ∧ ∀ m ∈ s.phase.downCalled, statusOf s.journal m ≠ some .applied
  | _ => True

instance (s : State) (act : Act) : Decidable (Allowed s act) :=
  match act with
  | .append _ => inferInstanceAs (Decidable (_ ∧ _ ∧ _))
  | .crash => inferInstanceAs (Decidable (_ ∧ _))
  | .run => isTrue trivial
  | .entries _ => isTrue trivial
  | .call => isTrue trivial
  | .settle _ => isTrue trivial

/-! ### What the journal tells -/

abbrev Statuses := Text → Option MigrationJournalStatus

def Settled (status : Option MigrationJournalStatus) : Prop := status = none ∨ status = some .rolledBack

def Closed (migrations : List Text) (statuses : Statuses) : Prop :=
  ∀ before m after, migrations = before ++ m :: after → statuses m = some .applied → ∀ n ∈ before, statuses n = some .applied

/-- The journal tells the calls, but for the one that is starting and the one that is taken down. -/
structure Told (migrations : List Text) (statuses : Statuses) (calls : List (Call Text)) (starting downCalled : Option Text) : Prop where
  ordered : InOrder migrations calls
  ready : ∀ m, Incomplete (statuses m) → starting = some m ∨ Ready calls m
  closed : Closed migrations statuses
  absent : ∀ m, Settled (statuses m) → Absent calls m
  applied : ∀ m, statuses m = some .applied → downCalled = some m ∨ Applied calls m

section Told
variable {migrations before after : List Text} {statuses : Statuses} {calls : List (Call Text)} {starting downCalled : Option Text}
  {m n : Text} {status : MigrationJournalStatus}

theorem not_settled_applied : ¬ Settled (some .applied) := by
  rintro (h | h) <;> cases h

theorem Incomplete.not_settled {status : Option MigrationJournalStatus} (h : Incomplete status) : ¬ Settled status := by
  obtain ⟨s, rfl, hs⟩ := h
  rintro (h | h)
  · cases h
  · obtain rfl := Option.some.inj h
    cases hs

theorem Incomplete.not_applied {status : Option MigrationJournalStatus} (h : Incomplete status) : status ≠ some .applied := by
  obtain ⟨s, rfl, hs⟩ := h
  intro heq
  obtain rfl := Option.some.inj heq
  cases hs

theorem settled_or (status : Option MigrationJournalStatus) : Settled status ∨ Incomplete status ∨ status = some .applied := by
  cases status with
  | none => exact .inl (.inl rfl)
  | some status =>
    cases status with
    | applied => exact .inr (.inr rfl)
    | rolledBack => exact .inl (.inr rfl)
    | started | failed | rollbackStarted | rollbackFailed => exact .inr (.inl ⟨_, rfl, rfl⟩)

theorem split_unique {before' after' : List Text} (hnodup : migrations.Nodup) (h : migrations = before ++ m :: after)
    (h' : migrations = before' ++ m :: after') : before = before' ∧ after = after' := by
  rw [h] at hnodup
  have hbefore : m ∉ before := fun hmem => (List.nodup_append.mp hnodup).2.2 m hmem m List.mem_cons_self rfl
  have hafter : m ∉ after := (List.nodup_cons.mp (List.nodup_append.mp hnodup).2.1).1
  have heq := (List.append_cons_inj_of_notMem hbefore hafter).mp (h.symm.trans h')
  exact ⟨heq.1, heq.2.2⟩

theorem Closed.update_applied (h : Closed migrations statuses)
    (hbefore : ∀ before after, migrations = before ++ m :: after → ∀ n ∈ before, statuses n = some .applied) :
    Closed migrations (Function.update statuses m (some .applied)) := by
  intro before x after hsplit hx n hn
  have hold : statuses n = some .applied := by
    by_cases hxm : x = m
    · rw [hxm] at hsplit
      exact hbefore before after hsplit n hn
    · rw [Function.update_of_ne hxm] at hx
      exact h before x after hsplit hx n hn
  by_cases hnm : n = m
  · rw [hnm, Function.update_self]
  · rw [Function.update_of_ne hnm, hold]

theorem Closed.update (h : Closed migrations statuses) (hne : status ≠ .applied)
    (hafter : statuses m = some .applied → ∀ before after, migrations = before ++ m :: after → ∀ n ∈ after, statuses n ≠ some .applied) :
    Closed migrations (Function.update statuses m (some status)) := by
  intro before x after hsplit hx n hn
  have hxm : x ≠ m := by
    rintro rfl
    rw [Function.update_self] at hx
    exact hne (Option.some.inj hx)
  rw [Function.update_of_ne hxm] at hx
  have hold := h before x after hsplit hx
  have hnm : n ≠ m := by
    rintro rfl
    obtain ⟨front, back, rfl⟩ := List.append_of_mem hn
    refine hafter (hold n hn) front (back ++ x :: after) ?_ x (by simp) hx
    rw [hsplit, List.append_assoc]
    rfl
  rw [Function.update_of_ne hnm]
  exact hold n hn

theorem Told.append {starting' : Option Text} (h : Told migrations statuses calls none downCalled)
    (hdown : ∀ n, downCalled = some n → n = m)
    (hready : status.isIncomplete = true → starting' = some m ∨ Ready calls m)
    (habsent : status = .rolledBack → Absent calls m)
    (happlied : status = .applied → Applied calls m)
    (hclosed : Closed migrations (Function.update statuses m (some status))) :
    Told migrations (Function.update statuses m (some status)) calls starting' none where
  ordered := h.ordered
  closed := hclosed
  ready := by
    intro n hn
    by_cases hnm : n = m
    · rw [hnm, Function.update_self] at hn
      obtain ⟨s, hs, hincomplete⟩ := hn
      obtain rfl := Option.some.inj hs
      rw [hnm]
      exact hready hincomplete
    · rw [Function.update_of_ne hnm] at hn
      exact .inr ((h.ready n hn).resolve_left (by simp))
  absent := by
    intro n hn
    by_cases hnm : n = m
    · rw [hnm, Function.update_self] at hn
      rcases hn with hn | hn
      · cases hn
      · rw [hnm]
        exact habsent (Option.some.inj hn)
    · rw [Function.update_of_ne hnm] at hn
      exact h.absent n hn
  applied := by
    intro n hn
    by_cases hnm : n = m
    · rw [hnm, Function.update_self] at hn
      rw [hnm]
      exact .inr (happlied (Option.some.inj hn))
    · rw [Function.update_of_ne hnm] at hn
      refine .inr ((h.applied n hn).resolve_left fun hd => hnm (hdown n hd))

theorem Told.call {call : Call Text} (h : Told migrations statuses calls starting downCalled)
    (hpermitted : Permitted migrations calls call) (hopen : ¬ Settled (statuses call.of))
    (hdown : ∀ n, downCalled = some n → n = call.of) {downCalled' : Option Text}
    (happlied : statuses call.of = some .applied → downCalled' = some call.of)
    (hready : ∀ m, Incomplete (statuses m) → Ready (call :: calls) m) :
    Told migrations statuses (call :: calls) none downCalled' where
  ordered := ⟨hpermitted, h.ordered⟩
  closed := h.closed
  ready := fun m hm => .inr (hready m hm)
  absent := by
    intro m hm
    have hne : call.of ≠ m := by
      rintro rfl
      exact hopen hm
    exact (absent_cons hne).mpr (h.absent m hm)
  applied := by
    intro m hm
    by_cases heq : call.of = m
    · subst heq
      exact .inl (happlied hm)
    · refine .inr ((applied_cons heq).mpr ((h.applied m hm).resolve_left fun hd => heq (hdown m hd).symm))

theorem Told.ready_cons {call : Call Text} (h : Told migrations statuses calls none downCalled) (hkind : call.kind ≠ .up) :
    ∀ m, Incomplete (statuses m) → Ready (call :: calls) m :=
  fun m hm => ((h.ready m hm).resolve_left (by simp)).cons hkind

theorem Told.started (h : Told migrations statuses calls (some m) downCalled) (hready : Ready calls m) :
    Told migrations statuses calls none downCalled where
  __ := h
  ready := by
    intro n hn
    rcases h.ready n hn with hstarting | hn
    · obtain rfl := Option.some.inj hstarting
      exact .inr hready
    · exact .inr hn

theorem Told.ended (h : Told migrations statuses calls starting downCalled) (hne : ∀ m ∈ downCalled, statuses m ≠ some .applied) :
    Told migrations statuses calls starting none where
  __ := h
  applied := by
    intro n hn
    refine .inr ((h.applied n hn).resolve_left fun hd => ?_)
    exact hne n hd hn

end Told

/-! ### The invariant -/

def UpStage.Sound (status : Option MigrationJournalStatus) (calls : List (Call Text)) (m : Text) (above : List Text) : UpStage → Prop
  | .appendStarted => Settled status ∧ Unwinds calls above
  | .up => status = some .started ∧ Absent calls m ∧ Unwinds calls above
  | .upRunning => status = some .started ∧ Unwinds calls (m :: above)
  | .appendApplied => status = some .started ∧ Applied calls m ∧ Unwinds calls (m :: above)
  | .appendFailed _ => ¬ Settled status ∧ Unwinds calls (m :: above)

/-- The migrations before the one at hand are applied, and none after it is. -/
structure Migrating (migrations : List Text) (statuses : Statuses) (calls : List (Call Text)) (m : Text)
    (rest appliedPreviously appliedThisRun : List Text) (stage : UpStage) : Prop where
  nodup : migrations.Nodup
  split : ∃ old, migrations = old ++ appliedThisRun ++ m :: rest ∧ ∀ n ∈ old ++ appliedThisRun, statuses n = some .applied
  fresh : ∀ n ∈ rest, n ∉ appliedPreviously ∧ Settled (statuses n)
  complete : ∀ n, Incomplete (statuses n) → n = m
  stage : stage.Sound (statuses m) calls m appliedThisRun.reverse

def DownStage.Sound (calls : List (Call Text)) (m : Text) (rest failures : List Text) : DownStage → Prop
  | .appendRolledBack => Absent calls m ∧ Unwinds calls rest
  | .appendFailed _ => failures ≠ [] ∧ Unwinds calls (m :: rest)
  | _ => Unwinds calls (m :: rest)

def Caller.Sound (migrations : List Text) (statuses : Statuses) (m : Text) (rest : List Text) : Caller → Prop
  | .recoverIncomplete _ incomplete => rest = [] ∧ (m :: incomplete).Nodup ∧ ∀ n, Incomplete (statuses n) ↔ n ∈ m :: incomplete
  | .upFailed _ _ _ => ∃ old after, migrations = old ++ rest.reverse ++ m :: after ∧
      (∀ n ∈ old ++ rest.reverse, statuses n = some .applied) ∧ ∀ n ∈ after, statuses n ≠ some .applied

structure RollingBack (migrations : List Text) (statuses : Statuses) (calls : List (Call Text)) (caller : Caller) (m : Text)
    (rest failures : List Text) (stage : DownStage) : Prop where
  nodup : migrations.Nodup
  kept : ¬ Settled (statuses m)
  caller : caller.Sound migrations statuses m rest
  stage : stage.Sound calls m rest failures

def Phase.Sound (migrations : List Text) (statuses : Statuses) (calls : List (Call Text)) : Phase → Prop
  | .idle => True
  | .readIncomplete => migrations.Nodup
  | .readApplied => migrations.Nodup ∧ ∀ n, ¬ Incomplete (statuses n)
  | .migrating m rest appliedPreviously appliedThisRun stage =>
    Migrating migrations statuses calls m rest appliedPreviously appliedThisRun stage
  | .rollingBack caller m rest failures stage => RollingBack migrations statuses calls caller m rest failures stage

structure Sound (migrations : List Text) (s : State) : Prop where
  numbered : Numbered s.journal
  told : Told migrations (statusOf s.journal) s.calls s.phase.starting s.phase.downCalled
  phase : s.phase.Sound migrations (statusOf s.journal) s.calls

section Steps
variable {migrations : List Text} {s : State} {m : Text} {rest failures : List Text} {caller : Caller}

def Quiet (migrations : List Text) (s : State) : Prop :=
  Numbered s.journal ∧ Told migrations (statusOf s.journal) s.calls none none

theorem invalidMigration_none {seen ids : List Text} (h : invalidMigration seen ids = none) :
    ids.Nodup ∧ ∀ m ∈ ids, m ∉ seen := by
  induction ids generalizing seen with
  | nil => exact ⟨List.nodup_nil, fun m hm => (by cases hm)⟩
  | cons id ids ih =>
    unfold invalidMigration at h
    split_ifs at h with hbad
    obtain ⟨-, hseen⟩ := not_or.mp hbad
    obtain ⟨hnodup, hrest⟩ := ih h
    refine ⟨List.nodup_cons.mpr ⟨fun hmem => hrest id hmem List.mem_cons_self, hnodup⟩, ?_⟩
    intro m hm
    rcases List.mem_cons.mp hm with rfl | hm
    · exact hseen
    · exact fun hmem => hrest m hm (List.mem_cons_of_mem _ hmem)

theorem finish_sound (h : Quiet migrations s) {result : RunResult} : Sound migrations (s.finish result) where
  numbered := h.1
  told := h.2
  phase := trivial

/-- Going on in the loop of the run: what is applied is skipped, and nothing after the first
that is not applied is. -/
theorem migrateNext_sound (h : Quiet migrations s) (hnodup : migrations.Nodup) {old appliedPreviously appliedThisRun todo : List Text}
    (hsplit : migrations = old ++ appliedThisRun ++ todo)
    (happlied : ∀ n ∈ old ++ appliedThisRun, statusOf s.journal n = some .applied)
    (hknown : ∀ n ∈ todo, n ∈ appliedPreviously ↔ statusOf s.journal n = some .applied)
    (hcomplete : ∀ n, ¬ Incomplete (statusOf s.journal n))
    (hthis : appliedThisRun = [] ∨ ∀ n ∈ todo, n ∉ appliedPreviously)
    (hunwinds : Unwinds s.calls appliedThisRun.reverse) :
    Sound migrations (s.migrateNext appliedPreviously appliedThisRun todo) := by
  induction todo generalizing old with
  | nil => exact finish_sound h
  | cons m rest ih =>
    unfold State.migrateNext
    split_ifs with hm
    · -- skipped: it belongs to what was applied before the run
      obtain rfl := hthis.resolve_right fun hnone => hnone m List.mem_cons_self hm
      have hmapplied := (hknown m List.mem_cons_self).mp hm
      have hsplit' : migrations = old ++ [m] ++ [] ++ rest := by
        rw [hsplit]
        simp
      refine ih hsplit' ?_ (fun n hn => hknown n (List.mem_cons_of_mem m hn)) (.inl rfl)
      intro n hn
      rw [List.append_nil] at hn
      rcases List.mem_append.mp hn with hold | hnew
      · exact happlied n (List.mem_append_left _ hold)
      · rw [List.mem_singleton.mp hnew]
        exact hmapplied
    · have hmnot : statusOf s.journal m ≠ some .applied := fun heq => hm ((hknown m List.mem_cons_self).mpr heq)
      have hsettled : ∀ n, statusOf s.journal n ≠ some .applied → Settled (statusOf s.journal n) := by
        intro n hn
        exact (settled_or _).resolve_right fun hor => hor.elim (hcomplete n) hn
      refine ⟨h.1, h.2, hnodup, ⟨old, hsplit, happlied⟩, ?_, fun n hn => absurd hn (hcomplete n), hsettled m hmnot, hunwinds⟩
      intro n hn
      have hnnot : statusOf s.journal n ≠ some .applied := by
        intro heq
        obtain ⟨front, back, rfl⟩ := List.append_of_mem hn
        refine hmnot (h.2.closed (old ++ appliedThisRun ++ m :: front) n back ?_ heq m ?_)
        · rw [hsplit]
          simp
        · simp
      exact ⟨fun hmem => hnnot ((hknown n (List.mem_cons_of_mem m hn)).mp hmem), hsettled n hnnot⟩

theorem recoverNext_sound (h : Quiet migrations s) (hnodup : migrations.Nodup) {ids : List Text} (hids : ids.Nodup)
    (hincomplete : ∀ n, Incomplete (statusOf s.journal n) ↔ n ∈ ids) : Sound migrations (s.recoverNext migrations ids) := by
  cases ids with
  | nil => exact ⟨h.1, h.2, hnodup, fun n hn => (by cases (hincomplete n).mp hn)⟩
  | cons id rest =>
    have hid := (hincomplete id).mpr List.mem_cons_self
    dsimp only [State.recoverNext]
    split_ifs with hknown
    · have hready := (h.2.ready id hid).resolve_left (by simp)
      exact ⟨h.1, h.2, hnodup, hid.not_settled, ⟨rfl, hids, hincomplete⟩, unwinds_singleton hready⟩
    · exact finish_sound h

/-- What a rollback leaves: of a recovery that failed nowhere, the migration is settled. -/
def Caller.Left (statuses : Statuses) (failures : List Text) : Caller → Prop
  | .recoverIncomplete _ incomplete => failures = [] → incomplete.Nodup ∧ ∀ n, Incomplete (statuses n) ↔ n ∈ incomplete
  | .upFailed _ _ _ => True

theorem rolledBack_sound (h : Quiet migrations s) (hnodup : migrations.Nodup) (hleft : caller.Left (statusOf s.journal) failures) :
    Sound migrations (s.rolledBack migrations failures caller) := by
  cases caller with
  | upFailed id error journalFailures => exact finish_sound h
  | recoverIncomplete id incomplete =>
    dsimp only [State.rolledBack]
    split_ifs with hfailures
    · obtain ⟨hids, hincomplete⟩ := hleft hfailures
      exact recoverNext_sound h hnodup hids hincomplete
    · exact finish_sound h

theorem Caller.Sound.left {statuses statuses' : Statuses} (h : caller.Sound migrations statuses m rest)
    (hframe : ∀ n, n ≠ m → statuses' n = statuses n) (hsettled : failures = [] → Settled (statuses' m)) :
    caller.Left statuses' failures := by
  cases caller with
  | upFailed id error journalFailures => trivial
  | recoverIncomplete id incomplete =>
    intro hfailures
    obtain ⟨-, hids, hincomplete⟩ := h
    obtain ⟨hm, hrest⟩ := List.nodup_cons.mp hids
    refine ⟨hrest, fun n => ?_⟩
    by_cases hn : n = m
    · rw [hn]
      exact ⟨fun hopen => absurd (hsettled hfailures) hopen.not_settled, fun hmem => absurd hmem hm⟩
    · rw [hframe n hn, hincomplete n, List.mem_cons]
      exact or_iff_right hn

theorem rollbackNext_sound (h : Quiet migrations s) (hnodup : migrations.Nodup) {statuses : Statuses}
    (hcaller : caller.Sound migrations statuses m rest) (hframe : ∀ n, n ≠ m → statusOf s.journal n = statuses n)
    (hm : rest ≠ [] → statusOf s.journal m ≠ some .applied) (hunwinds : rest ≠ [] → Unwinds s.calls rest)
    (hsettled : failures = [] → Settled (statusOf s.journal m)) : Sound migrations (s.rollbackNext migrations caller failures rest) := by
  cases rest with
  | nil => exact rolledBack_sound h hnodup (hcaller.left hframe hsettled)
  | cons next rest =>
    have hmnot := hm (List.cons_ne_nil _ _)
    cases caller with
    | recoverIncomplete id incomplete => cases hcaller.1
    | upFailed id error journalFailures =>
      obtain ⟨old, after, hsplit, happlied, hafter⟩ := hcaller
      rw [hsplit] at hnodup
      have hbefore : ∀ n ∈ old ++ (next :: rest).reverse, statusOf s.journal n = some .applied := by
        intro n hn
        have hne : n ≠ m := (List.nodup_append.mp hnodup).2.2 n hn m List.mem_cons_self
        rw [hframe n hne]
        exact happlied n hn
      rw [List.reverse_cons] at hsplit hbefore hnodup
      have hphase : RollingBack migrations (statusOf s.journal) s.calls (.upFailed id error journalFailures) next rest failures .appendStarted := by
        refine ⟨?_, ?_, ⟨old, m :: after, ?_, fun n hn => hbefore n ?_, ?_⟩, hunwinds (List.cons_ne_nil _ _)⟩
        · rw [hsplit]
          exact hnodup
        · rw [hbefore next (by simp)]
          exact not_settled_applied
        · rw [hsplit]
          simp
        · rw [← List.append_assoc]
          exact List.mem_append_left _ hn
        · intro n hn
          rcases List.mem_cons.mp hn with rfl | hmem
          · exact hmnot
          · have hne : n ≠ m := by
              rintro rfl
              exact (List.nodup_cons.mp (List.nodup_append.mp hnodup).2.1).1 hmem
            rw [hframe n hne]
            exact hafter n hmem
      exact ⟨h.1, h.2, hphase⟩

end Steps

/-! ### Appending -/

section Append
variable {migrations rest appliedPreviously appliedThisRun failures : List Text} {journal : MigrationJournal} {m : Text}
  {result : Option RunResult} {calls : List (Call Text)} {caller : Caller} {outcome : AppendOutcome} {phase : Phase}

theorem Sound.quiet (h : Sound migrations ⟨journal, phase, result, calls⟩) (hstarting : phase.starting = none)
    (hended : ∀ m ∈ phase.downCalled, statusOf journal m ≠ some .applied) {phase' : Phase} :
    Quiet migrations ⟨journal, phase', result, calls⟩ := by
  have htold := h.told.ended hended
  rw [show State.phase _ = phase from rfl, hstarting] at htold
  exact ⟨h.numbered, htold⟩

theorem Sound.append (h : Sound migrations ⟨journal, phase, result, calls⟩) (starting : Option Text)
    (status : MigrationJournalStatus) (error : Option Text) (hstarting : phase.starting = none)
    (hdown : ∀ n, phase.downCalled = some n → n = m)
    (hready : status.isIncomplete = true → starting = some m ∨ Ready calls m)
    (habsent : status = .rolledBack → Absent calls m) (happlied : status = .applied → Applied calls m)
    (hclosed : Closed migrations (Function.update (statusOf journal) m (some status))) :
    Numbered (journal.append m status error) ∧
      Told migrations (statusOf (journal.append m status error)) calls starting none := by
  have htold : Told migrations (statusOf journal) calls none phase.downCalled := hstarting ▸ h.told
  rw [h.numbered.statusOf_append]
  exact ⟨h.numbered.append, htold.append hdown hready habsent happlied hclosed⟩

variable {stage : UpStage} {statuses : Statuses} {journal' : MigrationJournal}

theorem Migrating.after
    (h : Migrating migrations statuses calls m rest appliedPreviously appliedThisRun stage) :
    ∀ before after, migrations = before ++ m :: after → ∀ n ∈ after, statuses n ≠ some .applied := by
  obtain ⟨old, hsplit, -⟩ := h.split
  intro before after hsplit' n hn happlied
  obtain ⟨-, rfl⟩ := split_unique h.nodup hsplit hsplit'
  have hsettled := (h.fresh n hn).2
  rw [happlied] at hsettled
  exact not_settled_applied hsettled

theorem Migrating.before
    (h : Migrating migrations statuses calls m rest appliedPreviously appliedThisRun stage) :
    ∀ before after, migrations = before ++ m :: after → ∀ n ∈ before, statuses n = some .applied := by
  obtain ⟨old, hsplit, happlied⟩ := h.split
  intro before after hsplit' n hn
  obtain ⟨rfl, -⟩ := split_unique h.nodup hsplit hsplit'
  exact happlied n hn

theorem Migrating.next {stage' : UpStage} {statuses' : Statuses} {calls' : List (Call Text)}
    (h : Migrating migrations statuses calls m rest appliedPreviously appliedThisRun stage)
    (hframe : ∀ n, n ≠ m → statuses' n = statuses n) (hstage : stage'.Sound (statuses' m) calls' m appliedThisRun.reverse) :
    Migrating migrations statuses' calls' m rest appliedPreviously appliedThisRun stage' where
  nodup := h.nodup
  split := by
    obtain ⟨old, hsplit, happlied⟩ := h.split
    refine ⟨old, hsplit, fun n hn => ?_⟩
    have hnodup := h.nodup
    rw [hsplit] at hnodup
    have hne : n ≠ m := (List.nodup_append.mp hnodup).2.2 n hn m List.mem_cons_self
    rw [hframe n hne]
    exact happlied n hn
  fresh := by
    intro n hn
    obtain ⟨old, hsplit, -⟩ := h.split
    have hnodup := h.nodup
    rw [hsplit] at hnodup
    have hne : n ≠ m := by
      rintro rfl
      exact (List.nodup_cons.mp (List.nodup_append.mp hnodup).2.1).1 hn
    rw [hframe n hne]
    exact h.fresh n hn
  complete := by
    intro n hn
    by_contra hne
    rw [hframe n hne] at hn
    exact hne (h.complete n hn)
  stage := hstage

theorem Numbered.statusOf_append_ne (h : Numbered journal) {status : MigrationJournalStatus} {error : Option Text} :
    ∀ n, n ≠ m → statusOf (journal.append m status error) n = statusOf journal n := by
  intro n hn
  rw [h.statusOf_append, Function.update_of_ne hn]

theorem Numbered.statusOf_append_self (h : Numbered journal) {status : MigrationJournalStatus} {error : Option Text} :
    statusOf (journal.append m status error) m = some status := by
  rw [h.statusOf_append, Function.update_self]

theorem appendStarted_sound
    (h : Sound migrations ⟨journal, .migrating m rest appliedPreviously appliedThisRun .appendStarted, result, calls⟩)
    (hready : outcome.error ≠ none → outcome.kept = true → Ready calls m)
    (hjournal : journal' = if outcome.kept then journal.append m .started none else journal) :
    Sound migrations (State.afterAppend migrations
      ⟨journal', .migrating m rest appliedPreviously appliedThisRun .appendStarted, result, calls⟩ outcome.error) := by
  have hm : Migrating migrations (statusOf journal) calls m rest appliedPreviously appliedThisRun .appendStarted := h.phase
  obtain ⟨hsettled, hunwinds⟩ := hm.stage
  have hne : statusOf journal m ≠ some .applied := by
    intro heq
    rw [heq] at hsettled
    exact not_settled_applied hsettled
  have hclosed : Closed migrations (Function.update (statusOf journal) m (some .started)) :=
    h.told.closed.update (by simp) fun heq => absurd heq hne
  cases outcome with
  | recorded =>
    obtain rfl : journal' = journal.append m .started none := hjournal
    obtain ⟨hnumbered, htold⟩ := h.append (some m) .started none rfl (by simp [Phase.downCalled])
      (fun _ => .inl rfl) (by simp) (by simp) hclosed
    exact ⟨hnumbered, htold, hm.next h.numbered.statusOf_append_ne
      ⟨h.numbered.statusOf_append_self, h.told.absent m hsettled, hunwinds⟩⟩
  | failed kept error =>
    apply finish_sound
    cases kept with
    | false =>
      obtain rfl : journal' = journal := hjournal
      exact h.quiet rfl (by simp [Phase.downCalled])
    | true =>
      obtain rfl : journal' = journal.append m .started none := hjournal
      have hreadym := hready (by simp [AppendOutcome.error]) rfl
      exact h.append none .started none rfl (by simp [Phase.downCalled]) (fun _ => .inr hreadym) (by simp) (by simp) hclosed

theorem appendApplied_sound
    (h : Sound migrations ⟨journal, .migrating m rest appliedPreviously appliedThisRun .appendApplied, result, calls⟩)
    (hjournal : journal' = if outcome.kept then journal.append m .applied none else journal) :
    Sound migrations (State.afterAppend migrations
      ⟨journal', .migrating m rest appliedPreviously appliedThisRun .appendApplied, result, calls⟩ outcome.error) := by
  have hm : Migrating migrations (statusOf journal) calls m rest appliedPreviously appliedThisRun .appendApplied := h.phase
  obtain ⟨hstarted, happlied, hunwinds⟩ := hm.stage
  have hkept := h.append none .applied none rfl (by simp [Phase.downCalled])
    (by simp [MigrationJournalStatus.isIncomplete]) (by simp) (fun _ => happlied) (h.told.closed.update_applied hm.before)
  cases outcome with
  | recorded =>
    obtain rfl : journal' = journal.append m .applied none := hjournal
    obtain ⟨old, hsplit, hbefore⟩ := hm.split
    have hnext : Migrating migrations (statusOf (journal.append m .applied none)) calls m rest appliedPreviously appliedThisRun
        (.appendFailed []) := by
      refine hm.next h.numbered.statusOf_append_ne ⟨?_, hunwinds⟩
      rw [h.numbered.statusOf_append_self]
      exact not_settled_applied
    have hnone : ∀ n ∈ rest, n ∉ appliedPreviously := fun n hn => (hm.fresh n hn).1
    have hquiet : Quiet migrations ⟨journal.append m .applied none,
        .migrating m rest appliedPreviously appliedThisRun .appendApplied, result, calls⟩ := hkept
    have hsplit' : migrations = old ++ (appliedThisRun ++ [m]) ++ rest := by
      rw [hsplit]
      simp
    refine migrateNext_sound hquiet hm.nodup hsplit' ?_ ?_ ?_ (.inr hnone) ?_
    · intro n hn
      rw [← List.append_assoc] at hn
      rcases List.mem_append.mp hn with hold | hnew
      · exact hnext.before _ _ hsplit n hold
      · rw [List.mem_singleton.mp hnew]
        exact h.numbered.statusOf_append_self
    · intro n hn
      refine iff_of_false (hnone n hn) fun heq => ?_
      have hsettled := (hnext.fresh n hn).2
      rw [show statusOf (journal.append m .applied none) n = _ from heq] at hsettled
      exact not_settled_applied hsettled
    · intro n hn
      obtain rfl := hnext.complete n hn
      exact hn.not_applied h.numbered.statusOf_append_self
    · rw [List.reverse_append]
      exact hunwinds
  | failed kept error =>
    cases kept with
    | false =>
      obtain rfl : journal' = journal := hjournal
      have hopen : ¬ Settled (statusOf journal' m) := by
        rw [hstarted]
        exact Incomplete.not_settled ⟨_, rfl, rfl⟩
      exact ⟨h.numbered, h.told, hm.next (fun _ _ => rfl) ⟨hopen, hunwinds⟩⟩
    | true =>
      obtain rfl : journal' = journal.append m .applied none := hjournal
      have hopen : ¬ Settled (statusOf (journal.append m .applied none) m) := by
        rw [h.numbered.statusOf_append_self]
        exact not_settled_applied
      exact ⟨hkept.1, hkept.2, hm.next h.numbered.statusOf_append_ne ⟨hopen, hunwinds⟩⟩

theorem appendFailed_sound {message : Text}
    (h : Sound migrations ⟨journal, .migrating m rest appliedPreviously appliedThisRun (.appendFailed message), result, calls⟩)
    (hjournal : journal' = if outcome.kept then journal.append m .failed (some message) else journal) :
    Sound migrations (State.afterAppend migrations
      ⟨journal', .migrating m rest appliedPreviously appliedThisRun (.appendFailed message), result, calls⟩ outcome.error) := by
  have hm : Migrating migrations (statusOf journal) calls m rest appliedPreviously appliedThisRun (.appendFailed message) := h.phase
  obtain ⟨hopen, hunwinds⟩ := hm.stage
  have hquiet : Quiet migrations ⟨journal', .idle, result, calls⟩ ∧
      Migrating migrations (statusOf journal') calls m rest appliedPreviously appliedThisRun (.appendFailed message) := by
    cases hkept : outcome.kept with
    | false =>
      obtain rfl : journal' = journal := by simpa [hkept] using hjournal
      exact ⟨h.quiet rfl (by simp [Phase.downCalled]), hm⟩
    | true =>
      obtain rfl : journal' = journal.append m .failed (some message) := by simpa [hkept] using hjournal
      refine ⟨h.append none .failed (some message) rfl (by simp [Phase.downCalled]) (fun _ => .inr hunwinds.head) (by simp) (by simp)
        (h.told.closed.update (by simp) fun _ => hm.after), hm.next h.numbered.statusOf_append_ne ⟨?_, hunwinds⟩⟩
      rw [h.numbered.statusOf_append_self]
      exact Incomplete.not_settled ⟨_, rfl, rfl⟩
  obtain ⟨hquiet, hm'⟩ := hquiet
  obtain ⟨old, hsplit, happlied⟩ := hm'.split
  have hphase : RollingBack migrations (statusOf journal') calls
      (.upFailed m message (journalFailure m "could not journal failure" outcome.error)) m appliedThisRun.reverse [] .appendStarted := by
    refine ⟨hm.nodup, hm'.stage.1, ⟨old, rest, ?_, ?_, hm'.after _ _ hsplit⟩, hunwinds⟩
    · rw [List.reverse_reverse]
      exact hsplit
    · rw [List.reverse_reverse]
      exact happlied
  dsimp only [State.afterAppend]
  rw [List.reverse_append]
  exact ⟨hquiet.1, hquiet.2, hphase⟩

theorem RollingBack.after {stage : DownStage}
    (h : RollingBack migrations statuses calls caller m rest failures stage) (happlied : statuses m = some .applied) :
    ∀ before after, migrations = before ++ m :: after → ∀ n ∈ after, statuses n ≠ some .applied := by
  intro before after hsplit n hn
  have hcaller := h.caller
  cases caller with
  | recoverIncomplete id incomplete =>
    obtain ⟨-, -, hincomplete⟩ := hcaller
    exact absurd happlied ((hincomplete m).mpr List.mem_cons_self).not_applied
  | upFailed id error journalFailures =>
    obtain ⟨old, after', hsplit', -, hafter⟩ := hcaller
    obtain ⟨-, rfl⟩ := split_unique h.nodup hsplit hsplit'
    exact hafter n hn

theorem Caller.Sound.next {statuses' : Statuses} (h : caller.Sound migrations statuses m rest) (hnodup : migrations.Nodup)
    (hframe : ∀ n, n ≠ m → statuses' n = statuses n) (hm : Incomplete (statuses m) → Incomplete (statuses' m)) :
    caller.Sound migrations statuses' m rest := by
  cases caller with
  | recoverIncomplete id incomplete =>
    obtain ⟨hrest, hids, hincomplete⟩ := h
    refine ⟨hrest, hids, fun n => ?_⟩
    by_cases hn : n = m
    · rw [hn]
      exact iff_of_true (hm ((hincomplete m).mpr List.mem_cons_self)) List.mem_cons_self
    · rw [hframe n hn]
      exact hincomplete n
  | upFailed id error journalFailures =>
    obtain ⟨old, after, hsplit, happlied, hafter⟩ := h
    rw [hsplit] at hnodup
    refine ⟨old, after, hsplit, fun n hn => ?_, fun n hn => ?_⟩
    · have hne : n ≠ m := (List.nodup_append.mp hnodup).2.2 n hn m List.mem_cons_self
      rw [hframe n hne]
      exact happlied n hn
    · have hne : n ≠ m := by
        rintro rfl
        exact (List.nodup_cons.mp (List.nodup_append.mp hnodup).2.1).1 hn
      rw [hframe n hne]
      exact hafter n hn

theorem appendRollbackStarted_sound
    (h : Sound migrations ⟨journal, .rollingBack caller m rest failures .appendStarted, result, calls⟩)
    (hjournal : journal' = if outcome.kept then journal.append m .rollbackStarted none else journal) :
    Sound migrations (State.afterAppend migrations
      ⟨journal', .rollingBack caller m rest failures .appendStarted, result, calls⟩ outcome.error) := by
  have hm : RollingBack migrations (statusOf journal) calls caller m rest failures .appendStarted := h.phase
  have hunwinds : Unwinds calls (m :: rest) := hm.stage
  cases hkept : outcome.kept with
  | false =>
    obtain rfl : journal' = journal := by simpa [hkept] using hjournal
    exact ⟨h.numbered, h.told, hm.nodup, hm.kept, hm.caller, hunwinds⟩
  | true =>
    obtain rfl : journal' = journal.append m .rollbackStarted none := by simpa [hkept] using hjournal
    have hincomplete : Incomplete (statusOf (journal.append m .rollbackStarted none) m) :=
      ⟨_, h.numbered.statusOf_append_self, rfl⟩
    obtain ⟨hnumbered, htold⟩ := h.append none .rollbackStarted none rfl
      (by simp [Phase.downCalled]) (fun _ => .inr hunwinds.head) (by simp) (by simp)
      (h.told.closed.update (by simp) hm.after)
    exact ⟨hnumbered, htold, hm.nodup, hincomplete.not_settled,
      hm.caller.next hm.nodup h.numbered.statusOf_append_ne fun _ => hincomplete, hunwinds⟩

theorem appendRolledBack_sound
    (h : Sound migrations ⟨journal, .rollingBack caller m rest failures .appendRolledBack, result, calls⟩)
    (hok : outcome.kept = false → statusOf journal m ≠ some .applied)
    (hjournal : journal' = if outcome.kept then journal.append m .rolledBack none else journal) :
    Sound migrations (State.afterAppend migrations
      ⟨journal', .rollingBack caller m rest failures .appendRolledBack, result, calls⟩ outcome.error) := by
  have hm : RollingBack migrations (statusOf journal) calls caller m rest failures .appendRolledBack := h.phase
  obtain ⟨habsent, hunwinds⟩ := hm.stage
  cases hkept : outcome.kept with
  | false =>
    obtain rfl : journal' = journal := by simpa [hkept] using hjournal
    have hnot := hok hkept
    refine rollbackNext_sound (h.quiet rfl (by simpa [Phase.downCalled] using hnot)) hm.nodup hm.caller (fun _ _ => rfl)
      (fun _ => hnot) (fun _ => hunwinds) fun hnil => ?_
    cases outcome with
    | recorded => cases hkept
    | failed kept error => simp [journalFailure, AppendOutcome.error] at hnil
  | true =>
    obtain rfl : journal' = journal.append m .rolledBack none := by simpa [hkept] using hjournal
    have hstatus : statusOf (journal.append m .rolledBack none) m = some .rolledBack := h.numbered.statusOf_append_self
    have hquiet := h.append none .rolledBack none rfl (by simp [Phase.downCalled])
      (by simp [MigrationJournalStatus.isIncomplete]) (fun _ => habsent) (by simp) (h.told.closed.update (by simp) hm.after)
    refine rollbackNext_sound hquiet hm.nodup hm.caller h.numbered.statusOf_append_ne (fun _ => ?_) (fun _ => hunwinds) fun _ => ?_
    · rw [hstatus]
      simp
    · exact .inr hstatus

theorem appendRollbackFailed_sound {message : Text}
    (h : Sound migrations ⟨journal, .rollingBack caller m [] failures (.appendFailed message), result, calls⟩)
    (hok : outcome.kept = false → statusOf journal m ≠ some .applied)
    (hjournal : journal' = if outcome.kept then journal.append m .rollbackFailed (some message) else journal) :
    Sound migrations (State.afterAppend migrations
      ⟨journal', .rollingBack caller m [] failures (.appendFailed message), result, calls⟩ outcome.error) := by
  have hm : RollingBack migrations (statusOf journal) calls caller m [] failures (.appendFailed message) := h.phase
  obtain ⟨hfailures, hunwinds⟩ := hm.stage
  have hsome : failures ++ journalFailure m "could not journal rollback failure" outcome.error ≠ [] :=
    List.append_ne_nil_of_left_ne_nil hfailures _
  have hquiet : Quiet migrations ⟨journal', .rollingBack caller m [] failures (.appendFailed message), result, calls⟩ := by
    cases hkept : outcome.kept with
    | false =>
      obtain rfl : journal' = journal := by simpa [hkept] using hjournal
      exact h.quiet rfl (by simpa [Phase.downCalled] using hok hkept)
    | true =>
      obtain rfl : journal' = journal.append m .rollbackFailed (some message) := by simpa [hkept] using hjournal
      exact h.append none .rollbackFailed (some message) rfl (by simp [Phase.downCalled]) (fun _ => .inr hunwinds.head) (by simp)
        (by simp) (h.told.closed.update (by simp) hm.after)
  have hframe : ∀ n, n ≠ m → statusOf journal' n = statusOf journal n := by
    cases hkept : outcome.kept with
    | false =>
      obtain rfl : journal' = journal := by simpa [hkept] using hjournal
      exact fun _ _ => rfl
    | true =>
      obtain rfl : journal' = journal.append m .rollbackFailed (some message) := by simpa [hkept] using hjournal
      exact h.numbered.statusOf_append_ne
  exact rollbackNext_sound hquiet hm.nodup hm.caller hframe (fun hne => absurd rfl hne) (fun hne => absurd rfl hne)
    fun hnil => absurd hnil hsome

theorem append_sound {s s' : State} (h : Sound migrations s) (hok : Allowed s (.append outcome))
    (hstep : step migrations s (.append outcome) = some s') : Sound migrations s' := by
  obtain ⟨hready, hended, hpast⟩ := hok
  obtain ⟨journal, phase, result, calls⟩ := s
  cases phase with
  | idle | readIncomplete | readApplied => cases hstep
  | migrating m rest appliedPreviously appliedThisRun stage =>
    cases stage with
    | up => cases hstep
    | upRunning => cases hstep
    | appendStarted =>
      obtain rfl := Option.some.inj hstep
      exact appendStarted_sound h (fun hne hkept => hready hne hkept m rfl) rfl
    | appendApplied =>
      obtain rfl := Option.some.inj hstep
      exact appendApplied_sound h rfl
    | appendFailed message =>
      obtain rfl := Option.some.inj hstep
      exact appendFailed_sound h rfl
  | rollingBack caller m rest failures stage =>
    cases stage with
    | down => cases hstep
    | downRunning => cases hstep
    | appendStarted =>
      obtain rfl := Option.some.inj hstep
      exact appendRollbackStarted_sound h rfl
    | appendRolledBack =>
      obtain rfl := Option.some.inj hstep
      exact appendRolledBack_sound h (fun hkept => hended hkept m rfl) rfl
    | appendFailed message =>
      obtain rfl := Option.some.inj hstep
      obtain rfl : rest = [] := by simpa [Phase.pastFailure] using hpast
      exact appendRollbackFailed_sound h (fun hkept => hended hkept m rfl) rfl

end Append

/-! ### Calling -/

section Calls
variable {migrations : List Text} {s s' : State}

theorem call_sound (h : Sound migrations s) (hstep : step migrations s .call = some s') : Sound migrations s' := by
  obtain ⟨journal, phase, result, calls⟩ := s
  cases phase with
  | idle | readIncomplete | readApplied => cases hstep
  | migrating m rest appliedPreviously appliedThisRun stage =>
    cases stage with
    | appendStarted | upRunning | appendApplied | appendFailed => cases hstep
    | up =>
      obtain rfl := Option.some.inj hstep
      have hm : Migrating migrations (statusOf journal) calls m rest appliedPreviously appliedThisRun .up := h.phase
      obtain ⟨hstarted, habsent, hunwinds⟩ := hm.stage
      have hpermitted : Permitted migrations calls ⟨.up, m⟩ := by
        refine ⟨habsent, fun before after hsplit n hn => ?_⟩
        exact (h.told.applied n (hm.before before after hsplit n hn)).resolve_left (by simp [Phase.downCalled])
      have hopen : ¬ Settled (statusOf journal m) := by
        rw [hstarted]
        exact Incomplete.not_settled ⟨_, rfl, rfl⟩
      refine ⟨h.numbered, h.told.call hpermitted hopen (by simp [Phase.downCalled]) (fun happlied => ?_) ?_,
        hm.next (fun _ _ => rfl) ⟨hstarted, hunwinds.up⟩⟩
      · have heq := hstarted.symm.trans happlied
        cases heq
      · intro n hn
        obtain rfl := hm.complete n hn
        exact readyAfter_nil.mp readyAfter_up_self
  | rollingBack caller m rest failures stage =>
    cases stage with
    | appendStarted | downRunning | appendRolledBack | appendFailed => cases hstep
    | down =>
      obtain rfl := Option.some.inj hstep
      have hm : RollingBack migrations (statusOf journal) calls caller m rest failures .down := h.phase
      have hunwinds : Unwinds calls (m :: rest) := hm.stage
      have hdown : (⟨.down, m⟩ : Call Text).kind ≠ .up := by simp
      have hpermitted : Permitted migrations calls ⟨.down, m⟩ := hunwinds.head
      exact ⟨h.numbered, h.told.call hpermitted hm.kept (by simp [Phase.downCalled]) (fun _ => rfl) (h.told.ready_cons hdown),
        hm.nodup, hm.kept, hm.caller, hunwinds.cons hdown⟩

theorem settle_sound {error : Option Text} (h : Sound migrations s) (hstep : step migrations s (.settle error) = some s') :
    Sound migrations s' := by
  obtain ⟨journal, phase, result, calls⟩ := s
  cases phase with
  | idle | readIncomplete | readApplied => cases error <;> cases hstep
  | migrating m rest appliedPreviously appliedThisRun stage =>
    cases stage with
    | appendStarted | up | appendApplied | appendFailed => cases error <;> cases hstep
    | upRunning =>
      have hm : Migrating migrations (statusOf journal) calls m rest appliedPreviously appliedThisRun .upRunning := h.phase
      obtain ⟨hstarted, hunwinds⟩ := hm.stage
      have hopen : ¬ Settled (statusOf journal m) := by
        rw [hstarted]
        exact Incomplete.not_settled ⟨_, rfl, rfl⟩
      have hnot : statusOf journal m ≠ some .applied := by
        rw [hstarted]
        simp
      cases error with
      | none =>
        obtain rfl := Option.some.inj hstep
        have hkind : (⟨.upDone, m⟩ : Call Text).kind ≠ .up := by simp
        have hpermitted : Permitted migrations calls ⟨.upDone, m⟩ := trivial
        exact ⟨h.numbered, h.told.call hpermitted hopen (by simp [Phase.downCalled]) (fun happlied => absurd happlied hnot)
          (h.told.ready_cons hkind), hm.next (fun _ _ => rfl) ⟨hstarted, applied_upDone, hunwinds.cons hkind⟩⟩
      | some message =>
        obtain rfl := Option.some.inj hstep
        have hkind : (⟨.upFailed, m⟩ : Call Text).kind ≠ .up := by simp
        have hpermitted : Permitted migrations calls ⟨.upFailed, m⟩ := trivial
        exact ⟨h.numbered, h.told.call hpermitted hopen (by simp [Phase.downCalled]) (fun happlied => absurd happlied hnot)
          (h.told.ready_cons hkind), hm.next (fun _ _ => rfl) ⟨hopen, hunwinds.cons hkind⟩⟩
  | rollingBack caller m rest failures stage =>
    cases stage with
    | appendStarted | down | appendRolledBack | appendFailed => cases error <;> cases hstep
    | downRunning =>
      have hm : RollingBack migrations (statusOf journal) calls caller m rest failures .downRunning := h.phase
      have hunwinds : Unwinds calls (m :: rest) := hm.stage
      have hself : ∀ n, some m = some n → n = m := fun n hn => (Option.some.inj hn).symm
      cases error with
      | none =>
        obtain rfl := Option.some.inj hstep
        have hkind : (⟨.downDone, m⟩ : Call Text).kind ≠ .up := by simp
        have hpermitted : Permitted migrations calls ⟨.downDone, m⟩ := trivial
        exact ⟨h.numbered, h.told.call hpermitted hm.kept hself (fun _ => rfl) (h.told.ready_cons hkind),
          hm.nodup, hm.kept, hm.caller, absent_downDone, hunwinds.downDone⟩
      | some message =>
        obtain rfl := Option.some.inj hstep
        have hkind : (⟨.downFailed, m⟩ : Call Text).kind ≠ .up := by simp
        have hpermitted : Permitted migrations calls ⟨.downFailed, m⟩ := trivial
        exact ⟨h.numbered, h.told.call hpermitted hm.kept hself (fun _ => rfl) (h.told.ready_cons hkind),
          hm.nodup, hm.kept, hm.caller, List.append_ne_nil_of_right_ne_nil _ (List.cons_ne_nil _ _), hunwinds.cons hkind⟩

end Calls

/-! ### Runs -/

section Runs
variable {migrations : List Text} {s s' : State} {act : Act}

theorem sound_start : Sound migrations {} where
  numbered := numbered_nil
  told :=
    { ordered := trivial
      ready := by
        rintro m ⟨status, hstatus, -⟩
        cases hstatus
      closed := by
        intro before m after hsplit happlied
        cases happlied
      absent := fun m hm => .inl rfl
      applied := by
        intro m happlied
        cases happlied }
  phase := trivial

theorem crash_sound (h : Sound migrations s) (hok : Allowed s .crash) (hstep : step migrations s .crash = some s') :
    Sound migrations s' := by
  obtain rfl := Option.some.inj hstep
  obtain ⟨hready, hended⟩ := hok
  have htold := h.told.ended hended
  refine ⟨h.numbered, ?_, trivial⟩
  cases hstarting : s.phase.starting with
  | none =>
    rw [hstarting] at htold
    exact htold
  | some m =>
    rw [hstarting] at htold
    exact htold.started (hready m hstarting)

theorem entries_sound {error : Option Text} (h : Sound migrations s) (hstep : step migrations s (.entries error) = some s') :
    Sound migrations s' := by
  obtain ⟨journal, phase, result, calls⟩ := s
  cases phase with
  | idle | migrating | rollingBack => cases error <;> cases hstep
  | readIncomplete =>
    have hquiet : Quiet migrations ⟨journal, .readIncomplete, result, calls⟩ := ⟨h.numbered, h.told⟩
    cases error with
    | none =>
      obtain rfl := Option.some.inj hstep
      exact recoverNext_sound hquiet h.phase incomplete_nodup fun n => mem_incomplete.symm
    | some message =>
      obtain rfl := Option.some.inj hstep
      exact finish_sound hquiet
  | readApplied =>
    have hquiet : Quiet migrations ⟨journal, .readApplied, result, calls⟩ := ⟨h.numbered, h.told⟩
    cases error with
    | none =>
      obtain rfl := Option.some.inj hstep
      have hsplit : migrations = [] ++ [] ++ migrations := rfl
      have hnone : ∀ n ∈ ([] : List Text) ++ [], statusOf journal n = some .applied := fun n hn => (by cases hn)
      exact migrateNext_sound hquiet h.phase.1 hsplit hnone (fun n _ => mem_currentApplied) h.phase.2 (.inl rfl) unwinds_nil
    | some message =>
      obtain rfl := Option.some.inj hstep
      exact finish_sound hquiet

theorem run_sound (h : Sound migrations s) (hstep : step migrations s .run = some s') : Sound migrations s' := by
  obtain ⟨journal, phase, result, calls⟩ := s
  cases phase with
  | idle =>
    have hquiet : Quiet migrations ⟨journal, .idle, result, calls⟩ := ⟨h.numbered, h.told⟩
    dsimp only [step] at hstep
    cases hinvalid : invalidMigration [] migrations with
    | some m =>
      rw [hinvalid] at hstep
      obtain rfl := Option.some.inj hstep
      exact finish_sound hquiet
    | none =>
      rw [hinvalid] at hstep
      obtain rfl := Option.some.inj hstep
      exact ⟨h.numbered, h.told, (invalidMigration_none hinvalid).1⟩
  | readIncomplete | readApplied | migrating | rollingBack =>
    obtain rfl := Option.some.inj hstep
    exact ⟨h.numbered, h.told, h.phase⟩

theorem step_sound (h : Sound migrations s) (hok : Allowed s act) (hstep : step migrations s act = some s') : Sound migrations s' := by
  cases act with
  | run => exact run_sound h hstep
  | entries error => exact entries_sound h hstep
  | append outcome => exact append_sound h hok hstep
  | call => exact call_sound h hstep
  | settle error => exact settle_sound h hstep
  | crash => exact crash_sound h hok hstep

theorem reachable_sound (hs : Reachable (step migrations) Allowed {} s) : Sound migrations s :=
  hs.invariant sound_start fun _ _ _ => step_sound

/-- Every call of every run is in order, and at a call of `up` the journal says so too. -/
theorem undone_in_reverse (hs : Reachable (step migrations) Allowed {} s) : InOrder migrations s.calls ∧
    ∀ m, s.phase.starting = some m → m ∉ currentAppliedMigrations s.journal ∧
      ∀ before after, migrations = before ++ m :: after → ∀ n ∈ before, n ∈ currentAppliedMigrations s.journal := by
  have h := reachable_sound hs
  refine ⟨h.told.ordered, fun m hm => ?_⟩
  obtain ⟨journal, phase, result, calls⟩ := s
  cases phase with
  | idle | readIncomplete | readApplied | rollingBack => cases hm
  | migrating m' rest appliedPreviously appliedThisRun stage =>
    cases stage with
    | appendStarted | upRunning | appendApplied | appendFailed => cases hm
    | up =>
      obtain rfl := Option.some.inj hm
      have hmigrating : Migrating migrations (statusOf journal) calls m' rest appliedPreviously appliedThisRun .up := h.phase
      obtain ⟨hstarted, -, -⟩ := hmigrating.stage
      refine ⟨fun hmem => ?_, fun before after hsplit n hn => ?_⟩
      · have heq := hstarted.symm.trans (mem_currentApplied.mp hmem)
        cases heq
      · exact mem_currentApplied.mpr (hmigrating.before before after hsplit n hn)

/-- Between the runs what the journal has as applied is up, and so is all before it; what it does not have is not up. -/
theorem journal_truthful (hs : Reachable (step migrations) Allowed {} s) (hidle : s.phase = .idle) :
    (∀ m ∈ currentAppliedMigrations s.journal, Applied s.calls m ∧
      ∀ before after, migrations = before ++ m :: after → ∀ n ∈ before, n ∈ currentAppliedMigrations s.journal) ∧
    ∀ m, Settled (statusOf s.journal m) → Absent s.calls m := by
  have h := (reachable_sound hs).told
  rw [hidle] at h
  refine ⟨fun m hm => ?_, h.absent⟩
  have happlied := mem_currentApplied.mp hm
  refine ⟨(h.applied m happlied).resolve_left nofun, fun before after hsplit n hn => ?_⟩
  exact mem_currentApplied.mpr (h.closed before m after hsplit happlied n hn)

end Runs

def twoMigrations : List Text := [['0', '0', '1'], ['0', '0', '2']]

def readActs : List Act := [.run, .entries none, .entries none]

def recordedActs (error : Option Text) : List Act := [.append .recorded, .call, .settle error, .append .recorded]

/-- The second `up` throws, both are undone, and the next run applies them. -/
def retryActs : List Act :=
  readActs ++ recordedActs none ++ recordedActs (some "refused".toList) ++ recordedActs none ++ recordedActs none ++
    readActs ++ recordedActs none ++ recordedActs none

def retryEnd : State := (exec (step twoMigrations) {} retryActs).getD {}

theorem undone_in_reverse_retry : exec (checked (step twoMigrations) Allowed) {} retryActs = some retryEnd ∧
    retryEnd.result = some (.returned twoMigrations) ∧ InOrder twoMigrations retryEnd.calls := by
  have hexec : exec (checked (step twoMigrations) Allowed) {} retryActs = some retryEnd := by decide +kernel
  have hresult : retryEnd.result = some (.returned twoMigrations) := by decide +kernel
  exact ⟨hexec, hresult, (undone_in_reverse (Reachable.start.of_exec_checked retryActs hexec)).1⟩

theorem journal_truthful_retry : retryEnd.phase = .idle ∧ Applied retryEnd.calls ['0', '0', '2'] := by
  have hexec : exec (checked (step twoMigrations) Allowed) {} retryActs = some retryEnd := by decide +kernel
  have hs := Reachable.start.of_exec_checked retryActs hexec
  exact ⟨by decide +kernel, ((journal_truthful hs (by decide +kernel)).1 _ (by decide +kernel)).1⟩

/-- The rollback goes on past the second `down`, and the process stops before the first. -/
def stoppedActs : List Act :=
  readActs ++ recordedActs none ++ recordedActs (some "refused".toList) ++ recordedActs (some "stuck".toList) ++
    [.append .recorded, .crash]

/-- The recovery begins with the latest entry, which is the one of the first migration. -/
def recoveredEnd : State := (exec (step twoMigrations) {} (stoppedActs ++ [.run, .entries none, .append .recorded, .call])).getD {}

theorem recovery_undoes_first : exec (step twoMigrations) {} (stoppedActs ++ [.run, .entries none, .append .recorded, .call]) =
      some recoveredEnd ∧ ¬ InOrder twoMigrations recoveredEnd.calls := by
  refine ⟨eq_some_getD (by decide +kernel) _, fun h => ?_⟩
  have hcalls : recoveredEnd.calls = [⟨.down, ['0', '0', '1']⟩, ⟨.downFailed, ['0', '0', '2']⟩, ⟨.down, ['0', '0', '2']⟩,
      ⟨.upFailed, ['0', '0', '2']⟩, ⟨.up, ['0', '0', '2']⟩, ⟨.upDone, ['0', '0', '1']⟩, ⟨.up, ['0', '0', '1']⟩] := by
    decide +kernel
  rw [hcalls] at h
  have hready : ¬ Ready [⟨.downFailed, ['0', '0', '2']⟩, ⟨.down, ['0', '0', '2']⟩, ⟨.upFailed, ['0', '0', '2']⟩,
      ⟨.up, ['0', '0', '2']⟩, ⟨.upDone, ['0', '0', '1']⟩, ⟨.up, ['0', '0', '1']⟩] ['0', '0', '1'] := by decide
  exact hready h.1

end OxScada.Scaling.Migrations
