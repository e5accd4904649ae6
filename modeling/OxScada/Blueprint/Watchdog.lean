import OxScada.Blueprint.SafeState

/-! The watchdog of a hosted blueprint, the host that ticks it and the operator who resumes it.
The actuator is that of the runtime: its `halt` and `resume` do not throw. Calls of the
controller are numbered in their order. -/

namespace OxScada.Blueprint
open OxScada.Bytes OxScada.Js OxScada.Runs

structure SafeStateConfig where
  enabled : Bool
  tickBudgetMs : ℕ
  consecutiveMissesBeforeSafeState : ℕ
  positive : 0 < consecutiveMissesBeforeSafeState

structure TickObservation where
  tripped : Bool
  /-- The ticks that were observed over budget since the last one within it or the last exit. -/
  streak : ℕ
  deriving DecidableEq

structure HostedBlueprint where
  controller : SafeStateController
  consecutiveMisses : ℕ
  /-- A run of `tickOnce`, with the call that it awaits. -/
  ticking : Option (Option ℕ)
  /-- The runs of `Watchdog.resume`, with the calls that they await. -/
  resumes : List ℕ
  ticks : ℕ
  /-- The ticks that ran while the actuator was halted. -/
  haltedTicks : ℕ
  streak : ℕ
  observations : List TickObservation

inductive WatchdogAct where
  | controller (act : ControllerAct)
  | enterSafeState (reason : Text) (consecutiveMisses : ℕ)
  | resume (operator reason : Text)
  /-- A run of `Watchdog.resume` goes on after its call. -/
  | resumed (j : ℕ)
  | observeTick (durationMs : ℚ)
  /-- A tick without a duration throws. -/
  | runTick (durationMs : Option ℚ)
  | tickOnce (durationMs : Option ℚ)
  | tickEnds
  deriving DecidableEq

def Await.isResume : Await → Bool
  | .entryAnchor _ _ _ | .entryAudit => false
  | _ => true

def ControllerCall.isResume : ControllerCall → Bool
  | .enterSafeState _ _ => false
  | .resume _ _ => true

namespace HostedBlueprint

def start : HostedBlueprint where
  controller := SafeStateController.start
  consecutiveMisses := 0
  ticking := none
  resumes := []
  ticks := 0
  haltedTicks := 0
  streak := 0
  observations := []

def issued (c : SafeStateController) : ℕ := c.finished.length + c.transition.toList.length + c.calls.length

def call (s : HostedBlueprint) (call : ControllerCall) : HostedBlueprint :=
  { s with controller := { s.controller with calls := s.controller.calls ++ [call] } }

section Machine
variable (config : SafeStateConfig) (tripReason : ℕ → ℚ → Text)

def observe (s : HostedBlueprint) (durationMs : ℚ) : HostedBlueprint × Option ℕ :=
  if config.enabled = false ∨ s.controller.status.runState ≠ .running then (s, none)
  else if durationMs ≤ config.tickBudgetMs then
    ({ s with consecutiveMisses := 0, streak := 0, observations := s.observations ++ [TickObservation.mk false 0] }, none)
  else
    let s := { s with consecutiveMisses := s.consecutiveMisses + 1, streak := s.streak + 1 }
    if config.consecutiveMissesBeforeSafeState ≤ s.consecutiveMisses then
      ({ s with observations := s.observations ++ [TickObservation.mk true s.streak] }.call
        (.enterSafeState (tripReason s.consecutiveMisses durationMs) s.consecutiveMisses), some (issued s.controller))
    else ({ s with observations := s.observations ++ [TickObservation.mk false s.streak] }, none)

def run (s : HostedBlueprint) (durationMs : Option ℚ) : HostedBlueprint × Option ℕ :=
  if s.controller.status.runState ≠ .running then (s, none)
  else
    let s := { s with
      ticks := s.ticks + 1
      haltedTicks := if s.controller.actuator.halted then s.haltedTicks + 1 else s.haltedTicks }
    match durationMs with
    | some durationMs => observe config tripReason s durationMs
    | none => (s, none)

def PlantWorks : ControllerAct → Prop
  | .call _ => False
  | .begins halt _ _ => halt = .returns
  | .audited _ resume halt _ _ _ => resume = .returns ∧ halt = .returns
  | .anchored _ | .unpended _ => True

instance : DecidablePred PlantWorks
  | .call _ => instDecidableFalse
  | .begins halt _ _ => inferInstanceAs (Decidable (halt = .returns))
  | .audited _ resume halt _ _ _ => inferInstanceAs (Decidable (resume = .returns ∧ halt = .returns))
  | .anchored _ | .unpended _ => instDecidableTrue

def exits (c : SafeStateController) : ControllerAct → Bool
  | .audited true _ _ _ _ _ =>
    match c.transition with
    | some (.exitAudit _ _ _) => true
    | _ => false
  | _ => false

def step (s : HostedBlueprint) : WatchdogAct → Option HostedBlueprint
  | .controller act =>
    if PlantWorks act then
      (s.controller.step act).map fun controller =>
        { s with controller, streak := if exits s.controller act then 0 else s.streak }
    else none
  | .enterSafeState reason consecutiveMisses => some (s.call (.enterSafeState reason consecutiveMisses))
  | .resume operator reason =>
    some { s.call (.resume operator reason) with resumes := s.resumes ++ [issued s.controller] }
  | .resumed j =>
    match s.resumes[j]? with
    | some k =>
      (s.controller.finished[k]?).map fun resolved =>
        { s with
          resumes := s.resumes.eraseIdx j
          consecutiveMisses := if resolved then 0 else s.consecutiveMisses }
    | none => none
  | .observeTick durationMs => some (observe config tripReason s durationMs).1
  | .runTick durationMs => some (run config tripReason s durationMs).1
  | .tickOnce durationMs =>
    if s.controller.actuator.halted ∨ s.ticking ≠ none then some s
    else
      let (s, awaited) := run config tripReason s durationMs
      some { s with ticking := some awaited }
  | .tickEnds =>
    match s.ticking with
    | some awaited =>
      if awaited.all fun k => k < s.controller.finished.length then some { s with ticking := none } else none
    | none => none

end Machine

/-! ### What the watchdog promises -/

def Working : WatchdogAct → Prop
  | .controller (.begins halt action _) => halt = .returns ∧ action = .returns
  | .controller (.audited ok resume halt action _ _) => ok = true ∧ resume = .returns ∧ halt = .returns ∧ action = .returns
  | .controller (.anchored _) | .controller (.unpended _) => True
  | .enterSafeState _ _ | .resume _ _ | .resumed _ | .tickEnds => True
  | _ => False

section Promise
variable (config : SafeStateConfig) (tripReason : ℕ → ℚ → Text)

/-- The blueprint is running, and the host computes its ticks. -/
def Live (s : HostedBlueprint) : Prop :=
  s.controller.status.runState = .running ∧
    ∀ durationMs, ∃ s', step config tripReason s (.tickOnce durationMs) = some s' ∧ s'.ticks = s.ticks + 1

structure Guarded (s : HostedBlueprint) : Prop where
  latched : s.haltedTicks = 0
  exact : ∀ observation ∈ s.observations,
    observation.tripped = true ↔ config.consecutiveMissesBeforeSafeState ≤ observation.streak
  recoverable : ∃ s', Reachable (step config tripReason) (fun _ act => Working act) s s' ∧ Live config tripReason s'

/-- A run of `Watchdog.resume` has yet to reset the counter after the exit. -/
def Stale (s : HostedBlueprint) : Prop := ∃ k ∈ s.resumes, s.controller.finished[k]? = some true

/-- `runTick` is not called on a halted blueprint that is reported as running, and no tick is
observed between an exit and the reset of the counter. -/
def Sheltered (s : HostedBlueprint) : WatchdogAct → Prop
  | .runTick _ => (s.controller.actuator.halted = true → s.controller.status.runState ≠ .running) ∧ ¬ s.Stale
  | .observeTick _ | .tickOnce _ => ¬ s.Stale
  | _ => True

instance (s : HostedBlueprint) : Decidable s.Stale :=
  inferInstanceAs (Decidable (∃ k ∈ s.resumes, s.controller.finished[k]? = some true))

instance (s : HostedBlueprint) (act : WatchdogAct) : Decidable (s.Sheltered act) := by
  unfold Sheltered
  split <;> infer_instance

end Promise

/-! ### The calls of the controller -/

def kinds (c : SafeStateController) : List Bool := c.transition.toList.map Await.isResume ++ c.calls.map ControllerCall.isResume

/-- What a step does to the calls: none of them is finished, or the first one is. -/
def Moves (c c' : SafeStateController) (exit : Bool) : Prop :=
  c'.finished = c.finished ∧ kinds c' = kinds c ∧ exit = false ∨
    ∃ kind resolved, kinds c = kind :: kinds c' ∧ c'.finished = c.finished ++ [resolved] ∧ exit = (kind && resolved)

section Calls
open SafeStateController
variable {c c' : SafeStateController}

theorem kinds_length (c : SafeStateController) : (kinds c).length = c.transition.toList.length + c.calls.length := by
  unfold kinds
  rw [List.length_append, List.length_map, List.length_map]

variable {now : ℤ}

theorem begins_moves {halt action : Outcome} (hstep : SafeStateController.step c (.begins halt action now) = some c') :
    Moves c c' false := by
  unfold SafeStateController.step at hstep
  dsimp only at hstep
  split at hstep
  next reason consecutiveMisses calls htransition hcalls =>
    cases hstep
    have hkinds : kinds c = false :: calls.map ControllerCall.isResume := by
      unfold kinds
      rw [htransition, hcalls]
      rfl
    unfold enterSafeStateLocked
    split_ifs
    · exact .inl ⟨rfl, hkinds.symm, rfl⟩
    · refine .inr ⟨false, false, ?_, rfl, rfl⟩
      exact hkinds
    · refine .inr ⟨false, false, ?_, rfl, rfl⟩
      exact hkinds
    · exact .inl ⟨rfl, hkinds.symm, rfl⟩
  next operator reason calls htransition hcalls =>
    cases hstep
    have hkinds : kinds c = true :: calls.map ControllerCall.isResume := by
      unfold kinds
      rw [htransition, hcalls]
      rfl
    unfold resumeLocked
    split_ifs
    · refine .inr ⟨true, false, ?_, rfl, rfl⟩
      exact hkinds
    · refine .inr ⟨true, false, ?_, rfl, rfl⟩
      exact hkinds
    · exact .inl ⟨rfl, hkinds.symm, rfl⟩
  next => cases hstep

theorem kinds_transition {a : Await} (h : c.transition = some a) : kinds c = a.isResume :: c.calls.map ControllerCall.isResume := by
  unfold kinds
  rw [h]
  rfl

theorem anchored_moves {hash : Text} (hstep : c.anchored hash = some c') : Moves c c' false := by
  unfold SafeStateController.anchored at hstep
  split at hstep <;> rename_i htransition <;> cases hstep
  all_goals exact .inl ⟨rfl, (kinds_transition htransition).symm, rfl⟩

theorem proceed_moves (hstep : c.proceed now = some c') : Moves c c' false := by
  unfold SafeStateController.proceed at hstep
  split at hstep <;> rename_i htransition <;> cases hstep
  · exact .inr ⟨false, true, kinds_transition htransition, rfl, rfl⟩
  · exact .inl ⟨rfl, (kinds_transition htransition).symm, rfl⟩
  · exact .inl ⟨rfl, (kinds_transition htransition).symm, rfl⟩

theorem finish_moves {a : Await} (h : c.transition = some a) {resolved : Bool} (hkind : (a.isResume && resolved) = false) :
    Moves c (c.finish resolved) false := .inr ⟨a.isResume, resolved, kinds_transition h, rfl, hkind.symm⟩

theorem audited_moves {ok : Bool} {resume halt action : Outcome} {detail : Text}
    (hstep : c.audited ok resume halt action detail now = some c') :
    Moves c c' (exits c (.audited ok resume halt action detail now)) := by
  have hexits : ∀ {a : Await}, c.transition = some a → (∀ operator reason entry, a ≠ .exitAudit operator reason entry) →
      exits c (.audited ok resume halt action detail now) = false := by
    intro a htransition hother
    unfold exits
    rw [htransition]
    cases ok with
    | false => rfl
    | true =>
      dsimp only
      split
      next operator reason entry hsome => exact absurd (Option.some.inj hsome) (hother operator reason entry)
      next => rfl
  cases audited_move hstep with
  | entry htransition ha hpending hproceed =>
    rename_i a entry
    have hother : ∀ operator reason entry, a ≠ .exitAudit operator reason entry := by
      rcases ha with rfl | ⟨operator, reason, rfl⟩
      · nofun
      · nofun
    rw [hexits htransition hother]
    exact proceed_moves (c := c.entryPersisted entry) hproceed
  | oldRequest htransition hproceed =>
    rename_i operator reason entry
    rw [hexits htransition nofun]
    exact proceed_moves (c := { c.persisted entry with pendingExitRequestAudit := none }) hproceed
  | request htransition =>
    rw [hexits htransition nofun]
    unfold SafeStateController.resumeActuator
    split_ifs
    · exact .inl ⟨rfl, (kinds_transition htransition).symm, rfl⟩
    · exact .inl ⟨rfl, (kinds_transition htransition).symm, rfl⟩
  | refused htransition ha =>
    rename_i a
    have hother : ∀ operator reason entry, a ≠ .exitAudit operator reason entry := by
      rintro operator reason entry rfl
      cases ha
    rw [hexits htransition hother]
    exact finish_moves htransition (Bool.and_false _)
  | exited htransition hok =>
    subst hok
    unfold exits
    rw [htransition]
    exact .inr ⟨true, true, kinds_transition htransition, rfl, rfl⟩
  | aborted htransition hok =>
    subst hok
    exact .inl ⟨rfl, (kinds_transition htransition).symm, rfl⟩
  | recovered htransition =>
    rw [hexits htransition nofun]
    cases ok with
    | true | false => exact .inr ⟨true, false, kinds_transition htransition, rfl, rfl⟩

theorem step_moves {act : ControllerAct} (hplant : PlantWorks act) (hstep : SafeStateController.step c act = some c') :
    Moves c c' (exits c act) := by
  cases act with
  | call => exact hplant.elim
  | begins => exact begins_moves hstep
  | anchored => exact anchored_moves hstep
  | unpended => exact proceed_moves (unpended_proceed hstep).1
  | audited => exact audited_moves hstep

end Calls

/-! ### The invariant -/

theorem issued_eq (c : SafeStateController) : issued c = c.finished.length + (kinds c).length := by
  rw [kinds_length, ← Nat.add_assoc]
  rfl

structure Counted (config : SafeStateConfig) (s : HostedBlueprint) : Prop where
  latched : s.haltedTicks = 0
  exact : ∀ observation ∈ s.observations,
    observation.tripped = true ↔ config.consecutiveMissesBeforeSafeState ≤ observation.streak
  fresh : s.Stale → s.streak = 0
  counted : ¬ s.Stale → s.consecutiveMisses = s.streak
  /-- The runs of `Watchdog.resume` await the resumes that are not finished. -/
  registered : ∀ i, s.controller.finished.length + i ∈ s.resumes ↔ (kinds s.controller)[i]? = some true
  awaited : ∀ k, s.ticking = some (some k) → k < issued s.controller

theorem Counted.start (config : SafeStateConfig) : Counted config start where
  latched := rfl
  exact _ h := absurd h List.not_mem_nil
  fresh _ := rfl
  counted _ := rfl
  registered _ := ⟨fun h => absurd h List.not_mem_nil, fun h => nomatch h⟩
  awaited _ h := nomatch h

theorem stale_append (resumes : List ℕ) (finished : List Bool) (resolved : Bool) :
    (∃ k ∈ resumes, (finished ++ [resolved])[k]? = some true) ↔
      (∃ k ∈ resumes, finished[k]? = some true) ∨ resolved = true ∧ finished.length ∈ resumes := by
  constructor
  · rintro ⟨k, hmem, hget⟩
    rcases Nat.lt_trichotomy k finished.length with hlt | rfl | hgt
    · rw [List.getElem?_append_left hlt] at hget
      exact .inl ⟨k, hmem, hget⟩
    · rw [List.getElem?_concat_length] at hget
      exact .inr ⟨Option.some.inj hget, hmem⟩
    · rw [List.getElem?_eq_none (by rw [List.length_append]; exact hgt)] at hget
      cases hget
  · rintro (⟨k, hmem, hget⟩ | ⟨rfl, hmem⟩)
    · obtain ⟨hlt, -⟩ := List.getElem?_eq_some_iff.mp hget
      exact ⟨k, hmem, (List.getElem?_append_left hlt).trans hget⟩
    · exact ⟨finished.length, hmem, List.getElem?_concat_length⟩

section Steps
variable {config : SafeStateConfig} {tripReason : ℕ → ℚ → Text} {s s' : HostedBlueprint}

theorem Counted.controller (h : Counted config s) {act : ControllerAct} {c' : SafeStateController} (hplant : PlantWorks act)
    (hstep : s.controller.step act = some c') :
    Counted config { s with controller := c', streak := if exits s.controller act then 0 else s.streak } := by
  rcases step_moves hplant hstep with ⟨hfinished, hkinds, hexit⟩ | ⟨kind, resolved, hkinds, hfinished, hexit⟩
  · have hissued : issued c' = issued s.controller := by rw [issued_eq, issued_eq, hfinished, hkinds]
    rw [hexit]
    refine ⟨h.latched, h.exact, ?_, ?_, ?_, ?_⟩
    · unfold Stale
      rw [hfinished]
      exact h.fresh
    · unfold Stale
      rw [hfinished]
      exact h.counted
    · rw [hfinished, hkinds]
      exact h.registered
    · rw [hissued]
      exact h.awaited
  · have hissued : issued c' = issued s.controller := by
      rw [issued_eq, issued_eq, hfinished, hkinds, List.length_append, List.length_singleton, List.length_cons]
      exact Nat.succ_add_eq_add_succ _ _
    have hfirst : s.controller.finished.length ∈ s.resumes ↔ kind = true := by
      have hregistered := h.registered 0
      rw [hkinds, List.getElem?_cons_zero, Option.some.injEq] at hregistered
      exact hregistered
    have hregistered : ∀ i, c'.finished.length + i ∈ s.resumes ↔ (kinds c')[i]? = some true := by
      intro i
      have hnext := h.registered (i + 1)
      rw [hkinds, List.getElem?_cons_succ] at hnext
      rw [hfinished, List.length_append, List.length_singleton, Nat.add_assoc, Nat.add_comm 1 i]
      exact hnext
    have hstale : (∃ k ∈ s.resumes, c'.finished[k]? = some true) ↔ s.Stale ∨ exits s.controller act = true := by
      rw [hfinished, stale_append, hfirst, hexit, Bool.and_eq_true, and_comm]
      rfl
    refine ⟨h.latched, h.exact, fun hold => ?_, fun hfresh => ?_, hregistered, ?_⟩
    · split_ifs with hexits
      · rfl
      · exact h.fresh ((hstale.mp hold).resolve_right hexits)
    · obtain ⟨hnot, hexits⟩ := not_or.mp (fun hor => hfresh (hstale.mpr hor))
      rw [if_neg hexits]
      exact h.counted hnot
    · rw [hissued]
      exact h.awaited

theorem kinds_call (s : HostedBlueprint) (call : ControllerCall) : kinds (s.call call).controller = kinds s.controller ++ [call.isResume] := by
  unfold kinds HostedBlueprint.call
  rw [List.map_append, ← List.append_assoc]
  rfl

theorem issued_call (s : HostedBlueprint) (call : ControllerCall) : issued (s.call call).controller = issued s.controller + 1 := by
  rw [issued_eq, issued_eq, kinds_call, List.length_append, ← Nat.add_assoc]
  rfl

section
variable (h : Counted config s)
include h

theorem Counted.enter (reason : Text) (consecutiveMisses : ℕ) :
    Counted config (s.call (.enterSafeState reason consecutiveMisses)) := by
  refine ⟨h.latched, h.exact, h.fresh, h.counted, fun i => ?_, fun k hk => ?_⟩
  · rw [kinds_call]
    refine (h.registered i).trans ?_
    rcases Nat.lt_trichotomy i (kinds s.controller).length with hlt | rfl | hgt
    · rw [List.getElem?_append_left hlt]
    · rw [List.getElem?_concat_length, List.getElem?_eq_none le_rfl]
      exact ⟨nofun, nofun⟩
    · rw [List.getElem?_eq_none hgt.le, List.getElem?_eq_none (by rw [List.length_append]; exact hgt)]
  · rw [issued_call]
    exact Nat.lt_succ_of_lt (h.awaited k hk)

theorem Counted.resume (operator reason : Text) :
    Counted config { s.call (.resume operator reason) with resumes := s.resumes ++ [issued s.controller] } := by
  have hissued : s.controller.finished.length ≤ issued s.controller := by
    rw [issued_eq]
    exact Nat.le_add_right _ _
  have hstale : (∃ k ∈ s.resumes ++ [issued s.controller], s.controller.finished[k]? = some true) ↔ s.Stale := by
    refine ⟨?_, fun ⟨k, hmem, hget⟩ => ⟨k, List.mem_append_left _ hmem, hget⟩⟩
    rintro ⟨k, hmem, hget⟩
    rcases List.mem_append.mp hmem with hold | hnew
    · exact ⟨k, hold, hget⟩
    · rw [List.mem_singleton.mp hnew, List.getElem?_eq_none hissued] at hget
      cases hget
  refine ⟨h.latched, h.exact, fun hold => h.fresh (hstale.mp hold), fun hnot => h.counted (fun hold => hnot (hstale.mpr hold)),
    fun i => ?_, fun k hk => ?_⟩
  · have hkinds : kinds (s.call (.resume operator reason)).controller = kinds s.controller ++ [true] := kinds_call _ _
    show s.controller.finished.length + i ∈ s.resumes ++ [issued s.controller] ↔ (kinds (s.call (.resume operator reason)).controller)[i]? = some true
    rw [hkinds, List.mem_append, List.mem_singleton, h.registered i, issued_eq, Nat.add_left_cancel_iff]
    rcases Nat.lt_trichotomy i (kinds s.controller).length with hlt | rfl | hgt
    · rw [List.getElem?_append_left hlt]
      exact ⟨fun hor => hor.resolve_right hlt.ne, .inl⟩
    · rw [List.getElem?_concat_length]
      exact ⟨fun _ => rfl, fun _ => .inr rfl⟩
    · rw [List.getElem?_eq_none hgt.le, List.getElem?_eq_none (by rw [List.length_append]; exact hgt)]
      exact ⟨fun hor => hor.resolve_right hgt.ne', nofun⟩
  · show k < issued (s.call (.resume operator reason)).controller
    rw [issued_call]
    exact Nat.lt_succ_of_lt (h.awaited k hk)

theorem Counted.resumed {j k : ℕ} {resolved : Bool} (hk : s.resumes[j]? = some k)
    (hresolved : s.controller.finished[k]? = some resolved) :
    Counted config { s with resumes := s.resumes.eraseIdx j, consecutiveMisses := if resolved then 0 else s.consecutiveMisses } := by
  obtain ⟨hlt, hget⟩ := List.getElem?_eq_some_iff.mp hk
  have hperm : (k :: s.resumes.eraseIdx j).Perm s.resumes := by
    rw [← hget]
    exact List.getElem_cons_eraseIdx_perm hlt
  have hmem : ∀ other, other ∈ s.resumes ↔ other = k ∨ other ∈ s.resumes.eraseIdx j := by
    intro other
    rw [← hperm.mem_iff, List.mem_cons]
  have hstale : s.Stale ↔ resolved = true ∨ ∃ k ∈ s.resumes.eraseIdx j, s.controller.finished[k]? = some true := by
    constructor
    · rintro ⟨other, hother, htrue⟩
      rcases (hmem other).mp hother with rfl | hrest
      · exact .inl (Option.some.inj (hresolved.symm.trans htrue))
      · exact .inr ⟨other, hrest, htrue⟩
    · rintro (rfl | ⟨other, hrest, htrue⟩)
      · exact ⟨k, (hmem k).mpr (.inl rfl), hresolved⟩
      · exact ⟨other, (hmem other).mpr (.inr hrest), htrue⟩
  refine ⟨h.latched, h.exact, fun hold => h.fresh (hstale.mpr (.inr hold)), fun hnot => ?_, fun i => ?_, h.awaited⟩
  · split_ifs with htrue
    · exact (h.fresh (hstale.mpr (.inl htrue))).symm
    · exact h.counted (fun hold => (hstale.mp hold).elim htrue hnot)
  · have hne : s.controller.finished.length + i ≠ k := by
      rintro rfl
      rw [List.getElem?_eq_none (Nat.le_add_right _ _)] at hresolved
      cases hresolved
    refine Iff.trans ?_ (h.registered i)
    rw [hmem]
    exact ⟨.inr, fun hor => hor.resolve_left hne⟩

theorem Counted.observe (hstale : ¬ s.Stale) (durationMs : ℚ) :
    Counted config (observe config tripReason s durationMs).1 ∧
      ∀ k ∈ (observe config tripReason s durationMs).2, k < issued (observe config tripReason s durationMs).1.controller := by
  have hcounted := h.counted hstale
  have hpositive := config.positive
  unfold HostedBlueprint.observe
  dsimp only
  split_ifs with hignored hwithin htrips
  · exact ⟨h, nofun⟩
  · refine ⟨⟨h.latched, fun observation hmem => ?_, fun hold => absurd hold hstale, fun _ => rfl, h.registered, h.awaited⟩, nofun⟩
    rcases List.mem_append.mp hmem with hold | hnew
    · exact h.exact observation hold
    · rw [List.mem_singleton.mp hnew]
      exact ⟨nofun, fun hle => absurd hle (Nat.not_le.mpr hpositive)⟩
  · have hbase : Counted config { s with
        consecutiveMisses := s.consecutiveMisses + 1
        streak := s.streak + 1
        observations := s.observations ++ [TickObservation.mk true (s.streak + 1)] } := by
      refine ⟨h.latched, fun observation hmem => ?_, fun hold => absurd hold hstale, fun _ => congrArg (· + 1) hcounted, h.registered, h.awaited⟩
      rcases List.mem_append.mp hmem with hold | hnew
      · exact h.exact observation hold
      · rw [List.mem_singleton.mp hnew]
        rw [hcounted] at htrips
        exact ⟨fun _ => htrips, fun _ => rfl⟩
    refine ⟨hbase.enter _ _, fun k hk => ?_⟩
    cases hk
    rw [issued_call]
    exact Nat.lt_succ_self _
  · refine ⟨⟨h.latched, fun observation hmem => ?_, fun hold => absurd hold hstale, fun _ => congrArg (· + 1) hcounted, h.registered, h.awaited⟩, nofun⟩
    rcases List.mem_append.mp hmem with hold | hnew
    · exact h.exact observation hold
    · rw [List.mem_singleton.mp hnew]
      rw [hcounted] at htrips
      exact ⟨nofun, fun hle => absurd hle htrips⟩

theorem Counted.run (hstale : ¬ s.Stale)
    (hlive : s.controller.actuator.halted = true → s.controller.status.runState ≠ .running) (durationMs : Option ℚ) :
    Counted config (run config tripReason s durationMs).1 ∧
      ∀ k ∈ (run config tripReason s durationMs).2, k < issued (run config tripReason s durationMs).1.controller := by
  unfold HostedBlueprint.run
  dsimp only
  split_ifs with hrunning hhalted
  · exact ⟨h, nofun⟩
  · exact absurd (hlive hhalted) hrunning
  · have hticked : Counted config { s with ticks := s.ticks + 1, haltedTicks := s.haltedTicks } :=
      ⟨h.latched, h.exact, h.fresh, h.counted, h.registered, h.awaited⟩
    cases durationMs with
    | none => exact ⟨hticked, nofun⟩
    | some durationMs => exact hticked.observe hstale durationMs

theorem Counted.step {act : WatchdogAct} (hok : s.Sheltered act)
    (hstep : step config tripReason s act = some s') : Counted config s' := by
  cases act with
  | controller act =>
    unfold HostedBlueprint.step at hstep
    dsimp only at hstep
    by_cases hplant : PlantWorks act
    · rw [if_pos hplant] at hstep
      obtain ⟨c', hc, rfl⟩ := Option.map_eq_some_iff.mp hstep
      exact h.controller hplant hc
    · rw [if_neg hplant] at hstep
      cases hstep
  | enterSafeState reason consecutiveMisses =>
    cases hstep
    exact h.enter reason consecutiveMisses
  | resume operator reason =>
    cases hstep
    exact h.resume operator reason
  | resumed j =>
    unfold HostedBlueprint.step at hstep
    dsimp only at hstep
    split at hstep
    next k hk =>
      obtain ⟨resolved, hresolved, rfl⟩ := Option.map_eq_some_iff.mp hstep
      exact h.resumed hk hresolved
    next => cases hstep
  | observeTick durationMs =>
    cases hstep
    exact (h.observe hok durationMs).1
  | runTick durationMs =>
    cases hstep
    exact (h.run hok.2 hok.1 durationMs).1
  | tickOnce durationMs =>
    unfold HostedBlueprint.step at hstep
    dsimp only at hstep
    split_ifs at hstep with hrefused
    · cases hstep
      exact h
    · cases hstep
      have hlive : s.controller.actuator.halted = true → s.controller.status.runState ≠ .running :=
        fun hhalted => absurd (.inl hhalted) hrefused
      obtain ⟨hrun, hawaited⟩ := h.run hok hlive durationMs
      exact ⟨hrun.latched, hrun.exact, hrun.fresh, hrun.counted, hrun.registered, fun k hk => hawaited k (Option.some.inj hk)⟩
  | tickEnds =>
    unfold HostedBlueprint.step at hstep
    dsimp only at hstep
    split at hstep
    · split_ifs at hstep
      cases hstep
      exact ⟨h.latched, h.exact, h.fresh, h.counted, h.registered, nofun⟩
    · cases hstep

end

end Steps

/-! ### Recovery -/

section Recovery
open SafeStateController
variable {c c' : SafeStateController}

def Fine : ControllerAct → Prop
  | .call _ => False
  | .begins halt action _ => halt = .returns ∧ action = .returns
  | .audited ok resume halt action _ _ => ok = true ∧ resume = .returns ∧ halt = .returns ∧ action = .returns
  | .anchored _ | .unpended _ => True

def Reaches (c c' : SafeStateController) : Prop := Reachable SafeStateController.step (fun _ act => Fine act) c c'

def Ready (c : SafeStateController) : Prop :=
  ∀ operator reason, c.transition = some (.requestAudit operator reason) → c.pendingExitRequestAudit ≠ none

theorem Reaches.anchored (hstep : c.anchored [] = some c') : Reaches c c' :=
  Reachable.start.step (show Fine (.anchored []) from trivial) hstep

theorem Reaches.unpended (hstep : c.unpended 0 = some c') : Reaches c c' :=
  Reachable.start.step (show Fine (.unpended 0) from trivial) hstep

theorem Reaches.audited (hstep : c.audited true .returns .returns .returns [] 0 = some c') : Reaches c c' :=
  Reachable.start.step (show Fine (.audited true .returns .returns .returns [] 0) from ⟨rfl, rfl, rfl, rfl⟩) hstep

theorem Reaches.begins (hstep : c.step (.begins .returns .returns 0) = some c') : Reaches c c' :=
  Reachable.start.step (show Fine (.begins .returns .returns 0) from ⟨rfl, rfl⟩) hstep

/-- The transition ends, and the calls that wait are as before. -/
structure Ends (c c' : SafeStateController) : Prop where
  reaches : Reaches c c'
  transition : c'.transition = none
  calls : c'.calls = c.calls

theorem Ends.after {mid : SafeStateController} (h : Ends mid c') (hmid : Reaches c mid) (hcalls : mid.calls = c.calls) : Ends c c' :=
  ⟨hmid.trans h.reaches, h.transition, h.calls.trans hcalls⟩

theorem recoveryAudit_ends {entry : SafeStateAuditEntry} (h : c.transition = some (.recoveryAudit entry)) : ∃ c', Ends c c' := by
  have hstep : c.audited true .returns .returns .returns [] 0 = some ((c.persisted entry).finish false) := by
    unfold SafeStateController.audited
    rw [h]
    rfl
  exact ⟨_, Reaches.audited hstep, rfl, rfl⟩

variable {operator reason : Text} {timestamp : ℤ}

theorem recoveryAnchor_ends {transition : AuditTransition}
    (h : c.transition = some (.recoveryAnchor transition operator reason timestamp)) : ∃ c', Ends c c' := by
  have hstep : c.anchored [] = some (c.await (.recoveryAudit ⟨transition, none, some operator, reason, [], timestamp⟩)) := by
    unfold SafeStateController.anchored
    rw [h]
  obtain ⟨c', hends⟩ := recoveryAudit_ends (c := c.await (.recoveryAudit ⟨transition, none, some operator, reason, [], timestamp⟩)) rfl
  exact ⟨c', hends.after (Reaches.anchored hstep) rfl⟩

structure Exits (c c' : SafeStateController) (halted : Bool) : Prop extends Ends c c' where
  runState : c'.status.runState = .running
  halted : c'.actuator.halted = halted

theorem Exits.after {mid : SafeStateController} {halted : Bool} (h : Exits mid c' halted) (hmid : Reaches c mid) (hcalls : mid.calls = c.calls) :
    Exits c c' halted := ⟨h.toEnds.after hmid hcalls, h.runState, h.halted⟩

theorem exitAudit_ends {entry : SafeStateAuditEntry} (h : c.transition = some (.exitAudit operator reason entry)) :
    ∃ c', Exits c c' c.actuator.halted := by
  have hstep : c.audited true .returns .returns .returns [] 0 =
      some ({ c.persisted entry with status := ⟨.running, none, none, none, none, none, []⟩ }.finish true) := by
    unfold SafeStateController.audited
    rw [h]
    rfl
  exact ⟨_, ⟨Reaches.audited hstep, rfl, rfl⟩, rfl, rfl⟩

theorem exitAnchor_ends (h : c.transition = some (.exitAnchor operator reason timestamp)) :
    ∃ c', Exits c c' c.actuator.halted := by
  have hstep : c.anchored [] = some (c.await (.exitAudit operator reason ⟨.exited, none, some operator, reason, [], timestamp⟩)) := by
    unfold SafeStateController.anchored
    rw [h]
  obtain ⟨c', hexits⟩ := exitAudit_ends (c := c.await (.exitAudit operator reason ⟨.exited, none, some operator, reason, [], timestamp⟩)) rfl
  exact ⟨c', hexits.after (Reaches.anchored hstep) rfl⟩

theorem requestAudit_ends (h : c.transition = some (.requestAudit operator reason))
    (hpending : c.pendingExitRequestAudit ≠ none) : ∃ c', Exits c c' false := by
  obtain ⟨entry, hentry⟩ := Option.ne_none_iff_exists'.mp hpending
  have hstep : c.audited true .returns .returns .returns [] 0 =
      some ({ c.persisted entry with pendingExitRequestAudit := none }.resumeActuator operator reason .returns .returns .returns [] 0) := by
    unfold SafeStateController.audited
    rw [h, hentry]
    rfl
  obtain ⟨c', hends, hrunning, hhalted⟩ := exitAnchor_ends
    (c := { c.persisted entry with pendingExitRequestAudit := none }.resumeActuator operator reason .returns .returns .returns [] 0) rfl
  exact ⟨c', hends.after (Reaches.audited hstep) rfl, hrunning, hhalted.trans (Bool.and_false _)⟩

theorem requestAnchor_ends (h : c.transition = some (.requestAnchor operator reason timestamp)) :
    ∃ c', Exits c c' false := by
  have hstep : c.anchored [] = some ({ c with
      pendingExitRequestAudit := some ⟨.exitRequested, none, some operator, reason, [], timestamp⟩ }.await (.requestAudit operator reason)) := by
    unfold SafeStateController.anchored
    rw [h]
  obtain ⟨c', hexits⟩ := requestAudit_ends (c := { c with
      pendingExitRequestAudit := some ⟨.exitRequested, none, some operator, reason, [], timestamp⟩ }.await (.requestAudit operator reason))
      rfl (Option.some_ne_none _)
  exact ⟨c', hexits.after (Reaches.anchored hstep) rfl⟩

theorem proceed_oldRequest (h : c.transition = some (.oldRequestAudit operator reason)) :
    c.proceed 0 = some (c.await (.requestAnchor operator reason 0)) := by
  unfold SafeStateController.proceed
  rw [h]

theorem proceed_entryToResume (h : c.transition = some (.entryAuditToResume operator reason)) :
    c.proceed 0 = some (c.await (.oldRequestAudit operator reason)) := by
  unfold SafeStateController.proceed
  rw [h]

theorem proceed_entry (h : c.transition = some .entryAudit) : c.proceed 0 = some (c.finish true) := by
  unfold SafeStateController.proceed
  rw [h]

theorem oldRequestAudit_ends (h : c.transition = some (.oldRequestAudit operator reason)) : ∃ c', Exits c c' false := by
  cases hpending : c.pendingExitRequestAudit with
  | none =>
    have hstep : c.unpended 0 = some (c.await (.requestAnchor operator reason 0)) := by
      unfold SafeStateController.unpended
      rw [h, hpending]
      exact proceed_oldRequest h
    obtain ⟨c', hexits⟩ := requestAnchor_ends (c := c.await (.requestAnchor operator reason 0)) rfl
    exact ⟨c', hexits.after (Reaches.unpended hstep) rfl⟩
  | some entry =>
    have hstep : c.audited true .returns .returns .returns [] 0 =
        some ({ c.persisted entry with pendingExitRequestAudit := none }.await (.requestAnchor operator reason 0)) := by
      unfold SafeStateController.audited
      rw [h, hpending]
      exact proceed_oldRequest (c := { c.persisted entry with pendingExitRequestAudit := none }) h
    obtain ⟨c', hexits⟩ := requestAnchor_ends
      (c := { c.persisted entry with pendingExitRequestAudit := none }.await (.requestAnchor operator reason 0)) rfl
    exact ⟨c', hexits.after (Reaches.audited hstep) rfl⟩

theorem entryAuditToResume_ends (h : c.transition = some (.entryAuditToResume operator reason)) :
    ∃ c', Exits c c' false := by
  cases hpending : c.pendingEntryAudit with
  | none =>
    have hstep : c.unpended 0 = some (c.await (.oldRequestAudit operator reason)) := by
      unfold SafeStateController.unpended
      rw [h, hpending]
      exact proceed_entryToResume h
    obtain ⟨c', hexits⟩ := oldRequestAudit_ends (c := c.await (.oldRequestAudit operator reason)) rfl
    exact ⟨c', hexits.after (Reaches.unpended hstep) rfl⟩
  | some entry =>
    have hstep : c.audited true .returns .returns .returns [] 0 = some ((c.entryPersisted entry).await (.oldRequestAudit operator reason)) := by
      unfold SafeStateController.audited
      rw [h, hpending]
      exact proceed_entryToResume (c := c.entryPersisted entry) h
    obtain ⟨c', hexits⟩ := oldRequestAudit_ends (c := (c.entryPersisted entry).await (.oldRequestAudit operator reason)) rfl
    exact ⟨c', hexits.after (Reaches.audited hstep) rfl⟩

theorem entryAudit_ends (h : c.transition = some .entryAudit) : ∃ c', Ends c c' ∧ c'.status.runState = c.status.runState := by
  cases hpending : c.pendingEntryAudit with
  | none =>
    have hstep : c.unpended 0 = some (c.finish true) := by
      unfold SafeStateController.unpended
      rw [h, hpending]
      exact proceed_entry h
    exact ⟨_, ⟨Reaches.unpended hstep, rfl, rfl⟩, rfl⟩
  | some entry =>
    have hstep : c.audited true .returns .returns .returns [] 0 = some ((c.entryPersisted entry).finish true) := by
      unfold SafeStateController.audited
      rw [h, hpending]
      exact proceed_entry (c := c.entryPersisted entry) h
    exact ⟨_, ⟨Reaches.audited hstep, rfl, rfl⟩, rfl⟩

theorem entryAnchor_ends {consecutiveMisses : ℕ}
    (h : c.transition = some (.entryAnchor reason consecutiveMisses timestamp)) : ∃ c', Ends c c' ∧ c'.status.runState = .safeState := by
  obtain ⟨mid, hstep, htransition, hcalls, hsafe⟩ : ∃ mid, c.anchored [] = some mid ∧ mid.transition = some .entryAudit ∧
      mid.calls = c.calls ∧ mid.status.runState = .safeState := by
    unfold SafeStateController.anchored
    rw [h]
    exact ⟨_, rfl, rfl, rfl, rfl⟩
  obtain ⟨c', hends, hstate⟩ := entryAudit_ends htransition
  exact ⟨c', hends.after (Reaches.anchored hstep) hcalls, hstate.trans hsafe⟩

theorem transition_ends (hready : Ready c) : ∃ c', Ends c c' := by
  cases h : c.transition with
  | none => exact ⟨c, Reachable.start, h, rfl⟩
  | some await =>
    cases await with
    | entryAnchor => exact (entryAnchor_ends h).imp fun _ hends => hends.1
    | entryAudit => exact (entryAudit_ends h).imp fun _ hends => hends.1
    | entryAuditToResume => exact (entryAuditToResume_ends h).imp fun _ hexits => hexits.toEnds
    | oldRequestAudit => exact (oldRequestAudit_ends h).imp fun _ hexits => hexits.toEnds
    | requestAnchor => exact (requestAnchor_ends h).imp fun _ hexits => hexits.toEnds
    | requestAudit operator reason => exact (requestAudit_ends h (hready operator reason h)).imp fun _ hexits => hexits.toEnds
    | exitAnchor => exact (exitAnchor_ends h).imp fun _ hexits => hexits.toEnds
    | exitAudit => exact (exitAudit_ends h).imp fun _ hexits => hexits.toEnds
    | recoveryAnchor => exact recoveryAnchor_ends h
    | recoveryAudit => exact recoveryAudit_ends h

theorem Ready.of_none (h : c.transition = none) : Ready c := by
  intro operator reason hrequest
  cases h.symm.trans hrequest

theorem enter_ends {consecutiveMisses : ℕ} {calls : List ControllerCall} (htransition : c.transition = none)
    (hcalls : c.calls = .enterSafeState reason consecutiveMisses :: calls) :
    ∃ c', Reaches c c' ∧ c'.transition = none ∧ c'.calls = calls ∧ c'.status.runState = .safeState := by
  have hstep : c.step (.begins .returns .returns 0) = some ({ c with calls }.enterSafeStateLocked reason consecutiveMisses .returns .returns 0) := by
    unfold SafeStateController.step
    dsimp only
    rw [htransition, hcalls]
  by_cases hsafe : c.status.runState = .safeState
  · have henter : { c with calls }.enterSafeStateLocked reason consecutiveMisses .returns .returns 0 = { c with calls }.await .entryAudit :=
      if_pos hsafe
    rw [henter] at hstep
    obtain ⟨c', hends, hstate⟩ := entryAudit_ends (c := { c with calls }.await .entryAudit) rfl
    exact ⟨c', (Reaches.begins hstep).trans hends.reaches, hends.transition, hends.calls, hstate.trans hsafe⟩
  · have henter : ({ c with calls }.enterSafeStateLocked reason consecutiveMisses .returns .returns 0).transition =
        some (.entryAnchor reason consecutiveMisses 0) ∧
        ({ c with calls }.enterSafeStateLocked reason consecutiveMisses .returns .returns 0).calls = calls := by
      unfold enterSafeStateLocked
      rw [if_neg hsafe]
      exact ⟨rfl, rfl⟩
    obtain ⟨c', hends, hstate⟩ := entryAnchor_ends henter.1
    exact ⟨c', (Reaches.begins hstep).trans hends.reaches, hends.transition, hends.calls.trans henter.2, hstate⟩

theorem resume_ends {calls : List ControllerCall} (htransition : c.transition = none)
    (hcalls : c.calls = .resume operator reason :: calls) (hoperator : isBlank operator = false) (hsafe : c.status.runState = .safeState) :
    ∃ c', Reaches c c' ∧ c'.transition = none ∧ c'.calls = calls ∧ c'.status.runState = .running ∧ c'.actuator.halted = false := by
  have hstep : c.step (.begins .returns .returns 0) = some ({ c with calls }.await (.entryAuditToResume operator reason)) := by
    unfold SafeStateController.step
    dsimp only
    rw [htransition, hcalls]
    dsimp only
    unfold resumeLocked
    rw [if_neg (by rw [hoperator]; exact Bool.false_ne_true), if_neg (not_not_intro hsafe)]
  obtain ⟨c', hends, hrunning, hhalted⟩ := entryAuditToResume_ends (c := { c with calls }.await (.entryAuditToResume operator reason)) rfl
  exact ⟨c', (Reaches.begins hstep).trans hends.reaches, hends.transition, hends.calls, hrunning, hhalted⟩

theorem calls_end (hready : Ready c) : ∃ c', Reaches c c' ∧ c'.transition = none ∧ c'.calls = [] := by
  induction hcalls : c.calls generalizing c with
  | nil =>
    obtain ⟨c', hends⟩ := transition_ends hready
    exact ⟨c', hends.reaches, hends.transition, hends.calls.trans hcalls⟩
  | cons call calls ih =>
    obtain ⟨mid, hends⟩ := transition_ends hready
    have hmid := hends.calls.trans hcalls
    obtain ⟨next, hnext, htransition, hrest⟩ : ∃ next, Reaches mid next ∧ next.transition = none ∧ next.calls = calls := by
      cases call with
      | enterSafeState reason consecutiveMisses =>
        obtain ⟨next, hnext, htransition, hrest, -⟩ := enter_ends hends.transition hmid
        exact ⟨next, hnext, htransition, hrest⟩
      | resume operator reason =>
        have hstep : mid.step (.begins .returns .returns 0) = some ({ mid with calls }.resumeLocked operator reason) := by
          unfold SafeStateController.step
          dsimp only
          rw [hends.transition, hmid]
        have hready : Ready ({ mid with calls }.resumeLocked operator reason) := by
          unfold resumeLocked
          split_ifs <;> exact fun _ _ => nofun
        have hcalls : ({ mid with calls }.resumeLocked operator reason).calls = calls := by
          unfold resumeLocked
          split_ifs <;> rfl
        obtain ⟨next, hends'⟩ := transition_ends hready
        exact ⟨next, (Reaches.begins hstep).trans hends'.reaches, hends'.transition, hends'.calls.trans hcalls⟩
    obtain ⟨c', hreaches, hdone⟩ := ih (Ready.of_none htransition) hrest
    exact ⟨c', (hends.reaches.trans hnext).trans hreaches, hdone⟩

theorem proceed_ready {now : ℤ} (hstep : c.proceed now = some c') : Ready c' := by
  unfold SafeStateController.proceed at hstep
  split at hstep <;> cases hstep <;> exact fun _ _ => nofun

theorem step_ready {act : ControllerAct} (h : Ready c) (hstep : c.step act = some c') : Ready c' := by
  cases act with
  | call =>
    cases hstep
    exact h
  | begins =>
    unfold SafeStateController.step at hstep
    dsimp only at hstep
    split at hstep <;> cases hstep
    · unfold enterSafeStateLocked
      split_ifs <;> exact fun _ _ => nofun
    · unfold resumeLocked
      split_ifs <;> exact fun _ _ => nofun
  | anchored =>
    replace hstep : c.anchored _ = some c' := hstep
    unfold SafeStateController.anchored at hstep
    split at hstep <;> cases hstep
    · exact fun _ _ => nofun
    · exact fun _ _ _ => Option.some_ne_none _
    · exact fun _ _ => nofun
    · exact fun _ _ => nofun
  | unpended => exact proceed_ready (unpended_proceed hstep).1
  | audited ok resume =>
    cases audited_move hstep with
    | entry htransition ha hpending hproceed => exact proceed_ready hproceed
    | oldRequest htransition hproceed => exact proceed_ready hproceed
    | request =>
      unfold SafeStateController.resumeActuator
      split_ifs <;> exact fun _ _ => nofun
    | _ => exact fun _ _ => nofun

theorem Fine.plantWorks {act : ControllerAct} (h : Fine act) : PlantWorks act := by
  cases act with
  | call => exact h.elim
  | begins => exact h.1
  | audited => exact ⟨h.2.1, h.2.2.1⟩
  | _ => trivial

theorem Reaches.progress (h : Reaches c c') : c.finished <+: c'.finished ∧ issued c' = issued c := by
  induction h with
  | start => exact ⟨List.prefix_refl _, rfl⟩
  | @step mid next act _ hfine hnext ih =>
    rw [← ih.2, issued_eq, issued_eq]
    rcases step_moves (Fine.plantWorks hfine) hnext with ⟨hfinished, hkinds, -⟩ | ⟨kind, resolved, hkinds, hfinished, -⟩
    · rw [hfinished, hkinds]
      exact ⟨ih.1, rfl⟩
    · rw [hfinished, hkinds, List.length_append, List.length_cons]
      exact ⟨ih.1.trans (List.prefix_append _ _), Nat.succ_add_eq_add_succ _ _⟩

/-- Whatever has failed before, every call ends when the plant works again, and those that have ended keep their results. -/
theorem calls_all_end (hc : Reachable SafeStateController.step (fun _ _ => True) SafeStateController.start c) :
    ∃ c', Reaches c c' ∧ c'.transition = none ∧ c'.calls = [] ∧ c.finished <+: c'.finished ∧ c'.finished.length = issued c := by
  have hready : Ready c := Reachable.invariant hc (fun _ _ => nofun) fun _ _ _ h _ hstep => step_ready h hstep
  obtain ⟨c', hreaches, htransition, hcalls⟩ := calls_end hready
  obtain ⟨hkept, hissued⟩ := hreaches.progress
  refine ⟨c', hreaches, htransition, hcalls, hkept, ?_⟩
  rw [← hissued, issued, htransition, hcalls]
  rfl

/-- The first call fails when its action throws, and another one waits. -/
theorem calls_all_end_failed : ∃ c c', exec SafeStateController.step SafeStateController.start (failedEntry ++ [.call (.enterSafeState [] 1)]) = some c ∧
    c.finished = [false] ∧ Reaches c c' ∧ [false] <+: c'.finished ∧ c'.finished.length = 2 := by
  obtain ⟨c', hreaches, -, -, hends⟩ := calls_all_end (Reachable.start.of_exec (failedEntry ++ [.call (.enterSafeState [] 1)]) (fun _ _ _ => trivial) rfl)
  exact ⟨_, c', rfl, rfl, hreaches, hends⟩

end Recovery

/-! ### Whole runs -/

section Runs
variable {config : SafeStateConfig} {tripReason : ℕ → ℚ → Text} {s s' : HostedBlueprint}

theorem observe_controller (s : HostedBlueprint) (durationMs : ℚ) : ∃ calls,
    (observe config tripReason s durationMs).1.controller = { s.controller with calls } := by
  unfold observe
  dsimp only
  split_ifs <;> exact ⟨_, rfl⟩

theorem run_controller (s : HostedBlueprint) (durationMs : Option ℚ) : ∃ calls,
    (run config tripReason s durationMs).1.controller = { s.controller with calls } := by
  unfold run
  split
  · exact ⟨_, rfl⟩
  · cases durationMs with
    | none => exact ⟨_, rfl⟩
    | some durationMs => exact observe_controller _ durationMs

def IsReady (s : HostedBlueprint) : Prop := Ready s.controller

theorem ready_step {act : WatchdogAct} (h : Ready s.controller) (hstep : step config tripReason s act = some s') : Ready s'.controller := by
  have hcalls : ∀ calls, Ready { s.controller with calls } := fun _ => h
  cases act with
  | controller act =>
    unfold step at hstep
    dsimp only at hstep
    split at hstep
    · obtain ⟨c', hc, rfl⟩ := Option.map_eq_some_iff.mp hstep
      exact step_ready h hc
    · cases hstep
  | enterSafeState | resume =>
    cases hstep
    exact hcalls _
  | resumed =>
    unfold step at hstep
    dsimp only at hstep
    split at hstep
    · obtain ⟨resolved, -, rfl⟩ := Option.map_eq_some_iff.mp hstep
      exact h
    · cases hstep
  | observeTick durationMs =>
    cases hstep
    obtain ⟨calls, hcontroller⟩ := @observe_controller config tripReason s durationMs
    rw [hcontroller]
    exact hcalls calls
  | runTick durationMs =>
    cases hstep
    obtain ⟨calls, hcontroller⟩ := @run_controller config tripReason s durationMs
    rw [hcontroller]
    exact hcalls calls
  | tickOnce durationMs =>
    unfold step at hstep
    dsimp only at hstep
    split at hstep <;> cases hstep
    · exact h
    · obtain ⟨calls, hcontroller⟩ := @run_controller config tripReason s durationMs
      show Ready (run config tripReason s durationMs).1.controller
      rw [hcontroller]
      exact hcalls calls
  | tickEnds =>
    unfold step at hstep
    dsimp only at hstep
    split at hstep
    · split at hstep <;> cases hstep
      exact h
    · cases hstep

theorem Reaches.lift {c' : SafeStateController} (h : Reaches s.controller c') :
    ∃ s', Reachable (step config tripReason) (fun _ act => Working act) s s' ∧ s'.controller = c' ∧ s'.ticking = s.ticking := by
  generalize hc : s.controller = c at h
  unfold Reaches at h
  induction h with
  | start => exact ⟨s, Reachable.start, hc, rfl⟩
  | @step mid next act _ hfine hnext ih =>
    obtain ⟨s', hreach, hcontroller, hticking⟩ := ih
    have hplant := Fine.plantWorks hfine
    have hworking : Working (.controller act) := by
      cases act with
      | call => exact hfine.elim
      | _ => exact hfine
    have hstep : step config tripReason s' (.controller act) =
        some { s' with controller := next, streak := if exits s'.controller act then 0 else s'.streak } := by
      unfold step
      dsimp only
      rw [if_pos hplant, hcontroller, hnext]
      rfl
    exact ⟨_, hreach.step hworking hstep, rfl, hticking⟩

theorem Counted.working (h : Counted config s) (hs : Reachable (HostedBlueprint.step config tripReason) (fun _ act => Working act) s s') : Counted config s' := by
  apply Reachable.invariant hs h
  intro before act after hbefore hworking hstep
  have hsheltered : before.Sheltered act := by
    cases act with
    | observeTick | runTick | tickOnce => exact hworking.elim
    | _ => trivial
  exact hbefore.step hsheltered hstep

theorem live_of_idle (hrunning : s.controller.status.runState = .running) (hhalted : s.controller.actuator.halted = false)
    (hticking : s.ticking = none) : Live config tripReason s := by
  refine ⟨hrunning, fun durationMs => ?_⟩
  have hrefused : ¬ (s.controller.actuator.halted = true ∨ s.ticking ≠ none) := by
    rw [hhalted, hticking]
    decide
  have hstep : step config tripReason s (.tickOnce durationMs) =
      some { (run config tripReason s durationMs).1 with ticking := some (run config tripReason s durationMs).2 } := by
    unfold step
    dsimp only
    rw [if_neg hrefused]
  refine ⟨_, hstep, ?_⟩
  show (run config tripReason s durationMs).1.ticks = s.ticks + 1
  unfold run
  rw [if_neg (not_not_intro hrunning)]
  cases durationMs with
  | none => rfl
  | some durationMs =>
    dsimp only
    unfold observe
    dsimp only
    split_ifs <;> rfl

/-- From any state the calls that are left are dealt with, the safe state is entered and an
operator resumes. -/
theorem recoverable (h : Counted config s) (hready : Ready s.controller) :
    ∃ s', Reachable (step config tripReason) (fun _ act => Working act) s s' ∧ Live config tripReason s' := by
  obtain ⟨c₁, hreaches₁, htransition₁, hcalls₁⟩ := calls_end hready
  obtain ⟨s₁, hreach₁, rfl, hticking₁⟩ := @Reaches.lift config tripReason s c₁ hreaches₁
  -- the operator's two calls
  have henter : step config tripReason s₁ (.enterSafeState [] 0) = some (s₁.call (.enterSafeState [] 0)) := rfl
  have hcalls₂ : (s₁.call (.enterSafeState [] 0)).controller.calls = [.enterSafeState [] 0] := by
    show s₁.controller.calls ++ _ = _
    rw [hcalls₁]
    rfl
  obtain ⟨c₂, hreaches₂, htransition₂, hnone₂, hsafe⟩ := enter_ends (c := (s₁.call (.enterSafeState [] 0)).controller) htransition₁ hcalls₂
  obtain ⟨s₂, hreach₂, rfl, hticking₂⟩ := @Reaches.lift config tripReason _ c₂ hreaches₂
  have hresume : step config tripReason s₂ (.resume SafeStateController.operator []) =
      some { s₂.call (.resume SafeStateController.operator []) with resumes := s₂.resumes ++ [issued s₂.controller] } := rfl
  have hcalls₃ : (s₂.call (.resume SafeStateController.operator [])).controller.calls = [.resume SafeStateController.operator []] := by
    show s₂.controller.calls ++ _ = _
    rw [hnone₂]
    rfl
  obtain ⟨c₃, hreaches₃, htransition₃, hnone₃, hrunning, hhalted⟩ :=
    resume_ends (c := (s₂.call (.resume SafeStateController.operator [])).controller) htransition₂ hcalls₃ (by decide +kernel) hsafe
  obtain ⟨s₃, hreach₃, rfl, hticking₃⟩ :=
    @Reaches.lift config tripReason { s₂.call (.resume SafeStateController.operator []) with resumes := s₂.resumes ++ [issued s₂.controller] } c₃ hreaches₃
  have hreach : Reachable (step config tripReason) (fun _ act => Working act) s s₃ :=
    (((hreach₁.step (show Working (.enterSafeState [] 0) from trivial) henter).trans hreach₂).step
      (show Working (.resume SafeStateController.operator []) from trivial) hresume).trans hreach₃
  cases hticking : s₃.ticking with
  | none => exact ⟨s₃, hreach, live_of_idle hrunning hhalted hticking⟩
  | some awaited =>
    have hdone : (awaited.all fun k => k < s₃.controller.finished.length) = true := by
      cases awaited with
      | none => rfl
      | some k =>
        have hlt := (h.working hreach).awaited k hticking
        unfold issued at hlt
        rw [htransition₃, hnone₃] at hlt
        exact decide_eq_true hlt
    have hends : step config tripReason s₃ .tickEnds = some { s₃ with ticking := none } := by
      unfold step
      dsimp only
      rw [hticking]
      exact if_pos hdone
    exact ⟨_, hreach.step (show Working .tickEnds from trivial) hends, live_of_idle hrunning hhalted rfl⟩

end Runs

/-- In a sheltered run no tick is computed on a halted blueprint, the watchdog trips exactly on
its threshold, and the operator can always bring the blueprint back. -/
theorem reachable_guarded (config : SafeStateConfig) (tripReason : ℕ → ℚ → Text) {s : HostedBlueprint}
    (hs : Reachable (step config tripReason) Sheltered start s) : Guarded config tripReason s := by
  have hcounted : Counted config s := Reachable.invariant hs (Counted.start config) fun _ _ _ h hok hstep => h.step hok hstep
  have hready : s.IsReady := Reachable.invariant hs (fun _ _ => nofun) fun _ _ _ h _ hstep => ready_step h hstep
  exact ⟨hcounted.latched, hcounted.exact, recoverable hcounted hready⟩

def oneMiss : SafeStateConfig := ⟨true, 10, 1, Nat.one_pos⟩

def overBudget (_ : ℕ) (_ : ℚ) : Text := "over budget".toList

def hostedTrip : List WatchdogAct :=
  [.tickOnce (some 20), .controller (.begins .returns .returns 0), .controller (.anchored []),
    .controller (.audited true .returns .returns .returns [] 1), .tickEnds, .tickOnce (some 5)]

def hostedTripRun : HostedBlueprint := (exec (checked (step oneMiss overBudget) Sheltered) start hostedTrip).getD start

theorem reachable_guarded_tripped : (hostedTripRun.ticks = 1 ∧ hostedTripRun.observations = [⟨true, 1⟩]) ∧
    Guarded oneMiss overBudget hostedTripRun := by
  have hexec : exec (checked (step oneMiss overBudget) Sheltered) start hostedTrip = some hostedTripRun := eq_some_getD (by decide +kernel) _
  exact ⟨by decide +kernel, reachable_guarded oneMiss overBudget (Reachable.start.of_exec_checked hostedTrip hexec)⟩

/-- The watchdog is called while the entry into the safe state is being anchored. -/
def tickDuringEntry : List WatchdogAct := [.observeTick 20, .controller (.begins .returns .returns 0), .runTick (some 5)]

def tickDuringEntryRun : HostedBlueprint := (exec (step oneMiss overBudget) start tickDuringEntry).getD start

theorem tick_during_entry :
    ¬ ∀ s, Reachable (step oneMiss overBudget) (fun _ _ => True) start s → Guarded oneMiss overBudget s := by
  intro hguarded
  have hexec : exec (step oneMiss overBudget) start tickDuringEntry = some tickDuringEntryRun := eq_some_getD (by decide +kernel) _
  have hrun := Reachable.start.of_exec tickDuringEntry (fun _ _ _ => trivial) hexec
  have hlatched : tickDuringEntryRun.haltedTicks = 0 := (hguarded tickDuringEntryRun hrun).latched
  have hhalted : tickDuringEntryRun.haltedTicks = 1 := by decide +kernel
  cases hhalted.symm.trans hlatched

end HostedBlueprint

end OxScada.Blueprint
