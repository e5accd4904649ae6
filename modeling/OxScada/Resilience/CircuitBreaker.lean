import OxScada.Runs.Reachable

/-! The circuit breaker. An operation that was started while it was closed may end after it
opened. -/

namespace OxScada.Resilience
open OxScada.Runs

structure CircuitBreakerConfig where
  failureThreshold : ℕ
  resetTimeoutMs : ℤ

inductive BreakerState where
  | closed | opened | halfOpen
  deriving DecidableEq

structure CircuitBreaker where
  state : BreakerState := .closed
  failures : ℕ := 0
  lastFailureTime : ℤ := 0
  requests : ℕ := 0
  successes : ℕ := 0
  deriving DecidableEq

namespace CircuitBreaker
variable (config : CircuitBreakerConfig)

def execute (b : CircuitBreaker) (now : ℤ) : Option CircuitBreaker :=
  if b.state = .opened then
    if config.resetTimeoutMs ≤ now - b.lastFailureTime then
      some { b with state := .halfOpen, requests := b.requests + 1 }
    else none
  else some { b with requests := b.requests + 1 }

def onSuccess (b : CircuitBreaker) : CircuitBreaker :=
  { b with
    successes := b.successes + 1
    failures := 0
    state := if b.state = .halfOpen then .closed else b.state }

def onFailure (b : CircuitBreaker) (now : ℤ) : CircuitBreaker :=
  { b with
    failures := b.failures + 1
    lastFailureTime := now
    state := if config.failureThreshold ≤ b.failures + 1 then .opened else b.state }

def reset (_ : CircuitBreaker) : CircuitBreaker := {}

end CircuitBreaker

/-! ### Overlapping calls -/

structure BreakerRun where
  breaker : CircuitBreaker
  underway : ℕ
  clock : ℤ
  failedAt : Option ℤ

inductive BreakerAct where
  | execute (now : ℤ)
  | succeeds
  | fails (now : ℤ)
  | reset

namespace BreakerRun

def start (clock : ℤ) : BreakerRun := ⟨{}, 0, clock, none⟩

def step (config : CircuitBreakerConfig) (r : BreakerRun) : BreakerAct → Option BreakerRun
  | .execute now =>
    if now < r.clock then none
    else
      match r.breaker.execute config now with
      | some breaker => some { r with breaker, underway := r.underway + 1, clock := now }
      | none => some { r with clock := now }
  | .succeeds =>
    match r.underway with
    | 0 => none
    | underway + 1 => some { r with breaker := r.breaker.onSuccess, underway }
  | .fails now =>
    if now < r.clock then none
    else
      match r.underway with
      | 0 => none
      | underway + 1 => some ⟨r.breaker.onFailure config now, underway, now, some now⟩
  | .reset => some { r with breaker := r.breaker.reset }

structure Safe (config : CircuitBreakerConfig) (r : BreakerRun) : Prop where
  waits : ∀ now t, r.breaker.state = .opened → r.failedAt = some t → now - t < config.resetTimeoutMs →
    r.breaker.execute config now = none
  opens : ∀ now, r.breaker.state = .halfOpen → (r.breaker.onFailure config now).state = .opened

/-- No operation succeeds while the breaker is open, unless one failure is enough to open it. -/
def Timely (config : CircuitBreakerConfig) (r : BreakerRun) : BreakerAct → Prop
  | .succeeds => r.breaker.state = .opened → config.failureThreshold ≤ 1
  | _ => True

instance (config : CircuitBreakerConfig) (r : BreakerRun) (act : BreakerAct) : Decidable (r.Timely config act) := by
  unfold Timely
  split <;> infer_instance

/-- A breaker that is not closed still counts the failures that opened it. -/
structure Counted (config : CircuitBreakerConfig) (r : BreakerRun) : Prop where
  failures : r.breaker.state ≠ .closed → config.failureThreshold ≤ r.breaker.failures + 1
  failedAt : r.breaker.state ≠ .closed → r.failedAt = some r.breaker.lastFailureTime

theorem Counted.safe {config : CircuitBreakerConfig} {r : BreakerRun} (h : Counted config r) : Safe config r := by
  constructor
  · intro now t hopened hfailed hearly
    have hlast : r.breaker.lastFailureTime = t := by
      have hsome := h.failedAt (by rw [hopened]; decide)
      exact Option.some.inj (hsome.symm.trans hfailed)
    have hnot : ¬ config.resetTimeoutMs ≤ now - r.breaker.lastFailureTime := by
      rw [hlast]
      exact not_le.mpr hearly
    rw [CircuitBreaker.execute, if_pos hopened, if_neg hnot]
  · intro now hhalf
    have hfailures := h.failures (by rw [hhalf]; decide)
    exact if_pos hfailures

theorem Counted.start (config : CircuitBreakerConfig) (clock : ℤ) : Counted config (start clock) :=
  ⟨fun h => absurd rfl h, fun h => absurd rfl h⟩

section Steps
variable {config : CircuitBreakerConfig} {r r' : BreakerRun}

theorem Counted.execute (h : Counted config r) {now : ℤ} (hstep : step config r (.execute now) = some r') :
    Counted config r' := by
  unfold step CircuitBreaker.execute at hstep
  dsimp only at hstep
  split_ifs at hstep with hclock hopened hreset
  · obtain rfl := Option.some.inj hstep
    have hnot : r.breaker.state ≠ .closed := by
      rw [hopened]
      decide
    exact ⟨fun _ => h.failures hnot, fun _ => h.failedAt hnot⟩
  · obtain rfl := Option.some.inj hstep
    exact ⟨h.failures, h.failedAt⟩
  · obtain rfl := Option.some.inj hstep
    exact ⟨h.failures, h.failedAt⟩

theorem Counted.succeeds (h : Counted config r) (hok : r.Timely config .succeeds)
    (hstep : step config r .succeeds = some r') : Counted config r' := by
  unfold step at hstep
  dsimp only at hstep
  split at hstep
  · cases hstep
  · obtain rfl := Option.some.inj hstep
    have hopened : (r.breaker.onSuccess).state ≠ .closed → r.breaker.state = .opened := by
      intro hstate
      unfold CircuitBreaker.onSuccess at hstate
      cases hbefore : r.breaker.state with
      | closed | halfOpen =>
        rw [hbefore] at hstate
        exact absurd rfl hstate
      | opened => rfl
    refine ⟨fun hstate => hok (hopened hstate), fun hstate => h.failedAt ?_⟩
    rw [hopened hstate]
    decide

theorem Counted.fails (h : Counted config r) {now : ℤ} (hstep : step config r (.fails now) = some r') :
    Counted config r' := by
  unfold step at hstep
  dsimp only at hstep
  split_ifs at hstep with hclock
  split at hstep
  · cases hstep
  · obtain rfl := Option.some.inj hstep
    refine ⟨fun hstate => ?_, fun _ => rfl⟩
    show config.failureThreshold ≤ r.breaker.failures + 1 + 1
    unfold CircuitBreaker.onFailure at hstate
    dsimp only at hstate
    split_ifs at hstate with hreached
    · exact hreached.trans (Nat.le_succ _)
    · exact (h.failures hstate).trans (Nat.le_succ _)

theorem Counted.step {act : BreakerAct} (h : Counted config r) (hok : r.Timely config act)
    (hstep : BreakerRun.step config r act = some r') : Counted config r' := by
  cases act with
  | execute now => exact h.execute hstep
  | succeeds => exact h.succeeds hok hstep
  | fails now => exact h.fails hstep
  | reset =>
    obtain rfl := Option.some.inj hstep
    exact ⟨fun hstate => absurd rfl hstate, fun hstate => absurd rfl hstate⟩

end Steps

theorem breaker_safe (config : CircuitBreakerConfig) (clock : ℤ) {r : BreakerRun}
    (hr : Reachable (step config) (Timely config) (start clock) r) : Safe config r := by
  have h : Counted config r := hr.invariant (Counted.start config clock) fun _ _ _ h hok hstep => h.step hok hstep
  exact h.safe

def twoFailures : CircuitBreakerConfig := ⟨2, 1000⟩

def opensAgain : List BreakerAct := [.execute 0, .execute 0, .fails 10, .fails 20, .execute 2000]

def halfOpenRun : BreakerRun := (exec (checked (step twoFailures) (Timely twoFailures)) (start 0) opensAgain).getD (start 0)

theorem breaker_safe_half_open : halfOpenRun.breaker.state = .halfOpen ∧ Safe twoFailures halfOpenRun := by
  have hexec : exec (checked (step twoFailures) (Timely twoFailures)) (start 0) opensAgain = some halfOpenRun :=
    eq_some_getD (by decide) _
  exact ⟨by decide, breaker_safe twoFailures 0 (Reachable.start.of_exec_checked opensAgain hexec)⟩

/-- A third operation succeeds after two others opened the breaker. -/
def lateSuccess : List BreakerAct := [.execute 0, .execute 0, .execute 0, .fails 10, .fails 20, .succeeds, .execute 2000]

def forgottenRun : BreakerRun := (exec (step twoFailures) (start 0) lateSuccess).getD (start 0)

theorem late_success_keeps_half_open :
    ¬ ∀ r, Reachable (step twoFailures) (fun _ _ => True) (start 0) r → Safe twoFailures r := by
  intro hsafe
  have hexec : exec (step twoFailures) (start 0) lateSuccess = some forgottenRun := eq_some_getD (by decide) _
  have hrun := Reachable.start.of_exec lateSuccess (fun _ _ _ => trivial) hexec
  have hopened := (hsafe forgottenRun hrun).opens 2010 (by decide)
  have hhalf : (forgottenRun.breaker.onFailure twoFailures 2010).state = .halfOpen := by decide
  rw [hhalf] at hopened
  cases hopened

end BreakerRun

end OxScada.Resilience
