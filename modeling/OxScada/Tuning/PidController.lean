import Mathlib
import OxScada.Runs.Throughout

/-! The discrete PID controller. The integral is limited, and what a sample has added to it is taken back when
the output is clamped. -/

namespace OxScada.Tuning

structure PIDGains where
  kp : ℚ
  ki : ℚ
  kd : ℚ
  deriving DecidableEq, Repr

structure PIDControllerConfig where
  gains : PIDGains
  setpoint : ℚ
  outputMin : ℚ
  outputMax : ℚ
  maxGainChangeFraction : ℚ := 1 / 4
  integralLimit : ℚ := 1000
  sampleTime : ℚ := 1
  derivativeFilterAlpha : ℚ := 1 / 10
  deriving DecidableEq, Repr

structure PIDState where
  processVariable : ℚ
  error : ℚ
  integral : ℚ
  derivative : ℚ
  output : ℚ
  timestamp : ℚ
  deriving DecidableEq, Repr

structure PIDController extends PIDControllerConfig where
  integral : ℚ := 0
  prevError : ℚ := 0
  prevDerivative : ℚ := 0
  prevOutput : ℚ := 0
  startTime : ℚ
  settledTime : Option ℚ := none
  errorHistory : List (ℚ × ℚ) := []
  ise : ℚ := 0
  iae : ℚ := 0
  itae : ℚ := 0
  peakPV : Option ℚ := none
  sampleCount : ℕ := 0
  deriving DecidableEq, Repr

def maxHistory : ℕ := 2000

def clampThreshold : ℚ := 1 / 10 ^ 10

namespace PIDController

def create (config : PIDControllerConfig) (now : ℚ) : PIDController := { config with startTime := now }

variable (c : PIDController)

/-! ### One sample -/

variable (processVariable : ℚ)

def errorAt : ℚ := c.setpoint - processVariable

variable (dt : Option ℚ)

def deltaT : ℚ := dt.getD c.sampleTime

def accumulation : ℚ := c.errorAt processVariable * c.deltaT dt

def limitedIntegral : ℚ :=
  max (-c.integralLimit) (min c.integralLimit (c.integral + c.accumulation processVariable dt))

def filteredDerivative : ℚ :=
  let rawDerivative := if 0 < c.deltaT dt then (c.errorAt processVariable - c.prevError) / c.deltaT dt else 0
  c.derivativeFilterAlpha * rawDerivative + (1 - c.derivativeFilterAlpha) * c.prevDerivative

def unclamped : ℚ :=
  c.gains.kp * c.errorAt processVariable + c.gains.ki * c.limitedIntegral processVariable dt + c.gains.kd * c.filteredDerivative processVariable dt

def output : ℚ := max c.outputMin (min c.outputMax (c.unclamped processVariable dt))

def saturates : Bool :=
  clampThreshold < |c.output processVariable dt - c.unclamped processVariable dt|

def settlingBand : ℚ := if |c.setpoint| * (2 / 100) = 0 then 2 / 100 else |c.setpoint| * (2 / 100)

def settle (error elapsed : ℚ) : Option ℚ :=
  if c.settledTime = none ∧ |error| ≤ c.settlingBand then some elapsed
  else if c.settlingBand < |error| then none
  else c.settledTime

def update (now : ℚ) : PIDController × PIDState :=
  let error := c.errorAt processVariable
  let accumulation := c.accumulation processVariable dt
  let limited := c.limitedIntegral processVariable dt
  let integral := if c.saturates processVariable dt then limited - accumulation else limited
  let derivative := c.filteredDerivative processVariable dt
  let output := c.output processVariable dt
  let elapsed := now - c.startTime
  let history := c.errorHistory ++ [(elapsed, error)]
  ({ c with
      integral := integral
      ise := c.ise + error * error * c.deltaT dt
      iae := c.iae + |error| * c.deltaT dt
      itae := c.itae + elapsed * |error| * c.deltaT dt
      sampleCount := c.sampleCount + 1
      peakPV := if c.peakPV.all fun peak => peak < processVariable then some processVariable else c.peakPV
      settledTime := c.settle error elapsed
      errorHistory := if maxHistory < history.length then history.tail else history
      prevError := error
      prevDerivative := derivative
      prevOutput := output },
    { processVariable, error, integral, derivative, output, timestamp := now })

/-! ### Setpoint and gains -/

def resetMetrics (now : ℚ) : PIDController :=
  { c with
    ise := 0
    iae := 0
    itae := 0
    peakPV := none
    settledTime := none
    errorHistory := []
    sampleCount := 0
    startTime := now }

def setSetpoint (setpoint now : ℚ) : PIDController := ({ c with setpoint } : PIDController).resetMetrics now

def changeAllowed (fraction old next : ℚ) : Bool := if old = 0 then |next| < 1 else |(next - old) / old| ≤ fraction

/-- New gains and `true`, or `false` if they are too far from the old ones. -/
def applyGains (newGains : PIDGains) : PIDController × Bool :=
  if changeAllowed c.maxGainChangeFraction c.gains.kp newGains.kp && changeAllowed c.maxGainChangeFraction c.gains.ki newGains.ki
      && changeAllowed c.maxGainChangeFraction c.gains.kd newGains.kd then
    ({ c with gains := newGains }, true)
  else (c, false)

/-! ### Runs -/

inductive Call
  | update (processVariable : ℚ) (dt : Option ℚ) (now : ℚ)
  | setSetpoint (setpoint now : ℚ)
  | applyGains (newGains : PIDGains)
  | resetMetrics (now : ℚ)
  deriving DecidableEq, Repr

def perform : Call → PIDController
  | .update processVariable dt now => (c.update processVariable dt now).1
  | .setSetpoint setpoint now => c.setSetpoint setpoint now
  | .applyGains newGains => (c.applyGains newGains).1
  | .resetMetrics now => c.resetMetrics now

/-- The output and the integral are in their limits, and a clamped sample leaves the integral as it was. -/
structure WindupFree (processVariable : ℚ) (dt : Option ℚ) (now : ℚ) : Prop where
  output_mem : (c.update processVariable dt now).2.output ∈ Set.Icc c.outputMin c.outputMax
  integral_le : |(c.update processVariable dt now).1.integral| ≤ c.integralLimit
  undone : clampThreshold < |(c.update processVariable dt now).2.output - c.unclamped processVariable dt| →
    (c.update processVariable dt now).1.integral = c.integral

def OnUpdate (P : PIDController → ℚ → Option ℚ → ℚ → Prop) (c : PIDController) : Call → Prop
  | .update processVariable dt now => P c processVariable dt now
  | _ => True

/-- A sample that clamps the output does not take the integral over its limit. -/
def Undoable (processVariable : ℚ) (dt : Option ℚ) (_now : ℚ) : Prop :=
  c.saturates processVariable dt = true → |c.integral + c.accumulation processVariable dt| ≤ c.integralLimit

structure Limited : Prop where
  integral_le : |c.integral| ≤ c.integralLimit
  output_le : c.outputMin ≤ c.outputMax

variable {c} {processVariable now : ℚ} {dt : Option ℚ}

theorem limitedIntegral_le (h : 0 ≤ c.integralLimit) : |c.limitedIntegral processVariable dt| ≤ c.integralLimit := by
  rw [abs_le]
  exact ⟨le_max_left _ _, max_le (by linarith) (min_le_left _ _)⟩

theorem limitedIntegral_eq (h : |c.integral + c.accumulation processVariable dt| ≤ c.integralLimit) :
    c.limitedIntegral processVariable dt = c.integral + c.accumulation processVariable dt := by
  obtain ⟨hlow, hhigh⟩ := abs_le.mp h
  rw [limitedIntegral, min_eq_right hhigh, max_eq_right hlow]

theorem output_mem_Icc (h : c.outputMin ≤ c.outputMax) : c.output processVariable dt ∈ Set.Icc c.outputMin c.outputMax :=
  ⟨le_max_left _ _, max_le h (min_le_left _ _)⟩

theorem update_integral (processVariable : ℚ) (dt : Option ℚ) (now : ℚ) :
    (c.update processVariable dt now).1.integral =
      if c.saturates processVariable dt then c.limitedIntegral processVariable dt - c.accumulation processVariable dt
      else c.limitedIntegral processVariable dt := rfl

theorem saturates_iff : c.saturates processVariable dt = true ↔
    clampThreshold < |(c.update processVariable dt now).2.output - c.unclamped processVariable dt| := decide_eq_true_iff

theorem windupFree_iff (h : c.Limited) : c.WindupFree processVariable dt now ↔ c.Undoable processVariable dt now := by
  have hlimit : 0 ≤ c.integralLimit := (abs_nonneg _).trans h.integral_le
  constructor
  · intro hfree hsaturates
    have hundone := hfree.undone (saturates_iff.mp hsaturates)
    rw [update_integral, if_pos hsaturates, sub_eq_iff_eq_add] at hundone
    rw [← hundone]
    exact limitedIntegral_le hlimit
  · intro hundoable
    have hundone : c.saturates processVariable dt = true → (c.update processVariable dt now).1.integral = c.integral := by
      intro hsaturates
      rw [update_integral, if_pos hsaturates, limitedIntegral_eq (hundoable hsaturates), add_sub_cancel_right]
    refine ⟨output_mem_Icc h.output_le, ?_, fun hclamped => hundone (saturates_iff.mpr hclamped)⟩
    by_cases hsaturates : c.saturates processVariable dt = true
    · rw [hundone hsaturates]
      exact h.integral_le
    · rw [update_integral, if_neg hsaturates]
      exact limitedIntegral_le hlimit

theorem applyGains_eq (newGains : PIDGains) : (c.applyGains newGains).1 = { c with gains := newGains } ∨ (c.applyGains newGains).1 = c := by
  unfold applyGains
  split_ifs
  · exact .inl rfl
  · exact .inr rfl

theorem Limited.perform (h : c.Limited) (call : Call) (hcall : OnUpdate Undoable c call) : (c.perform call).Limited := by
  cases call with
  | update processVariable dt now => exact ⟨((windupFree_iff h).mpr hcall).integral_le, h.output_le⟩
  | setSetpoint | resetMetrics => exact ⟨h.integral_le, h.output_le⟩
  | applyGains newGains =>
    show (c.applyGains newGains).1.Limited
    rcases applyGains_eq (c := c) newGains with heq | heq
    · rw [heq]
      exact ⟨h.integral_le, h.output_le⟩
    · rw [heq]
      exact h

/-- Windup is excluded along a run if and only if no sample clamps the output while it takes the integral over
its limit. -/
theorem throughout_windupFree_iff (config : PIDControllerConfig) (start : ℚ) (calls : List Call) (hlimit : 0 ≤ config.integralLimit)
    (houtput : config.outputMin ≤ config.outputMax) :
    Runs.Throughout perform (OnUpdate WindupFree) (create config start) calls ↔
      Runs.Throughout perform (OnUpdate Undoable) (create config start) calls := by
  refine Runs.throughout_iff (I := Limited) ?_ (fun c call h hcall => h.perform call hcall) ⟨?_, houtput⟩ calls
  · intro c call h
    cases call with
    | update processVariable dt now => exact windupFree_iff h
    | setSetpoint | applyGains | resetMetrics => exact Iff.rfl
  · show |(0 : ℚ)| ≤ config.integralLimit
    rw [abs_zero]
    exact hlimit

/-! ### A sample that winds up -/

def narrowLoop : PIDControllerConfig where
  gains := ⟨1, 1, 0⟩
  setpoint := 100
  outputMin := 0
  outputMax := 10
  integralLimit := 10

/-- An error of 100 for a second takes the integral to its limit of 10, and 100 is then taken back from it. -/
theorem narrowLoop_winds_up : ((create narrowLoop 0).update 0 (some 1) 0).1.integral = -90 ∧
    ¬ Runs.Throughout perform (OnUpdate WindupFree) (create narrowLoop 0) [.update 0 (some 1) 0] := by
  have hintegral : ((create narrowLoop 0).update 0 (some 1) 0).1.integral = -90 := by decide +kernel
  refine ⟨hintegral, fun hfree => ?_⟩
  have hle := hfree.1.integral_le
  rw [hintegral] at hle
  revert hle
  decide +kernel

/-- The second sample clamps the output with the integral at 8, and takes its 3 back. -/
theorem narrowLoop_windupFree_iff :
    Runs.Throughout perform (OnUpdate WindupFree) (create narrowLoop 0) [.update 95 (some 1) 0, .update 97 (some 1) 1] ∧
      ¬ Runs.Throughout perform (OnUpdate WindupFree) (create narrowLoop 0) [.update 0 (some 1) 0] := by
  have hiff := fun calls => throughout_windupFree_iff narrowLoop 0 calls (by decide +kernel) (by decide +kernel)
  refine ⟨(hiff _).mpr ⟨fun _ => ?_, fun _ => ?_, trivial⟩, fun hfree => absurd (((hiff _).mp hfree).1 ?_) ?_⟩
  all_goals decide +kernel

end PIDController

end OxScada.Tuning
