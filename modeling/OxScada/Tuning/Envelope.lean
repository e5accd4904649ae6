import OxScada.Bytes.Buffer
import OxScada.Tuning.PidController

/-! The safety envelope of the gains of a loop, and the steps that are truncated to the rate limit of its controller. -/

namespace OxScada.Tuning
open OxScada.Bytes

structure GainRange where
  min : ℚ
  max : ℚ
  deriving DecidableEq, Repr

structure GainEnvelope where
  kpRange : GainRange
  kiRange : GainRange
  kdRange : GainRange
  deriving DecidableEq, Repr

def defaultEnvelope : GainEnvelope := { kpRange := ⟨0, 100⟩, kiRange := ⟨0, 50⟩, kdRange := ⟨0, 50⟩ }

inductive GainName
  | kp
  | ki
  | kd
  deriving DecidableEq, Repr

def PIDGains.get (gains : PIDGains) : GainName → ℚ
  | .kp => gains.kp
  | .ki => gains.ki
  | .kd => gains.kd

variable (envelope : GainEnvelope)

def GainEnvelope.range : GainName → GainRange
  | .kp => envelope.kpRange
  | .ki => envelope.kiRange
  | .kd => envelope.kdRange

inductive EnvelopeError
  | inverted (name : GainName) (range : GainRange)
  | negative (name : GainName)
  deriving DecidableEq, Repr

/-- What is wrong with the first range that has something wrong. -/
def validateEnvelope : Option EnvelopeError :=
  [GainName.kp, .ki, .kd].findSome? fun name =>
    let range := envelope.range name
    if range.max < range.min then some (.inverted name range) else if range.min < 0 then some (.negative name) else none

def describeEnvelopeViolations (gains : PIDGains) (envelope : GainEnvelope) : List (GainName × ℚ × GainRange) :=
  [GainName.kp, .ki, .kd].filterMap fun name =>
    let value := gains.get name
    let range := envelope.range name
    if value < range.min ∨ range.max < value then some (name, value, range) else none

def GainEnvelope.Holds (gains : PIDGains) : Prop :=
  ∀ name, (envelope.range name).min ≤ gains.get name ∧ gains.get name ≤ (envelope.range name).max

theorem describeEnvelopeViolations_nil {gains : PIDGains} {envelope : GainEnvelope} :
    describeEnvelopeViolations gains envelope = [] ↔ envelope.Holds gains := by
  unfold describeEnvelopeViolations GainEnvelope.Holds
  rw [List.filterMap_eq_nil_iff]
  constructor
  · intro hnone name
    have hname := hnone name (by cases name <;> simp)
    dsimp only at hname
    split_ifs at hname with houtside
    rw [not_or, not_lt, not_lt] at houtside
    exact houtside
  · intro hholds name _
    dsimp only
    rw [if_neg]
    rw [not_or, not_lt, not_lt]
    exact hholds name

/-! ### Steps -/

def rateLimitMargin : ℚ := 1 - 1 / 10 ^ 9

def sign (x : ℚ) : ℚ := if 0 < x then 1 else if x < 0 then -1 else 0

def limitStep (maxFraction old target : ℚ) : ℚ :=
  if old = 0 then if |target| < 1 then target else sign target * (999 / 1000)
  else
    let maxDelta := |old| * maxFraction
    let delta := target - old
    if |delta| ≤ maxDelta then target else old + sign delta * maxDelta * rateLimitMargin

def limitStepTowards (current target : PIDGains) (maxFraction : ℚ) : PIDGains × Bool :=
  let gains : PIDGains := {
    kp := limitStep maxFraction current.kp target.kp
    ki := limitStep maxFraction current.ki target.ki
    kd := limitStep maxFraction current.kd target.kd }
  (gains, gains = target)

theorem limitStepTowards_get (current target : PIDGains) (maxFraction : ℚ) (name : GainName) :
    (limitStepTowards current target maxFraction).1.get name = limitStep maxFraction (current.get name) (target.get name) := by
  cases name <;> rfl

theorem sign_mul_abs (x : ℚ) : sign x * |x| = x := by
  unfold sign
  split_ifs with hpos hneg
  · rw [abs_of_pos hpos, one_mul]
  · rw [abs_of_neg hneg]
    ring
  · have hzero : x = 0 := le_antisymm (not_lt.mp hpos) (not_lt.mp hneg)
    rw [hzero, abs_zero, mul_zero]

theorem between_of_part {old target low high : ℚ} (part : ℚ) (hold : low ≤ old ∧ old ≤ high) (htarget : low ≤ target ∧ target ≤ high)
    (hpart : 0 ≤ part ∧ part ≤ |target - old|) : low ≤ old + sign (target - old) * part ∧ old + sign (target - old) * part ≤ high := by
  have hway := sign_mul_abs (target - old)
  unfold sign at hway ⊢
  split_ifs at hway ⊢ with hpos hneg
  · rw [abs_of_pos hpos] at hpart
    constructor <;> linarith
  · rw [abs_of_neg hneg] at hpart
    constructor <;> linarith
  · rw [zero_mul, add_zero]
    exact hold

theorem limitStep_between {maxFraction old target low high : ℚ} (hfraction : 0 ≤ maxFraction) (hold : low ≤ old ∧ old ≤ high)
    (htarget : low ≤ target ∧ target ≤ high) : low ≤ limitStep maxFraction old target ∧ limitStep maxFraction old target ≤ high := by
  unfold limitStep
  dsimp only
  split_ifs with hzero hsmall hreach
  · exact htarget
  · have hpart := between_of_part (999 / 1000) hold htarget
    rw [hzero, sub_zero, zero_add] at hpart
    exact hpart ⟨by norm_num, by linarith [not_lt.mp hsmall]⟩
  · exact htarget
  · have hmax : 0 ≤ |old| * maxFraction := mul_nonneg (abs_nonneg old) hfraction
    have hmargin : 0 ≤ rateLimitMargin ∧ rateLimitMargin ≤ 1 := by
      unfold rateLimitMargin
      norm_num
    have hless : |old| * maxFraction * rateLimitMargin ≤ |old| * maxFraction := mul_le_of_le_one_right hmax hmargin.2
    rw [mul_assoc]
    exact between_of_part _ hold htarget ⟨mul_nonneg hmax hmargin.1, hless.trans (not_le.mp hreach).le⟩

theorem limitStepTowards_holds {envelope : GainEnvelope} {current target : PIDGains} {maxFraction : ℚ} (hfraction : 0 ≤ maxFraction)
    (hcurrent : envelope.Holds current) (htarget : envelope.Holds target) : envelope.Holds (limitStepTowards current target maxFraction).1 := by
  intro name
  rw [limitStepTowards_get]
  exact limitStep_between hfraction (hcurrent name) (htarget name)

/-! ### Steps one after the other -/

section Sequences
variable {maxFraction old target low high : ℚ}

theorem rateLimitMargin_pos : 0 < rateLimitMargin := by norm_num [rateLimitMargin]

theorem rateLimitMargin_lt_one : rateLimitMargin < 1 := by norm_num [rateLimitMargin]

theorem changeAllowed_limitStep (hfraction : 0 ≤ maxFraction) (old target : ℚ) : PIDController.changeAllowed maxFraction old (limitStep maxFraction old target) = true := by
  unfold PIDController.changeAllowed limitStep
  by_cases hzero : old = 0
  · rw [if_pos hzero, if_pos hzero, decide_eq_true_eq]
    by_cases hsmall : |target| < 1
    · rw [if_pos hsmall]
      exact hsmall
    · rw [if_neg hsmall]
      unfold sign
      split_ifs <;> norm_num [abs_lt]
  · have hpos : 0 < |old| := abs_pos.mpr hzero
    rw [if_neg hzero, if_neg hzero, decide_eq_true_eq, abs_div, div_le_iff₀ hpos]
    dsimp only
    by_cases hreach : |target - old| ≤ |old| * maxFraction
    · rw [if_pos hreach, mul_comm]
      exact hreach
    · have hsign : |sign (target - old)| ≤ 1 := by
        unfold sign
        split_ifs <;> norm_num
      have hpart : 0 ≤ |old| * maxFraction * rateLimitMargin := mul_nonneg (mul_nonneg hpos.le hfraction) rateLimitMargin_pos.le
      rw [if_neg hreach, add_sub_cancel_left, mul_assoc, abs_mul, abs_of_nonneg hpart]
      calc |sign (target - old)| * (|old| * maxFraction * rateLimitMargin)
          ≤ 1 * (|old| * maxFraction * rateLimitMargin) := mul_le_mul_of_nonneg_right hsign hpart
        _ ≤ |old| * maxFraction * 1 := by
          rw [one_mul]
          exact mul_le_mul_of_nonneg_left rateLimitMargin_lt_one.le (mul_nonneg hpos.le hfraction)
        _ = maxFraction * |old| := by ring

theorem limitStep_target (hfraction : 0 ≤ maxFraction) (target : ℚ) : limitStep maxFraction target target = target := by
  unfold limitStep
  by_cases hzero : target = 0
  · rw [if_pos hzero, hzero, if_pos (by norm_num)]
  · have hreach : |target - target| ≤ |target| * maxFraction := by
      rw [sub_self, abs_zero]
      exact mul_nonneg (abs_nonneg target) hfraction
    rw [if_neg hzero]
    exact if_pos hreach

theorem iterate_ratio {f : ℚ → ℚ} {ratio : ℚ} (side : ℚ → Prop) (h : ∀ x, side x → f x = target ∨ f x = x * ratio ∧ side (f x)) (hside : side old) (n : ℕ) :
    (∃ k, f^[k] old = target) ∨ f^[n] old = old * ratio ^ n ∧ side (f^[n] old) := by
  induction n with
  | zero => exact .inr ⟨by simp, hside⟩
  | succ n ih =>
    rcases ih with hreached | ⟨hvalue, hside⟩
    · exact .inl hreached
    · rcases h _ hside with hreach | ⟨hstep, hside'⟩
      · refine .inl ⟨n + 1, ?_⟩
        rw [Function.iterate_succ_apply']
        exact hreach
      · refine .inr ?_
        rw [Function.iterate_succ_apply']
        refine ⟨?_, hside'⟩
        rw [hstep, hvalue, pow_succ, mul_assoc]

section
variable (hfraction : 0 < maxFraction)
include hfraction

theorem limitStep_up {x : ℚ} (hx : 0 < x ∧ x < target) :
    limitStep maxFraction x target = target ∨
      limitStep maxFraction x target = x * (1 + maxFraction * rateLimitMargin) ∧ 0 < limitStep maxFraction x target ∧ limitStep maxFraction x target < target := by
  unfold limitStep
  dsimp only
  have hdelta : 0 < target - x := sub_pos.mpr hx.2
  rw [if_neg hx.1.ne', abs_of_pos hx.1, abs_of_pos hdelta]
  by_cases hreach : target - x ≤ x * maxFraction
  · exact .inl (if_pos hreach)
  · have hmore : 0 < x * maxFraction := mul_pos hx.1 hfraction
    have hless : x * maxFraction * rateLimitMargin < x * maxFraction := mul_lt_of_lt_one_right hmore rateLimitMargin_lt_one
    have hpart : 0 < x * maxFraction * rateLimitMargin := mul_pos hmore rateLimitMargin_pos
    rw [if_neg hreach, sign, if_pos hdelta, one_mul]
    exact .inr ⟨by ring, by linarith, by linarith⟩

theorem limitStep_down (htarget : 0 ≤ target) {x : ℚ} (hx : target < x) :
    limitStep maxFraction x target = target ∨
      limitStep maxFraction x target = x * (1 - maxFraction * rateLimitMargin) ∧ target < limitStep maxFraction x target := by
  unfold limitStep
  dsimp only
  have hpos : 0 < x := lt_of_le_of_lt htarget hx
  have hdelta : target - x < 0 := sub_neg.mpr hx
  rw [if_neg hpos.ne', abs_of_pos hpos, abs_of_neg hdelta]
  by_cases hreach : -(target - x) ≤ x * maxFraction
  · exact .inl (if_pos hreach)
  · have hmore : 0 < x * maxFraction := mul_pos hpos hfraction
    have hless : x * maxFraction * rateLimitMargin < x * maxFraction := mul_lt_of_lt_one_right hmore rateLimitMargin_lt_one
    rw [if_neg hreach, sign, if_neg hdelta.not_gt, if_pos hdelta]
    exact .inr ⟨by ring, by linarith⟩

theorem limitStep_reaches_of_pos (hold : 0 < old) (htarget : 0 ≤ target) (h : 1 ≤ maxFraction ∨ target ≠ 0) :
    ∃ n, (limitStep maxFraction · target)^[n] old = target := by
  have hstep : 0 < maxFraction * rateLimitMargin := mul_pos hfraction rateLimitMargin_pos
  rcases lt_trichotomy old target with hup | rfl | hdown
  · -- the gain would grow beyond the target
    obtain ⟨n, hn⟩ := pow_unbounded_of_one_lt (target / old) (by linarith : 1 < 1 + maxFraction * rateLimitMargin)
    rcases iterate_ratio (fun x => 0 < x ∧ x < target) (fun x hx => limitStep_up hfraction hx) ⟨hold, hup⟩ n with hreached | ⟨hvalue, hside⟩
    · exact hreached
    · rw [div_lt_iff₀ hold, mul_comm] at hn
      rw [hvalue] at hside
      exact absurd hside.2 hn.not_gt
  · exact ⟨0, rfl⟩
  · by_cases hwhole : 1 ≤ maxFraction
    · -- one step may take the whole gain away
      refine ⟨1, ?_⟩
      have hreach : |target - old| ≤ |old| * maxFraction := by
        rw [abs_of_neg (sub_neg.mpr hdown), abs_of_pos hold]
        have hall : old ≤ old * maxFraction := le_mul_of_one_le_right hold.le hwhole
        linarith
      simp [limitStep, hold.ne', hreach]
    · have hpos : 0 < target := lt_of_le_of_ne htarget (Ne.symm (h.resolve_left hwhole))
      have hless : maxFraction * rateLimitMargin < 1 :=
        (mul_lt_of_lt_one_right hfraction rateLimitMargin_lt_one).trans (not_le.mp hwhole)
      obtain ⟨n, hn⟩ := exists_pow_lt_of_lt_one (div_pos hpos hold) (by linarith : 1 - maxFraction * rateLimitMargin < 1)
      rcases iterate_ratio (fun x => target < x) (fun x hx => limitStep_down hfraction htarget hx) hdown n with hreached | ⟨hvalue, hside⟩
      · exact hreached
      · rw [lt_div_iff₀ hold, mul_comm] at hn
        rw [hvalue] at hside
        exact absurd hside hn.not_gt

theorem limitStep_never (hpart : maxFraction < 1) (hold : 0 < old) (n : ℕ) : (limitStep maxFraction · 0)^[n] old ≠ 0 := by
  have hless : maxFraction * rateLimitMargin < 1 := (mul_lt_of_lt_one_right hfraction rateLimitMargin_lt_one).trans hpart
  have hkeep : ∀ x, 0 < x → 0 < limitStep maxFraction x 0 := by
    intro x hx
    have hover : ¬ |0 - x| ≤ |x| * maxFraction := by
      rw [zero_sub, abs_neg, abs_of_pos hx, not_le]
      exact mul_lt_of_lt_one_right hx hpart
    rcases limitStep_down hfraction le_rfl hx with hreach | ⟨-, hpos⟩
    · unfold limitStep at hreach
      dsimp only at hreach
      rw [if_neg hx.ne', if_neg hover, sign, zero_sub, if_neg (not_lt.mpr (neg_nonpos.mpr hx.le)), if_pos (neg_neg_of_pos hx), abs_of_pos hx] at hreach
      have hleft : 0 < x * (1 - maxFraction * rateLimitMargin) := mul_pos hx (sub_pos.mpr hless)
      linarith
    · exact hpos
  have hrun : 0 < (limitStep maxFraction · 0)^[n] old := by
    induction n with
    | zero => exact hold
    | succ n ih =>
      rw [Function.iterate_succ_apply']
      exact hkeep _ ih
  exact hrun.ne'

/-- The target is reached if and only if it is not 0, or the gain is 0 already, or one step may go to 0. -/
theorem limitStep_reaches_iff (hold : 0 ≤ old) (htarget : 0 ≤ target) :
    (∃ n, (limitStep maxFraction · target)^[n] old = target) ↔ 1 ≤ maxFraction ∨ (target = 0 → old = 0) := by
  constructor
  · rintro ⟨n, hn⟩
    by_contra hnot
    rw [not_or, not_le, Classical.not_imp] at hnot
    obtain ⟨hpart, rfl, hne⟩ := hnot
    exact limitStep_never hfraction hpart (lt_of_le_of_ne hold (Ne.symm hne)) n hn
  · intro h
    rcases hold.eq_or_lt with rfl | hpos
    · by_cases hsmall : |target| < 1
      · refine ⟨1, ?_⟩
        simp [limitStep, hsmall]
      · -- the first step leaves 0
        have hone : 1 ≤ target := by
          rw [abs_of_nonneg htarget, not_lt] at hsmall
          exact hsmall
        have hfirst : limitStep maxFraction 0 target = 999 / 1000 := by
          rw [limitStep, if_pos rfl, if_neg hsmall, sign, if_pos (zero_lt_one.trans_le hone), one_mul]
        have hstart : (0 : ℚ) < 999 / 1000 := by norm_num
        obtain ⟨n, hn⟩ := limitStep_reaches_of_pos hfraction hstart htarget (.inr (by linarith))
        refine ⟨n + 1, ?_⟩
        rw [Function.iterate_succ_apply, hfirst]
        exact hn
    · refine limitStep_reaches_of_pos hfraction hpos htarget (h.imp_right fun hzero hsame => ?_)
      exact hpos.ne' (hzero hsame)

end

end Sequences

section Gains
variable {envelope : GainEnvelope} {current target : PIDGains} {maxFraction : ℚ}

theorem PIDGains.ext_get {gains gains' : PIDGains} (h : ∀ name, gains.get name = gains'.get name) : gains = gains' := by
  cases gains
  cases gains'
  congr 1
  · exact h .kp
  · exact h .ki
  · exact h .kd

def stepsTowards (target : PIDGains) (maxFraction : ℚ) (n : ℕ) (current : PIDGains) : PIDGains :=
  (fun gains => (limitStepTowards gains target maxFraction).1)^[n] current

theorem stepsTowards_get (n : ℕ) (current : PIDGains) (name : GainName) :
    (stepsTowards target maxFraction n current).get name = (limitStep maxFraction · (target.get name))^[n] (current.get name) := by
  induction n with
  | zero => rfl
  | succ n ih =>
    unfold stepsTowards at ih ⊢
    rw [Function.iterate_succ_apply', Function.iterate_succ_apply', limitStepTowards_get, ih]

theorem iterate_reached (hfraction : 0 ≤ maxFraction) {old target : ℚ} {n m : ℕ} (hle : n ≤ m) (h : (limitStep maxFraction · target)^[n] old = target) :
    (limitStep maxFraction · target)^[m] old = target := by
  obtain ⟨k, rfl⟩ := Nat.exists_eq_add_of_le hle
  rw [Nat.add_comm, Function.iterate_add_apply, h]
  exact Function.iterate_fixed (f := (limitStep maxFraction · target)) (limitStep_target hfraction target) k

theorem complete_iff (current target : PIDGains) : (limitStepTowards current target maxFraction).2 = true ↔
    (limitStepTowards current target maxFraction).1 = target := decide_eq_true_iff

theorem reaches_iff (hfraction : 0 ≤ maxFraction) : (∃ n, (limitStepTowards (stepsTowards target maxFraction n current) target maxFraction).2 = true) ↔
    ∀ name, ∃ n, (limitStep maxFraction · (target.get name))^[n] (current.get name) = target.get name := by
  have hnext : ∀ n, (limitStepTowards (stepsTowards target maxFraction n current) target maxFraction).1 = stepsTowards target maxFraction (n + 1) current := by
    intro n
    unfold stepsTowards
    rw [Function.iterate_succ_apply']
  constructor
  · rintro ⟨n, hn⟩ name
    rw [complete_iff, hnext] at hn
    refine ⟨n + 1, ?_⟩
    rw [← stepsTowards_get, hn]
  · intro h
    choose steps hsteps using h
    refine ⟨max (steps .kp) (max (steps .ki) (steps .kd)), ?_⟩
    rw [complete_iff, hnext]
    apply PIDGains.ext_get
    intro name
    rw [stepsTowards_get]
    refine iterate_reached hfraction ?_ (hsteps name)
    cases name <;> omega

theorem valid_range_nonneg (hvalid : validateEnvelope envelope = none) (name : GainName) : 0 ≤ (envelope.range name).min := by
  unfold validateEnvelope at hvalid
  rw [List.findSome?_eq_none_iff] at hvalid
  have hname := hvalid name (by cases name <;> simp)
  dsimp only at hname
  split_ifs at hname with hinverted hnegative
  exact not_lt.mp hnegative

/-- A step in a valid envelope stays between the gains and the target and in the envelope, and the controller takes it. The steps
finish if and only if no gain is to go to 0 that is not there, or one step may go to 0. -/
theorem limitStepTowards_steps (hvalid : validateEnvelope envelope = none) (hcurrent : describeEnvelopeViolations current envelope = [])
    (htarget : describeEnvelopeViolations target envelope = []) (hfraction : 0 < maxFraction) :
    (∀ name, min (current.get name) (target.get name) ≤ (limitStepTowards current target maxFraction).1.get name ∧
      (limitStepTowards current target maxFraction).1.get name ≤ max (current.get name) (target.get name)) ∧
    describeEnvelopeViolations (limitStepTowards current target maxFraction).1 envelope = [] ∧
    (∀ c : PIDController, c.gains = current → c.maxGainChangeFraction = maxFraction →
      c.applyGains (limitStepTowards current target maxFraction).1 = ({ c with gains := (limitStepTowards current target maxFraction).1 }, true)) ∧
    ((∃ n, (limitStepTowards (stepsTowards target maxFraction n current) target maxFraction).2 = true) ↔
      1 ≤ maxFraction ∨ ∀ name, target.get name = 0 → current.get name = 0) := by
  rw [describeEnvelopeViolations_nil] at hcurrent htarget ⊢
  refine ⟨fun name => ?_, limitStepTowards_holds hfraction.le hcurrent htarget, fun c hgains hlimit => ?_, ?_⟩
  · rw [limitStepTowards_get]
    exact limitStep_between hfraction.le ⟨min_le_left _ _, le_max_left _ _⟩ ⟨min_le_right _ _, le_max_right _ _⟩
  · have hallowed : ∀ name, PIDController.changeAllowed maxFraction (current.get name) ((limitStepTowards current target maxFraction).1.get name) = true := by
      intro name
      rw [limitStepTowards_get]
      exact changeAllowed_limitStep hfraction.le _ _
    have hkp := hallowed .kp
    have hki := hallowed .ki
    have hkd := hallowed .kd
    unfold PIDController.applyGains
    rw [hgains, hlimit, if_pos]
    rw [Bool.and_eq_true, Bool.and_eq_true]
    exact ⟨⟨hkp, hki⟩, hkd⟩
  · have hnonneg : ∀ {gains : PIDGains}, envelope.Holds gains → ∀ name, 0 ≤ gains.get name :=
      fun hholds name => (valid_range_nonneg hvalid name).trans (hholds name).1
    have hname := fun name => limitStep_reaches_iff hfraction (hnonneg hcurrent name) (hnonneg htarget name)
    rw [reaches_iff hfraction.le, forall_congr' hname, forall_or_left]

def integrating : PIDGains := ⟨1, 1 / 2, 2⟩

theorem limitStepTowards_steps_half : ∃ n, (limitStepTowards (stepsTowards ⟨2, 3, 1⟩ (1 / 4) n integrating) ⟨2, 3, 1⟩ (1 / 4)).2 = true :=
  (limitStepTowards_steps (show validateEnvelope defaultEnvelope = none by decide +kernel) (by decide +kernel) (by decide +kernel) (by norm_num)).2.2.2.mpr
    (.inr fun name h => by cases name <;> norm_num [PIDGains.get] at h)

/-- Steps to 0 in the envelope do not finish: each takes less than a quarter of what is left. -/
theorem limitStepTowards_to_zero : validateEnvelope defaultEnvelope = none ∧ describeEnvelopeViolations integrating defaultEnvelope = [] ∧
    describeEnvelopeViolations ⟨1, 0, 0⟩ defaultEnvelope = [] ∧
    ¬ ∃ n, (limitStepTowards (stepsTowards ⟨1, 0, 0⟩ (1 / 4) n integrating) ⟨1, 0, 0⟩ (1 / 4)).2 = true := by
  refine ⟨by decide +kernel, by decide +kernel, by decide +kernel, ?_⟩
  rw [reaches_iff (by norm_num)]
  intro hreaches
  obtain ⟨n, hn⟩ := hreaches .ki
  exact limitStep_never (by norm_num) (by norm_num) (by norm_num [integrating, PIDGains.get]) n hn

end Gains

end OxScada.Tuning
