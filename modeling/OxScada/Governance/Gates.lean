import Mathlib
import OxScada.Js.Date

/-! Governance gates: their definitions, their instances with the audit trail, and what the verification of an
instance comes to. -/

namespace OxScada.Governance
open OxScada.Bytes

inductive GateState
  | pending
  | approved
  | rejected
  | timedOut
  | cancelled
  deriving DecidableEq, Repr

inductive GateType
  | automated
  | manual
  | hybrid
  deriving DecidableEq, Repr

inductive GateTransition
  | submit
  | approve
  | reject
  | timeout
  | cancel
  | override
  deriving DecidableEq, Repr

def validTransitions : GateState → List GateTransition
  | .pending => [.approve, .reject, .timeout, .cancel, .override]
  | .approved => []
  | .rejected => [.override]
  | .timedOut => [.override]
  | .cancelled => [.override]

def resolveTransition : GateTransition → GateState
  | .approve => .approved
  | .override => .approved
  | .reject => .rejected
  | .timeout => .timedOut
  | .cancel => .cancelled
  | .submit => .pending

def GateState.text : GateState → Text
  | .pending => "pending".toList
  | .approved => "approved".toList
  | .rejected => "rejected".toList
  | .timedOut => "timed_out".toList
  | .cancelled => "cancelled".toList

/-! ### Verification -/

inductive VerificationSeverity
  | info
  | warning
  | error
  | critical
  deriving DecidableEq, Repr

def VerificationSeverity.text : VerificationSeverity → Text
  | .info => "info".toList
  | .warning => "warning".toList
  | .error => "error".toList
  | .critical => "critical".toList

def VerificationSeverity.rank : VerificationSeverity → ℕ
  | .info => 0
  | .warning => 1
  | .error => 2
  | .critical => 3

inductive VerificationStatus
  | pass
  | fail
  | skip
  | error
  deriving DecidableEq, Repr

structure VerificationSummary where
  passed : ℕ
  failed : ℕ
  skipped : ℕ
  errors : ℕ
  highestSeverity : Option VerificationSeverity
  deriving DecidableEq, Repr

structure PipelineResult where
  status : VerificationStatus
  summary : VerificationSummary
  deriving DecidableEq, Repr

/-- The worse one of two severities, the first where they are alike. -/
def worse (worst next : Option VerificationSeverity) : Option VerificationSeverity :=
  match next, worst with
  | none, _ => worst
  | some next, none => some next
  | some next, some worst => if worst.rank < next.rank then some next else some worst

/-- The first result, which fails if any of the others does. -/
def aggregate (first : PipelineResult) (others : List PipelineResult) : PipelineResult :=
  let results := first :: others
  if results.any (fun result => result.status ≠ .pass) ∧ first.status = .pass then
    { status := .fail
      summary := {
        failed := (results.map (·.summary.failed)).sum
        passed := (results.map (·.summary.passed)).sum
        errors := (results.map (·.summary.errors)).sum
        skipped := (results.map (·.summary.skipped)).sum
        highestSeverity := results.foldl (fun worst result => worse worst result.summary.highestSeverity) first.summary.highestSeverity } }
  else first

theorem aggregate_pass {first : PipelineResult} {others : List PipelineResult} :
    (aggregate first others).status = .pass ↔ ∀ result ∈ first :: others, result.status = .pass := by
  unfold aggregate
  dsimp only
  split_ifs with hany
  · obtain ⟨hany, -⟩ := hany
    obtain ⟨result, hmem, hfails⟩ := List.any_eq_true.mp hany
    constructor
    · intro hpass
      cases hpass
    · intro hall
      exact absurd (hall result hmem) (of_decide_eq_true hfails)
  · constructor
    · intro hpass result hmem
      by_contra hfails
      exact hany ⟨List.any_eq_true.mpr ⟨result, hmem, decide_eq_true hfails⟩, hpass⟩
    · intro hall
      exact hall first List.mem_cons_self

/-! ### Definitions and instances -/

inductive GateConditionType
  | verification
  | approvalCount
  | custom
  deriving DecidableEq, Repr

structure GateDefinition where
  id : Text
  type : GateType
  conditions : List GateConditionType
  timeoutMs : ℚ
  approvers : List Text
  requiredApprovals : ℚ
  allowOverride : Bool
  deriving DecidableEq

inductive GateAction
  | approve
  | reject
  deriving DecidableEq, Repr

/-- A decision. The definition that was registered when it was taken is a ghost. -/
structure GateApproval where
  approver : Text
  action : GateAction
  comment : Option Text
  timestamp : ℤ
  under : GateDefinition
  deriving DecidableEq

/-- An entry of the audit trail. `none` is the state `initial`; the definition that was registered is a ghost. -/
structure AuditEntry where
  transition : GateTransition
  fromState : Option GateState
  toState : GateState
  actor : Text
  reason : Option Text
  timestamp : ℤ
  under : Option GateDefinition
  deriving DecidableEq

/-- An instance. The definition that it was created from, and the results of all its verification conditions, are
ghosts. -/
structure GateInstance where
  id : Text
  definitionId : Text
  state : GateState := .pending
  verificationResult : Option PipelineResult := none
  approvals : List GateApproval := []
  auditTrail : List AuditEntry
  createdAt : ℤ
  resolvedAt : Option ℤ := none
  expiresAt : Option ℤ
  definition : GateDefinition
  results : List PipelineResult := []
  deriving DecidableEq

def GateDefinition.verifications (definition : GateDefinition) : ℕ :=
  if definition.type = .automated ∨ definition.type = .hybrid then (definition.conditions.filter (· = .verification)).length else 0

def GateDefinition.authorises (definition : GateDefinition) (approver : Text) : Bool :=
  definition.approvers = [] ∨ approver ∈ definition.approvers

namespace GateInstance
variable (gate : GateInstance)

def unexpired (timestamp : ℤ) : Bool := gate.expiresAt.all (timestamp < ·)

def approveCount : ℕ := gate.approvals.countP (·.action = .approve)

def transition (transition : GateTransition) (actor : Text) (reason : Option Text) (now : ℤ) (under : Option GateDefinition) : GateInstance :=
  { gate with
    auditTrail := gate.auditTrail ++ [{
      transition, fromState := some gate.state, toState := resolveTransition transition, actor, reason, timestamp := now, under }]
    state := resolveTransition transition
    resolvedAt := some now }

def decide (definition : GateDefinition) (approver : Text) (action : GateAction) (comment : Option Text) (now : ℤ) : GateInstance :=
  let gate := { gate with approvals := gate.approvals ++ [{ approver, action, comment, timestamp := now, under := definition }] }
  match action with
  | .reject => gate.transition .reject approver comment now definition
  | .approve => if definition.requiredApprovals ≤ gate.approveCount then gate.transition .approve approver comment now definition else gate

/-- What the results of the verification make of a new instance. -/
def verify (results : List PipelineResult) (now : ℤ) : GateInstance :=
  match results with
  | [] => gate
  | first :: others =>
    let result := aggregate first others
    let gate := { gate with verificationResult := some result, results }
    if gate.definition.type = .automated then
      if result.status = .pass then
        gate.transition .approve "system".toList ("Automated verification passed (".toList ++ Nat.toDigits 10 results.length ++
          " condition(s))".toList) now gate.definition
      else
        gate.transition .reject "system".toList ("Automated verification failed: ".toList ++
          result.summary.highestSeverity.elim "null".toList (·.text)) now gate.definition
    else gate

/-! ### What the trail and the state should be -/

/-- The trail begins with the submission, each entry begins where the one before it ends, the last one ends in the
state of the instance, and each is allowed in the state that it begins in. -/
structure Chained : Prop where
  submitted : ∃ first rest, gate.auditTrail = first :: rest ∧ first.transition = .submit ∧ first.fromState = none ∧ first.toState = .pending
  linked : gate.auditTrail.IsChain fun entry next => next.fromState = some entry.toState
  last : gate.auditTrail.getLast?.map (·.toState) = some gate.state
  allowed : ∀ entry ∈ gate.auditTrail, ∀ state, entry.fromState = some state → entry.transition ∈ validTransitions state

def Overridden : Prop :=
  ∃ entry ∈ gate.auditTrail, entry.transition = .override ∧ ∃ definition, entry.under = some definition ∧ definition.allowOverride = true

def Verified : Prop := ∀ result ∈ gate.results, result.status = .pass

/-- Enough authorised approvers have approved in time, and nobody has rejected. -/
structure Approved : Prop where
  enough : ∃ entry ∈ gate.auditTrail, entry.transition = .approve ∧ ∃ definition, entry.under = some definition ∧
    definition.requiredApprovals ≤ gate.approveCount
  unanimous : ∀ approval ∈ gate.approvals, approval.action = .approve
  distinct : (gate.approvals.map (·.approver)).Nodup
  authorised : ∀ approval ∈ gate.approvals, approval.under.authorises approval.approver = true
  timely : ∀ approval ∈ gate.approvals, gate.unexpired approval.timestamp = true
  verified : gate.definition.type = .hybrid → gate.Verified

def Justified : Prop := gate.Overridden ∨ gate.definition.type = .automated ∧ gate.Verified ∨ gate.Approved

/-! ### Transitions -/

section Transitions
variable {gate} {change : GateTransition} {actor : Text} {reason : Option Text} {now : ℤ} {under : Option GateDefinition}

theorem Chained.transition (h : gate.Chained) (hallowed : change ∈ validTransitions gate.state) :
    (gate.transition change actor reason now under).Chained := by
  obtain ⟨first, rest, htrail, hfirst⟩ := h.submitted
  constructor
  · exact ⟨first, rest ++ [_], by rw [GateInstance.transition, htrail]; rfl, hfirst⟩
  · refine List.IsChain.append h.linked (List.isChain_singleton _) fun entry hentry next hnext => ?_
    have hlast := h.last
    rw [hentry, Option.map_some, Option.some_inj] at hlast
    obtain rfl := Option.some.inj hnext
    exact congrArg some hlast.symm
  · simp [GateInstance.transition]
  · intro entry hentry state hstate
    rcases List.mem_append.mp hentry with hold | hnew
    · exact h.allowed entry hold state hstate
    · obtain rfl := List.mem_singleton.mp hnew
      obtain rfl := Option.some.inj hstate
      exact hallowed

theorem Chained.allows (h : (gate.transition change actor reason now under).Chained) : change ∈ validTransitions gate.state :=
  h.allowed _ (List.mem_append_right _ (List.mem_singleton_self _)) gate.state rfl

theorem Chained.approvals (h : gate.Chained) (approvals : List GateApproval) : ({ gate with approvals } : GateInstance).Chained :=
  ⟨h.submitted, h.linked, h.last, h.allowed⟩

theorem justified_override {definition : GateDefinition} (hallow : definition.allowOverride = true) :
    (gate.transition .override actor reason now (some definition)).Justified :=
  .inl ⟨_, List.mem_append_right _ (List.mem_singleton_self _), rfl, definition, rfl, hallow⟩

end Transitions

structure Open (gate : GateInstance) : Prop where
  submitted : ∀ entry ∈ gate.auditTrail, entry.transition = .submit
  unanimous : ∀ approval ∈ gate.approvals, approval.action = .approve
  distinct : (gate.approvals.map (·.approver)).Nodup
  authorised : ∀ approval ∈ gate.approvals, approval.under.authorises approval.approver = true
  unverified : gate.definition.type = .automated → gate.results = []

section Decisions
variable {gate} {definition : GateDefinition} {approver : Text} {comment : Option Text} {now : ℤ}

theorem Open.approve (h : gate.Open) (comment : Option Text) (now : ℤ) (hauthorised : definition.authorises approver = true)
    (hnew : ∀ approval ∈ gate.approvals, approval.approver ≠ approver) :
    ({ gate with approvals := gate.approvals ++ [⟨approver, .approve, comment, now, definition⟩] } : GateInstance).Open := by
  constructor
  case submitted =>
    exact h.submitted
  case unanimous =>
    intro approval hmem
    rcases List.mem_append.mp hmem with hold | hmem
    · exact h.unanimous approval hold
    · obtain rfl := List.mem_singleton.mp hmem
      rfl
  case distinct =>
    rw [List.map_append, List.map_singleton]
    refine List.Nodup.append h.distinct (List.nodup_singleton _) (List.disjoint_singleton.mpr fun hmem => ?_)
    obtain ⟨approval, hmem, hsame⟩ := List.mem_map.mp hmem
    exact hnew approval hmem hsame
  case authorised =>
    intro approval hmem
    rcases List.mem_append.mp hmem with hold | hmem
    · exact h.authorised approval hold
    · obtain rfl := List.mem_singleton.mp hmem
      exact hauthorised
  case unverified =>
    exact h.unverified

/-- An open instance that is approved by approvals has them in time and after its verification, unless it is automated. -/
theorem Open.justified_iff (h : gate.Open) (henough : definition.requiredApprovals ≤ gate.approveCount) :
    (gate.transition .approve approver comment now (some definition)).Justified ↔ gate.definition.type = .automated ∨
      (∀ approval ∈ gate.approvals, gate.unexpired approval.timestamp = true) ∧ (gate.definition.type = .hybrid → gate.Verified) := by
  constructor
  · rintro (⟨entry, hentry, hoverride, -⟩ | ⟨hautomated, -⟩ | happroved)
    · rcases List.mem_append.mp hentry with hold | hnew
      · rw [h.submitted entry hold] at hoverride
        cases hoverride
      · obtain rfl := List.mem_singleton.mp hnew
        cases hoverride
    · exact .inl hautomated
    · exact .inr ⟨happroved.timely, happroved.verified⟩
  · rintro (hautomated | ⟨htimely, hverified⟩)
    · refine .inr (.inl ⟨hautomated, fun result hresult => ?_⟩)
      have hnone : (gate.transition .approve approver comment now (some definition)).results = [] := h.unverified hautomated
      rw [hnone] at hresult
      cases hresult
    · refine .inr (.inr ⟨⟨_, List.mem_append_right _ (List.mem_singleton_self _), rfl, definition, rfl, henough⟩, h.unanimous, h.distinct,
        h.authorised, htimely, hverified⟩)

end Decisions

end GateInstance

end OxScada.Governance
