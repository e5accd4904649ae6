import OxScada.Governance.GateManager
import OxScada.Tuning.Envelope

/-! The tuning service. Proposals of gains are decided by authenticated principals through the gate manager, and an
approval is appended to the durable audit trail before its gains are written. A call that awaits is continued later,
and other calls may run in between. -/

namespace OxScada.Tuning
open OxScada.Bytes OxScada.Governance

/-! ### The approval policy -/

structure TuningApprovalPolicy where
  approvers : List Text
  applyEnabled : Bool
  proposalTtlMs : ℚ
  deriving DecidableEq

inductive ApprovalDenialReason
  | approverAllowlistEmpty
  | approverNotAllowlisted
  | separationOfDuties
  | gainApplyDisabled
  deriving DecidableEq, Repr

def ApprovalDenialReason.text : ApprovalDenialReason → Text
  | .approverAllowlistEmpty => "approver-allowlist-empty".toList
  | .approverNotAllowlisted => "approver-not-allowlisted".toList
  | .separationOfDuties => "separation-of-duties".toList
  | .gainApplyDisabled => "gain-apply-disabled".toList

def denyApprovalReason (policy : TuningApprovalPolicy) (approver proposedBy : Text) : Option ApprovalDenialReason :=
  if policy.approvers = [] then some .approverAllowlistEmpty
  else if approver ∉ policy.approvers then some .approverNotAllowlisted
  else if approver = proposedBy then some .separationOfDuties
  else if policy.applyEnabled = false then some .gainApplyDisabled
  else none

def denyRejectionReason (policy : TuningApprovalPolicy) (approver : Text) : Option ApprovalDenialReason :=
  if policy.approvers = [] then some .approverAllowlistEmpty
  else if approver ∉ policy.approvers then some .approverNotAllowlisted
  else none

/-! ### Proposals and their audit records -/

inductive ProposalMethod
  | relayFeedback
  | zieglerNichols
  | cohenCoon
  | rl
  | monitor
  deriving DecidableEq, Repr

inductive TuningProposalStatus
  | pending
  | applied
  | rejected
  | expired
  | failed
  deriving DecidableEq, Repr

structure TuningProposal where
  id : ℕ
  controllerId : Text
  method : ProposalMethod
  currentGains : PIDGains
  proposedGains : PIDGains
  envelope : GainEnvelope
  status : TuningProposalStatus := .pending
  gateInstanceId : Text := []
  proposedBy : Text
  createdAt : ℤ
  expiresAt : ℚ
  resolvedAt : Option ℤ := none
  decidedBy : Option Text := none
  appliedGains : Option PIDGains := none
  fullyApplied : Option Bool := none
  deriving DecidableEq

inductive TuningAuditDecision
  | proposed
  | envelopeRejected
  | approved
  | applied
  | rejected
  | denied
  | expired
  | failed
  deriving DecidableEq, Repr

inductive AuditedId
  | tune (id : ℕ)
  | refused (id : ℕ)
  deriving DecidableEq, Repr

structure TuningAuditAppend where
  proposalId : AuditedId
  controllerId : Text
  method : ProposalMethod
  decision : TuningAuditDecision
  proposedBy : Text
  decidedBy : Option Text
  currentGains : PIDGains
  proposedGains : PIDGains
  appliedGains : Option PIDGains
  envelope : GainEnvelope
  withinEnvelope : Bool := true
  reasonCode : Option Text := none
  deriving DecidableEq

/-- What `applyApproved` has planned when it awaits the approval record. -/
structure GainPlan where
  proposalId : ℕ
  controllerId : Text
  principal : Text
  current : PIDGains
  envelope : GainEnvelope
  planned : PIDGains
  complete : Bool
  deriving DecidableEq

inductive AfterAppend
  | nothing
  | createGate (proposal : TuningProposal)
  | applyGains (plan : GainPlan)
  deriving DecidableEq

/-- A call that awaits: an append that the store has not answered, one that it has, the creation of a gate, and a
decision of the gate manager. -/
inductive Flight
  | appending (record : TuningAuditAppend) (next : AfterAppend)
  | appended (ok : Bool) (next : AfterAppend)
  | created (proposal : TuningProposal)
  | submitted (proposalId : ℕ) (principal : Text) (gate : GateInstance)
  deriving DecidableEq

structure LoopRegistration where
  envelope : GainEnvelope
  rateLimitFraction : ℚ
  deriving DecidableEq

/-- What has happened, as a ghost: a principal has passed the policy with an approval, the store has appended a record,
gains were given to a controller that had others, a proposal was closed. -/
inductive TuningEvent
  | checked (proposal : TuningProposal) (principal : Text) (policy : TuningApprovalPolicy) (now : ℤ)
  | appended (record : TuningAuditAppend)
  | wrote (proposalId : ℕ) (before gains : PIDGains) (envelope : GainEnvelope)
  | closed (proposalId : ℕ) (status : TuningProposalStatus)
  deriving DecidableEq

/-- The service. All proposals are kept, those of the map are in `listed`; ids of gates that were given are in `uuids`,
and the newest event is the first one. It starts without controllers; those that the optimization service has and that
were not registered here are left out. -/
structure TuningService where
  controllers : Text → Option PIDController := fun _ => none
  loops : Text → Option LoopRegistration := fun _ => none
  proposals : List TuningProposal := []
  listed : List ℕ := []
  gates : GateManager := {}
  proposalCounter : ℕ := 0
  flights : List Flight := []
  uuids : List Text := []
  log : List TuningEvent := []

inductive TuningCall
  | registerLoop (id : Text) (config : PIDControllerConfig) (envelope : Option GainEnvelope) (now : ℚ)
  | setEnvelope (id : Text) (envelope : GainEnvelope)
  | propose (controllerId : Text) (method : ProposalMethod) (gains : PIDGains) (principal : Text) (policy : TuningApprovalPolicy) (now : ℤ)
  | decide (proposalId : ℕ) (principal : Text) (action : GateAction) (comment : Option Text) (policy : TuningApprovalPolicy) (now : ℤ)
  | settle (index : ℕ) (ok : Bool)
  | resume (index : ℕ) (now : ℤ) (uuid : Text)

def gateDefinitionId : Text := "pid-tuning-approval".toList

def maxProposals : ℕ := 500

def defaultRateLimitFraction : ℚ := 1 / 4

namespace TuningService
variable (s : TuningService)

def getEnvelope (id : Text) : GainEnvelope := (s.loops id).elim defaultEnvelope (·.envelope)

def registerLoop (id : Text) (config : PIDControllerConfig) (envelope : Option GainEnvelope) (now : ℚ) : TuningService :=
  let envelope := envelope.getD defaultEnvelope
  if (s.controllers id).isSome ∨ (validateEnvelope envelope).isSome ∨ describeEnvelopeViolations config.gains envelope ≠ [] then s
  else { s with
    controllers := Function.update s.controllers id (some (PIDController.create config now))
    loops := Function.update s.loops id (some { envelope, rateLimitFraction := config.maxGainChangeFraction }) }

def setEnvelope (id : Text) (envelope : GainEnvelope) : TuningService :=
  if (validateEnvelope envelope).isSome then s
  else
    match s.loops id, s.controllers id with
    | some registration, some _ => { s with loops := Function.update s.loops id (some { registration with envelope }) }
    | _, _ => s

def registerApprovalGate (approvers : List Text) : Option TuningService :=
  if approvers = [] then none
  else some { s with gates := s.gates.registerGate {
    id := gateDefinitionId, type := .manual, conditions := [], timeoutMs := 24 * 60 * 60 * 1000, approvers, requiredApprovals := 1
    allowOverride := false } }

def take (flight : Flight) : TuningService := { s with flights := s.flights ++ [flight] }

def tryAppend (record : TuningAuditAppend) : TuningService := s.take (.appending record .nothing)

def note (event : TuningEvent) : TuningService := { s with log := event :: s.log }

def modifyProposal (id : ℕ) (f : TuningProposal → TuningProposal) : TuningService :=
  { s with proposals := s.proposals.map fun proposal => if proposal.id = id then f proposal else proposal }

def close (id : ℕ) (status : TuningProposalStatus) (now : ℤ) : TuningService :=
  (s.modifyProposal id fun proposal => { proposal with status, resolvedAt := some now }).note (.closed id status)

def auditFor (proposal : TuningProposal) (decision : TuningAuditDecision) (decidedBy : Text) (reasonCode : Option Text)
    (withinEnvelope : Bool) : TuningAuditAppend :=
  { proposalId := .tune proposal.id, controllerId := proposal.controllerId, method := proposal.method, decision
    proposedBy := proposal.proposedBy, decidedBy := some decidedBy, currentGains := proposal.currentGains
    proposedGains := proposal.proposedGains, appliedGains := proposal.appliedGains, envelope := s.getEnvelope proposal.controllerId
    withinEnvelope, reasonCode }

def failProposal (proposal : TuningProposal) (principal : Text) (reasonCode : Text) (withinEnvelope : Bool) (now : ℤ) : TuningService :=
  (s.close proposal.id .failed now).tryAppend (s.auditFor proposal .failed principal (some reasonCode) withinEnvelope)

/-! ### Proposing -/

def propose (controllerId : Text) (method : ProposalMethod) (gains : PIDGains) (principal : Text) (policy : TuningApprovalPolicy) (now : ℤ) :
    TuningService :=
  match s.controllers controllerId with
  | none => s
  | some controller =>
    match s.registerApprovalGate policy.approvers with
    | none => s
    | some s =>
      let envelope := s.getEnvelope controllerId
      let id := s.proposalCounter + 1
      let within := describeEnvelopeViolations gains envelope = []
      let record : TuningAuditAppend := {
        proposalId := if within then .tune id else .refused id
        decision := if within then .proposed else .envelopeRejected
        controllerId, method, proposedBy := principal, decidedBy := none, currentGains := controller.gains, proposedGains := gains
        appliedGains := none, envelope, withinEnvelope := within
        reasonCode := if within then none else some "envelope-violation".toList }
      let s := { s with proposalCounter := id }
      if within then
        s.take (.appending record (.createGate {
          id, controllerId, method, currentGains := controller.gains, proposedGains := gains, envelope, proposedBy := principal
          createdAt := now, expiresAt := now + policy.proposalTtlMs }))
      else s.tryAppend record

/-- After the append of a new proposal. A random id was not given before. -/
def createGate (proposal : TuningProposal) (now : ℤ) (uuid : Text) : TuningService :=
  if uuid ∈ s.uuids then s
  else
    match s.gates.createInstance gateDefinitionId proposal.proposedBy uuid now with
    | .error _ => s
    | .ok gates => ({ s with gates, uuids := uuid :: s.uuids } : TuningService).take (.created { proposal with gateInstanceId := uuid })

def statusOf (id : ℕ) : Option TuningProposalStatus := (s.proposals.find? (·.id = id)).map (·.status)

def createdAtOf (id : ℕ) : ℤ := ((s.proposals.find? (·.id = id)).map (·.createdAt)).getD 0

def evictOldProposals : TuningService :=
  if s.listed.length ≤ maxProposals then s
  else
    let resolvedOldest := (s.listed.filter fun id => s.statusOf id ≠ some .pending).insertionSort fun left right => s.createdAtOf left ≤ s.createdAtOf right
    let evicted := resolvedOldest.take (s.listed.length - maxProposals)
    { s with listed := s.listed.filter (· ∉ evicted) }

def list (proposal : TuningProposal) : TuningService :=
  ({ s with proposals := s.proposals ++ [proposal], listed := s.listed ++ [proposal.id] } : TuningService).evictOldProposals

/-! ### Deciding -/

def getProposal (id : ℕ) : Option TuningProposal := if id ∈ s.listed then s.proposals.find? (·.id = id) else none

def denial (policy : TuningApprovalPolicy) (principal : Text) (action : GateAction) (proposal : TuningProposal) : Option ApprovalDenialReason :=
  match action with
  | .approve => denyApprovalReason policy principal proposal.proposedBy
  | .reject => denyRejectionReason policy principal

def decide (proposalId : ℕ) (principal : Text) (action : GateAction) (comment : Option Text) (policy : TuningApprovalPolicy) (now : ℤ) :
    TuningService :=
  match s.getProposal proposalId with
  | none => s
  | some proposal =>
    if proposal.status ≠ .pending then s
    else if proposal.expiresAt < now then
      (s.close proposal.id .expired now).tryAppend (s.auditFor proposal .expired principal (some "proposal-expired".toList) true)
    else
      match denial policy principal action proposal with
      | some reason => s.tryAppend (s.auditFor proposal .denied principal (some reason.text) true)
      | none =>
        let s := if action = .approve then s.note (.checked proposal principal policy now) else s
        match s.registerApprovalGate policy.approvers with
        | none => s
        | some s =>
          match s.gates.submitDecision proposal.gateInstanceId principal action comment now with
          | .error _ => s
          | .ok (gates, gate) => ({ s with gates } : TuningService).take (.submitted proposal.id principal gate)

def applyApproved (proposal : TuningProposal) (principal : Text) (now : ℤ) : TuningService :=
  match s.controllers proposal.controllerId with
  | none => s.failProposal proposal principal "controller-missing".toList true now
  | some controller =>
    let envelope := s.getEnvelope proposal.controllerId
    if describeEnvelopeViolations proposal.proposedGains envelope ≠ [] then
      s.failProposal proposal principal "envelope-violation".toList false now
    else
      let current := controller.gains
      let fraction := (s.loops proposal.controllerId).elim defaultRateLimitFraction (·.rateLimitFraction)
      let (planned, complete) := limitStepTowards current proposal.proposedGains fraction
      s.take (.appending
        { proposalId := .tune proposal.id, controllerId := proposal.controllerId, method := proposal.method, decision := .approved
          proposedBy := proposal.proposedBy, decidedBy := some principal, currentGains := current
          proposedGains := proposal.proposedGains, appliedGains := some planned, envelope }
        (.applyGains { proposalId := proposal.id, controllerId := proposal.controllerId, principal, current, envelope, planned, complete }))

/-- After the decision of the gate manager. A decided instance is not changed by the service any more. -/
def decided (proposal : TuningProposal) (principal : Text) (gate : GateInstance) (now : ℤ) : TuningService :=
  match gate.state with
  | .rejected =>
    ((s.close proposal.id .rejected now).modifyProposal proposal.id fun proposal => { proposal with decidedBy := some principal }).tryAppend
      (s.auditFor proposal .rejected principal none true)
  | .approved =>
    if gate.approvals.any fun approval => approval.approver = principal ∧ approval.action = .approve then
      (s.modifyProposal proposal.id fun proposal => { proposal with decidedBy := some principal }).applyApproved proposal principal now
    else s
  | _ => s

def applyGains (plan : GainPlan) (proposal : TuningProposal) (ok : Bool) (now : ℤ) : TuningService :=
  if ok = false then s.failProposal proposal plan.principal "audit-unavailable".toList true now
  else
    match s.controllers plan.controllerId with
    | none => s
    | some controller =>
      let (controller', applied) := controller.applyGains plan.planned
      let s := s.note (.wrote plan.proposalId controller.gains plan.planned (s.getEnvelope plan.controllerId))
      if applied = false then s.failProposal proposal plan.principal "rate-limit-rejected".toList true now
      else
        let s := { s with controllers := Function.update s.controllers plan.controllerId (some controller') }
        let s := s.modifyProposal plan.proposalId fun proposal => { proposal with
          status := .applied, resolvedAt := some now, appliedGains := some controller'.gains, fullyApplied := some plan.complete }
        s.tryAppend {
          proposalId := .tune proposal.id, controllerId := plan.controllerId, method := proposal.method, decision := .applied
          proposedBy := proposal.proposedBy, decidedBy := some plan.principal, currentGains := plan.current
          proposedGains := proposal.proposedGains, appliedGains := some controller'.gains, envelope := plan.envelope
          reasonCode := if plan.complete then none else some "rate-limited-partial".toList }

/-! ### Steps -/

def settle (index : ℕ) (ok : Bool) : TuningService :=
  match s.flights[index]? with
  | some (.appending record next) =>
    let s := { s with flights := s.flights.set index (.appended ok next) }
    if ok then s.note (.appended record) else s
  | _ => s

def resume (index : ℕ) (now : ℤ) (uuid : Text) : TuningService :=
  let landed := { s with flights := s.flights.eraseIdx index }
  match s.flights[index]? with
  | some (.appended _ .nothing) => landed
  | some (.appended ok (.createGate proposal)) => if ok then landed.createGate proposal now uuid else landed
  | some (.created proposal) => landed.list proposal
  | some (.submitted proposalId principal gate) =>
    match s.proposals.find? (·.id = proposalId) with
    | some proposal => landed.decided proposal principal gate now
    | none => landed
  | some (.appended ok (.applyGains plan)) =>
    match s.proposals.find? (·.id = plan.proposalId) with
    | some proposal => landed.applyGains plan proposal ok now
    | none => landed
  | _ => s

def step (call : TuningCall) : TuningService :=
  match call with
  | .registerLoop id config envelope now => s.registerLoop id config envelope now
  | .setEnvelope id envelope => s.setEnvelope id envelope
  | .propose controllerId method gains principal policy now => s.propose controllerId method gains principal policy now
  | .decide proposalId principal action comment policy now => s.decide proposalId principal action comment policy now
  | .settle index ok => s.settle index ok
  | .resume index now uuid => s.resume index now uuid

end TuningService
end OxScada.Tuning
