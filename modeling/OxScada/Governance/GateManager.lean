import OxScada.Governance.Gates
import OxScada.Runs.Throughout

/-! The gate manager. An instance of a gate with verification conditions is created in two parts, with the runs of the
pipelines between them; the other calls have no part that waits. -/

namespace OxScada.Governance
open OxScada.Bytes OxScada.Js OxScada.Runs

/-- The manager. The instances whose verification runs are in `creating`. -/
structure GateManager where
  definitions : Text → Option GateDefinition := fun _ => none
  instances : List GateInstance := []
  creating : List GateInstance := []

def maxGateInstances : ℕ := 10000

inductive GateCall
  | registerGate (definition : GateDefinition)
  | createInstance (definitionId actor id : Text) (now : ℤ)
  | verified (index : ℕ) (results : List PipelineResult) (now : ℤ)
  | unverified (index : ℕ)
  | submitDecision (instanceId approver : Text) (action : GateAction) (comment : Option Text) (now : ℤ)
  | override (instanceId actor reason : Text) (now : ℤ)
  | cancel (instanceId actor : Text) (reason : Option Text) (now : ℤ)
  | checkTimeouts (now : ℤ)

namespace GateManager
variable (manager : GateManager)

def getInstance (instanceId : Text) : Option GateInstance := manager.instances.find? fun gate => gate.id = instanceId

def putInstance (gate : GateInstance) : GateManager :=
  { manager with instances := manager.instances.map fun old => if old.id = gate.id then gate else old }

def evictOldInstances : GateManager :=
  if manager.instances.length ≤ maxGateInstances then manager
  else
    let resolved := (manager.instances.filter (·.state ≠ .pending)).insertionSort fun left right =>
      toISOString left.createdAt ≤ toISOString right.createdAt
    let toRemove := (resolved.take (manager.instances.length - maxGateInstances)).map (·.id)
    { manager with instances := manager.instances.filter (·.id ∉ toRemove) }

def addInstance (gate : GateInstance) : GateManager :=
  let instances := if manager.instances.any (·.id = gate.id) then (manager.putInstance gate).instances else manager.instances ++ [gate]
  ({ manager with instances } : GateManager).evictOldInstances

def registerGate (definition : GateDefinition) : GateManager :=
  { manager with definitions := Function.update manager.definitions definition.id (some definition) }

def newInstance (definition : GateDefinition) (definitionId actor id : Text) (now : ℤ) (expiresAt : Option ℤ) : GateInstance :=
  { id, definitionId, createdAt := now, expiresAt, definition
    auditTrail := [{
      transition := .submit, fromState := none, toState := .pending, actor, reason := none, timestamp := now, under := some definition }] }

def createInstance (definitionId actor id : Text) (now : ℤ) : Except Text GateManager :=
  match manager.definitions definitionId with
  | none => .error ("Gate definition \"".toList ++ definitionId ++ "\" not found".toList)
  | some definition =>
    let expiresAt := if 0 < definition.timeoutMs then (timeClip (now + definition.timeoutMs)).map some else some none
    match expiresAt with
    | none => .error "Invalid time value".toList
    | some expiresAt =>
      let gate := newInstance definition definitionId actor id now expiresAt
      if definition.verifications = 0 then .ok (manager.addInstance gate)
      else .ok { manager with creating := manager.creating ++ [gate] }

def verified (index : ℕ) (results : List PipelineResult) (now : ℤ) : GateManager :=
  match manager.creating[index]? with
  | some gate =>
    if results.length = gate.definition.verifications then
      ({ manager with creating := manager.creating.eraseIdx index } : GateManager).addInstance (gate.verify results now)
    else manager
  | none => manager

def unverified (index : ℕ) : GateManager := { manager with creating := manager.creating.eraseIdx index }

def missing (instanceId : Text) : Text := "Gate instance \"".toList ++ instanceId ++ "\" not found".toList

def checkDecision (instanceId approver : Text) : Except Text (GateInstance × GateDefinition) :=
  match manager.getInstance instanceId with
  | none => .error (missing instanceId)
  | some gate =>
    match manager.definitions gate.definitionId with
    | none => .error ("Gate definition \"".toList ++ gate.definitionId ++ "\" not found".toList)
    | some definition =>
      if gate.state ≠ .pending then
        .error ("Gate instance \"".toList ++ instanceId ++ "\" is in state \"".toList ++ gate.state.text ++ "\", not pending".toList)
      else if ¬ definition.authorises approver then
        .error ('"' :: approver ++ "\" is not an authorized approver for this gate".toList)
      else if gate.approvals.any (·.approver = approver) then
        .error ('"' :: approver ++ "\" has already submitted a decision".toList)
      else .ok (gate, definition)

def submitDecision (instanceId approver : Text) (action : GateAction) (comment : Option Text) (now : ℤ) : Except Text (GateManager × GateInstance) :=
  (manager.checkDecision instanceId approver).map fun (gate, definition) =>
    let gate := gate.decide definition approver action comment now
    (manager.putInstance gate, gate)

def override (instanceId actor reason : Text) (now : ℤ) : Except Text (GateManager × GateInstance) :=
  match manager.getInstance instanceId with
  | none => .error (missing instanceId)
  | some gate =>
    match manager.definitions gate.definitionId with
    | some definition =>
      if definition.allowOverride then
        let gate := gate.transition .override actor reason now definition
        .ok (manager.putInstance gate, gate)
      else .error ("Override not allowed for gate \"".toList ++ gate.definitionId ++ ['"'])
    | none => .error ("Override not allowed for gate \"".toList ++ gate.definitionId ++ ['"'])

def cancel (instanceId actor : Text) (reason : Option Text) (now : ℤ) : Except Text (GateManager × GateInstance) :=
  match manager.getInstance instanceId with
  | none => .error (missing instanceId)
  | some gate =>
    if gate.state ≠ .pending then .error ("Cannot cancel gate in state \"".toList ++ gate.state.text ++ ['"'])
    else
      let gate := gate.transition .cancel actor reason now (manager.definitions gate.definitionId)
      .ok (manager.putInstance gate, gate)

def timedOut (gate : GateInstance) (now : ℤ) : Bool := gate.state = .pending ∧ ¬ gate.unexpired now

def checkTimeouts (now : ℤ) : GateManager :=
  { manager with instances := manager.instances.map fun gate =>
      if timedOut gate now then gate.transition .timeout "system".toList "Gate timed out".toList now (manager.definitions gate.definitionId) else gate }

def step (call : GateCall) : GateManager :=
  match call with
  | .registerGate definition => manager.registerGate definition
  | .createInstance definitionId actor id now => (manager.createInstance definitionId actor id now).toOption.getD manager
  | .verified index results now => manager.verified index results now
  | .unverified index => manager.unverified index
  | .submitDecision instanceId approver action comment now =>
    ((manager.submitDecision instanceId approver action comment now).toOption.map (·.1)).getD manager
  | .override instanceId actor reason now => ((manager.override instanceId actor reason now).toOption.map (·.1)).getD manager
  | .cancel instanceId actor reason now => ((manager.cancel instanceId actor reason now).toOption.map (·.1)).getD manager
  | .checkTimeouts now => manager.checkTimeouts now

/-- An instance whose trail is in order, and which is approved only with a reason. -/
structure Lawful (gate : GateInstance) : Prop where
  chained : gate.Chained
  justified : gate.state = .approved → gate.Justified

def Governs (manager : GateManager) (call : GateCall) : Prop := ∀ gate ∈ (manager.step call).instances, Lawful gate

/-- No approved instance is overridden, and an approval that decides an instance, unless the gate is automated, comes
in time, like those before it, and if the gate is hybrid, after verifications that have all passed. -/
def Guarded (manager : GateManager) (call : GateCall) : Prop :=
  match call with
  | .override instanceId _ _ _ => ∀ gate definition, manager.getInstance instanceId = some gate → manager.definitions gate.definitionId = some definition →
      definition.allowOverride = true → gate.state ≠ .approved
  | .submitDecision instanceId approver .approve _ now => ∀ gate definition, manager.checkDecision instanceId approver = .ok (gate, definition) →
      definition.requiredApprovals ≤ gate.approveCount + 1 → gate.definition.type ≠ .automated →
      (∀ approval ∈ gate.approvals, gate.unexpired approval.timestamp = true) ∧ gate.unexpired now = true ∧
        (gate.definition.type = .hybrid → gate.Verified)
  | _ => True

/-! ### One instance -/

structure Kept (gate : GateInstance) : Prop extends Lawful gate where
  undecided : gate.state = .pending → gate.Open

variable {manager} {gate : GateInstance} {definition : GateDefinition} {approver actor : Text} {comment reason : Option Text} {now : ℤ}

theorem Kept.transition (h : Kept gate) {change : GateTransition} (hallowed : change ∈ validTransitions gate.state)
    {under : Option GateDefinition} (hclosed : resolveTransition change ≠ .pending)
    (hjustified : resolveTransition change = .approved → (gate.transition change actor reason now under).Justified) :
    Kept (gate.transition change actor reason now under) :=
  ⟨⟨h.chained.transition hallowed, hjustified⟩, fun hpending => absurd hpending hclosed⟩

theorem newInstance_kept (definition : GateDefinition) (definitionId actor id : Text) (now : ℤ) (expiresAt : Option ℤ) :
    Kept (newInstance definition definitionId actor id now expiresAt) := by
  refine ⟨⟨⟨⟨_, [], rfl, rfl, rfl, rfl⟩, List.isChain_singleton _, rfl, ?_⟩, fun happroved => by cases happroved⟩, fun _ => ⟨?_, ?_, List.nodup_nil, ?_, fun _ => rfl⟩⟩
  · intro entry hentry state hstate
    obtain rfl := List.mem_singleton.mp hentry
    cases hstate
  · intro entry hentry
    obtain rfl := List.mem_singleton.mp hentry
    rfl
  · simp [newInstance]
  · simp [newInstance]

theorem Kept.verify (h : Kept gate) (hpending : gate.state = .pending) (results : List PipelineResult) : Kept (gate.verify results now) := by
  unfold GateInstance.verify
  cases results with
  | nil => exact h
  | cons first others =>
    dsimp only
    have hchained : ({ gate with verificationResult := some (aggregate first others), results := first :: others } : GateInstance).Chained :=
      ⟨h.chained.submitted, h.chained.linked, h.chained.last, h.chained.allowed⟩
    have hallowed : ∀ change ∈ [GateTransition.approve, .reject], change ∈ validTransitions gate.state := by
      rw [hpending]
      decide
    split_ifs with hautomated hpass
    · refine ⟨⟨hchained.transition (hallowed _ (by simp)), fun _ => .inr (.inl ⟨hautomated, aggregate_pass.mp hpass⟩)⟩, fun hstate => by cases hstate⟩
    · exact ⟨⟨hchained.transition (hallowed _ (by simp)), fun hstate => by cases hstate⟩, fun hstate => by cases hstate⟩
    · have hopen := h.undecided hpending
      refine ⟨⟨hchained, fun hstate => ?_⟩, fun _ => ⟨hopen.submitted, hopen.unanimous, hopen.distinct, hopen.authorised, fun hsame => absurd hsame hautomated⟩⟩
      rw [hpending] at hstate
      cases hstate

theorem approveCount_append : ({ gate with approvals := gate.approvals ++ [⟨approver, .approve, comment, now, definition⟩] } : GateInstance).approveCount =
    gate.approveCount + 1 := by
  simp [GateInstance.approveCount]

variable {action : GateAction} {instanceId : Text} {new : GateInstance} {result : GateManager × GateInstance}

theorem Kept.decide (h : Kept gate) (hpending : gate.state = .pending) (hauthorised : definition.authorises approver = true)
    (hnew : ∀ approval ∈ gate.approvals, approval.approver ≠ approver)
    (hguarded : action = .approve → definition.requiredApprovals ≤ gate.approveCount + 1 → gate.definition.type ≠ .automated →
      (∀ approval ∈ gate.approvals, gate.unexpired approval.timestamp = true) ∧ gate.unexpired now = true ∧
        (gate.definition.type = .hybrid → gate.Verified)) :
    Kept (gate.decide definition approver action comment now) := by
  have hallowed : ∀ change ∈ [GateTransition.approve, .reject], change ∈ validTransitions gate.state := by
    rw [hpending]
    decide
  unfold GateInstance.decide
  cases action with
  | reject =>
    dsimp only
    exact ⟨⟨(h.chained.approvals _).transition (hallowed _ (by simp)), fun hstate => by cases hstate⟩, fun hstate => by cases hstate⟩
  | approve =>
    dsimp only
    have hopen := (h.undecided hpending).approve comment now hauthorised hnew
    split_ifs with henough
    · refine ⟨⟨(h.chained.approvals _).transition (hallowed _ (by simp)), fun _ => (hopen.justified_iff henough).mpr ?_⟩, fun hstate => by cases hstate⟩
      rw [approveCount_append] at henough
      by_cases hautomated : gate.definition.type = .automated
      · exact .inl hautomated
      · obtain ⟨htimely, hnow, hverified⟩ := hguarded rfl (by exact_mod_cast henough) hautomated
        refine .inr ⟨fun approval hmem => ?_, hverified⟩
        rcases List.mem_append.mp hmem with hold | hmem
        · exact htimely approval hold
        · obtain rfl := List.mem_singleton.mp hmem
          exact hnow
    · refine ⟨⟨h.chained.approvals _, fun hstate => ?_⟩, fun _ => hopen⟩
      rw [show gate.state = .approved from hstate] at hpending
      cases hpending

theorem Kept.guarded_of_decide (h : Kept gate) (hpending : gate.state = .pending) (hauthorised : definition.authorises approver = true)
    (hnew : ∀ approval ∈ gate.approvals, approval.approver ≠ approver) (hlawful : Lawful (gate.decide definition approver .approve comment now))
    (henough : definition.requiredApprovals ≤ gate.approveCount + 1) (hautomated : gate.definition.type ≠ .automated) :
    (∀ approval ∈ gate.approvals, gate.unexpired approval.timestamp = true) ∧ gate.unexpired now = true ∧
      (gate.definition.type = .hybrid → gate.Verified) := by
  have hopen := (h.undecided hpending).approve comment now hauthorised hnew
  have henough' : definition.requiredApprovals ≤
      ({ gate with approvals := gate.approvals ++ [⟨approver, .approve, comment, now, definition⟩] } : GateInstance).approveCount := by
    rw [approveCount_append]
    exact_mod_cast henough
  unfold GateInstance.decide at hlawful
  dsimp only at hlawful
  rw [if_pos henough'] at hlawful
  rcases (hopen.justified_iff henough').mp (hlawful.justified rfl) with hsame | ⟨htimely, hverified⟩
  · exact absurd hsame hautomated
  · refine ⟨fun approval hmem => htimely approval (List.mem_append_left _ hmem), ?_, hverified⟩
    exact htimely _ (List.mem_append_right _ (List.mem_singleton_self _))

/-! ### All instances -/

structure Sound (manager : GateManager) : Prop where
  instances : ∀ gate ∈ manager.instances, Kept gate
  creating : ∀ gate ∈ manager.creating, Kept gate ∧ gate.state = .pending

theorem getInstance_mem (h : manager.getInstance instanceId = some gate) : gate ∈ manager.instances :=
  List.mem_of_find?_eq_some h

theorem mem_putInstance (h : gate ∈ (manager.putInstance new).instances) : gate ∈ manager.instances ∨ gate = new := by
  obtain ⟨old, hold, rfl⟩ := List.mem_map.mp h
  split_ifs
  · exact .inr rfl
  · exact .inl hold

theorem putInstance_mem (h : gate ∈ manager.instances) (hid : gate.id = new.id) : new ∈ (manager.putInstance new).instances :=
  List.mem_map.mpr ⟨gate, h, if_pos hid⟩

theorem evictOldInstances_sublist : manager.evictOldInstances.instances.Sublist manager.instances := by
  unfold evictOldInstances
  split_ifs
  · exact List.Sublist.refl _
  · exact List.filter_sublist

theorem evictOldInstances_creating : manager.evictOldInstances.creating = manager.creating := by
  unfold evictOldInstances
  split_ifs <;> rfl

section
variable (h : manager.Sound)
include h

theorem Sound.put (hnew : Kept new) : (manager.putInstance new).Sound := by
  refine ⟨fun gate hgate => ?_, h.creating⟩
  rcases mem_putInstance hgate with hold | rfl
  · exact h.instances gate hold
  · exact hnew

theorem Sound.add (hnew : Kept new) : (manager.addInstance new).Sound := by
  unfold addInstance
  refine ⟨fun gate hgate => ?_, ?_⟩
  · have hmem := evictOldInstances_sublist.subset hgate
    dsimp only at hmem
    split_ifs at hmem
    · exact (h.put hnew).instances gate hmem
    · rcases List.mem_append.mp hmem with hold | hmem
      · exact h.instances gate hold
      · obtain rfl := List.mem_singleton.mp hmem
        exact hnew
  · rw [evictOldInstances_creating]
    exact h.creating

theorem Sound.createInstance {definitionId id : Text} {manager' : GateManager}
    (hcreate : manager.createInstance definitionId actor id now = .ok manager') : manager'.Sound := by
  unfold GateManager.createInstance at hcreate
  split at hcreate
  · cases hcreate
  · rename_i definition hdefinition
    dsimp only at hcreate
    split at hcreate
    · cases hcreate
    · rename_i expiresAt hexpires
      have hnew := newInstance_kept definition definitionId actor id now expiresAt
      split_ifs at hcreate
      · obtain rfl := Except.ok.inj hcreate
        exact h.add hnew
      · obtain rfl := Except.ok.inj hcreate
        refine ⟨h.instances, fun gate hgate => ?_⟩
        rcases List.mem_append.mp hgate with hold | hmem
        · exact h.creating gate hold
        · obtain rfl := List.mem_singleton.mp hmem
          exact ⟨hnew, rfl⟩

theorem Sound.unverified (index : ℕ) : (manager.unverified index).Sound :=
  ⟨h.instances, fun gate hgate => h.creating gate ((List.eraseIdx_sublist _ _).subset hgate)⟩

theorem Sound.verified (index : ℕ) (results : List PipelineResult) (now : ℤ) : (manager.verified index results now).Sound := by
  unfold GateManager.verified
  split
  · rename_i gate hgate
    obtain ⟨hkept, hpending⟩ := h.creating gate (List.mem_of_getElem? hgate)
    split_ifs
    · exact (h.unverified index).add (hkept.verify hpending results)
    · exact h
  · exact h

end

theorem checkDecision_ok (h : manager.checkDecision instanceId approver = .ok (gate, definition)) :
    manager.getInstance instanceId = some gate ∧ gate.state = .pending ∧ definition.authorises approver = true ∧
      ∀ approval ∈ gate.approvals, approval.approver ≠ approver := by
  unfold checkDecision at h
  cases hgate : manager.getInstance instanceId with
  | none => simp [hgate] at h
  | some found =>
    rw [hgate] at h
    cases hdefinition : manager.definitions found.definitionId with
    | none => simp [hdefinition] at h
    | some current =>
      simp only [hdefinition] at h
      split_ifs at h with hpending hauthorised hnew
      obtain ⟨rfl, rfl⟩ := Prod.mk.inj (Except.ok.inj h)
      refine ⟨rfl, by simpa using hpending, by simpa using hauthorised, fun approval hmem hsame => hnew ?_⟩
      exact List.any_eq_true.mpr ⟨approval, hmem, decide_eq_true hsame⟩

theorem decide_id (action : GateAction) : (gate.decide definition approver action comment now).id = gate.id := by
  unfold GateInstance.decide
  cases action with
  | reject => rfl
  | approve =>
    dsimp only
    split_ifs <;> rfl

theorem submitDecision_ok
    (h : manager.submitDecision instanceId approver action comment now = .ok result) :
    ∃ gate ∈ manager.instances, gate.id = instanceId ∧ gate.state = .pending ∧ result.2.id = instanceId ∧
      result.1.instances = (manager.putInstance result.2).instances := by
  unfold GateManager.submitDecision at h
  cases hcheck : manager.checkDecision instanceId approver with
  | error error => simp [hcheck, Except.map] at h
  | ok found =>
    obtain ⟨gate, definition⟩ := found
    rw [hcheck] at h
    obtain rfl := Except.ok.inj h
    obtain ⟨hgate, hpending, -, -⟩ := checkDecision_ok hcheck
    have hid : gate.id = instanceId := by simpa using List.find?_some hgate
    exact ⟨gate, getInstance_mem hgate, hid, hpending, (decide_id action).trans hid, rfl⟩

theorem submitDecision_reject
    (h : manager.submitDecision instanceId approver .reject comment now = .ok result) : result.2.state = .rejected := by
  unfold GateManager.submitDecision at h
  cases hcheck : manager.checkDecision instanceId approver with
  | error error => simp [hcheck, Except.map] at h
  | ok found =>
    rw [hcheck] at h
    obtain rfl := Except.ok.inj h
    rfl

theorem createInstance_mem {definitionId id : Text} {manager' : GateManager}
    (hcreate : manager.createInstance definitionId actor id now = .ok manager') (hgate : gate ∈ manager'.instances) :
    gate ∈ manager.instances ∨ gate.id = id := by
  have hadd : ∀ {new : GateInstance}, gate ∈ (manager.addInstance new).instances → gate ∈ manager.instances ∨ gate = new := by
    intro new hmem
    have hmem := evictOldInstances_sublist.subset hmem
    dsimp only at hmem
    split_ifs at hmem
    · exact mem_putInstance hmem
    · simpa using hmem
  unfold GateManager.createInstance at hcreate
  split at hcreate
  · cases hcreate
  · dsimp only at hcreate
    split at hcreate
    · cases hcreate
    · split_ifs at hcreate
      · obtain rfl := Except.ok.inj hcreate
        refine (hadd hgate).imp_right fun hnew => ?_
        rw [hnew]
        rfl
      · obtain rfl := Except.ok.inj hcreate
        exact .inl hgate

section
variable (h : manager.Sound)
include h

theorem Sound.submitDecision (hguarded : manager.Guarded (.submitDecision instanceId approver action comment now))
    (hsubmit : manager.submitDecision instanceId approver action comment now = .ok result) : result.1.Sound ∧ Kept result.2 := by
  unfold GateManager.submitDecision at hsubmit
  cases hcheck : manager.checkDecision instanceId approver with
  | error error => simp [hcheck, Except.map] at hsubmit
  | ok found =>
    obtain ⟨gate, definition⟩ := found
    rw [hcheck] at hsubmit
    obtain rfl := Except.ok.inj hsubmit
    obtain ⟨hgate, hpending, hauthorised, hnew⟩ := checkDecision_ok hcheck
    have hkept : Kept (gate.decide definition approver action comment now) := by
      refine (h.instances gate (getInstance_mem hgate)).decide hpending hauthorised hnew ?_
      rintro rfl
      exact hguarded gate definition hcheck
    exact ⟨h.put hkept, hkept⟩

theorem Sound.override {reason : Text} (hguarded : manager.Guarded (.override instanceId actor reason now))
    (hoverride : manager.override instanceId actor reason now = .ok result) : result.1.Sound := by
  unfold GateManager.override at hoverride
  split at hoverride
  · cases hoverride
  · rename_i gate hgate
    split at hoverride
    · rename_i definition hdefinition
      split_ifs at hoverride with hallow
      obtain rfl := Except.ok.inj hoverride
      have hstate := hguarded gate definition hgate hdefinition hallow
      have hallowed : GateTransition.override ∈ validTransitions gate.state := by
        revert hstate
        cases gate.state <;> decide
      exact h.put ((h.instances gate (getInstance_mem hgate)).transition hallowed (by decide) fun _ => GateInstance.justified_override hallow)
    · cases hoverride

theorem Sound.cancel (hcancel : manager.cancel instanceId actor reason now = .ok result) : result.1.Sound := by
  unfold GateManager.cancel at hcancel
  split at hcancel
  · cases hcancel
  · rename_i gate hgate
    split_ifs at hcancel with hpending
    obtain rfl := Except.ok.inj hcancel
    have hpending' : gate.state = .pending := not_not.mp hpending
    have hallowed : GateTransition.cancel ∈ validTransitions gate.state := by
      rw [hpending']
      decide
    exact h.put ((h.instances gate (getInstance_mem hgate)).transition hallowed (by decide) fun hstate => by cases hstate)

theorem Sound.checkTimeouts (now : ℤ) : (manager.checkTimeouts now).Sound := by
  refine ⟨fun gate hgate => ?_, h.creating⟩
  obtain ⟨old, hold, rfl⟩ := List.mem_map.mp hgate
  split_ifs with htimedOut
  · have hpending : old.state = .pending := (of_decide_eq_true htimedOut).1
    have hallowed : GateTransition.timeout ∈ validTransitions old.state := by
      rw [hpending]
      decide
    exact (h.instances old hold).transition hallowed (by decide) fun hstate => by cases hstate
  · exact h.instances old hold

theorem Sound.step {call : GateCall} (hguarded : manager.Guarded call) : (manager.step call).Sound := by
  cases call with
  | registerGate definition => exact ⟨h.instances, h.creating⟩
  | createInstance definitionId actor id now =>
    unfold GateManager.step
    dsimp only
    cases hcreate : manager.createInstance definitionId actor id now with
    | error error => exact h
    | ok manager' => exact h.createInstance hcreate
  | verified index results now => exact h.verified index results now
  | unverified index => exact h.unverified index
  | submitDecision instanceId approver action comment now =>
    unfold GateManager.step
    dsimp only
    cases hsubmit : manager.submitDecision instanceId approver action comment now with
    | error error => exact h
    | ok result => exact (h.submitDecision hguarded hsubmit).1
  | override instanceId actor reason now =>
    unfold GateManager.step
    dsimp only
    cases hoverride : manager.override instanceId actor reason now with
    | error error => exact h
    | ok result => exact h.override hguarded hoverride
  | cancel instanceId actor reason now =>
    unfold GateManager.step
    dsimp only
    cases hcancel : manager.cancel instanceId actor reason now with
    | error error => exact h
    | ok result => exact h.cancel hcancel
  | checkTimeouts now => exact h.checkTimeouts now

theorem Sound.guarded {call : GateCall} (hgoverns : manager.Governs call) : manager.Guarded call := by
  cases call with
  | override instanceId actor reason now =>
    intro gate definition hgate hdefinition hallow hstate
    have hput : (manager.step (.override instanceId actor reason now)) =
        manager.putInstance (gate.transition .override actor reason now (some definition)) := by
      simp [GateManager.step, GateManager.override, hgate, hdefinition, hallow, Except.toOption]
    have hlawful := hgoverns (gate.transition .override actor reason now (some definition)) (hput ▸ putInstance_mem (getInstance_mem hgate) rfl)
    have hallowed := hlawful.chained.allows
    rw [hstate] at hallowed
    cases hallowed
  | submitDecision instanceId approver action comment now =>
    cases action with
    | reject => trivial
    | approve =>
      intro gate definition hcheck henough hautomated
      obtain ⟨hgate, hpending, hauthorised, hnew⟩ := checkDecision_ok hcheck
      have hput : (manager.step (.submitDecision instanceId approver .approve comment now)) =
          manager.putInstance (gate.decide definition approver .approve comment now) := by
        simp [GateManager.step, GateManager.submitDecision, hcheck, Except.toOption, Except.map]
      have hlawful := hgoverns (gate.decide definition approver .approve comment now)
        (hput ▸ putInstance_mem (getInstance_mem hgate) (decide_id .approve).symm)
      exact (h.instances gate (getInstance_mem hgate)).guarded_of_decide hpending hauthorised hnew hlawful henough hautomated
  | registerGate | createInstance | verified | unverified | cancel | checkTimeouts => trivial

end

theorem sound_empty : ({} : GateManager).Sound := ⟨by simp, by simp⟩

/-- In every state of a run the trails are in order and the approved instances have a reason, exactly if each call of
the run is guarded. -/
theorem throughout_governs_iff (calls : List GateCall) : Throughout step Governs {} calls ↔ Throughout step Guarded {} calls :=
  throughout_iff (I := Sound) (fun _ _ h => ⟨h.guarded, fun hguarded gate hgate => ((h.step hguarded).instances gate hgate).toLawful⟩)
    (fun _ _ h hguarded => h.step hguarded) sound_empty calls

def changeGate : GateDefinition :=
  { id := ['g'], type := .manual, conditions := [], timeoutMs := 0, approvers := [['a']], requiredApprovals := 1, allowOverride := true }

/-- An approved instance can be overridden. -/
theorem approved_overridden : ¬ Throughout step Governs {} [.registerGate changeGate, .createInstance ['g'] ['p'] ['i'] 0,
    .submitDecision ['i'] ['a'] .approve none 1, .override ['i'] ['b'] ['r'] 2] := by
  rintro ⟨-, -, -, hgoverns, -⟩
  have hlawful := hgoverns _ List.mem_cons_self
  have hallowed := hlawful.chained.allowed ⟨.override, some .approved, .approved, ['b'], some ['r'], 2, some changeGate⟩ (by decide +kernel) .approved rfl
  cases hallowed

end GateManager
end OxScada.Governance
