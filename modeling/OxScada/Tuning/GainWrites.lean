import OxScada.Tuning.Approvals

/-! The gains of a write, against the record of its approval and the envelope in force. Both were looked at before the
record was appended, so what comes in between decides. -/

namespace OxScada.Tuning
open OxScada.Bytes OxScada.Governance OxScada.Runs

/-! ### What a write should match -/

/-- The record approves the gains that were planned from the current ones. -/
structure TuningAuditAppend.Records (record : TuningAuditAppend) (id : ℕ) (current gains : PIDGains) : Prop where
  decision : record.decision = .approved
  proposalId : record.proposalId = .tune id
  currentGains : record.currentGains = current
  appliedGains : record.appliedGains = some gains

/-- A write does not leave the envelope in force, and the approval that was appended for it has the gains that the
controller had and those that it gets. -/
def Matching (event : TuningEvent) (older : List TuningEvent) : Prop :=
  ∀ id before gains envelope, event = .wrote id before gains envelope → (envelope.Holds before → envelope.Holds gains) ∧
    (∃ record, .appended record ∈ older ∧ record.Records id before gains) ∧
    ∀ record, .appended record ∈ older → record.decision = .approved → record.proposalId = .tune id → record.Records id before gains

/-- The write that the flight goes on to, unless its record was refused. -/
def Flight.awaits : Flight → Option GainPlan
  | .appending _ (.applyGains plan) => some plan
  | .appended true (.applyGains plan) => some plan
  | _ => none

def Flight.Idle (flight : Flight) : Prop := flight.awaits = none ∧ ∀ record next, flight = .appending record next → record.decision ≠ .approved

namespace TuningService

/-- Rate limits are not negative, an envelope that is set has the gains that wait for their record, and a write does
not change a controller that another write waits on. -/
def Unmixed (s : TuningService) (call : TuningCall) : Prop :=
  match call with
  | .registerLoop _ config _ _ => 0 ≤ config.maxGainChangeFraction
  | .setEnvelope id envelope => ∀ flight ∈ s.flights, ∀ plan, flight.awaits = some plan → plan.controllerId = id →
      envelope.Holds plan.current → envelope.Holds plan.planned
  | .resume index _ _ => ∀ plan, s.flights[index]? = some (.appended true (.applyGains plan)) →
      ∀ flight ∈ s.flights.eraseIdx index, ∀ other, flight.awaits = some other → other.controllerId = plan.controllerId → plan.planned = plan.current
  | _ => True

variable {s s₀ : TuningService} {flight : Flight} {proposal : TuningProposal} {principal : Text} {id : ℕ} {now : ℤ}

/-- The controller is as it was when the write was planned, and its envelope has the planned gains. -/
def Ready (s : TuningService) (plan : GainPlan) : Prop :=
  ∃ controller, s.controllers plan.controllerId = some controller ∧ controller.gains = plan.current ∧
    ((s.getEnvelope plan.controllerId).Holds plan.current → (s.getEnvelope plan.controllerId).Holds plan.planned)

/-- The write that the record approves was made or given up, or it comes next. -/
def Traced (s : TuningService) (record : TuningAuditAppend) (id : ℕ) : Prop :=
  Spent id s.log ∨ ∃ plan, .appended true (.applyGains plan) ∈ s.flights ∧ plan.proposalId = id ∧ record.Records id plan.current plan.planned

structure Aligned (s : TuningService) : Prop where
  fraction : ∀ id registration, s.loops id = some registration → 0 ≤ registration.rateLimitFraction
  ready : ∀ flight ∈ s.flights, ∀ plan, flight.awaits = some plan → s.Ready plan
  approved : ∀ record next, .appending record next ∈ s.flights → record.decision = .approved → ∃ plan, next = .applyGains plan
  recorded : ∀ record plan, .appending record (.applyGains plan) ∈ s.flights → record.Records plan.proposalId plan.current plan.planned
  traced : ∀ record id, .appended record ∈ s.log → record.decision = .approved → record.proposalId = .tune id → s.Traced record id
  logged : EachLogged Matching s.log

theorem aligned_empty : ({} : TuningService).Aligned := by
  constructor <;> simp [EachLogged]

theorem Aligned.perm (h : s.Aligned) {flights : List Flight} (hperm : flights.Perm s.flights) : ({ s with flights } : TuningService).Aligned := by
  refine ⟨h.fraction, fun flight hflight => h.ready flight (hperm.mem_iff.mp hflight), fun record next hflight => h.approved record next (hperm.mem_iff.mp hflight),
    fun record plan hflight => h.recorded record plan (hperm.mem_iff.mp hflight), fun record id hrecord hdecision hid => ?_, h.logged⟩
  refine (h.traced record id hrecord hdecision hid).imp_right ?_
  rintro ⟨plan, hflight, hplan⟩
  exact ⟨plan, hperm.mem_iff.mpr hflight, hplan⟩

theorem spent_append {log : List TuningEvent} (h : Spent id log) (events : List TuningEvent) : Spent id (events ++ log) := by
  unfold Spent at h ⊢
  rcases h with ⟨before, gains, envelope, hwrote⟩ | hrejected | hfailed
  · exact .inl ⟨before, gains, envelope, List.mem_append_right _ hwrote⟩
  · exact .inr (.inl (List.mem_append_right _ hrejected))
  · exact .inr (.inr (List.mem_append_right _ hfailed))

/-! ### What changes no gains and approves nothing -/

/-- What comes after `s₀` in a call that leaves the loops as they are. A write that comes next still does, or it is
given up. -/
structure Idle (s₀ s : TuningService) : Prop where
  controllers : s.controllers = s₀.controllers
  loops : s.loops = s₀.loops
  log : ∃ events, s.log = events ++ s₀.log ∧ ∀ event ∈ events, (∀ record, event ≠ .appended record) ∧
    ∀ id before gains envelope, event ≠ .wrote id before gains envelope
  flights : ∀ flight ∈ s.flights, flight ∈ s₀.flights ∨ flight.Idle
  kept : ∀ plan, .appended true (.applyGains plan) ∈ s₀.flights → .appended true (.applyGains plan) ∈ s.flights ∨ Spent plan.proposalId s.log

theorem idle_refl (s : TuningService) : Idle s s where
  controllers := rfl
  loops := rfl
  log := ⟨[], rfl, by simp⟩
  flights _ hflight := .inl hflight
  kept _ hflight := .inl hflight

theorem Aligned.idle (h : s₀.Aligned) (hidle : Idle s₀ s) : s.Aligned := by
  obtain ⟨events, hlog, hevents⟩ := hidle.log
  have hready : ∀ plan, s₀.Ready plan → s.Ready plan := by
    intro plan
    unfold Ready getEnvelope
    rw [hidle.controllers, hidle.loops]
    exact id
  refine ⟨fun id registration hloop => h.fraction id registration (hidle.loops ▸ hloop), fun flight hflight plan hplan => ?_,
    fun record next hflight hdecision => ?_, fun record plan hflight => ?_, fun record id hrecord hdecision hid => ?_, ?_⟩
  · rcases hidle.flights flight hflight with hold | hnew
    · exact hready plan (h.ready flight hold plan hplan)
    · rw [hnew.1] at hplan
      cases hplan
  · rcases hidle.flights _ hflight with hold | hnew
    · exact h.approved record next hold hdecision
    · exact absurd hdecision (hnew.2 record next rfl)
  · rcases hidle.flights _ hflight with hold | hnew
    · exact h.recorded record plan hold
    · exact absurd hnew.1 (by simp [Flight.awaits])
  · have hold : .appended record ∈ s₀.log := by
      rw [hlog] at hrecord
      exact (List.mem_append.mp hrecord).resolve_left fun hnew => (hevents _ hnew).1 record rfl
    rcases h.traced record id hold hdecision hid with hspent | ⟨plan, hflight, rfl, hrecords⟩
    · rw [Traced, hlog]
      exact .inl (spent_append hspent events)
    · exact (hidle.kept plan hflight).symm.imp_right fun hkept => ⟨plan, hkept, rfl, hrecords⟩
  · rw [hlog]
    clear hlog
    induction events with
    | nil => exact h.logged
    | cons event events ih =>
      refine ⟨fun id before gains envelope hevent => absurd hevent ((hevents event List.mem_cons_self).2 id before gains envelope), ?_⟩
      exact ih fun other hother => hevents other (List.mem_cons_of_mem _ hother)

section
variable (h : Idle s₀ s)
include h

theorem Idle.take (hflight : flight.Idle) : Idle s₀ (s.take flight) := by
  refine ⟨h.controllers, h.loops, h.log, fun other hother => ?_, fun plan hplan => (h.kept plan hplan).imp_left fun hkept => List.mem_append_left _ hkept⟩
  rcases List.mem_append.mp hother with hold | hmem
  · exact h.flights other hold
  · obtain rfl := List.mem_singleton.mp hmem
    exact .inr hflight

theorem Idle.tryAppend {record : TuningAuditAppend} (hdecision : record.decision ≠ .approved) : Idle s₀ (s.tryAppend record) := by
  refine h.take ⟨rfl, ?_⟩
  rintro _ _ ⟨⟩
  exact hdecision

theorem Idle.note {event : TuningEvent} (hrecord : ∀ record, event ≠ .appended record)
    (hwrote : ∀ id before gains envelope, event ≠ .wrote id before gains envelope) : Idle s₀ (s.note event) := by
  obtain ⟨events, hlog, hevents⟩ := h.log
  refine ⟨h.controllers, h.loops, ⟨event :: events, congrArg (event :: ·) hlog, fun other hother => ?_⟩, h.flights, fun plan hplan => ?_⟩
  · rcases List.mem_cons.mp hother with rfl | hold
    · exact ⟨hrecord, hwrote⟩
    · exact hevents other hold
  · exact (h.kept plan hplan).imp_right fun hspent => spent_append hspent [event]

theorem Idle.of_eq {s' : TuningService} (hcontrollers : s'.controllers = s.controllers) (hloops : s'.loops = s.loops)
    (hlog : s'.log = s.log) (hflights : s'.flights = s.flights) : Idle s₀ s' :=
  ⟨hcontrollers.trans h.controllers, hloops.trans h.loops, hlog ▸ h.log, hflights ▸ h.flights, hflights ▸ hlog ▸ h.kept⟩

theorem Idle.modifyProposal (id : ℕ) (f : TuningProposal → TuningProposal) : Idle s₀ (s.modifyProposal id f) := h.of_eq rfl rfl rfl rfl

theorem Idle.close (id : ℕ) (status : TuningProposalStatus) (now : ℤ) : Idle s₀ (s.close id status now) := by
  refine (h.modifyProposal id _).note (fun record hsame => ?_) fun id before gains envelope hsame => ?_ <;> cases hsame

theorem Idle.failProposal (reasonCode : Text) (withinEnvelope : Bool) :
    Idle s₀ (s.failProposal proposal principal reasonCode withinEnvelope now) := (h.close _ _ _).tryAppend (by simp [auditFor])

end

theorem idle_land (h : ∀ plan, flight ≠ .appended true (.applyGains plan)) : Idle { s with flights := flight :: s.flights } s := by
  refine ⟨rfl, rfl, ⟨[], rfl, by simp⟩, fun other hother => .inl (List.mem_cons_of_mem _ hother), fun plan hplan => .inl ?_⟩
  exact (List.mem_cons.mp hplan).resolve_left fun hsame => h plan hsame.symm

theorem idle_registerApprovalGate {approvers : List Text} {s' : TuningService} (hidle : Idle s₀ s) (h : s.registerApprovalGate approvers = some s') :
    Idle s₀ s' := by
  unfold registerApprovalGate at h
  split_ifs at h
  obtain rfl := Option.some.inj h
  exact hidle.of_eq rfl rfl rfl rfl

variable {controllerId : Text}

theorem idle_propose {method : ProposalMethod} {gains : PIDGains} {policy : TuningApprovalPolicy} :
    Idle s (s.propose controllerId method gains principal policy now) := by
  unfold propose
  split
  · exact idle_refl s
  · split
    · exact idle_refl s
    · rename_i s' hregister
      have hidle : Idle s { s' with proposalCounter := s'.proposalCounter + 1 } := (idle_registerApprovalGate (idle_refl s) hregister).of_eq rfl rfl rfl rfl
      dsimp only
      split_ifs with hwithin
      · refine hidle.take ⟨rfl, ?_⟩
        rintro _ _ ⟨⟩
        simp
      · exact hidle.tryAppend (by simp)

theorem idle_decide {action : GateAction} {comment : Option Text} {policy : TuningApprovalPolicy} :
    Idle s (s.decide id principal action comment policy now) := by
  unfold decide
  split
  · exact idle_refl s
  · rename_i proposal hproposal
    by_cases hstatus : proposal.status ≠ .pending
    · rw [if_pos hstatus]
      exact idle_refl s
    rw [if_neg hstatus]
    by_cases hexpired : proposal.expiresAt < now
    · rw [if_pos hexpired]
      exact ((idle_refl s).close _ _ _).tryAppend (by simp [auditFor])
    · rw [if_neg hexpired]
      split
      · exact (idle_refl s).tryAppend (by simp [auditFor])
      · dsimp only
        have hchecked : Idle s (if action = .approve then s.note (.checked proposal principal policy now) else s) := by
          split_ifs
          · exact (idle_refl s).note (fun _ hsame => by cases hsame) fun _ _ _ _ hsame => by cases hsame
          · exact idle_refl s
        split
        · exact hchecked
        · rename_i s' hregister
          have hregistered := idle_registerApprovalGate hchecked hregister
          split
          · exact hregistered
          · rename_i gates gate hsubmit
            have hgates : Idle s { s' with gates } := hregistered.of_eq rfl rfl rfl rfl
            refine hgates.take ⟨rfl, ?_⟩
            rintro _ _ ⟨⟩

theorem Idle.createGate (h : Idle s₀ s) (uuid : Text) : Idle s₀ (s.createGate proposal now uuid) := by
  unfold TuningService.createGate
  split_ifs
  · exact h
  · split
    · exact h
    · rename_i gates hcreate
      have hgates : Idle s₀ { s with gates, uuids := uuid :: s.uuids } := h.of_eq rfl rfl rfl rfl
      refine hgates.take ⟨rfl, ?_⟩
      rintro _ _ ⟨⟩

theorem Idle.list (h : Idle s₀ s) : Idle s₀ (s.list proposal) := by
  unfold TuningService.list evictOldProposals
  dsimp only
  split_ifs
  · exact h.of_eq rfl rfl rfl rfl
  · exact h.of_eq rfl rfl rfl rfl

/-! ### Planning and writing -/

theorem Aligned.applyApproved (h : s.Aligned) : (s.applyApproved proposal principal now).Aligned := by
  unfold TuningService.applyApproved
  split
  · exact h.idle ((idle_refl s).failProposal _ _)
  · rename_i controller hcontroller
    dsimp only
    split_ifs with hviolations
    · exact h.idle ((idle_refl s).failProposal _ _)
    · have hproposed : (s.getEnvelope proposal.controllerId).Holds proposal.proposedGains := describeEnvelopeViolations_nil.mp (not_not.mp hviolations)
      have hfraction : 0 ≤ (s.loops proposal.controllerId).elim defaultRateLimitFraction (·.rateLimitFraction) := by
        cases hloop : s.loops proposal.controllerId with
        | none =>
          show (0 : ℚ) ≤ defaultRateLimitFraction
          unfold defaultRateLimitFraction
          norm_num
        | some registration => exact h.fraction _ _ hloop
      unfold take
      refine ⟨h.fraction, fun flight hflight plan hplan => ?_, fun record next hflight hdecision => ?_, fun record plan hflight => ?_,
        fun record id hrecord hdecision hid => (h.traced record id hrecord hdecision hid).imp_right ?_, h.logged⟩
      · rcases List.mem_append.mp hflight with hold | hnew
        · exact h.ready flight hold plan hplan
        · obtain rfl := List.mem_singleton.mp hnew
          obtain rfl := Option.some.inj hplan
          exact ⟨controller, hcontroller, rfl, fun hcurrent => limitStepTowards_holds hfraction hcurrent hproposed⟩
      · rcases List.mem_append.mp hflight with hold | hnew
        · exact h.approved record next hold hdecision
        · cases List.mem_singleton.mp hnew
          exact ⟨_, rfl⟩
      · rcases List.mem_append.mp hflight with hold | hnew
        · exact h.recorded record plan hold
        · cases List.mem_singleton.mp hnew
          exact ⟨rfl, rfl, rfl, rfl⟩
      · rintro ⟨plan, hflight, hplan⟩
        exact ⟨plan, List.mem_append_left _ hflight, hplan⟩

theorem Aligned.decided (h : s.Aligned) {gate : GateInstance} : (s.decided proposal principal gate now).Aligned := by
  unfold TuningService.decided
  split
  · exact h.idle ((((idle_refl s).close _ _ _).modifyProposal _ _).tryAppend (by simp [auditFor]))
  · split_ifs
    · have hmodified : (s.modifyProposal proposal.id fun proposal => { proposal with decidedBy := some principal }).Aligned :=
        h.idle ((idle_refl s).modifyProposal _ _)
      exact hmodified.applyApproved
    · exact h
  · exact h

theorem Aligned.loops (h : s.Aligned) (controllers : Text → Option PIDController) (loops : Text → Option LoopRegistration)
    (hfraction : ∀ id registration, loops id = some registration → 0 ≤ registration.rateLimitFraction)
    (hready : ∀ flight ∈ s.flights, ∀ plan, flight.awaits = some plan → s.Ready plan → ({ s with controllers, loops } : TuningService).Ready plan) :
    ({ s with controllers, loops } : TuningService).Aligned :=
  ⟨hfraction, fun flight hflight plan hplan => hready flight hflight plan hplan (h.ready flight hflight plan hplan), h.approved, h.recorded, h.traced, h.logged⟩

theorem matching_write {plan : GainPlan} (h : ({ s with flights := .appended true (.applyGains plan) :: s.flights } : TuningService).Aligned)
    (hvalid : ({ s.ledger with flights := .appended true (.applyGains plan) :: s.flights } : Ledger).Valid) {controller : PIDController}
    (hcontroller : s.controllers plan.controllerId = some controller) :
    Matching (.wrote plan.proposalId controller.gains plan.planned (s.getEnvelope plan.controllerId)) s.log := by
  have hdecides : (Flight.appended true (.applyGains plan)).decides plan.proposalId = true := by simp [Flight.decides]
  have hcount : (Flight.appended true (.applyGains plan) :: s.flights).countP (·.decides plan.proposalId) =
      s.flights.countP (·.decides plan.proposalId) + 1 := by
    rw [Ledger.countP_cons_decides, if_pos hdecides]
  have hunspent : ¬ Spent plan.proposalId s.log := by
    intro hspent
    have hzero := hvalid.spent plan.proposalId hspent
    dsimp only at hzero
    omega
  have hrest : ∀ flight ∈ s.flights, flight.decides plan.proposalId = false := by
    intro flight hflight
    have hone := hvalid.one plan.proposalId
    dsimp only at hone
    have hzero : s.flights.countP (·.decides plan.proposalId) = 0 := by omega
    simpa using List.countP_eq_zero.mp hzero flight hflight
  obtain ⟨controller', hsome, hcurrent, henvelope⟩ := h.ready _ List.mem_cons_self plan rfl
  obtain rfl : controller = controller' := Option.some.inj (hcontroller.symm.trans hsome)
  have hrecords : ∀ record, .appended record ∈ s.log → record.decision = .approved → record.proposalId = .tune plan.proposalId →
      record.Records plan.proposalId controller.gains plan.planned := by
    intro record hrecord hdecision hid
    rcases h.traced record plan.proposalId hrecord hdecision hid with hspent | ⟨other, hflight, hother, hrecords⟩
    · exact absurd hspent hunspent
    · rcases List.mem_cons.mp hflight with hsame | hmem
      · cases hsame
        rw [hcurrent]
        exact hrecords
      · have hfalse := hrest _ hmem
        simp [Flight.decides, hother] at hfalse
  rintro _ _ _ _ ⟨⟩
  refine ⟨?_, ?_, hrecords⟩
  · rw [hcurrent]
    exact henvelope
  · obtain ⟨record, hrecord, happroves, -⟩ := hvalid.backed _ List.mem_cons_self
    exact ⟨record, hrecord, hrecords record hrecord happroves.decision happroves.proposalId⟩

theorem applyGains_gains {controller : PIDController} {gains : PIDGains} (h : (controller.applyGains gains).2 ≠ false) :
    (controller.applyGains gains).1.gains = gains := by
  unfold PIDController.applyGains at h ⊢
  split_ifs at h ⊢
  · rfl
  · exact absurd rfl h

theorem Aligned.applyGains {plan : GainPlan} {ok : Bool} (h : ({ s with flights := .appended ok (.applyGains plan) :: s.flights } : TuningService).Aligned)
    (hvalid : ({ s.ledger with flights := .appended ok (.applyGains plan) :: s.flights } : Ledger).Valid)
    (halone : ok = true → ∀ flight ∈ s.flights, ∀ other, flight.awaits = some other → other.controllerId = plan.controllerId → plan.planned = plan.current) :
    (s.applyGains plan proposal ok now).Aligned := by
  unfold TuningService.applyGains
  cases ok with
  | false =>
    rw [if_pos rfl]
    have hland : s.Aligned := h.idle (idle_land fun plan hsame => by cases hsame)
    exact hland.idle ((idle_refl s).failProposal _ _)
  | true =>
    rw [if_neg (by simp)]
    obtain ⟨controller, hcontroller, hcurrent, -⟩ := h.ready _ List.mem_cons_self plan rfl
    have hwrote : (s.note (.wrote plan.proposalId controller.gains plan.planned (s.getEnvelope plan.controllerId))).Aligned := by
      refine ⟨h.fraction, fun flight hflight => h.ready flight (List.mem_cons_of_mem _ hflight),
        fun record next hflight => h.approved record next (List.mem_cons_of_mem _ hflight),
        fun record plan hflight => h.recorded record plan (List.mem_cons_of_mem _ hflight), fun record id hrecord hdecision hid => ?_,
        ⟨matching_write h hvalid hcontroller, h.logged⟩⟩
      have hold : .appended record ∈ s.log := by simpa [note] using hrecord
      rcases h.traced record id hold hdecision hid with hspent | ⟨other, hflight, rfl, hrecords⟩
      · exact .inl (spent_append hspent [_])
      · rcases List.mem_cons.mp hflight with hsame | hmem
        · cases hsame
          exact .inl (.inl ⟨_, _, _, List.mem_cons_self⟩)
        · exact .inr ⟨other, hmem, rfl, hrecords⟩
    rw [show s.controllers plan.controllerId = some controller from hcontroller]
    dsimp only
    by_cases happlied : (controller.applyGains plan.planned).2 = false
    · rw [if_pos happlied]
      exact hwrote.idle ((idle_refl _).failProposal _ _)
    · rw [if_neg happlied]
      -- a write that waits on the same controller was planned from the gains that are written now
      have hloops := hwrote.loops (Function.update s.controllers plan.controllerId (some (controller.applyGains plan.planned).1)) _ h.fraction
        fun flight hflight other hother hready => ?_
      · exact hloops.idle (((idle_refl _).modifyProposal _ _).tryAppend (by simp))
      · obtain ⟨found, hfound, hgains, henvelope⟩ := hready
        by_cases hsame : other.controllerId = plan.controllerId
        · have hplanned := halone rfl flight hflight other hother hsame
          have hgains' : controller.gains = other.current := by
            rw [hsame] at hfound
            obtain rfl : controller = found := Option.some.inj (hcontroller.symm.trans hfound)
            exact hgains
          refine ⟨(controller.applyGains plan.planned).1, ?_, ?_, henvelope⟩
          · rw [hsame]
            exact Function.update_self _ _ _
          · rw [applyGains_gains happlied, hplanned, ← hgains', hcurrent]
        · refine ⟨found, ?_, hgains, henvelope⟩
          exact (Function.update_of_ne hsame _ _).trans hfound

/-! ### Calls -/

theorem Aligned.registerLoop (h : s.Aligned) {config : PIDControllerConfig} {envelope : Option GainEnvelope} {now : ℚ}
    (hfraction : 0 ≤ config.maxGainChangeFraction) : (s.registerLoop controllerId config envelope now).Aligned := by
  unfold TuningService.registerLoop
  dsimp only
  split_ifs with hrefused
  · exact h
  · have hnew : s.controllers controllerId = none := by
      rw [not_or] at hrefused
      simpa using hrefused.1
    refine h.loops _ _ (fun id registration hloop => ?_) fun flight hflight plan hplan hready => ?_
    · by_cases hsame : id = controllerId
      · rw [hsame, Function.update_self] at hloop
        obtain rfl := Option.some.inj hloop
        exact hfraction
      · rw [Function.update_of_ne hsame] at hloop
        exact h.fraction id registration hloop
    · obtain ⟨controller, hcontroller, hcurrent, hplanned⟩ := hready
      have hother : plan.controllerId ≠ controllerId := by
        intro hsame
        rw [hsame, hnew] at hcontroller
        cases hcontroller
      refine ⟨controller, (Function.update_of_ne hother _ _).trans hcontroller, hcurrent, ?_⟩
      unfold getEnvelope at hplanned ⊢
      dsimp only
      rw [Function.update_of_ne hother]
      exact hplanned

theorem Aligned.setEnvelope (h : s.Aligned) {envelope : GainEnvelope}
    (hunmixed : ∀ flight ∈ s.flights, ∀ plan, flight.awaits = some plan → plan.controllerId = controllerId →
      envelope.Holds plan.current → envelope.Holds plan.planned) : (s.setEnvelope controllerId envelope).Aligned := by
  unfold TuningService.setEnvelope
  split_ifs
  · exact h
  · split
    · rename_i registration controller hloop hcontroller
      refine h.loops s.controllers _ (fun id changed hchanged => ?_) fun flight hflight plan hplan hready => ?_
      · by_cases hsame : id = controllerId
        · rw [hsame, Function.update_self] at hchanged
          obtain rfl := Option.some.inj hchanged
          exact h.fraction controllerId registration hloop
        · rw [Function.update_of_ne hsame] at hchanged
          exact h.fraction id changed hchanged
      · obtain ⟨found, hfound, hcurrent, hplanned⟩ := hready
        refine ⟨found, hfound, hcurrent, ?_⟩
        unfold getEnvelope at hplanned ⊢
        dsimp only
        by_cases hsame : plan.controllerId = controllerId
        · rw [hsame, Function.update_self]
          exact hunmixed flight hflight plan hplan hsame
        · rw [Function.update_of_ne hsame]
          exact hplanned
    · exact h

theorem Aligned.settle (h : s.Aligned) (index : ℕ) (ok : Bool) : (s.settle index ok).Aligned := by
  unfold TuningService.settle
  split
  · rename_i record next hflight
    have hmem := List.mem_of_getElem? hflight
    obtain ⟨hlt, hget⟩ := List.getElem?_eq_some_iff.mp hflight
    have hafter : (s.flights.set index (.appended ok next)).Perm (.appended ok next :: s.flights.eraseIdx index) := List.set_perm_cons_eraseIdx hlt _
    have hbefore : (Flight.appending record next :: s.flights.eraseIdx index).Perm s.flights := hget ▸ List.getElem_cons_eraseIdx_perm hlt
    have hrest : ∀ flight ∈ s.flights.set index (.appended ok next), flight = .appended ok next ∨ flight ∈ s.flights := by
      intro flight hflight
      exact (List.mem_cons.mp (hafter.mem_iff.mp hflight)).imp_right fun hold => (List.eraseIdx_sublist _ _).subset hold
    have hready : ∀ flight ∈ s.flights.set index (.appended ok next), ∀ plan, flight.awaits = some plan → s.Ready plan := by
      intro flight hflight plan hplan
      rcases hrest flight hflight with rfl | hold
      · refine h.ready _ hmem plan ?_
        cases next <;> cases ok <;> first | exact hplan | cases hplan
      · exact h.ready flight hold plan hplan
    have happroved : ∀ other after, .appending other after ∈ s.flights.set index (.appended ok next) → .appending other after ∈ s.flights := by
      intro other after hother
      exact (hrest _ hother).resolve_left fun hsame => by cases hsame
    -- the flight that is answered is no write that comes next
    have hkept : ∀ plan, .appended true (.applyGains plan) ∈ s.flights → .appended true (.applyGains plan) ∈ s.flights.set index (.appended ok next) := by
      intro plan hplan
      refine hafter.mem_iff.mpr (List.mem_cons_of_mem _ ?_)
      exact (List.mem_cons.mp (hbefore.mem_iff.mpr hplan)).resolve_left fun hsame => by cases hsame
    have htraced : ∀ other id, s.Traced other id → ({ s with flights := s.flights.set index (.appended ok next) } : TuningService).Traced other id := by
      intro other id
      refine Or.imp_right ?_
      rintro ⟨plan, hplan, hrecords⟩
      exact ⟨plan, hkept plan hplan, hrecords⟩
    dsimp only
    split_ifs with hok
    · subst hok
      refine ⟨h.fraction, hready, fun other after hother => h.approved other after (happroved other after hother),
        fun other plan hother => h.recorded other plan (happroved _ _ hother), fun other id hother hdecision hid => ?_, ⟨?_, h.logged⟩⟩
      · rcases List.mem_cons.mp hother with hsame | hold
        · cases hsame
          obtain ⟨plan, rfl⟩ := h.approved record next hmem hdecision
          have hrecords := h.recorded record plan hmem
          have hid' : plan.proposalId = id := by
            have hboth := hrecords.proposalId.symm.trans hid
            simpa using hboth
          subst hid'
          exact .inr ⟨plan, hafter.mem_iff.mpr List.mem_cons_self, rfl, hrecords⟩
        · exact (htraced other id (h.traced other id hold hdecision hid)).imp_left fun hspent => spent_append hspent [_]
      · rintro _ _ _ _ ⟨⟩
    · exact ⟨h.fraction, hready, fun other after hother => h.approved other after (happroved other after hother),
        fun other plan hother => h.recorded other plan (happroved _ _ hother),
        fun other id hother hdecision hid => htraced other id (h.traced other id hother hdecision hid), h.logged⟩
  · exact h

theorem Aligned.resume (h : s.Aligned) (hvalid : s.ledger.Valid) {index : ℕ} {uuid : Text} (hunmixed : s.Unmixed (.resume index now uuid)) :
    (s.resume index now uuid).Aligned := by
  have hperm : ∀ flight, s.flights[index]? = some flight → (flight :: s.flights.eraseIdx index).Perm s.flights := by
    intro flight hflight
    obtain ⟨hlt, hget⟩ := List.getElem?_eq_some_iff.mp hflight
    exact hget ▸ List.getElem_cons_eraseIdx_perm hlt
  have hland : ∀ flight, s.flights[index]? = some flight → (∀ plan, flight ≠ .appended true (.applyGains plan)) →
      ({ s with flights := s.flights.eraseIdx index } : TuningService).Aligned := by
    intro flight hflight hplan
    exact (h.perm (hperm flight hflight)).idle (idle_land (s := { s with flights := s.flights.eraseIdx index }) hplan)
  unfold TuningService.resume
  dsimp only
  split
  · rename_i ok hflight
    exact hland _ hflight fun plan hsame => by cases hsame
  · rename_i ok proposal hflight
    have hlanded := hland _ hflight fun plan hsame => by cases hsame
    split_ifs
    · exact hlanded.idle ((idle_refl _).createGate _)
    · exact hlanded
  · rename_i proposal hflight
    exact (hland _ hflight fun plan hsame => by cases hsame).idle (idle_refl _).list
  · rename_i proposalId principal gate hflight
    have hlanded := hland _ hflight fun plan hsame => by cases hsame
    split
    · exact hlanded.decided
    · exact hlanded
  · rename_i ok plan hflight
    split
    · refine Aligned.applyGains (h.perm (hperm _ hflight)) (hvalid.perm (hperm _ hflight)) fun hok => ?_
      subst hok
      exact hunmixed plan hflight
    · rename_i hmissing
      -- the proposal of a decision is known
      have hknown : plan.proposalId ∈ s.ledger.proposals.map (·.1) := by
        refine hvalid.known plan.proposalId (.inl (List.countP_pos_iff.mpr ⟨_, List.mem_of_getElem? hflight, ?_⟩))
        simp [Flight.decides]
      unfold ledger at hknown
      rw [List.map_map] at hknown
      obtain ⟨proposal, hproposal, hid⟩ := List.mem_map.mp hknown
      exact absurd (show proposal.id = plan.proposalId from hid) (by simpa using List.find?_eq_none.mp hmissing proposal hproposal)
  · exact h

theorem aligned_step {call : TuningCall} (h : s.Aligned) (hvalid : s.ledger.Valid) (hunmixed : s.Unmixed call) : (s.step call).Aligned := by
  cases call with
  | registerLoop id config envelope now => exact h.registerLoop hunmixed
  | setEnvelope id envelope => exact h.setEnvelope hunmixed
  | propose controllerId method gains principal policy now => exact h.idle idle_propose
  | decide proposalId principal action comment policy now => exact h.idle idle_decide
  | settle index ok => exact h.settle index ok
  | resume index now uuid => exact h.resume hvalid hunmixed

/-- If no envelope is set and no other write is made on a loop while a write waits there for its record, every write
stays in the envelope in force and changes the gains that its record has. -/
theorem writes_match (calls : List TuningCall) (hunmixed : Throughout step Unmixed {} calls) : EachLogged Matching (calls.foldl step {}).log := by
  have hboth := Throughout.invariant (I := fun s : TuningService => s.ledger.Valid ∧ s.Aligned)
    (fun s call h hquiet => ⟨valid_step h.1 call, aligned_step h.2 h.1 hquiet⟩) ⟨Ledger.valid_empty, aligned_empty⟩ hunmixed
  exact hboth.2.logged

theorem unmixed_alone {index : ℕ} {uuid : Text} (h : s.flights.eraseIdx index = []) : s.Unmixed (.resume index now uuid) := by
  intro plan _ flight hflight
  rw [h] at hflight
  cases hflight

theorem writtenAlone_matches : EachLogged Matching (writtenAlone.foldl step {}).log := by
  refine writes_match writtenAlone ⟨?_, trivial, trivial, unmixed_alone ?_, unmixed_alone ?_, trivial, unmixed_alone ?_, trivial, unmixed_alone ?_, trivial⟩
  · show (0 : ℚ) ≤ loopConfig.maxGainChangeFraction
    decide +kernel
  all_goals decide +kernel

/-! ### Two approvals at once -/

/-- Two proposals for one loop are approved before the gains of either are written. -/
def approvedTogether : List TuningCall :=
  [.registerLoop ['l'] loopConfig none 0, .propose ['l'] .rl ⟨12 / 10, 1, 0⟩ ['p'] twoApprovers 0, .settle 0 true, .resume 0 0 ['g'], .resume 0 0 [],
    .propose ['l'] .rl ⟨11 / 10, 1, 0⟩ ['p'] twoApprovers 0, .settle 0 true, .resume 0 0 ['h'], .resume 0 0 [],
    .decide 1 ['a'] .approve none twoApprovers 1, .resume 0 1 [], .decide 2 ['b'] .approve none twoApprovers 1, .resume 1 1 [],
    .settle 0 true, .settle 1 true, .resume 0 2 [], .resume 0 3 []]

theorem together_unmatched : ¬ EachLogged Matching (approvedTogether.foldl step {}).log := by
  have hlog : (approvedTogether.foldl step {}).log.head? = some (.wrote 2 ⟨12 / 10, 1, 0⟩ ⟨11 / 10, 1, 0⟩ defaultEnvelope) ∧
      (approvedTogether.foldl step {}).log.tail.all (fun event => match event with
        | .appended record => record.currentGains ≠ ⟨12 / 10, 1, 0⟩
        | _ => true) = true := by decide +kernel
  revert hlog
  cases (approvedTogether.foldl step {}).log with
  | nil => exact fun hlog => absurd hlog.1 (by simp)
  | cons event older =>
    rintro ⟨hevent, hothers⟩ ⟨hmatching, -⟩
    obtain ⟨record, hrecord, hrecords⟩ := (hmatching 2 _ _ _ (Option.some.inj hevent)).2.1
    have hother := List.all_eq_true.mp hothers _ hrecord
    simp [hrecords.currentGains] at hother

end TuningService
end OxScada.Tuning
