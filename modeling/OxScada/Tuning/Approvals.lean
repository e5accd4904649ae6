import OxScada.Tuning.TuningService

/-! What every write of gains has behind it. A proposal is decided once: its gate is pending, or one call is about to
act on the decision, or the decision was acted on. -/

namespace OxScada.Tuning
open OxScada.Bytes OxScada.Governance OxScada.Runs

/-! ### What a write needs -/

/-- The principal has passed the policy with an approval of the proposal. -/
def Checked (id : ℕ) (principal : Text) (log : List TuningEvent) : Prop :=
  ∃ proposal policy now, TuningEvent.checked proposal principal policy now ∈ log ∧ proposal.id = id ∧ principal ∈ policy.approvers ∧
    principal ≠ proposal.proposedBy ∧ policy.applyEnabled = true ∧ (now : ℚ) ≤ proposal.expiresAt

structure TuningAuditAppend.Approves (record : TuningAuditAppend) (id : ℕ) (principal : Text) (gains : PIDGains) : Prop where
  decision : record.decision = .approved
  proposalId : record.proposalId = .tune id
  decidedBy : record.decidedBy = some principal
  appliedGains : record.appliedGains = some gains

def Spent (id : ℕ) (log : List TuningEvent) : Prop :=
  (∃ before gains envelope, TuningEvent.wrote id before gains envelope ∈ log) ∨ .closed id .rejected ∈ log ∨ .closed id .failed ∈ log

/-- A write comes after the durable approval of its gains by a principal who has passed the policy, and not after
another write, a rejection or a failure of its proposal. -/
def Gated (event : TuningEvent) (older : List TuningEvent) : Prop :=
  ∀ id before gains envelope, event = .wrote id before gains envelope →
    (∃ record principal, .appended record ∈ older ∧ record.Approves id principal gains ∧ Checked id principal older) ∧ ¬ Spent id older

def InTime (event : TuningEvent) (older : List TuningEvent) : Prop :=
  ∀ id before gains envelope, event = .wrote id before gains envelope → .closed id .expired ∉ older

/-! ### The calls that act on a decision -/

namespace Flight

def decides (id : ℕ) : Flight → Bool
  | .submitted proposalId _ gate => proposalId = id ∧ gate.state ≠ .pending
  | .appending _ (.applyGains plan) => plan.proposalId = id
  | .appended _ (.applyGains plan) => plan.proposalId = id
  | _ => false

def approves (id : ℕ) : Flight → Bool
  | .submitted proposalId _ gate => proposalId = id ∧ gate.state = .approved
  | .appending _ (.applyGains plan) => plan.proposalId = id
  | .appended _ (.applyGains plan) => plan.proposalId = id
  | _ => false

def draft : Flight → Option ℕ
  | .appending _ (.createGate proposal) => some proposal.id
  | .appended _ (.createGate proposal) => some proposal.id
  | .created proposal => some proposal.id
  | _ => none

def gated : Flight → Option Text
  | .created proposal => some proposal.gateInstanceId
  | _ => none

def Backed (log : List TuningEvent) : Flight → Prop
  | .submitted id principal gate => gate.state = .approved → Checked id principal log
  | .appending record (.applyGains plan) => record.Approves plan.proposalId plan.principal plan.planned ∧ Checked plan.proposalId plan.principal log
  | .appended true (.applyGains plan) =>
    ∃ record, .appended record ∈ log ∧ record.Approves plan.proposalId plan.principal plan.planned ∧ Checked plan.proposalId plan.principal log
  | _ => True

end Flight

/-- A decide call does not meet an expired proposal while an approval of it has not come to its end. -/
def TuningService.Unraced (s : TuningService) (call : TuningCall) : Prop :=
  match call with
  | .decide id _ _ _ _ now => ∀ proposal, s.getProposal id = some proposal → proposal.status = .pending → proposal.expiresAt < now →
      ∀ flight ∈ s.flights, flight.approves id = false
  | _ => True

/-! ### The ledger -/

/-- What the decisions rest on: the proposals with their gates, the flights, the instances of the gates, the ids given
to gates, the numbers given to proposals, and the events. -/
structure Ledger where
  proposals : List (ℕ × Text)
  flights : List Flight
  gates : List GateInstance
  uuids : List Text
  counter : ℕ
  log : List TuningEvent

def TuningService.ledger (s : TuningService) : Ledger :=
  { proposals := s.proposals.map fun proposal => (proposal.id, proposal.gateInstanceId)
    flights := s.flights, gates := s.gates.instances, uuids := s.uuids, counter := s.proposalCounter, log := s.log }

namespace Ledger

def ids (l : Ledger) : List ℕ := l.proposals.map (·.1) ++ l.flights.filterMap Flight.draft

def gateIds (l : Ledger) : List Text := l.proposals.map (·.2) ++ l.flights.filterMap Flight.gated

structure Valid (l : Ledger) : Prop where
  ids_nodup : l.ids.Nodup
  ids_le : ∀ id ∈ l.ids, id ≤ l.counter
  gateIds_nodup : l.gateIds.Nodup
  gateIds_given : ∀ gateId ∈ l.gateIds, gateId ∈ l.uuids
  one : ∀ id, l.flights.countP (·.decides id) ≤ 1
  known : ∀ id, 0 < l.flights.countP (·.decides id) ∨ Spent id l.log → id ∈ l.proposals.map (·.1)
  spent : ∀ id, Spent id l.log → l.flights.countP (·.decides id) = 0
  undecided : ∀ entry ∈ l.proposals, ∀ gate ∈ l.gates, gate.id = entry.2 → gate.state = .pending →
    l.flights.countP (·.decides entry.1) = 0 ∧ ¬ Spent entry.1 l.log
  backed : ∀ flight ∈ l.flights, flight.Backed l.log
  logged : EachLogged Gated l.log

variable {l : Ledger} {flight : Flight} {rest : List Flight}

theorem valid_empty : (({} : TuningService).ledger).Valid := by
  constructor <;> simp [TuningService.ledger, Ledger.ids, Ledger.gateIds, Spent, EachLogged]

theorem nodup_subperm {α : Type} {xs ys : List α} (h : xs.Subperm ys) (hnodup : ys.Nodup) : xs.Nodup := by
  obtain ⟨zs, hperm, hsublist⟩ := h
  exact hperm.nodup_iff.mp (hnodup.sublist hsublist)

/-- Flights that hold no other ids, decide no more and are backed. -/
theorem Valid.mono (h : l.Valid) {flights : List Flight} (hdrafts : (flights.filterMap Flight.draft).Subperm (l.flights.filterMap Flight.draft))
    (hgates : (flights.filterMap Flight.gated).Subperm (l.flights.filterMap Flight.gated))
    (hcount : ∀ id, flights.countP (·.decides id) ≤ l.flights.countP (·.decides id)) (hbacked : ∀ flight ∈ flights, flight.Backed l.log) :
    ({ l with flights } : Ledger).Valid := by
  have hids : ({ l with flights } : Ledger).ids.Subperm l.ids := (List.subperm_append_left _).mpr hdrafts
  have hgateIds : ({ l with flights } : Ledger).gateIds.Subperm l.gateIds := (List.subperm_append_left _).mpr hgates
  refine ⟨nodup_subperm hids h.ids_nodup, fun id hid => h.ids_le id (hids.subset hid), nodup_subperm hgateIds h.gateIds_nodup,
    fun id hid => h.gateIds_given id (hgateIds.subset hid), fun id => (hcount id).trans (h.one id),
    fun id hid => h.known id (hid.imp_left fun hpos => lt_of_lt_of_le hpos (hcount id)),
    fun id hid => Nat.le_zero.mp ((hcount id).trans (h.spent id hid).le), fun entry hentry gate hgate hid hpending => ?_, hbacked, h.logged⟩
  obtain ⟨hzero, hunspent⟩ := h.undecided entry hentry gate hgate hid hpending
  exact ⟨Nat.le_zero.mp ((hcount entry.1).trans hzero.le), hunspent⟩

theorem Valid.perm (h : l.Valid) {flights : List Flight} (hperm : flights.Perm l.flights) : ({ l with flights } : Ledger).Valid :=
  h.mono (hperm.filterMap _).subperm (hperm.filterMap _).subperm (fun _ => (hperm.countP_eq _).le)
    fun flight hflight => h.backed flight (hperm.mem_iff.mp hflight)

variable {id : ℕ}

theorem checked_cons {principal : Text} {log : List TuningEvent} (h : Checked id principal log) (event : TuningEvent) :
    Checked id principal (event :: log) := by
  obtain ⟨proposal, policy, now, hmem, hrest⟩ := h
  exact ⟨proposal, policy, now, List.mem_cons_of_mem _ hmem, hrest⟩

theorem backed_cons {log : List TuningEvent} (h : flight.Backed log) (event : TuningEvent) : flight.Backed (event :: log) := by
  unfold Flight.Backed at h ⊢
  split
  · exact fun happroved => checked_cons (h happroved) event
  · exact ⟨h.1, checked_cons h.2 event⟩
  · obtain ⟨record, hrecord, happroves, hchecked⟩ := h
    exact ⟨record, List.mem_cons_of_mem _ hrecord, happroves, checked_cons hchecked event⟩
  · trivial

/-! ### Changes of the flights -/

theorem countP_cons_decides (flight : Flight) (rest : List Flight) (id : ℕ) :
    (flight :: rest).countP (·.decides id) = rest.countP (·.decides id) + if flight.decides id then 1 else 0 := List.countP_cons

theorem filterMap_exchange {β : Type} {f : Flight → Option β} {next : Flight} (h : f next = f flight ∨ f next = none) :
    ((next :: rest).filterMap f).Subperm ((flight :: rest).filterMap f) := by
  rw [List.filterMap_cons, List.filterMap_cons]
  rcases h with hsame | hnone
  · rw [hsame]
  · rw [hnone]
    cases f flight with
    | none => exact List.Subperm.refl _
    | some id => exact (List.sublist_cons_self _ _).subperm

theorem Valid.exchange (h : ({ l with flights := flight :: rest } : Ledger).Valid) (next : Flight)
    (hdraft : next.draft = flight.draft ∨ next.draft = none) (hgated : next.gated = flight.gated ∨ next.gated = none)
    (hdecides : ∀ id, next.decides id = true → flight.decides id = true) (hbacked : next.Backed l.log) :
    ({ l with flights := next :: rest } : Ledger).Valid := by
  refine h.mono (filterMap_exchange hdraft) (filterMap_exchange hgated) (fun id => ?_) ?_
  · dsimp only
    rw [countP_cons_decides, countP_cons_decides]
    have hnext := hdecides id
    split_ifs with hleft hright
    · exact le_rfl
    · exact absurd (hnext hleft) hright
    · exact Nat.add_le_add_left (Nat.zero_le 1) _
    · exact le_rfl
  · exact List.forall_mem_cons.mpr ⟨hbacked, fun other hother => h.backed other (List.mem_cons_of_mem _ hother)⟩

def Quiet (flight : Flight) : Prop := flight.draft = none ∧ flight.gated = none ∧ ∀ id, flight.decides id = false

theorem quiet_appending (record : TuningAuditAppend) : Quiet (.appending record .nothing) := ⟨rfl, rfl, fun _ => rfl⟩

theorem ids_cons (h : flight.draft = none) : ({ l with flights := flight :: rest } : Ledger).ids = ({ l with flights := rest } : Ledger).ids := by
  unfold Ledger.ids
  rw [List.filterMap_cons, h]

theorem gateIds_cons (h : flight.gated = none) :
    ({ l with flights := flight :: rest } : Ledger).gateIds = ({ l with flights := rest } : Ledger).gateIds := by
  unfold Ledger.gateIds
  rw [List.filterMap_cons, h]

theorem countP_cons_quiet (hdecides : ∀ id, flight.decides id = false) (id : ℕ) :
    (flight :: rest).countP (·.decides id) = rest.countP (·.decides id) := by
  rw [countP_cons_decides, hdecides]
  rfl

theorem Valid.push (h : l.Valid) (hquiet : Quiet flight) (hbacked : flight.Backed l.log) : ({ l with flights := flight :: l.flights } : Ledger).Valid := by
  obtain ⟨hdraft, hgated, hdecides⟩ := hquiet
  refine h.mono ?_ ?_ (fun id => (countP_cons_quiet hdecides id).le) (List.forall_mem_cons.mpr ⟨hbacked, h.backed⟩)
  · rw [List.filterMap_cons, hdraft]
  · rw [List.filterMap_cons, hgated]

theorem Valid.drop (h : ({ l with flights := flight :: rest } : Ledger).Valid) : ({ l with flights := rest } : Ledger).Valid :=
  have hrest := List.sublist_cons_self flight rest
  h.mono (hrest.filterMap _).subperm (hrest.filterMap _).subperm (fun _ => hrest.countP_le)
    fun other hother => h.backed other (List.mem_cons_of_mem _ hother)

/-! ### Events -/

theorem Valid.note (h : l.Valid) (event : TuningEvent) (hgated : Gated event l.log) (hquiet : ∀ id, Spent id (event :: l.log) → Spent id l.log) :
    ({ l with log := event :: l.log } : Ledger).Valid :=
  ⟨h.ids_nodup, h.ids_le, h.gateIds_nodup, h.gateIds_given, h.one, fun id hid => h.known id (hid.imp_right (hquiet id)),
    fun id hid => h.spent id (hquiet id hid),
    fun entry hentry gate hgate hid hpending => ⟨(h.undecided entry hentry gate hgate hid hpending).1,
      fun hspent => (h.undecided entry hentry gate hgate hid hpending).2 (hquiet _ hspent)⟩,
    fun flight hflight => backed_cons (h.backed flight hflight) event, ⟨hgated, h.logged⟩⟩

theorem Valid.spend (h : ({ l with flights := flight :: rest } : Ledger).Valid) (hdecides : flight.decides id = true) (event : TuningEvent)
    (hgated : Gated event l.log) (hspent : ∀ other, Spent other (event :: l.log) → Spent other l.log ∨ other = id) :
    ({ l with flights := rest, log := event :: l.log } : Ledger).Valid := by
  have hone : rest.countP (·.decides id) = 0 := by
    have hle := h.one id
    dsimp only at hle
    rw [countP_cons_decides, if_pos hdecides] at hle
    omega
  have hpos : 0 < (flight :: rest).countP (·.decides id) := by
    rw [countP_cons_decides, if_pos hdecides]
    omega
  have hrest := h.drop
  refine ⟨hrest.ids_nodup, hrest.ids_le, hrest.gateIds_nodup, hrest.gateIds_given, hrest.one, fun other hother => ?_, fun other hother => ?_,
    fun entry hentry gate hgate hid hpending => ⟨(hrest.undecided entry hentry gate hgate hid hpending).1, fun hother => ?_⟩,
    fun other hother => backed_cons (hrest.backed other hother) event, ⟨hgated, h.logged⟩⟩
  · rcases hother with hcount | hother
    · exact hrest.known other (.inl hcount)
    · rcases hspent other hother with hold | rfl
      · exact hrest.known other (.inr hold)
      · exact h.known other (.inl hpos)
  · rcases hspent other hother with hold | rfl
    · exact hrest.spent other hold
    · exact hone
  · rcases hspent entry.1 hother with hold | hsame
    · exact (hrest.undecided entry hentry gate hgate hid hpending).2 hold
    · have hzero := (h.undecided entry hentry gate hgate hid hpending).1
      rw [hsame] at hzero
      exact hpos.ne' hzero

/-! ### Proposals and gates -/

theorem Valid.draft (h : l.Valid) (hid : id = l.counter + 1) (hdraft : flight.draft = some id) (hgated : flight.gated = none)
    (hdecides : ∀ id, flight.decides id = false) (hbacked : flight.Backed l.log) :
    ({ l with flights := flight :: l.flights, counter := id } : Ledger).Valid := by
  have hids : ({ l with flights := flight :: l.flights, counter := id } : Ledger).ids.Perm (id :: l.ids) := by
    unfold Ledger.ids
    dsimp only
    rw [List.filterMap_cons, hdraft]
    exact List.perm_middle
  have hcount : ∀ other, (flight :: l.flights).countP (·.decides other) = l.flights.countP (·.decides other) := countP_cons_quiet hdecides
  refine ⟨hids.nodup_iff.mpr (List.nodup_cons.mpr ⟨fun hmem => ?_, h.ids_nodup⟩), fun other hother => ?_, (gateIds_cons hgated).symm ▸ h.gateIds_nodup,
    (gateIds_cons hgated).symm ▸ h.gateIds_given, fun other => (hcount other).trans_le (h.one other), fun other hother => h.known other ?_,
    fun other hother => (hcount other).trans (h.spent other hother), fun entry hentry gate hgate hsame hpending => ?_, fun other hother => ?_, h.logged⟩
  · have hle := h.ids_le id hmem
    omega
  · rcases List.mem_cons.mp (hids.mem_iff.mp hother) with rfl | hold
    · exact le_rfl
    · have hle := h.ids_le other hold
      show other ≤ id
      omega
  · rwa [hcount] at hother
  · dsimp only
    rw [hcount]
    exact h.undecided entry hentry gate hgate hsame hpending
  · rcases List.mem_cons.mp hother with rfl | hrest
    · exact hbacked
    · exact h.backed other hrest

theorem Valid.createGate {proposal : TuningProposal} (h : ({ l with flights := .appended true (.createGate proposal) :: rest } : Ledger).Valid)
    {uuid : Text} (hnew : uuid ∉ l.uuids) {gates : List GateInstance} (hgates : ∀ gate ∈ gates, gate ∈ l.gates ∨ gate.id = uuid) :
    ({ l with flights := .created { proposal with gateInstanceId := uuid } :: rest, gates, uuids := uuid :: l.uuids } : Ledger).Valid := by
  have hgateIds : ({ l with flights := .created { proposal with gateInstanceId := uuid } :: rest } : Ledger).gateIds.Perm
      (uuid :: ({ l with flights := .appended true (.createGate proposal) :: rest } : Ledger).gateIds) := List.perm_middle
  have hdecides : ∀ id, (Flight.created { proposal with gateInstanceId := uuid } :: rest).countP (·.decides id) =
      (Flight.appended true (.createGate proposal) :: rest).countP (·.decides id) := by
    intro id
    rw [countP_cons_decides, countP_cons_decides]
    rfl
  refine ⟨h.ids_nodup, h.ids_le, hgateIds.nodup_iff.mpr (List.nodup_cons.mpr ⟨fun hmem => hnew (h.gateIds_given uuid hmem), h.gateIds_nodup⟩),
    fun gateId hgateId => ?_, fun id => (hdecides id).trans_le (h.one id), fun id hid => h.known id ?_, fun id hid => (hdecides id).trans (h.spent id hid),
    fun entry hentry gate hgate hid hpending => ?_, fun other hother => ?_, h.logged⟩
  · rcases List.mem_cons.mp (hgateIds.mem_iff.mp hgateId) with rfl | hold
    · exact List.mem_cons_self
    · exact List.mem_cons_of_mem _ (h.gateIds_given gateId hold)
  · dsimp only at hid
    rwa [hdecides] at hid
  · dsimp only
    rw [hdecides]
    rcases hgates gate hgate with hold | hsame
    · exact h.undecided entry hentry gate hold hid hpending
    · -- the id of the new gate is that of no proposal
      refine absurd (h.gateIds_given entry.2 (List.mem_append_left _ (List.mem_map_of_mem hentry))) ?_
      rwa [← hid, hsame]
  · rcases List.mem_cons.mp hother with rfl | hrest
    · trivial
    · exact h.backed other (List.mem_cons_of_mem _ hrest)

theorem Valid.list {proposal : TuningProposal} (h : ({ l with flights := .created proposal :: rest } : Ledger).Valid) :
    ({ l with flights := rest, proposals := l.proposals ++ [(proposal.id, proposal.gateInstanceId)] } : Ledger).Valid := by
  have hids : ({ l with flights := rest, proposals := l.proposals ++ [(proposal.id, proposal.gateInstanceId)] } : Ledger).ids =
      ({ l with flights := .created proposal :: rest } : Ledger).ids := by
    unfold Ledger.ids
    dsimp only
    rw [List.map_append, List.append_assoc]
    rfl
  have hgateIds : ({ l with flights := rest, proposals := l.proposals ++ [(proposal.id, proposal.gateInstanceId)] } : Ledger).gateIds =
      ({ l with flights := .created proposal :: rest } : Ledger).gateIds := by
    unfold Ledger.gateIds
    dsimp only
    rw [List.map_append, List.append_assoc]
    rfl
  have hnew : proposal.id ∉ l.proposals.map (·.1) := by
    have hnodup := h.ids_nodup
    intro hmem
    exact (List.nodup_append.mp hnodup).2.2 _ hmem _ List.mem_cons_self rfl
  refine ⟨hids ▸ h.ids_nodup, hids ▸ h.ids_le, hgateIds ▸ h.gateIds_nodup, hgateIds ▸ h.gateIds_given, h.drop.one,
    fun id hid => ?_, h.drop.spent, fun entry hentry gate hgate hid hpending => ?_, h.drop.backed, h.logged⟩
  · rw [List.map_append]
    exact List.mem_append_left _ (h.drop.known id hid)
  · rcases List.mem_append.mp hentry with hold | hmem
    · exact h.drop.undecided entry hold gate hgate hid hpending
    · obtain rfl := List.mem_singleton.mp hmem
      refine ⟨?_, fun hspent => hnew (h.known _ (.inr hspent))⟩
      by_contra hpos
      exact hnew (h.drop.known _ (.inl (Nat.pos_of_ne_zero hpos)))

theorem Valid.submit (h : l.Valid) {entry : ℕ × Text} (hentry : entry ∈ l.proposals) {old new : GateInstance} (hold : old ∈ l.gates)
    (hid : old.id = entry.2) (hpending : old.state = .pending) (hnew : new.id = entry.2) (principal : Text)
    (hchecked : new.state = .approved → Checked entry.1 principal l.log) :
    ({ l with
      gates := l.gates.map fun gate => if gate.id = new.id then new else gate
      flights := .submitted entry.1 principal new :: l.flights } : Ledger).Valid := by
  obtain ⟨hzero, hunspent⟩ := h.undecided entry hentry old hold hid hpending
  have hcount : ∀ id, (Flight.submitted entry.1 principal new :: l.flights).countP (·.decides id) =
      l.flights.countP (·.decides id) + if entry.1 = id ∧ new.state ≠ .pending then 1 else 0 := by
    intro id
    rw [countP_cons_decides]
    simp [Flight.decides]
  have hnodup : (l.proposals.map (·.1)).Nodup ∧ (l.proposals.map (·.2)).Nodup :=
    ⟨(List.nodup_append.mp h.ids_nodup).1, (List.nodup_append.mp h.gateIds_nodup).1⟩
  have hdraft : (Flight.submitted entry.1 principal new).draft = none := rfl
  have hgated : (Flight.submitted entry.1 principal new).gated = none := rfl
  refine ⟨(ids_cons hdraft).symm ▸ h.ids_nodup, (ids_cons hdraft).symm ▸ h.ids_le, (gateIds_cons hgated).symm ▸ h.gateIds_nodup,
    (gateIds_cons hgated).symm ▸ h.gateIds_given, fun id => ?_, fun id hid => ?_, fun id hid => ?_, fun other hother gate hgate hsame hopen => ?_,
    fun flight hflight => ?_, h.logged⟩
  · dsimp only
    rw [hcount]
    split_ifs with hown
    · rw [← hown.1, hzero]
    · exact h.one id
  · dsimp only at hid
    rw [hcount] at hid
    split_ifs at hid with hown
    · rw [← hown.1]
      exact List.mem_map_of_mem hentry
    · exact h.known id hid
  · dsimp only
    rw [hcount, h.spent id hid, if_neg]
    rintro ⟨rfl, -⟩
    exact hunspent hid
  · dsimp only
    rw [hcount]
    obtain ⟨before, hbefore, rfl⟩ := List.mem_map.mp hgate
    split_ifs at hsame hopen with hown
    · -- the gate is that of the proposal that was decided
      obtain rfl : entry = other := List.inj_on_of_nodup_map hnodup.2 hentry hother (hnew.symm.trans hsame)
      rw [if_neg fun hboth => hboth.2 hopen]
      exact ⟨hzero, hunspent⟩
    · have hother' : entry.1 ≠ other.1 := by
        intro heq
        have hentry' : entry = other := List.inj_on_of_nodup_map hnodup.1 hentry hother heq
        exact hown (by rw [hsame, hnew, hentry'])
      rw [if_neg fun hboth => hother' hboth.1]
      exact h.undecided other hother before hbefore hsame hopen
  · rcases List.mem_cons.mp hflight with rfl | hrest
    · exact hchecked
    · exact h.backed flight hrest

end Ledger
namespace TuningService
variable {s : TuningService} {flight : Flight} {proposal : TuningProposal} {principal : Text} {id : ℕ} {now : ℤ}

/-! ### Parts of the calls -/

theorem ledger_modifyProposal (s : TuningService) (id : ℕ) (f : TuningProposal → TuningProposal) (hid : ∀ proposal, (f proposal).id = proposal.id)
    (hgate : ∀ proposal, (f proposal).gateInstanceId = proposal.gateInstanceId) : (s.modifyProposal id f).ledger = s.ledger := by
  have hsame : (s.proposals.map fun proposal => if proposal.id = id then f proposal else proposal).map
      (fun proposal => (proposal.id, proposal.gateInstanceId)) = s.proposals.map fun proposal => (proposal.id, proposal.gateInstanceId) := by
    rw [List.map_map]
    refine List.map_congr_left fun proposal _ => ?_
    simp only [Function.comp_apply]
    split_ifs
    · rw [hid, hgate]
    · rfl
  unfold modifyProposal ledger
  rw [hsame]

theorem ledger_close (s : TuningService) (id : ℕ) (status : TuningProposalStatus) (now : ℤ) :
    (s.close id status now).ledger = { s.ledger with log := .closed id status :: s.log } := by
  have hmodify := s.ledger_modifyProposal id (fun proposal => { proposal with status, resolvedAt := some now }) (fun _ => rfl) fun _ => rfl
  show ({ (s.modifyProposal id fun proposal => { proposal with status, resolvedAt := some now }).ledger with log := _ } : Ledger) = _
  rw [hmodify]
  rfl

theorem ledger_evictOldProposals (s : TuningService) : s.evictOldProposals.ledger = s.ledger := by
  unfold evictOldProposals
  split_ifs <;> rfl

variable {s' : TuningService} {policy : TuningApprovalPolicy}

theorem ledger_registerApprovalGate {approvers : List Text} (h : s.registerApprovalGate approvers = some s') :
    s'.ledger = s.ledger := by
  unfold registerApprovalGate at h
  split_ifs at h
  obtain rfl := Option.some.inj h
  rfl

theorem valid_take (h : ({ s.ledger with flights := flight :: s.flights } : Ledger).Valid) : (s.take flight).ledger.Valid :=
  h.perm (List.perm_append_singleton _ _)

theorem valid_tryAppend (h : s.ledger.Valid) (record : TuningAuditAppend) : (s.tryAppend record).ledger.Valid :=
  valid_take (h.push (Ledger.quiet_appending record) trivial)

theorem gated_of_ne {event : TuningEvent} {older : List TuningEvent} (h : ∀ id before gains envelope, event ≠ .wrote id before gains envelope) :
    Gated event older := fun id before gains envelope hevent => absurd hevent (h id before gains envelope)

theorem spent_closed {other : ℕ} {status : TuningProposalStatus} {log : List TuningEvent} (h : Spent other (.closed id status :: log)) :
    Spent other log ∨ other = id := by
  unfold Spent at h ⊢
  simp only [List.mem_cons, TuningEvent.closed.injEq, reduceCtorEq, false_or] at h
  rcases h with hwrote | (hnew | hrejected) | hnew | hfailed
  · exact .inl (.inl hwrote)
  · exact .inr hnew.1
  · exact .inl (.inr (.inl hrejected))
  · exact .inr hnew.1
  · exact .inl (.inr (.inr hfailed))

theorem valid_failProposal (h : ({ s.ledger with flights := flight :: s.flights } : Ledger).Valid) (hdecides : flight.decides proposal.id = true)
    (reasonCode : Text) (withinEnvelope : Bool) : (s.failProposal proposal principal reasonCode withinEnvelope now).ledger.Valid := by
  refine valid_tryAppend ?_ _
  rw [ledger_close]
  exact h.spend hdecides _ (gated_of_ne fun _ _ _ _ => by simp) fun _ => spent_closed

theorem valid_createGate (h : ({ s.ledger with flights := .appended true (.createGate proposal) :: s.flights } : Ledger).Valid) (now : ℤ) (uuid : Text) :
    (s.createGate proposal now uuid).ledger.Valid := by
  unfold createGate
  split_ifs with hgiven
  · exact h.drop
  · split
    · exact h.drop
    · rename_i gates hcreate
      refine valid_take ?_
      exact h.createGate hgiven fun gate hgate => GateManager.createInstance_mem hcreate hgate

theorem valid_list (h : ({ s.ledger with flights := .created proposal :: s.flights } : Ledger).Valid) : (s.list proposal).ledger.Valid := by
  unfold list
  rw [ledger_evictOldProposals]
  have hlist := h.list
  unfold ledger at hlist ⊢
  simpa using hlist

theorem valid_applyApproved (flight : Flight) (h : ({ s.ledger with flights := flight :: s.flights } : Ledger).Valid) (hdecides : ∀ id, flight.decides id = true ↔ proposal.id = id)
    (hchecked : Checked proposal.id principal s.log) : (s.applyApproved proposal principal now).ledger.Valid := by
  have hown : flight.decides proposal.id = true := (hdecides proposal.id).mpr rfl
  unfold applyApproved
  split
  · exact valid_failProposal h hown _ _
  · dsimp only
    split_ifs
    · exact valid_failProposal h hown _ _
    · refine valid_take (h.exchange _ (.inr rfl) (.inr rfl) (fun id hid => (hdecides id).mpr ?_) ⟨⟨rfl, rfl, rfl, rfl⟩, hchecked⟩)
      simpa [Flight.decides] using hid

theorem valid_decided {gate : GateInstance} (h : ({ s.ledger with flights := .submitted proposal.id principal gate :: s.flights } : Ledger).Valid) :
    (s.decided proposal principal gate now).ledger.Valid := by
  have hbacked := h.backed _ List.mem_cons_self
  unfold decided
  split
  · rename_i hrejected
    have hdecides : (Flight.submitted proposal.id principal gate).decides proposal.id = true := by simp [Flight.decides, hrejected]
    have hledger := (s.close proposal.id .rejected now).ledger_modifyProposal proposal.id (fun proposal => { proposal with decidedBy := some principal })
      (fun _ => rfl) fun _ => rfl
    refine valid_tryAppend ?_ _
    rw [hledger, ledger_close]
    exact h.spend hdecides _ (gated_of_ne fun _ _ _ _ => by simp) fun _ => spent_closed
  · rename_i happroved
    split_ifs
    · have hledger := s.ledger_modifyProposal proposal.id (fun proposal => { proposal with decidedBy := some principal }) (fun _ => rfl) fun _ => rfl
      refine valid_applyApproved (.submitted proposal.id principal gate) ?_ (fun id => ?_) (hbacked happroved)
      · rw [hledger]
        exact h
      · simp [Flight.decides, happroved]
    · exact h.drop
  · exact h.drop

theorem valid_applyGains {plan : GainPlan} {ok : Bool} (h : ({ s.ledger with flights := .appended ok (.applyGains plan) :: s.flights } : Ledger).Valid)
    (hproposal : proposal.id = plan.proposalId) : (s.applyGains plan proposal ok now).ledger.Valid := by
  have hdecides : (Flight.appended ok (.applyGains plan)).decides plan.proposalId = true := by simp [Flight.decides]
  unfold applyGains
  cases ok with
  | false =>
    rw [if_pos rfl]
    exact valid_failProposal h (hproposal ▸ hdecides) _ _
  | true =>
    rw [if_neg (by simp)]
    split
    · exact h.drop
    · rename_i controller hcontroller
      obtain ⟨record, hrecord, happroves, hchecked⟩ := h.backed _ List.mem_cons_self
      have hunspent : ¬ Spent plan.proposalId s.log := by
        intro hspent
        have hzero := h.spent plan.proposalId hspent
        dsimp only at hzero
        rw [Ledger.countP_cons_decides, if_pos hdecides] at hzero
        omega
      have hgated : ∀ before envelope, Gated (.wrote plan.proposalId before plan.planned envelope) s.log := by
        rintro before envelope id before' gains envelope' ⟨⟩
        exact ⟨⟨record, plan.principal, hrecord, happroves, hchecked⟩, hunspent⟩
      have hwrote : ∀ before envelope other, Spent other (.wrote plan.proposalId before plan.planned envelope :: s.log) →
          Spent other s.log ∨ other = plan.proposalId := by
        intro before envelope other hother
        unfold Spent at hother ⊢
        simp only [List.mem_cons, TuningEvent.wrote.injEq, reduceCtorEq, false_or] at hother
        rcases hother with ⟨before', gains, envelope', ⟨rfl, -⟩ | hwrote⟩ | hclosed
        · exact .inr rfl
        · exact .inl (.inl ⟨_, _, _, hwrote⟩)
        · exact .inl (.inr hclosed)
      have hspend := fun before envelope => h.spend hdecides _ (hgated before envelope) (hwrote before envelope)
      dsimp only
      by_cases happlied : (controller.applyGains plan.planned).2 = false
      · rw [if_pos happlied]
        refine valid_tryAppend ?_ _
        rw [ledger_close]
        refine (hspend controller.gains (s.getEnvelope plan.controllerId)).note _ (gated_of_ne fun _ _ _ _ => by simp) fun other hother => ?_
        rcases spent_closed hother with hbefore | rfl
        · exact hbefore
        · exact .inl ⟨controller.gains, plan.planned, s.getEnvelope plan.controllerId, by rw [hproposal]; exact List.mem_cons_self⟩
      · rw [if_neg happlied]
        refine valid_tryAppend ?_ _
        rw [ledger_modifyProposal]
        · exact hspend controller.gains (s.getEnvelope plan.controllerId)
        · exact fun _ => rfl
        · exact fun _ => rfl

/-! ### Calls -/

theorem valid_propose (h : s.ledger.Valid) {controllerId : Text} {method : ProposalMethod} {gains : PIDGains} :
    (s.propose controllerId method gains principal policy now).ledger.Valid := by
  unfold propose
  split
  · exact h
  · split
    · exact h
    · rename_i s' hregister
      have h' : s'.ledger.Valid := (ledger_registerApprovalGate hregister).symm ▸ h
      dsimp only
      split_ifs
      · exact valid_take (h'.draft rfl rfl rfl (fun _ => rfl) trivial)
      · refine valid_tryAppend ?_ _
        exact ⟨h'.ids_nodup, fun id hid => (h'.ids_le id hid).trans (Nat.le_succ _), h'.gateIds_nodup, h'.gateIds_given, h'.one, h'.known, h'.spent,
          h'.undecided, h'.backed, h'.logged⟩

theorem getProposal_mem (h : s.getProposal id = some proposal) : proposal ∈ s.proposals ∧ proposal.id = id := by
  unfold getProposal at h
  split_ifs at h
  exact ⟨List.mem_of_find?_eq_some h, by simpa using List.find?_some h⟩

theorem denial_none (h : denial policy principal .approve proposal = none) :
    principal ∈ policy.approvers ∧ principal ≠ proposal.proposedBy ∧ policy.applyEnabled = true := by
  unfold denial denyApprovalReason at h
  dsimp only at h
  split_ifs at h with hempty hlisted hsame henabled
  exact ⟨hlisted, hsame, by simpa using henabled⟩

theorem valid_decide (h : s.ledger.Valid) {action : GateAction} {comment : Option Text} :
    (s.decide id principal action comment policy now).ledger.Valid := by
  unfold decide
  split
  · exact h
  · rename_i proposal hproposal
    obtain ⟨hmem, -⟩ := getProposal_mem hproposal
    by_cases hstatus : proposal.status ≠ .pending
    · rw [if_pos hstatus]
      exact h
    rw [if_neg hstatus]
    by_cases hexpired : proposal.expiresAt < now
    · rw [if_pos hexpired]
      refine valid_tryAppend ?_ _
      rw [ledger_close]
      refine h.note _ (gated_of_ne fun _ _ _ _ => by simp) fun other hother => ?_
      unfold Spent at hother ⊢
      simpa using hother
    · rw [if_neg hexpired]
      split
      · exact valid_tryAppend h _
      · rename_i hdenial
        dsimp only
        -- an approval is checked before it is given to the gate
        have hchecked : ∃ log, (if action = .approve then s.note (.checked proposal principal policy now) else s).ledger = { s.ledger with log } ∧
            ({ s.ledger with log } : Ledger).Valid ∧ (action = .approve → Checked proposal.id principal log) := by
          split_ifs with haction
          · subst haction
            obtain ⟨hlisted, hother, henabled⟩ := denial_none hdenial
            refine ⟨_, rfl, h.note _ (gated_of_ne fun _ _ _ _ => by simp) fun other hother => ?_, fun _ =>
              ⟨proposal, policy, now, List.mem_cons_self, rfl, hlisted, hother, henabled, not_lt.mp hexpired⟩⟩
            unfold Spent at hother ⊢
            simpa using hother
          · exact ⟨s.log, rfl, h, fun hsame => absurd hsame haction⟩
        obtain ⟨log, hledger, hvalid, happroval⟩ := hchecked
        generalize (if action = .approve then s.note (.checked proposal principal policy now) else s) = s₁ at hledger ⊢
        have h₁ : s₁.ledger.Valid := hledger.symm ▸ hvalid
        split
        · exact h₁
        · rename_i s₂ hregister
          have hledger₂ : s₂.ledger = { s.ledger with log } := (ledger_registerApprovalGate hregister).trans hledger
          have h₂ : s₂.ledger.Valid := hledger₂.symm ▸ hvalid
          split
          · exact h₂
          · rename_i gates gate hsubmit
            obtain ⟨old, hold, hid, hpending, hnew, hgates⟩ := GateManager.submitDecision_ok hsubmit
            have hentry : (proposal.id, proposal.gateInstanceId) ∈ s₂.ledger.proposals := by
              rw [hledger₂]
              exact List.mem_map_of_mem hmem
            have hlog : s₂.ledger.log = log := by rw [hledger₂]
            refine valid_take ?_
            have hsubmitted := h₂.submit hentry hold hid hpending hnew principal fun happroved => ?_
            · have hsame : ({ s₂ with gates } : TuningService).ledger = { s₂.ledger with gates := (s₂.gates.putInstance gate).instances } := by
                rw [← hgates]
                rfl
              rw [hsame]
              exact hsubmitted
            · cases action with
              | approve =>
                rw [hlog]
                exact happroval rfl
              | reject =>
                rw [GateManager.submitDecision_reject hsubmit] at happroved
                cases happroved

theorem valid_settle (h : s.ledger.Valid) (index : ℕ) (ok : Bool) : (s.settle index ok).ledger.Valid := by
  unfold settle
  split
  · rename_i record next hflight
    obtain ⟨hlt, hget⟩ := List.getElem?_eq_some_iff.mp hflight
    have hbefore : (Flight.appending record next :: s.flights.eraseIdx index).Perm s.flights := hget ▸ List.getElem_cons_eraseIdx_perm hlt
    have hafter : (s.flights.set index (.appended ok next)).Perm (.appended ok next :: s.flights.eraseIdx index) := List.set_perm_cons_eraseIdx hlt _
    have hopen := h.perm hbefore
    have hbacked := hopen.backed _ List.mem_cons_self
    have hquiet : ∀ other, Spent other (.appended record :: s.log) → Spent other s.log := by
      intro other hother
      unfold Spent at hother ⊢
      simpa using hother
    dsimp only
    split_ifs with hok
    · subst hok
      have hnoted := hopen.note (.appended record) (gated_of_ne fun _ _ _ _ => by simp) hquiet
      refine (Ledger.Valid.exchange (l := { s.ledger with log := .appended record :: s.log }) hnoted (.appended true next) ?_ (.inl rfl) (fun id hid => ?_) ?_).perm hafter
      · cases next <;> exact .inl rfl
      · cases next <;> exact hid
      · cases next with
        | nothing | createGate => trivial
        | applyGains plan => exact ⟨record, List.mem_cons_self, hbacked.1, Ledger.checked_cons hbacked.2 _⟩
    · have hfalse : ok = false := by simpa using hok
      subst hfalse
      refine (hopen.exchange (.appended false next) ?_ (.inl rfl) (fun id hid => ?_) ?_).perm hafter
      · cases next <;> exact .inl rfl
      · cases next <;> exact hid
      · cases next <;> trivial
  · exact h

theorem valid_resume (h : s.ledger.Valid) (index : ℕ) (now : ℤ) (uuid : Text) : (s.resume index now uuid).ledger.Valid := by
  have hopen : ∀ flight, s.flights[index]? = some flight →
      ({ ({ s with flights := s.flights.eraseIdx index } : TuningService).ledger with flights := flight :: s.flights.eraseIdx index } : Ledger).Valid := by
    intro flight hflight
    obtain ⟨hlt, hget⟩ := List.getElem?_eq_some_iff.mp hflight
    exact h.perm (hget ▸ List.getElem_cons_eraseIdx_perm hlt)
  unfold resume
  dsimp only
  split
  · rename_i ok hflight
    exact (hopen _ hflight).drop
  · rename_i ok proposal hflight
    split_ifs with hok
    · subst hok
      exact valid_createGate (hopen _ hflight) now uuid
    · exact (hopen _ hflight).drop
  · rename_i proposal hflight
    exact valid_list (hopen _ hflight)
  · rename_i proposalId principal gate hflight
    split
    · rename_i proposal hproposal
      have hid : proposal.id = proposalId := by simpa using List.find?_some hproposal
      subst hid
      exact valid_decided (hopen _ hflight)
    · exact (hopen _ hflight).drop
  · rename_i ok plan hflight
    split
    · rename_i proposal hproposal
      exact valid_applyGains (hopen _ hflight) (by simpa using List.find?_some hproposal)
    · exact (hopen _ hflight).drop
  · exact h

theorem valid_step (h : s.ledger.Valid) (call : TuningCall) : (s.step call).ledger.Valid := by
  cases call with
  | registerLoop id config envelope now =>
    unfold step registerLoop
    dsimp only
    split_ifs <;> exact h
  | setEnvelope id envelope =>
    unfold step setEnvelope
    dsimp only
    split_ifs
    · exact h
    · split <;> exact h
  | propose controllerId method gains principal policy now => exact valid_propose h
  | decide proposalId principal action comment policy now => exact valid_decide h
  | settle index ok => exact valid_settle h index ok
  | resume index now uuid => exact valid_resume h index now uuid

/-! ### Expired proposals -/

structure Punctual (s : TuningService) : Prop where
  flights : ∀ id, .closed id .expired ∈ s.log → ∀ flight ∈ s.flights, flight.approves id = false
  known : ∀ id, .closed id .expired ∈ s.log → id ∈ s.proposals.map (·.id)
  status : ∀ proposal ∈ s.proposals, .closed proposal.id .expired ∈ s.log → proposal.status ≠ .pending
  logged : EachLogged InTime s.log

/-- A proposal may get an approval: it has one, it is pending, or it is not there yet. -/
def Approvable (s : TuningService) (id : ℕ) : Prop :=
  (∃ flight ∈ s.flights, flight.approves id = true) ∨ (∃ proposal ∈ s.proposals, proposal.id = id ∧ proposal.status = .pending) ∨
    id ∉ s.proposals.map (·.id)

/-- What comes after `s₀` in a call that writes no gains and lets no proposal expire. -/
structure Calm (s₀ s : TuningService) : Prop where
  log : ∃ events, s.log = events ++ s₀.log ∧ ∀ event ∈ events, (∀ id, event ≠ .closed id .expired) ∧
    ∀ id before gains envelope, event ≠ .wrote id before gains envelope
  flights : ∀ flight ∈ s.flights, ∀ id, flight.approves id = true → s₀.Approvable id
  proposals : ∀ proposal ∈ s.proposals, proposal.id ∉ s₀.proposals.map (·.id) ∨ proposal.status ≠ .pending ∨
    ∃ old ∈ s₀.proposals, old.id = proposal.id ∧ old.status = .pending
  ids : ∀ proposal ∈ s₀.proposals, proposal.id ∈ s.proposals.map (·.id)

variable {s₀ : TuningService}

theorem calm_refl (s : TuningService) : Calm s s where
  log := ⟨[], rfl, by simp⟩
  flights flight hflight id happroves := .inl ⟨flight, hflight, happroves⟩
  proposals proposal hproposal := by
    by_cases hpending : proposal.status = .pending
    · exact .inr (.inr ⟨proposal, hproposal, rfl, hpending⟩)
    · exact .inr (.inl hpending)
  ids proposal hproposal := List.mem_map_of_mem hproposal

theorem Punctual.calm (h : s₀.Punctual) (hcalm : Calm s₀ s) : s.Punctual := by
  obtain ⟨events, hlog, hevents⟩ := hcalm.log
  have hexpired : ∀ id, .closed id .expired ∈ s.log → .closed id .expired ∈ s₀.log := by
    intro id hmem
    rw [hlog] at hmem
    exact (List.mem_append.mp hmem).resolve_left fun hnew => (hevents _ hnew).1 id rfl
  refine ⟨fun id hid flight hflight => ?_, fun id hid => ?_, fun proposal hproposal hid hpending => ?_, ?_⟩
  · by_contra happroves
    rcases hcalm.flights flight hflight id (by simpa using happroves) with ⟨old, hold, happroves⟩ | ⟨proposal, hproposal, rfl, hpending⟩ | hnew
    · rw [h.flights id (hexpired id hid) old hold] at happroves
      cases happroves
    · exact h.status proposal hproposal (hexpired _ hid) hpending
    · exact hnew (h.known id (hexpired id hid))
  · obtain ⟨proposal, hproposal, rfl⟩ := List.mem_map.mp (h.known id (hexpired id hid))
    exact hcalm.ids proposal hproposal
  · rcases hcalm.proposals proposal hproposal with hnew | hclosed | ⟨old, hold, hsame, hopen⟩
    · exact hnew (h.known _ (hexpired _ hid))
    · exact hclosed hpending
    · exact h.status old hold (hsame ▸ hexpired _ hid) hopen
  · rw [hlog]
    clear hlog hexpired
    induction events with
    | nil => exact h.logged
    | cons event events ih =>
      refine ⟨fun id before gains envelope hevent => absurd hevent ((hevents event List.mem_cons_self).2 id before gains envelope), ?_⟩
      exact ih fun other hother => hevents other (List.mem_cons_of_mem _ hother)

section
variable (h : Calm s₀ s)
include h

theorem Calm.take (happroves : ∀ id, flight.approves id = true → s₀.Approvable id) : Calm s₀ (s.take flight) := by
  refine ⟨h.log, fun other hother => ?_, h.proposals, h.ids⟩
  rcases List.mem_append.mp hother with hold | hmem
  · exact h.flights other hold
  · obtain rfl := List.mem_singleton.mp hmem
    exact happroves

theorem Calm.tryAppend (record : TuningAuditAppend) : Calm s₀ (s.tryAppend record) :=
  h.take fun id happroves => by cases happroves

theorem Calm.note {event : TuningEvent} (hexpired : ∀ id, event ≠ .closed id .expired)
    (hwrote : ∀ id before gains envelope, event ≠ .wrote id before gains envelope) : Calm s₀ (s.note event) := by
  obtain ⟨events, hlog, hevents⟩ := h.log
  refine ⟨⟨event :: events, congrArg (event :: ·) hlog, fun other hother => ?_⟩, h.flights, h.proposals, h.ids⟩
  rcases List.mem_cons.mp hother with rfl | hold
  · exact ⟨hexpired, hwrote⟩
  · exact hevents other hold

theorem Calm.modifyProposal (id : ℕ) {f : TuningProposal → TuningProposal} (hid : ∀ proposal, (f proposal).id = proposal.id)
    (hstatus : ∀ proposal, (f proposal).status = .pending → proposal.status = .pending) : Calm s₀ (s.modifyProposal id f) := by
  refine ⟨h.log, h.flights, fun proposal hproposal => ?_, fun proposal hproposal => ?_⟩
  · obtain ⟨old, hold, rfl⟩ := List.mem_map.mp hproposal
    split_ifs
    · rw [hid]
      exact (h.proposals old hold).imp_right fun hrest => hrest.imp_left fun hclosed hpending => hclosed (hstatus old hpending)
    · exact h.proposals old hold
  · obtain ⟨old, hold, hsame⟩ := List.mem_map.mp (h.ids proposal hproposal)
    refine List.mem_map.mpr ⟨_, List.mem_map_of_mem hold, ?_⟩
    split_ifs
    · rw [hid, hsame]
    · exact hsame

theorem Calm.close (id : ℕ) {status : TuningProposalStatus} (hpending : status ≠ .pending) (hexpired : status ≠ .expired) (now : ℤ) :
    Calm s₀ (s.close id status now) := by
  refine (h.modifyProposal id ?_ fun proposal hsame => absurd hsame hpending).note (fun other hsame => ?_) fun _ _ _ _ hsame => by cases hsame
  · exact fun _ => rfl
  · cases hsame
    exact hexpired rfl

theorem Calm.failProposal (reasonCode : Text) (withinEnvelope : Bool) :
    Calm s₀ (s.failProposal proposal principal reasonCode withinEnvelope now) := (h.close _ (by simp) (by simp) _).tryAppend _

theorem Calm.of_eq (hlog : s'.log = s.log) (hflights : s'.flights = s.flights) (hproposals : s'.proposals = s.proposals) :
    Calm s₀ s' :=
  ⟨hlog ▸ h.log, hflights ▸ h.flights, hproposals ▸ h.proposals, hproposals ▸ h.ids⟩

end

theorem Calm.land (s : TuningService) (index : ℕ) : Calm s { s with flights := s.flights.eraseIdx index } :=
  ⟨⟨[], rfl, by simp⟩, fun flight hflight id happroves => .inl ⟨flight, (List.eraseIdx_sublist _ _).subset hflight, happroves⟩,
    (calm_refl s).proposals, (calm_refl s).ids⟩

theorem Calm.evictOldProposals (h : Calm s₀ s) : Calm s₀ s.evictOldProposals := by
  unfold TuningService.evictOldProposals
  split_ifs
  · exact h
  · exact h.of_eq rfl rfl rfl

theorem registerApprovalGate_eq {approvers : List Text} (h : s.registerApprovalGate approvers = some s') :
    s'.log = s.log ∧ s'.flights = s.flights ∧ s'.proposals = s.proposals := by
  unfold registerApprovalGate at h
  split_ifs at h
  obtain rfl := Option.some.inj h
  exact ⟨rfl, rfl, rfl⟩

theorem calm_propose {controllerId : Text} {method : ProposalMethod} {gains : PIDGains} :
    Calm s (s.propose controllerId method gains principal policy now) := by
  unfold propose
  split
  · exact calm_refl s
  · split
    · exact calm_refl s
    · rename_i s' hregister
      obtain ⟨hlog, hflights, hproposals⟩ := registerApprovalGate_eq hregister
      have hcalm : Calm s { s' with proposalCounter := s'.proposalCounter + 1 } := (calm_refl s).of_eq hlog hflights hproposals
      dsimp only
      split_ifs
      · refine hcalm.take fun id happroves => ?_
        cases happroves
      · exact hcalm.tryAppend _

theorem calm_settle (index : ℕ) (ok : Bool) : Calm s (s.settle index ok) := by
  unfold settle
  split
  · rename_i record next hflight
    have hcalm : Calm s { s with flights := s.flights.set index (.appended ok next) } := by
      refine ⟨⟨[], rfl, by simp⟩, fun flight hmem id happroves => .inl ?_, (calm_refl s).proposals, (calm_refl s).ids⟩
      rcases List.mem_or_eq_of_mem_set hmem with hold | rfl
      · exact ⟨flight, hold, happroves⟩
      · refine ⟨_, List.mem_of_getElem? hflight, ?_⟩
        cases next <;> exact happroves
    dsimp only
    split_ifs
    · exact hcalm.note (fun _ hsame => by cases hsame) fun _ _ _ _ hsame => by cases hsame
    · exact hcalm
  · exact calm_refl s

theorem Calm.applyApproved (h : Calm s₀ s) (happrovable : s₀.Approvable proposal.id) : Calm s₀ (s.applyApproved proposal principal now) := by
  unfold TuningService.applyApproved
  split
  · exact h.failProposal _ _
  · dsimp only
    split_ifs
    · exact h.failProposal _ _
    · refine h.take fun id happroves => ?_
      obtain rfl : proposal.id = id := by simpa [Flight.approves] using happroves
      exact happrovable

theorem Calm.decided (h : Calm s₀ s) {gate : GateInstance} (hflight : .submitted proposal.id principal gate ∈ s₀.flights) :
    Calm s₀ (s.decided proposal principal gate now) := by
  unfold TuningService.decided
  split
  · have hclosed : Calm s₀ (s.close proposal.id .rejected now) := h.close _ (by simp) (by simp) _
    refine (hclosed.modifyProposal _ ?_ ?_).tryAppend _
    · exact fun _ => rfl
    · exact fun _ hsame => hsame
  · rename_i happroved
    split_ifs
    · have happrovable : s₀.Approvable proposal.id := .inl ⟨_, hflight, by simp [Flight.approves, happroved]⟩
      refine (h.modifyProposal _ ?_ ?_).applyApproved happrovable
      · exact fun _ => rfl
      · exact fun _ hsame => hsame
    · exact h
  · exact h

theorem calm_decide (hexpired : ∀ proposal, s.getProposal id = some proposal → proposal.status = .pending → ¬ proposal.expiresAt < now)
    {action : GateAction} {comment : Option Text} : Calm s (s.decide id principal action comment policy now) := by
  unfold TuningService.decide
  split
  · exact calm_refl s
  · rename_i proposal hproposal
    obtain ⟨hmem, -⟩ := getProposal_mem hproposal
    by_cases hstatus : proposal.status ≠ .pending
    · rw [if_pos hstatus]
      exact calm_refl s
    have hpending : proposal.status = .pending := not_not.mp hstatus
    rw [if_neg hstatus, if_neg (hexpired proposal hproposal hpending)]
    split
    · exact (calm_refl s).tryAppend _
    · dsimp only
      have hchecked : Calm s (if action = .approve then s.note (.checked proposal principal policy now) else s) := by
        split_ifs
        · exact (calm_refl s).note (fun _ hsame => by cases hsame) fun _ _ _ _ hsame => by cases hsame
        · exact calm_refl s
      split
      · exact hchecked
      · rename_i s' hregister
        obtain ⟨hlog, hflights, hproposals⟩ := registerApprovalGate_eq hregister
        have hregistered := hchecked.of_eq hlog hflights hproposals
        split
        · exact hregistered
        · rename_i gates gate hsubmit
          have hgates : Calm s { s' with gates } := hregistered.of_eq rfl rfl rfl
          refine hgates.take fun id happroves => .inr (.inl ⟨proposal, hmem, ?_, hpending⟩)
          have hboth : proposal.id = id ∧ gate.state = .approved := by simpa [Flight.approves] using happroves
          exact hboth.1

theorem Punctual.applyGains (h : s.Punctual) {plan : GainPlan} {ok : Bool} (hintime : .closed plan.proposalId .expired ∉ s.log) :
    (s.applyGains plan proposal ok now).Punctual := by
  unfold TuningService.applyGains
  by_cases hok : ok = false
  · rw [if_pos hok]
    exact h.calm ((calm_refl _).failProposal _ _)
  rw [if_neg hok]
  split
  · exact h
  · rename_i controller hcontroller
    have hwrote : (s.note (.wrote plan.proposalId controller.gains plan.planned (s.getEnvelope plan.controllerId))).Punctual := by
      refine ⟨fun id hid => h.flights id (by simpa [TuningService.note] using hid), fun id hid => h.known id (by simpa [TuningService.note] using hid),
        fun proposal hproposal hid => h.status proposal hproposal (by simpa [TuningService.note] using hid), ?_⟩
      have hlogged : InTime (.wrote plan.proposalId controller.gains plan.planned (s.getEnvelope plan.controllerId)) s.log := by
        rintro id before gains envelope ⟨⟩
        exact hintime
      exact ⟨hlogged, h.logged⟩
    dsimp only
    generalize s.note (.wrote plan.proposalId controller.gains plan.planned (s.getEnvelope plan.controllerId)) = written at hwrote ⊢
    by_cases happlied : (controller.applyGains plan.planned).2 = false
    · rw [if_pos happlied]
      exact hwrote.calm ((calm_refl _).failProposal _ _)
    · rw [if_neg happlied]
      have hcontrollers : Calm written { written with
          controllers := Function.update written.controllers plan.controllerId (some (controller.applyGains plan.planned).1) } :=
        (calm_refl written).of_eq rfl rfl rfl
      refine hwrote.calm ((hcontrollers.modifyProposal _ ?_ ?_).tryAppend _)
      · exact fun _ => rfl
      · intro proposal hsame
        cases hsame

theorem punctual_resume (h : s.Punctual) (hvalid : s.ledger.Valid) (index : ℕ) (now : ℤ) (uuid : Text) : (s.resume index now uuid).Punctual := by
  have hland := Calm.land s index
  unfold resume
  dsimp only
  split
  · exact h.calm hland
  · rename_i ok proposal hflight
    split_ifs
    · unfold createGate
      split_ifs
      · exact h.calm hland
      · split
        · exact h.calm hland
        · refine h.calm ((hland.of_eq ?_ ?_ ?_).take fun id happroves => ?_)
          · rfl
          · rfl
          · rfl
          · cases happroves
    · exact h.calm hland
  · rename_i proposal hflight
    unfold list
    refine h.calm (Calm.evictOldProposals ⟨hland.log, hland.flights, fun other hother => ?_, fun other hother => ?_⟩)
    · rcases List.mem_append.mp hother with hold | hmem
      · exact hland.proposals other hold
      · obtain rfl := List.mem_singleton.mp hmem
        -- the number of the new proposal is that of no other one
        refine .inl fun hsame => ?_
        have hsame' : other.id ∈ s.ledger.proposals.map (·.1) := by
          unfold ledger
          rw [List.map_map]
          exact hsame
        have hdraft : other.id ∈ s.ledger.flights.filterMap Flight.draft :=
          List.mem_filterMap.mpr ⟨_, List.mem_of_getElem? hflight, rfl⟩
        exact (List.nodup_append.mp hvalid.ids_nodup).2.2 _ hsame' _ hdraft rfl
    · rw [List.map_append]
      exact List.mem_append_left _ (List.mem_map_of_mem hother)
  · rename_i proposalId principal gate hflight
    split
    · rename_i proposal hproposal
      have hid : proposal.id = proposalId := by simpa using List.find?_some hproposal
      subst hid
      exact h.calm (hland.decided (List.mem_of_getElem? hflight))
    · exact h.calm hland
  · rename_i ok plan hflight
    split
    · refine (h.calm hland).applyGains fun hexpired => ?_
      have hnone := h.flights _ hexpired _ (List.mem_of_getElem? hflight)
      simp [Flight.approves] at hnone
    · exact h.calm hland
  · exact h

theorem punctual_expire (h : s.Punctual) (hproposal : s.getProposal id = some proposal)
    (hunraced : ∀ flight ∈ s.flights, flight.approves id = false) (record : TuningAuditAppend) :
    ((s.close proposal.id .expired now).tryAppend record).Punctual := by
  obtain ⟨hmem, rfl⟩ := getProposal_mem hproposal
  have hids : (s.close proposal.id .expired now).proposals.map (·.id) = s.proposals.map (·.id) := by
    unfold close modifyProposal note
    dsimp only
    rw [List.map_map]
    refine List.map_congr_left fun other _ => ?_
    simp only [Function.comp_apply]
    split_ifs <;> rfl
  have hexpired : ∀ id, TuningEvent.closed id .expired ∈ (s.close proposal.id .expired now).log → id = proposal.id ∨ .closed id .expired ∈ s.log := by
    intro id hid
    simpa [close, note, modifyProposal] using hid
  have hlogged : EachLogged InTime (s.close proposal.id .expired now).log := by
    refine ⟨?_, h.logged⟩
    rintro _ _ _ _ ⟨⟩
  refine Punctual.calm ⟨fun id hid flight hflight => ?_, fun id hid => ?_, fun other hother hid => ?_, hlogged⟩ ((calm_refl _).tryAppend record)
  · rcases hexpired id hid with rfl | hold
    · exact hunraced flight hflight
    · exact h.flights id hold flight hflight
  · rw [hids]
    rcases hexpired id hid with rfl | hold
    · exact List.mem_map_of_mem hmem
    · exact h.known id hold
  · obtain ⟨old, hold, rfl⟩ := List.mem_map.mp hother
    split_ifs at hid ⊢ with hsame
    · simp
    · rcases hexpired old.id hid with heq | hbefore
      · exact absurd heq hsame
      · exact h.status old hold hbefore

theorem punctual_step {call : TuningCall} (h : s.Punctual) (hvalid : s.ledger.Valid) (hunraced : s.Unraced call) : (s.step call).Punctual := by
  cases call with
  | registerLoop id config envelope now =>
    unfold step registerLoop
    dsimp only
    split_ifs
    · exact h
    · exact h.calm ((calm_refl s).of_eq rfl rfl rfl)
  | setEnvelope id envelope =>
    unfold step setEnvelope
    dsimp only
    split_ifs
    · exact h
    · split
      · exact h.calm ((calm_refl s).of_eq rfl rfl rfl)
      · exact h
  | propose controllerId method gains principal policy now => exact h.calm calm_propose
  | decide proposalId principal action comment policy now =>
    by_cases hexpires : ∃ proposal, s.getProposal proposalId = some proposal ∧ proposal.status = .pending ∧ proposal.expiresAt < now
    · obtain ⟨proposal, hproposal, hpending, hexpired⟩ := hexpires
      unfold step decide
      simp only [hproposal, hpending, hexpired, ne_eq, not_true_eq_false, if_false, if_true]
      exact punctual_expire h hproposal (hunraced proposal hproposal hpending hexpired) _
    · exact h.calm (calm_decide fun proposal hproposal hpending hexpired => hexpires ⟨proposal, hproposal, hpending, hexpired⟩)
  | settle index ok => exact h.calm (calm_settle index ok)
  | resume index now uuid => exact punctual_resume h hvalid index now uuid

theorem punctual_empty : ({} : TuningService).Punctual := by
  constructor <;> simp [EachLogged]

/-- In every run a write of gains comes after the durable approval of these gains by a principal who has passed the
policy, and after no other write, rejection or failure of the proposal. If no decide call meets an expired proposal
that an approval is under way for, it does not come after the proposal has expired either. -/
theorem writes_gated (calls : List TuningCall) :
    EachLogged Gated (calls.foldl step {}).log ∧ (Throughout step Unraced {} calls → EachLogged InTime (calls.foldl step {}).log) := by
  have hvalid := foldl_invariant (I := fun s : TuningService => s.ledger.Valid) (fun s call h => valid_step h call) Ledger.valid_empty calls
  refine ⟨hvalid.logged, fun hunraced => ?_⟩
  have hboth := Throughout.invariant (I := fun s : TuningService => s.ledger.Valid ∧ s.Punctual)
    (fun s call h hquiet => ⟨valid_step h.1 call, punctual_step h.2 h.1 hquiet⟩) ⟨Ledger.valid_empty, punctual_empty⟩ hunraced
  exact hboth.2.logged

/-! ### An approval that is late -/

def loopConfig : PIDControllerConfig := { gains := ⟨1, 1, 0⟩, setpoint := 10, outputMin := 0, outputMax := 10 }

def twoApprovers : TuningApprovalPolicy := { approvers := [['a'], ['b']], applyEnabled := true, proposalTtlMs := 60000 }

/-- A proposal is made and listed at time 0, and is approved as it may still be. -/
def approvedInTime : List TuningCall :=
  [.registerLoop ['l'] loopConfig none 0, .propose ['l'] .rl ⟨11 / 10, 1, 0⟩ ['p'] twoApprovers 0, .settle 0 true, .resume 0 0 ['g'], .resume 0 0 [],
    .decide 1 ['a'] .approve none twoApprovers 60000, .resume 0 60000 []]

def writtenAlone : List TuningCall := approvedInTime ++ [.settle 0 true, .resume 0 60002 []]

/-- The gains are written after the proposal would have expired. -/
theorem writtenAlone_gated : (writtenAlone.foldl step {}).log.head? = some (.wrote 1 ⟨1, 1, 0⟩ ⟨11 / 10, 1, 0⟩ defaultEnvelope) ∧
    EachLogged InTime (writtenAlone.foldl step {}).log := by
  refine ⟨by decide +kernel, (writes_gated writtenAlone).2 ⟨trivial, trivial, trivial, trivial, trivial, ?_, trivial, trivial, trivial, trivial⟩⟩
  intro proposal hproposal _ hexpired
  have hproposals : ∀ proposal ∈ ((approvedInTime.take 5).foldl step {}).getProposal 1, 60000 ≤ proposal.expiresAt := by decide +kernel
  exact absurd hexpired (not_lt.mpr (hproposals proposal hproposal))

/-- While the approval waits for the audit store, another approver finds the proposal expired. -/
def approvedLate : List TuningCall :=
  approvedInTime ++ [.decide 1 ['b'] .approve none twoApprovers 60001, .settle 0 true, .resume 0 60002 []]

theorem expired_written : ¬ EachLogged InTime (approvedLate.foldl step {}).log := by
  have hlog : (approvedLate.foldl step {}).log.head? = some (.wrote 1 ⟨1, 1, 0⟩ ⟨11 / 10, 1, 0⟩ defaultEnvelope) ∧
      .closed 1 .expired ∈ (approvedLate.foldl step {}).log.tail := by decide +kernel
  revert hlog
  cases (approvedLate.foldl step {}).log with
  | nil => exact fun hlog => absurd hlog.1 (by simp)
  | cons event older =>
    rintro ⟨hevent, hexpired⟩ ⟨hintime, -⟩
    exact hintime 1 _ _ _ (Option.some.inj hevent) hexpired

end TuningService
end OxScada.Tuning
