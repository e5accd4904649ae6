import Mathlib.Algebra.BigOperators.Group.Finset.Piecewise
import OxScada.Contracts.BountyPayment

/-! What the contract has paid is what its records say, whatever is called while foreign code
runs: a bounty is marked as paid and recorded before the first transfer, and the guard lets no
second payment in. -/

namespace OxScada.Contracts
open OxScada.Bytes OxScada.Runs

/-! ### What a call can do -/

theorem require_ok {condition : Prop} [Decidable condition] {text : String} : require condition text = .ok () ↔ condition := by
  unfold require
  split_ifs with h
  · exact ⟨fun _ => h, fun _ => rfl⟩
  · exact ⟨fun herror => (by cases herror), fun hcondition => absurd hcondition h⟩

theorem checkedAdd_ok {a b c : ℕ} (h : checkedAdd a b = .ok c) : c = a + b := by
  unfold checkedAdd at h
  split_ifs at h
  exact (Except.ok.inj h).symm

theorem sumAmounts_ok {total total' : ℕ} {amounts : List ℕ} (h : Storage.sumAmounts total amounts = .ok total') :
    total' = total + amounts.sum := by
  induction amounts generalizing total with
  | nil =>
    rw [List.sum_nil, add_zero]
    exact (Except.ok.inj h).symm
  | cons amount rest ih =>
    obtain ⟨next, hnext, hrest⟩ := bind_ok.mp h
    rw [ih hrest, checkedAdd_ok hnext, List.sum_cons, add_assoc]

theorem nonReentrant_ok {st : Storage} (h : st.nonReentrant = .ok ()) : st.entered = false := by
  unfold Storage.nonReentrant at h
  split_ifs at h with hentered
  exact Bool.not_eq_true _ ▸ hentered

/-- The bounty is marked as paid and recorded, and the guard is closed. -/
def Storage.payOut (st : Storage) (i : ℕ) (payment : Payment) : Storage :=
  { st.setBounty i { st.bounties i with status := .Paid } with
    entered := true
    payments := Function.update st.payments i payment
    totalPaidOut := st.totalPaidOut + (st.bounties i).amount }

/-- The changes that a call can make, up to the foreign code that it hands control to. -/
inductive Effect (st : Storage) : Storage → Option Pending → Prop
  | registers (i : ℕ) (bounty : Bounty) (hfresh : (st.bounties i).createdAt = 0) (hcreated : 0 < bounty.createdAt)
      (hopen : bounty.status = .Open) :
      Effect st { st.setBounty i bounty with
        issueNumbers := st.issueNumbers ++ [i]
        totalBountiesRegistered := st.totalBountiesRegistered + 1 } none
  | moves (i : ℕ) (bounty : Bounty) (hexists : 0 < (st.bounties i).createdAt)
      (hcreated : bounty.createdAt = (st.bounties i).createdAt) (hbefore : (st.bounties i).status ≠ .Paid)
      (hafter : bounty.status ≠ .Paid) : Effect st (st.setBounty i bounty) none
  | configures (defaultClaimTimeout : ℕ) (paused : Bool) : Effect st { st with defaultClaimTimeout, paused } none
  | withdraws : Effect st st (some .withdrawal)
  | pays (i prNumber paidAt : ℕ) (recipients : List Address) (amounts : List ℕ) (hentered : st.entered = false)
      (hexists : 0 < (st.bounties i).createdAt) (hclaimed : (st.bounties i).status = .Claimed)
      (hlength : recipients.length = amounts.length) (hne : 0 < recipients.length)
      (hsum : amounts.sum = (st.bounties i).amount) :
      Effect st (st.payOut i { issueNumber := i, prNumber, recipients, amounts, paidAt })
        (some (.payment i prNumber (recipients.zip amounts)))

section Effects
variable {st st' : Storage} {msg : Message} {i : ℕ}

theorem registerBounty_effect {amount : ℕ} {token : Address} {metadata : Text} {isAgentFriendly : Bool}
    (h : st.registerBounty msg i amount token metadata isAgentFriendly = .ok st') : Effect st st' none := by
  simp only [Storage.registerBounty, bind_unit_ok, @bind_ok Revert ℕ, require_ok] at h
  obtain ⟨-, -, -, -, hfresh, total, htotal, h⟩ := h
  obtain rfl := Except.ok.inj h
  rw [checkedAdd_ok htotal]
  exact .registers i _ hfresh msg.timestamp_pos rfl

theorem claimBounty_effect {claimant : Address} (h : st.claimBounty msg i claimant = .ok st') : Effect st st' none := by
  simp only [Storage.claimBounty, Storage.bountyExists, bind_unit_ok, @bind_ok Revert ℕ, require_ok] at h
  obtain ⟨-, -, hexists, hopen, -, -, -, h⟩ := h
  obtain rfl := Except.ok.inj h
  refine .moves i _ hexists rfl ?_ (by simp)
  rw [hopen]
  decide

theorem expireClaim_effect (h : st.expireClaim msg i = .ok st') : Effect st st' none := by
  simp only [Storage.expireClaim, Storage.bountyExists, bind_unit_ok, @bind_ok Revert ℕ, require_ok] at h
  obtain ⟨hexists, hclaimed, -, -, -, h⟩ := h
  obtain rfl := Except.ok.inj h
  refine .moves i _ hexists rfl ?_ (by simp)
  rw [hclaimed]
  decide

theorem disputeBounty_effect (h : st.disputeBounty msg i = .ok st') : Effect st st' none := by
  simp only [Storage.disputeBounty, Storage.bountyExists, bind_unit_ok, require_ok] at h
  obtain ⟨-, hexists, hstatus, h⟩ := h
  obtain rfl := Except.ok.inj h
  refine .moves i _ hexists rfl ?_ (by simp)
  rcases hstatus with hstatus | hstatus <;> rw [hstatus] <;> decide

theorem resolveDispute_effect {inFavorOfClaimant : Bool} (h : st.resolveDispute msg i inFavorOfClaimant = .ok st') :
    Effect st st' none := by
  simp only [Storage.resolveDispute, Storage.bountyExists, bind_unit_ok, require_ok] at h
  obtain ⟨-, hexists, hdisputed, h⟩ := h
  have hbefore : (st.bounties i).status ≠ .Paid := by
    rw [hdisputed]
    decide
  split_ifs at h
  · obtain rfl := Except.ok.inj h
    exact .moves i _ hexists rfl hbefore (by simp)
  · obtain rfl := Except.ok.inj h
    exact .moves i _ hexists rfl hbefore (by simp)

theorem cancelBounty_effect (h : st.cancelBounty msg i = .ok st') : Effect st st' none := by
  simp only [Storage.cancelBounty, Storage.bountyExists, bind_unit_ok, require_ok] at h
  obtain ⟨-, hexists, hbefore, h⟩ := h
  obtain rfl := Except.ok.inj h
  exact .moves i _ hexists rfl hbefore (by simp)

variable {prNumber : ℕ}

theorem finalize_effect {total : ℕ} {recipients : List Address} {amounts : List ℕ}
    (h : st.finalize msg i prNumber recipients amounts total = .ok st') (hentered : st.entered = false)
    (hexists : 0 < (st.bounties i).createdAt) (hclaimed : (st.bounties i).status = .Claimed)
    (hlength : recipients.length = amounts.length) (hne : 0 < recipients.length) (hsum : amounts.sum = (st.bounties i).amount)
    (htotal : total = (st.bounties i).amount) : Effect st st' (some (.payment i prNumber (recipients.zip amounts))) := by
  obtain ⟨totalPaidOut, hpaid, h⟩ := bind_ok.mp h
  obtain rfl := Except.ok.inj h
  rw [checkedAdd_ok hpaid, htotal]
  exact .pays i prNumber msg.timestamp recipients amounts hentered hexists hclaimed hlength hne hsum

theorem payBounty_effect {recipient : Address} {transfers : List (Address × ℕ)}
    (h : st.payBounty msg i prNumber recipient = .ok (st', transfers)) : Effect st st' (some (.payment i prNumber transfers)) := by
  simp only [Storage.payBounty, Storage.bountyExists, bind_unit_ok, @bind_ok Revert Storage, require_ok] at h
  obtain ⟨-, -, hguard, hexists, hclaimed, -, -, paid, hfinal, -, h⟩ := h
  obtain ⟨rfl, rfl⟩ := Prod.mk.inj (Except.ok.inj h)
  exact finalize_effect hfinal (nonReentrant_ok hguard) hexists hclaimed rfl Nat.one_pos (List.sum_singleton ..) rfl

theorem payBountyMultiple_effect {recipients : List Address} {amounts : List ℕ} {transfers : List (Address × ℕ)}
    (h : st.payBountyMultiple msg i prNumber recipients amounts = .ok (st', transfers)) :
    Effect st st' (some (.payment i prNumber transfers)) := by
  simp only [Storage.payBountyMultiple, Storage.bountyExists, bind_unit_ok, @bind_ok Revert Storage, @bind_ok Revert ℕ, require_ok] at h
  obtain ⟨-, -, hguard, hexists, hlength, hne, hclaimed, total, htotal, hamount, -, paid, hfinal, h⟩ := h
  obtain ⟨rfl, rfl⟩ := Prod.mk.inj (Except.ok.inj h)
  have hsum := sumAmounts_ok htotal
  rw [zero_add] at hsum
  exact finalize_effect hfinal (nonReentrant_ok hguard) hexists hclaimed hlength hne (hsum ▸ hamount) hamount

theorem run_effect {call : BountyCall} {pending : Option Pending} (h : BountyPayment.run st msg call = .ok (st', pending)) :
    Effect st st' pending := by
  cases call <;> obtain ⟨_, hrun, ⟨⟩⟩ := map_ok.mp h
  case registerBounty => exact registerBounty_effect hrun
  case claimBounty => exact claimBounty_effect hrun
  case expireClaim => exact expireClaim_effect hrun
  case payBounty => exact payBounty_effect hrun
  case payBountyMultiple => exact payBountyMultiple_effect hrun
  case disputeBounty => exact disputeBounty_effect hrun
  case resolveDispute => exact resolveDispute_effect hrun
  case cancelBounty => exact cancelBounty_effect hrun
  case setDefaultClaimTimeout =>
    obtain ⟨-, -, hrun⟩ : _ ∧ _ ∧ _ := by simpa only [Storage.setDefaultClaimTimeout, bind_unit_ok] using hrun
    obtain rfl := Except.ok.inj hrun
    exact .configures _ st.paused
  case pause =>
    obtain ⟨-, hrun⟩ := bind_unit_ok.mp hrun
    obtain rfl := Except.ok.inj hrun
    exact .configures st.defaultClaimTimeout true
  case unpause =>
    obtain ⟨-, hrun⟩ := bind_unit_ok.mp hrun
    obtain rfl := Except.ok.inj hrun
    exact .configures st.defaultClaimTimeout false
  case withdrawNative | withdrawToken => exact .withdraws

end Effects

inductive Move (s : BountyPayment) : BountyPayment → Prop
  | reverts : Move s s
  | ends {st : Storage} (h : Effect s.storage st none) : Move s { s with storage := st }
  | hands {st : Storage} {pending : Pending} (h : Effect s.storage st (some pending)) : Move s ⟨st, ⟨s.storage, pending⟩ :: s.frames⟩
  | foreignBegins : Move s { s with frames := ⟨s.storage, .foreign⟩ :: s.frames }
  | succeeds {frame : Frame} {rest : List Frame} (h : s.frames = frame :: rest) :
      Move s ⟨(BountyPayment.resume s.storage frame.saved frame.pending).1,
        (BountyPayment.resume s.storage frame.saved frame.pending).2 ++ rest⟩
  | fails {frame : Frame} {rest : List Frame} (h : s.frames = frame :: rest) : Move s ⟨frame.saved, rest⟩

theorem step_move {s s' : BountyPayment} {a : BountyPayment.BountyAct} (hstep : s.step a = some s') : Move s s' := by
  unfold BountyPayment.step at hstep
  cases a with
  | call msg call =>
    dsimp only at hstep
    cases hrun : BountyPayment.run s.storage msg call with
    | error revert =>
      rw [hrun] at hstep
      obtain rfl := Option.some.inj hstep
      exact .reverts
    | ok result =>
      obtain ⟨st, pending⟩ := result
      rw [hrun] at hstep
      cases pending with
      | none =>
        obtain rfl := Option.some.inj hstep
        exact .ends (run_effect hrun)
      | some pending =>
        obtain rfl := Option.some.inj hstep
        exact .hands (run_effect hrun)
  | foreignBegins =>
    obtain rfl := Option.some.inj hstep
    exact .foreignBegins
  | returns success =>
    dsimp only at hstep
    cases hframes : s.frames with
    | nil =>
      rw [hframes] at hstep
      cases hstep
    | cons frame rest =>
      rw [hframes] at hstep
      dsimp only at hstep
      split_ifs at hstep
      · obtain rfl := Option.some.inj hstep
        exact .succeeds hframes
      · obtain rfl := Option.some.inj hstep
        exact .fails hframes

/-! ### The accounts -/

def Payment.transfers (payment : Payment) : List (Address × ℕ) := payment.recipients.zip payment.amounts

namespace Storage
variable (st : Storage)

def transfersOf (i : ℕ) : List (Address × ℕ) :=
  (st.paid.filter fun event => event.issueNumber = i).map fun event => (event.recipient, event.amount)

def due (i : ℕ) : List (Address × ℕ) := if (st.bounties i).status = .Paid then (st.payments i).transfers else []

def paidAmount : ℕ := ∑ i ∈ st.issueNumbers.toFinset with (st.bounties i).status = .Paid, (st.bounties i).amount

/-- An issue is paid at most once, the total and the records agree with what is paid, and every
bounty is listed once. -/
structure Accounted : Prop where
  once : ∀ i, st.transfersOf i <+: st.due i
  total : st.totalPaidOut = st.paidAmount
  record : ∀ i, (st.bounties i).status = .Paid → (st.payments i).recipients.length = (st.payments i).amounts.length ∧
    (st.payments i).recipients.length ≠ 0 ∧ (st.payments i).amounts.sum = (st.bounties i).amount
  nodup : st.issueNumbers.Nodup
  listed : ∀ i, i ∈ st.issueNumbers ↔ 0 < (st.bounties i).createdAt
  count : st.issueNumbers.length = st.totalBountiesRegistered

end Storage

/-- The payment that is under way, with the transfers that are left. -/
def active : List Frame → Option (ℕ × List (Address × ℕ))
  | [] => none
  | ⟨_, .payment i _ transfers⟩ :: _ => some (i, transfers)
  | ⟨_, .foreign⟩ :: rest => active rest
  | ⟨_, .withdrawal⟩ :: rest => active rest

def left (payment : Option (ℕ × List (Address × ℕ))) (i : ℕ) : List (Address × ℕ) :=
  match payment with
  | some (j, transfers) => if j = i then transfers else []
  | none => []

structure Sound (st : Storage) (payment : Option (ℕ × List (Address × ℕ))) : Prop where
  nodup : st.issueNumbers.Nodup
  listed : ∀ i, i ∈ st.issueNumbers ↔ 0 < (st.bounties i).createdAt
  count : st.issueNumbers.length = st.totalBountiesRegistered
  total : st.totalPaidOut = st.paidAmount
  record : ∀ i, (st.bounties i).status = .Paid → 0 < (st.bounties i).createdAt ∧
    (st.payments i).recipients.length = (st.payments i).amounts.length ∧
    (st.payments i).recipients.length ≠ 0 ∧ (st.payments i).amounts.sum = (st.bounties i).amount
  entered : st.entered = payment.isSome
  transfers : ∀ i, st.transfersOf i ++ left payment i = st.due i

theorem Sound.accounted {st : Storage} {payment : Option (ℕ × List (Address × ℕ))} (h : Sound st payment) : st.Accounted where
  once := fun i => ⟨_, h.transfers i⟩
  total := h.total
  record := fun i hpaid => (h.record i hpaid).2
  nodup := h.nodup
  listed := h.listed
  count := h.count

section Sums
variable {st : Storage} {i : ℕ} {bounty : Bounty}

def Bounty.paidOut (bounty : Bounty) : ℕ := if bounty.status = .Paid then bounty.amount else 0

theorem paidAmount_eq (st : Storage) : st.paidAmount = ∑ i ∈ st.issueNumbers.toFinset, (st.bounties i).paidOut := by
  rw [Storage.paidAmount, Finset.sum_filter]
  rfl

theorem paidOut_update (st : Storage) (i : ℕ) (bounty : Bounty) :
    (fun j => ((st.setBounty i bounty).bounties j).paidOut) =
      Function.update (fun j => (st.bounties j).paidOut) i bounty.paidOut := by
  funext j
  exact congrFun (Function.comp_update Bounty.paidOut st.bounties i bounty) j

theorem paidAmount_setBounty (hi : i ∈ st.issueNumbers) :
    (st.setBounty i bounty).paidAmount + (st.bounties i).paidOut = st.paidAmount + bounty.paidOut := by
  have hmem : i ∈ st.issueNumbers.toFinset := List.mem_toFinset.mpr hi
  have hself := Finset.sum_update_of_mem hmem (fun j => (st.bounties j).paidOut) (st.bounties i).paidOut
  rw [Function.update_eq_self] at hself
  have hnew := Finset.sum_update_of_mem hmem (fun j => (st.bounties j).paidOut) bounty.paidOut
  rw [← paidOut_update] at hnew
  rw [paidAmount_eq, paidAmount_eq, hself]
  have hgoal : ∑ j ∈ st.issueNumbers.toFinset, ((st.setBounty i bounty).bounties j).paidOut + (st.bounties i).paidOut =
      (st.bounties i).paidOut + ∑ j ∈ st.issueNumbers.toFinset \ {i}, (st.bounties j).paidOut + bounty.paidOut := by
    rw [hnew]
    ring
  exact hgoal

theorem paidAmount_of_not_mem (hi : i ∉ st.issueNumbers) : (st.setBounty i bounty).paidAmount = st.paidAmount := by
  have hmem : i ∉ st.issueNumbers.toFinset := fun h => hi (List.mem_toFinset.mp h)
  have hnew := Finset.sum_update_of_notMem hmem (fun j => (st.bounties j).paidOut) bounty.paidOut
  rw [← paidOut_update] at hnew
  rw [paidAmount_eq, paidAmount_eq]
  exact hnew

end Sums

/-! ### What the effects keep -/

section Keep
variable {st st' : Storage} {payment : Option (ℕ × List (Address × ℕ))} {i : ℕ} {bounty : Bounty}

theorem setBounty_self (st : Storage) (i : ℕ) (bounty : Bounty) : (st.setBounty i bounty).bounties i = bounty :=
  Function.update_self ..

theorem setBounty_of_ne {j : ℕ} (h : j ≠ i) : (st.setBounty i bounty).bounties j = st.bounties j := Function.update_of_ne h ..

theorem Sound.unpaid (h : Sound st payment) (hbefore : (st.bounties i).status ≠ .Paid) (hafter : bounty.status ≠ .Paid) :
    (∀ j, ((st.setBounty i bounty).bounties j).status = .Paid → 0 < ((st.setBounty i bounty).bounties j).createdAt ∧
      (st.payments j).recipients.length = (st.payments j).amounts.length ∧
      (st.payments j).recipients.length ≠ 0 ∧ (st.payments j).amounts.sum = ((st.setBounty i bounty).bounties j).amount) ∧
    ∀ j, (st.setBounty i bounty).due j = st.due j := by
  refine ⟨fun j hpaid => ?_, fun j => ?_⟩
  · by_cases hj : j = i
    · rw [hj, setBounty_self] at hpaid
      exact absurd hpaid hafter
    · rw [setBounty_of_ne hj] at hpaid ⊢
      exact h.record j hpaid
  · unfold Storage.due
    by_cases hj : j = i
    · rw [hj, setBounty_self, if_neg hafter, if_neg hbefore]
    · rw [setBounty_of_ne hj]
      rfl

theorem Sound.moves (h : Sound st payment) (hexists : 0 < (st.bounties i).createdAt)
    (hcreated : bounty.createdAt = (st.bounties i).createdAt) (hbefore : (st.bounties i).status ≠ .Paid)
    (hafter : bounty.status ≠ .Paid) : Sound (st.setBounty i bounty) payment := by
  obtain ⟨hrecord, hdue⟩ := h.unpaid hbefore hafter
  refine { h with listed := fun j => ?_, total := ?_, record := hrecord, transfers := fun j => ?_ }
  · by_cases hj : j = i
    · rw [hj, setBounty_self, hcreated]
      exact h.listed i
    · rw [setBounty_of_ne hj]
      exact h.listed j
  · have hsum := @paidAmount_setBounty st i bounty ((h.listed i).mpr hexists)
    rw [Bounty.paidOut, if_neg hbefore, Bounty.paidOut, if_neg hafter] at hsum
    exact h.total.trans hsum.symm
  · rw [hdue]
    exact h.transfers j

theorem Sound.registers (h : Sound st payment) (hfresh : (st.bounties i).createdAt = 0) (hcreated : 0 < bounty.createdAt)
    (hopen : bounty.status = .Open) :
    Sound { st.setBounty i bounty with
      issueNumbers := st.issueNumbers ++ [i]
      totalBountiesRegistered := st.totalBountiesRegistered + 1 } payment := by
  have hnew : i ∉ st.issueNumbers := by
    rw [h.listed, hfresh]
    exact lt_irrefl 0
  have hbefore : (st.bounties i).status ≠ .Paid := by
    intro hpaid
    have hpos := (h.record i hpaid).1
    rw [hfresh] at hpos
    exact lt_irrefl 0 hpos
  have hafter : bounty.status ≠ .Paid := by
    rw [hopen]
    decide
  obtain ⟨hrecord, hdue⟩ := h.unpaid hbefore hafter
  refine { h with nodup := ?_, listed := fun j => ?_, count := ?_, total := ?_, record := hrecord, transfers := fun j => ?_ }
  · exact h.nodup.append (List.nodup_singleton i) (List.disjoint_singleton.mpr hnew)
  · have hmem : j ∈ st.issueNumbers ++ [i] ↔ 0 < ((st.setBounty i bounty).bounties j).createdAt := by
      rw [List.mem_append, List.mem_singleton]
      by_cases hj : j = i
      · rw [hj, setBounty_self]
        simp [hcreated]
      · rw [setBounty_of_ne hj, h.listed]
        simp [hj]
    exact hmem
  · have hlength : (st.issueNumbers ++ [i]).length = st.totalBountiesRegistered + 1 := by
      rw [List.length_append, h.count]
      rfl
    exact hlength
  · have hset : (st.issueNumbers ++ [i]).toFinset = insert i st.issueNumbers.toFinset := by
      ext j
      simp
    have hsum := @paidAmount_of_not_mem st i bounty hnew
    rw [paidAmount_eq] at hsum
    rw [paidAmount_eq]
    refine h.total.trans (hsum.symm.trans ?_)
    have hinsert := Finset.sum_insert (f := fun j => ((st.setBounty i bounty).bounties j).paidOut)
      (fun hmem => hnew (List.mem_toFinset.mp hmem))
    rw [setBounty_self, Bounty.paidOut, if_neg hafter, zero_add, ← hset] at hinsert
    exact hinsert.symm
  · have htransfers := h.transfers j
    rw [← hdue] at htransfers
    exact htransfers

theorem payOut_self (st : Storage) (i : ℕ) (payment : Payment) :
    (st.payOut i payment).bounties i = { st.bounties i with status := .Paid } ∧ (st.payOut i payment).payments i = payment :=
  ⟨Function.update_self .., Function.update_self ..⟩

theorem payOut_of_ne {payment : Payment} {j : ℕ} (h : j ≠ i) :
    (st.payOut i payment).bounties j = st.bounties j ∧ (st.payOut i payment).payments j = st.payments j :=
  ⟨Function.update_of_ne h .., Function.update_of_ne h ..⟩

theorem Sound.pays (h : Sound st none) {record : Payment} (hexists : 0 < (st.bounties i).createdAt)
    (hclaimed : (st.bounties i).status = .Claimed) (hlength : record.recipients.length = record.amounts.length)
    (hne : 0 < record.recipients.length) (hsum : record.amounts.sum = (st.bounties i).amount) :
    Sound (st.payOut i record) (some (i, record.transfers)) := by
  have hbefore : (st.bounties i).status ≠ .Paid := by
    rw [hclaimed]
    decide
  obtain ⟨hbounty, hpayment⟩ := payOut_self st i record
  refine { h with listed := fun j => ?_, total := ?_, record := fun j hpaid => ?_, entered := rfl, transfers := fun j => ?_ }
  · by_cases hj : j = i
    · rw [hj, hbounty]
      exact h.listed i
    · rw [(payOut_of_ne hj).1]
      exact h.listed j
  · have hadd := @paidAmount_setBounty st i { st.bounties i with status := .Paid } ((h.listed i).mpr hexists)
    rw [Bounty.paidOut, if_neg hbefore, Bounty.paidOut, if_pos rfl, ← h.total] at hadd
    exact hadd.symm
  · by_cases hj : j = i
    · rw [hj, hbounty, hpayment]
      exact ⟨hexists, hlength, hne.ne', hsum⟩
    · rw [(payOut_of_ne hj).1] at hpaid ⊢
      rw [(payOut_of_ne hj).2]
      exact h.record j hpaid
  · have hold : st.transfersOf j = st.due j := by
      rw [← h.transfers j]
      exact (List.append_nil _).symm
    have hsame : (st.payOut i record).transfersOf j = st.transfersOf j := rfl
    rw [hsame, hold, Storage.due, Storage.due, left]
    by_cases hj : j = i
    · -- nothing has been transferred for a bounty that is not paid
      rw [hj, if_neg hbefore, hbounty, if_pos rfl, if_pos rfl, hpayment, List.nil_append]
    · rw [(payOut_of_ne hj).1, (payOut_of_ne hj).2, if_neg (Ne.symm hj), List.append_nil]

theorem Sound.effect (h : Sound st payment) (heffect : Effect st st' none) : Sound st' payment := by
  generalize hpending : (none : Option Pending) = pending at heffect
  cases heffect with
  | registers i bounty hfresh hcreated hopen => exact h.registers hfresh hcreated hopen
  | moves i bounty hexists hcreated hbefore hafter => exact h.moves hexists hcreated hbefore hafter
  | configures defaultClaimTimeout paused => exact { h with }
  | withdraws => cases hpending
  | pays => cases hpending

theorem transfersOf_transferred (st : Storage) (i prNumber : ℕ) (transfer : Address × ℕ) (j : ℕ) :
    (BountyPayment.transferred st i prNumber transfer).transfersOf j = st.transfersOf j ++ if i = j then [transfer] else [] := by
  unfold BountyPayment.transferred Storage.transfersOf
  rw [List.filter_append, List.map_append]
  by_cases hij : i = j
  · simp [hij]
  · simp [hij]

theorem Sound.transfer {prNumber : ℕ} {transfer : Address × ℕ} {rest : List (Address × ℕ)}
    (h : Sound st (some (i, transfer :: rest))) : Sound (BountyPayment.transferred st i prNumber transfer) (some (i, rest)) := by
  refine { h with transfers := fun j => ?_ }
  have hold := h.transfers j
  rw [transfersOf_transferred]
  by_cases hij : i = j
  · simp only [left, if_pos hij, List.append_assoc, List.singleton_append] at hold ⊢
    exact hold
  · simp only [left, if_neg hij, List.append_nil] at hold ⊢
    exact hold

theorem Sound.finish (h : Sound st (some (i, []))) : Sound { st with entered := false } none := by
  refine { h with entered := rfl, transfers := fun j => ?_ }
  have hold := h.transfers j
  simp only [left, ite_self] at hold ⊢
  exact hold

end Keep

/-! ### Frames -/

/-- The storage is sound for the payment that is under way, and so is each storage that a frame
may restore. No payment begins while another one is under way. -/
def Consistent : Storage → List Frame → Prop
  | st, [] => Sound st none
  | st, ⟨saved, pending⟩ :: rest =>
    Sound st (active (⟨saved, pending⟩ :: rest)) ∧ (∀ i prNumber transfers, pending = .payment i prNumber transfers → active rest = none) ∧
      Consistent saved rest

section Frames
variable {st st' : Storage} {frames : List Frame}

theorem Consistent.sound (h : Consistent st frames) : Sound st (active frames) := by
  cases frames with
  | nil => exact h
  | cons frame rest => exact h.1

theorem Consistent.replace (h : Consistent st frames) (hsound : Sound st' (active frames)) : Consistent st' frames := by
  cases frames with
  | nil => exact hsound
  | cons frame rest => exact ⟨hsound, h.2⟩

theorem Consistent.hands (h : Consistent st frames) {pending : Pending} (heffect : Effect st st' (some pending)) :
    Consistent st' (⟨st, pending⟩ :: frames) := by
  generalize hpending : some pending = p at heffect
  cases heffect with
  | registers | moves | configures => cases hpending
  | withdraws =>
    obtain rfl := Option.some.inj hpending
    exact ⟨h.sound, fun i prNumber transfers heq => (by cases heq), h⟩
  | pays i prNumber paidAt recipients amounts hentered hexists hclaimed hlength hne hsum =>
    obtain rfl := Option.some.inj hpending
    have hnone : active frames = none := by
      have hactive := h.sound.entered
      rw [hentered] at hactive
      exact Option.not_isSome_iff_eq_none.mp (by rw [← hactive]; exact Bool.false_ne_true)
    have hsound := h.sound
    rw [hnone] at hsound
    exact ⟨hsound.pays hexists hclaimed hlength hne hsum, fun _ _ _ _ => hnone, h⟩

theorem Consistent.resume {frame : Frame} (h : Consistent st (frame :: frames)) :
    Consistent (BountyPayment.resume st frame.saved frame.pending).1 ((BountyPayment.resume st frame.saved frame.pending).2 ++ frames) := by
  obtain ⟨saved, pending⟩ := frame
  obtain ⟨hsound, hnone, hsaved⟩ := h
  cases pending with
  | foreign | withdrawal => exact hsaved.replace hsound
  | payment i prNumber transfers =>
    have hfree := hnone i prNumber transfers rfl
    cases transfers with
    | nil =>
      refine hsaved.replace ?_
      rw [hfree]
      exact Sound.finish hsound
    | cons transfer rest =>
      cases rest with
      | nil =>
        refine hsaved.replace ?_
        rw [hfree]
        exact (Sound.transfer hsound).finish
      | cons next rest => exact ⟨Sound.transfer hsound, fun _ _ _ _ => hfree, hsaved⟩

theorem Consistent.step {s s' : BountyPayment} {a : BountyPayment.BountyAct} (h : Consistent s.storage s.frames)
    (hstep : s.step a = some s') : Consistent s'.storage s'.frames := by
  cases step_move hstep with
  | reverts => exact h
  | ends heffect => exact h.replace (h.sound.effect heffect)
  | hands heffect => exact h.hands heffect
  | foreignBegins => exact ⟨h.sound, fun i prNumber transfers heq => (by cases heq), h⟩
  | succeeds hframes =>
    rw [hframes] at h
    exact h.resume
  | fails hframes =>
    rw [hframes] at h
    exact h.2.2

end Frames

/-! ### A paid bounty stays as it is -/

section Final
variable {st st' : Storage} {i : ℕ}

/-- The bounty and the payment of an issue are the given ones. -/
def Storage.Holds (st : Storage) (i : ℕ) (bounty : Bounty) (payment : Payment) : Prop := st.bounties i = bounty ∧ st.payments i = payment

variable {bounty : Bounty} {payment : Payment}

theorem Effect.holds {pending : Option Pending} (h : Effect st st' pending)
    (hholds : st.Holds i bounty payment) (hpaid : bounty.status = .Paid) (hcreated : 0 < bounty.createdAt) :
    st'.Holds i bounty payment := by
  obtain ⟨rfl, rfl⟩ := hholds
  cases h with
  | registers j bounty hfresh =>
    have hne : i ≠ j := by
      rintro rfl
      exact hcreated.ne' hfresh
    exact ⟨setBounty_of_ne hne, rfl⟩
  | moves j bounty hexists _ hbefore =>
    have hne : i ≠ j := by
      rintro rfl
      exact hbefore hpaid
    exact ⟨setBounty_of_ne hne, rfl⟩
  | configures | withdraws => exact ⟨rfl, rfl⟩
  | pays j prNumber paidAt recipients amounts hentered hexists hclaimed =>
    have hne : i ≠ j := by
      rintro rfl
      rw [hpaid] at hclaimed
      cases hclaimed
    exact payOut_of_ne hne

/-- So it is in the storage, and in each that a frame may restore. -/
def BountyPayment.Holds (i : ℕ) (bounty : Bounty) (payment : Payment) (s : BountyPayment) : Prop :=
  s.storage.Holds i bounty payment ∧ ∀ frame ∈ s.frames, frame.saved.Holds i bounty payment

theorem resume_holds {frame : Frame} (hst : st.Holds i bounty payment)
    (hsaved : frame.saved.Holds i bounty payment) :
    (BountyPayment.resume st frame.saved frame.pending).1.Holds i bounty payment ∧
      ∀ f ∈ (BountyPayment.resume st frame.saved frame.pending).2, f.saved.Holds i bounty payment := by
  unfold BountyPayment.resume
  split
  · exact ⟨hst, fun f hf => absurd hf List.not_mem_nil⟩
  · exact ⟨hst, fun f hf => absurd hf List.not_mem_nil⟩
  · exact ⟨hst, fun f hf => absurd hf List.not_mem_nil⟩
  · exact ⟨hst, fun f hf => absurd hf List.not_mem_nil⟩
  · refine ⟨hst, fun f hf => ?_⟩
    rw [List.mem_singleton.mp hf]
    exact hsaved

theorem holds_step {s s' : BountyPayment} {a : BountyPayment.BountyAct}
    (h : BountyPayment.Holds i bounty payment s) (hpaid : bounty.status = .Paid) (hcreated : 0 < bounty.createdAt)
    (hstep : s.step a = some s') : BountyPayment.Holds i bounty payment s' := by
  obtain ⟨hstorage, hframes⟩ := h
  cases step_move hstep with
  | reverts => exact ⟨hstorage, hframes⟩
  | ends heffect => exact ⟨heffect.holds hstorage hpaid hcreated, hframes⟩
  | hands heffect => exact ⟨heffect.holds hstorage hpaid hcreated, List.forall_mem_cons.mpr ⟨hstorage, hframes⟩⟩
  | foreignBegins => exact ⟨hstorage, List.forall_mem_cons.mpr ⟨hstorage, hframes⟩⟩
  | succeeds hlist =>
    rw [hlist, List.forall_mem_cons] at hframes
    obtain ⟨hresumed, hnew⟩ := resume_holds hstorage hframes.1
    exact ⟨hresumed, List.forall_mem_append.mpr ⟨hnew, hframes.2⟩⟩
  | fails hlist =>
    rw [hlist, List.forall_mem_cons] at hframes
    exact hframes

end Final

namespace BountyPayment

theorem consistent_start : Consistent start.storage start.frames := by
  refine ⟨List.nodup_nil, fun i => ?_, rfl, rfl, fun i hpaid => ?_, rfl, fun i => rfl⟩
  · exact ⟨fun hmem => absurd hmem List.not_mem_nil, fun hpos => absurd hpos (lt_irrefl 0)⟩
  · cases hpaid

def Sane (s : BountyPayment) : Prop := Consistent s.storage s.frames

theorem reachable_sane {s : BountyPayment} (hs : Reachable step (fun _ _ => True) start s) : Sane s :=
  hs.invariant consistent_start fun _ _ _ h _ hstep => Consistent.step h hstep

/-- Whatever is called, in whatever order and from within whichever transfer, the accounts are
right, and what a finished transaction has paid is never changed. -/
theorem reachable_accounts {s : BountyPayment} (hs : Reachable step (fun _ _ => True) start s) :
    s.storage.Accounted ∧ (s.frames = [] → ∀ i, (s.storage.bounties i).status = .Paid →
      ∀ s', Reachable step (fun _ _ => True) s s' →
        s'.storage.bounties i = s.storage.bounties i ∧ s'.storage.payments i = s.storage.payments i) := by
  have hsound := Consistent.sound (reachable_sane hs)
  refine ⟨hsound.accounted, fun hframes i hpaid s' hs' => ?_⟩
  have hstart : Holds i (s.storage.bounties i) (s.storage.payments i) s := by
    refine ⟨⟨rfl, rfl⟩, fun frame hframe => ?_⟩
    rw [hframes] at hframe
    cases hframe
  have hholds : Holds i (s.storage.bounties i) (s.storage.payments i) s' :=
    hs'.invariant hstart fun _ _ _ h _ hstep => holds_step h hpaid (hsound.record i hpaid).1 hstep
  exact hholds.1

/-! ### A recipient that calls back -/

def anyone : Message where
  sender := 9
  hasRole := fun _ => false
  timestamp := 2000000
  timestamp_pos := by decide
  balance := 5
  tokenBalance := none

def operator : Message := { anyone with sender := 1, hasRole := fun _ => true }

/-- Issue 7 is paid to two recipients. The first of them tries to expire the claim and to be
paid again, and the transfer to the second one fails at first. -/
def callbackRun : List BountyAct :=
  [.call operator (.registerBounty 7 5 0 [] true), .call operator (.claimBounty 7 9),
    .call operator (.payBountyMultiple 7 70 [9, 8] [2, 3]), .returns true, .returns false,
    .call operator (.payBountyMultiple 7 70 [9, 8] [2, 3]), .call anyone (.expireClaim 7),
    .call operator (.payBounty 7 70 9), .call operator (.registerBounty 8 4 0 [] true), .returns true, .returns true]

def callbackState : BountyPayment := (exec step start callbackRun).getD start

theorem reachable_accounts_callback : callbackState.storage.transfersOf 7 = [(9, 2), (8, 3)] ∧
    callbackState.storage.totalPaidOut = 5 ∧ callbackState.storage.issueNumbers = [7, 8] ∧ callbackState.storage.Accounted ∧
    ∀ s', Reachable step (fun _ _ => True) callbackState s' →
      s'.storage.bounties 7 = callbackState.storage.bounties 7 ∧ s'.storage.payments 7 = callbackState.storage.payments 7 := by
  have hexec : exec step start callbackRun = some callbackState := eq_some_getD (by decide +kernel) _
  have hs : Reachable step (fun _ _ => True) start callbackState := Reachable.start.of_exec callbackRun (fun _ _ _ => trivial) hexec
  obtain ⟨haccounted, hfinal⟩ := reachable_accounts hs
  have hframes : callbackState.frames.length = 0 := by decide +kernel
  exact ⟨by decide +kernel, by decide +kernel, by decide +kernel, haccounted,
    hfinal (List.length_eq_zero_iff.mp hframes) 7 (by decide +kernel)⟩

end BountyPayment

end OxScada.Contracts
