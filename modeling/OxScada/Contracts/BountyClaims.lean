import OxScada.Contracts.BountyAccounting

/-! Who the funds go to. A bounty has a claimant while it is claimed, disputed or paid, and what a payment transfers goes to
somebody, as long as no list of recipients names the zero address and no claimed bounty is cancelled. -/

namespace OxScada.Contracts
open OxScada.Bytes OxScada.Runs

/-! ### The funds -/

namespace Storage
variable (st : Storage)

def hasClaim (i : ℕ) : Prop :=
  (st.bounties i).status = .Claimed ∨ (st.bounties i).status = .Disputed ∨ (st.bounties i).status = .Paid

/-- Nothing has gone to the zero address, while no payment runs every paid bounty has been paid in full, and a bounty has a
claimant and the time of a claim exactly while it is claimed, disputed or paid. -/
structure Legitimate : Prop where
  recipients : ∀ event ∈ st.paid, event.recipient = 0 → event.amount = 0
  total : st.entered = false → ∀ i, (st.bounties i).status = .Paid → ((st.transfersOf i).map Prod.snd).sum = (st.bounties i).amount
  claimant : ∀ i, 0 < (st.bounties i).createdAt → ((st.bounties i).claimant ≠ 0 ↔ st.hasClaim i)
  claimedAt : ∀ i, 0 < (st.bounties i).createdAt → ((st.bounties i).claimedAt ≠ 0 ↔ st.hasClaim i)

/-- The checks of `payBountyMultiple` on its arguments and on the bounty. -/
def passesMultiple (msg : Message) (i : ℕ) (recipients : List Address) (amounts : List ℕ) : Prop :=
  msg.hasRole .payout = true ∧ st.paused = false ∧ st.entered = false ∧ 0 < (st.bounties i).createdAt ∧
    recipients.length = amounts.length ∧ (st.bounties i).status = .Claimed ∧ amounts.sum = (st.bounties i).amount

end Storage

/-- No payment to several recipients that passes its checks has an amount for the zero address, and no maintainer cancels a
bounty that is claimed or disputed. -/
def Careful (s : BountyPayment) : BountyPayment.BountyAct → Prop
  | .call msg (.payBountyMultiple i _ recipients amounts) =>
    s.storage.passesMultiple msg i recipients amounts → ∀ transfer ∈ recipients.zip amounts, transfer.1 = 0 → transfer.2 = 0
  | .call msg (.cancelBounty i _) =>
    msg.hasRole .maintainer = true → (s.storage.bounties i).status ≠ .Claimed ∧ (s.storage.bounties i).status ≠ .Disputed
  | _ => True

/-! ### The turns of a bounty -/

inductive Turn (b : Bounty) : Bounty → Prop
  | registers (bounty : Bounty) (hfresh : b.createdAt = 0) (hcreated : 0 < bounty.createdAt) (hopen : bounty.status = .Open)
      (hclaimant : bounty.claimant = 0) (hclaimedAt : bounty.claimedAt = 0) : Turn b bounty
  | claims (claimant : Address) (claimedAt : ℕ) (hopen : b.status = .Open) (hclaimant : claimant ≠ 0) (hclaimedAt : 0 < claimedAt) :
      Turn b { b with status := .Claimed, claimant, claimedAt }
  | opens (hclaimed : b.status = .Claimed ∨ b.status = .Disputed) : Turn b { b with status := .Open, claimant := 0, claimedAt := 0 }
  | disputes (hclaimed : b.status = .Claimed ∨ b.status = .Completed) : Turn b { b with status := .Disputed }
  | settles (hdisputed : b.status = .Disputed) : Turn b { b with status := .Claimed }
  | cancels (hunpaid : b.status ≠ .Paid) (hunclaimed : b.status ≠ .Claimed ∧ b.status ≠ .Disputed) : Turn b { b with status := .Cancelled }
  | pays (hclaimed : b.status = .Claimed) : Turn b { b with status := .Paid }

/-- A bounty that is open or cancelled has no claimant, another one has, and no bounty is completed or expired. -/
def Bounty.Coherent (b : Bounty) : Prop :=
  match b.status with
  | .Open | .Cancelled => b.claimant = 0 ∧ b.claimedAt = 0
  | .Claimed | .Disputed | .Paid => b.claimant ≠ 0 ∧ b.claimedAt ≠ 0
  | .Completed | .Expired => False

theorem Bounty.Coherent.claim {b : Bounty} (h : b.Coherent) :
    (b.claimant ≠ 0 ↔ b.status = .Claimed ∨ b.status = .Disputed ∨ b.status = .Paid) ∧
      (b.claimedAt ≠ 0 ↔ b.status = .Claimed ∨ b.status = .Disputed ∨ b.status = .Paid) := by
  unfold Bounty.Coherent at h
  cases hstatus : b.status <;> rw [hstatus] at h <;> simp_all

theorem Turn.coherent {b b' : Bounty} (h : Turn b b') (hb : b.Coherent) : b'.Coherent := by
  unfold Bounty.Coherent at hb
  cases h with
  | registers bounty hfresh hcreated hopen hclaimant hclaimedAt =>
    unfold Bounty.Coherent
    rw [hopen]
    exact ⟨hclaimant, hclaimedAt⟩
  | claims claimant claimedAt hopen hclaimant hclaimedAt => exact ⟨hclaimant, hclaimedAt.ne'⟩
  | opens hclaimed => exact ⟨rfl, rfl⟩
  | disputes hclaimed =>
    rcases hclaimed with hclaimed | hcompleted
    · rw [hclaimed] at hb
      exact hb
    · rw [hcompleted] at hb
      exact hb.elim
  | settles hdisputed =>
    rw [hdisputed] at hb
    exact hb
  | cancels hunpaid hunclaimed =>
    cases hstatus : b.status <;> rw [hstatus] at hb hunpaid hunclaimed <;> simp_all [Bounty.Coherent]
  | pays hclaimed =>
    rw [hclaimed] at hb
    exact hb

theorem Turn.amount {b b' : Bounty} (h : Turn b b') (hcreated : 0 < b.createdAt) : 0 < b'.createdAt ∧ b'.amount = b.amount := by
  cases h with
  | registers bounty hfresh => exact absurd hfresh hcreated.ne'
  | claims | opens | disputes | settles | cancels | pays => exact ⟨hcreated, rfl⟩

/-! ### Calls -/

def Pending.Endowed : Pending → Prop
  | .payment _ _ transfers => ∀ transfer ∈ transfers, transfer.1 = 0 → transfer.2 = 0
  | _ => True

/-- One bounty turns at most, no event is logged, and the transfers that the call begins go to somebody. -/
structure Turns (st st' : Storage) (pending : Option Pending) : Prop where
  bounties : st'.bounties = st.bounties ∨ ∃ i bounty, Turn (st.bounties i) bounty ∧ st'.bounties = Function.update st.bounties i bounty
  paid : st'.paid = st.paid
  endowed : ∀ p ∈ pending, p.Endowed

section Calls
variable {st st' : Storage} {msg : Message} {i : ℕ}

theorem Turns.of_turn {bounty : Bounty} (h : Turn (st.bounties i) bounty) : Turns st (st.setBounty i bounty) none :=
  ⟨.inr ⟨i, bounty, h, rfl⟩, rfl, fun p hp => by cases hp⟩

theorem onlyRole_ok {role : Role} (h : Storage.onlyRole msg role = .ok ()) : msg.hasRole role = true := by
  unfold Storage.onlyRole at h
  split_ifs at h with hrole
  exact hrole

theorem registerBounty_turns {amount : ℕ} {token : Address} {metadata : Text} {isAgentFriendly : Bool}
    (h : st.registerBounty msg i amount token metadata isAgentFriendly = .ok st') : Turns st st' none := by
  simp only [Storage.registerBounty, bind_unit_ok, @bind_ok Revert ℕ, require_ok] at h
  obtain ⟨-, -, -, -, hfresh, total, -, h⟩ := h
  obtain rfl := Except.ok.inj h
  refine ⟨.inr ⟨i, _, ?_, rfl⟩, rfl, fun p hp => by cases hp⟩
  exact .registers _ hfresh msg.timestamp_pos rfl rfl rfl

theorem claimBounty_turns {claimant : Address} (h : st.claimBounty msg i claimant = .ok st') : Turns st st' none := by
  simp only [Storage.claimBounty, bind_unit_ok, @bind_ok Revert ℕ, require_ok] at h
  obtain ⟨-, -, -, hopen, hclaimant, -, -, h⟩ := h
  obtain rfl := Except.ok.inj h
  exact .of_turn (.claims claimant msg.timestamp hopen hclaimant msg.timestamp_pos)

theorem expireClaim_turns (h : st.expireClaim msg i = .ok st') : Turns st st' none := by
  simp only [Storage.expireClaim, bind_unit_ok, @bind_ok Revert ℕ, require_ok] at h
  obtain ⟨-, hclaimed, -, -, -, h⟩ := h
  obtain rfl := Except.ok.inj h
  exact .of_turn (.opens (.inl hclaimed))

theorem disputeBounty_turns (h : st.disputeBounty msg i = .ok st') : Turns st st' none := by
  simp only [Storage.disputeBounty, bind_unit_ok, require_ok] at h
  obtain ⟨-, -, hstatus, h⟩ := h
  obtain rfl := Except.ok.inj h
  exact .of_turn (.disputes hstatus)

theorem resolveDispute_turns {inFavorOfClaimant : Bool} (h : st.resolveDispute msg i inFavorOfClaimant = .ok st') : Turns st st' none := by
  simp only [Storage.resolveDispute, bind_unit_ok, require_ok] at h
  obtain ⟨-, -, hdisputed, h⟩ := h
  split_ifs at h
  · obtain rfl := Except.ok.inj h
    exact .of_turn (.settles hdisputed)
  · obtain rfl := Except.ok.inj h
    exact .of_turn (.opens (.inr hdisputed))

theorem cancelBounty_turns (h : st.cancelBounty msg i = .ok st')
    (hcareful : msg.hasRole .maintainer = true → (st.bounties i).status ≠ .Claimed ∧ (st.bounties i).status ≠ .Disputed) :
    Turns st st' none := by
  simp only [Storage.cancelBounty, bind_unit_ok, require_ok] at h
  obtain ⟨hrole, -, hunpaid, h⟩ := h
  obtain rfl := Except.ok.inj h
  exact .of_turn (.cancels hunpaid (hcareful (onlyRole_ok hrole)))

theorem finalize_turns {prNumber total : ℕ} {recipients : List Address} {amounts : List ℕ} {pending : Option Pending}
    (h : st.finalize msg i prNumber recipients amounts total = .ok st') (hclaimed : (st.bounties i).status = .Claimed)
    (hendowed : ∀ p ∈ pending, p.Endowed) : Turns st st' pending := by
  obtain ⟨totalPaidOut, -, h⟩ := bind_ok.mp h
  obtain rfl := Except.ok.inj h
  exact ⟨.inr ⟨i, _, .pays hclaimed, rfl⟩, rfl, hendowed⟩

theorem payBounty_turns {prNumber : ℕ} {recipient : Address} {transfers : List (Address × ℕ)}
    (h : st.payBounty msg i prNumber recipient = .ok (st', transfers)) : Turns st st' (some (.payment i prNumber transfers)) := by
  simp only [Storage.payBounty, bind_unit_ok, @bind_ok Revert Storage, require_ok] at h
  obtain ⟨-, -, -, -, hclaimed, -, hrecipient, paid, hfinal, -, h⟩ := h
  obtain ⟨rfl, rfl⟩ := Prod.mk.inj (Except.ok.inj h)
  refine finalize_turns hfinal hclaimed fun p hp => ?_
  obtain rfl := Option.some.inj hp
  intro transfer htransfer hzero
  rw [List.mem_singleton.mp htransfer] at hzero
  exact absurd hzero hrecipient

theorem payBountyMultiple_turns {prNumber : ℕ} {recipients : List Address} {amounts : List ℕ} {transfers : List (Address × ℕ)}
    (h : st.payBountyMultiple msg i prNumber recipients amounts = .ok (st', transfers))
    (hcareful : st.passesMultiple msg i recipients amounts → ∀ transfer ∈ recipients.zip amounts, transfer.1 = 0 → transfer.2 = 0) :
    Turns st st' (some (.payment i prNumber transfers)) := by
  simp only [Storage.payBountyMultiple, Storage.whenNotPaused, Storage.bountyExists, bind_unit_ok, @bind_ok Revert Storage,
    @bind_ok Revert ℕ, require_ok] at h
  obtain ⟨hrole, hpaused, hguard, hexists, hlength, -, hclaimed, total, htotal, hamount, -, paid, hfinal, h⟩ := h
  obtain ⟨rfl, rfl⟩ := Prod.mk.inj (Except.ok.inj h)
  have hsum := sumAmounts_ok htotal
  rw [zero_add] at hsum
  have hpasses : st.passesMultiple msg i recipients amounts :=
    ⟨onlyRole_ok hrole, hpaused, nonReentrant_ok hguard, hexists, hlength, hclaimed, hsum ▸ hamount⟩
  refine finalize_turns hfinal hclaimed fun p hp => ?_
  obtain rfl := Option.some.inj hp
  exact hcareful hpasses

theorem run_turns {s : BountyPayment} {call : BountyCall} {pending : Option Pending}
    (h : BountyPayment.run s.storage msg call = .ok (st', pending)) (hcareful : Careful s (.call msg call)) :
    Turns s.storage st' pending := by
  have hquiet : ∀ {st : Storage}, st.bounties = s.storage.bounties → st.paid = s.storage.paid → Turns s.storage st none :=
    fun hbounties hpaid => ⟨.inl hbounties, hpaid, fun p hp => by cases hp⟩
  have hwithdraws : Turns s.storage s.storage (some .withdrawal) :=
    ⟨.inl rfl, rfl, fun p hp => Option.some.inj hp ▸ trivial⟩
  cases call <;> obtain ⟨_, hrun, ⟨⟩⟩ := map_ok.mp h
  case registerBounty => exact registerBounty_turns hrun
  case claimBounty => exact claimBounty_turns hrun
  case expireClaim => exact expireClaim_turns hrun
  case payBounty => exact payBounty_turns hrun
  case payBountyMultiple => exact payBountyMultiple_turns hrun hcareful
  case disputeBounty => exact disputeBounty_turns hrun
  case resolveDispute => exact resolveDispute_turns hrun
  case cancelBounty => exact cancelBounty_turns hrun hcareful
  case setDefaultClaimTimeout =>
    obtain ⟨-, -, hrun⟩ : _ ∧ _ ∧ _ := by simpa only [Storage.setDefaultClaimTimeout, bind_unit_ok] using hrun
    obtain rfl := Except.ok.inj hrun
    exact hquiet rfl rfl
  case pause | unpause =>
    obtain ⟨-, hrun⟩ := bind_unit_ok.mp hrun
    obtain rfl := Except.ok.inj hrun
    exact hquiet rfl rfl
  case withdrawNative | withdrawToken => exact hwithdraws

end Calls

/-! ### Runs -/

section Runs
variable {I : Storage → Prop} {J : Pending → Prop}

/-- Of the storage and of each that a frame may restore, and of what each frame has left to do. -/
def Everywhere (I : Storage → Prop) (J : Pending → Prop) (s : BountyPayment) : Prop :=
  I s.storage ∧ ∀ frame ∈ s.frames, I frame.saved ∧ J frame.pending

theorem everywhere_resume
    (htransfer : ∀ st i prNumber transfer rest, I st → J (.payment i prNumber (transfer :: rest)) →
      I (BountyPayment.transferred st i prNumber transfer) ∧ J (.payment i prNumber rest))
    (hfinish : ∀ st, I st → I { st with entered := false }) {st : Storage} {frame : Frame} (hst : I st) (hframe : I frame.saved ∧ J frame.pending) :
    I (BountyPayment.resume st frame.saved frame.pending).1 ∧
      ∀ f ∈ (BountyPayment.resume st frame.saved frame.pending).2, I f.saved ∧ J f.pending := by
  obtain ⟨saved, pending⟩ := frame
  cases pending with
  | foreign | withdrawal => exact ⟨hst, List.forall_mem_nil _⟩
  | payment i prNumber transfers =>
    cases transfers with
    | nil => exact ⟨hfinish _ hst, List.forall_mem_nil _⟩
    | cons transfer rest =>
      obtain ⟨hnext, hleft⟩ := htransfer _ _ _ _ _ hst hframe.2
      cases rest with
      | nil => exact ⟨hfinish _ hnext, List.forall_mem_nil _⟩
      | cons next rest => exact ⟨hnext, List.forall_mem_singleton.mpr ⟨hframe.1, hleft⟩⟩

theorem Everywhere.step (hforeign : J .foreign)
    (hcall : ∀ st st' pending, I st → Turns st st' pending → I st' ∧ ∀ p ∈ pending, J p)
    (htransfer : ∀ st i prNumber transfer rest, I st → J (.payment i prNumber (transfer :: rest)) →
      I (BountyPayment.transferred st i prNumber transfer) ∧ J (.payment i prNumber rest))
    (hfinish : ∀ st, I st → I { st with entered := false }) {s s' : BountyPayment} {a : BountyPayment.BountyAct} (h : Everywhere I J s)
    (hcareful : Careful s a) (hstep : s.step a = some s') : Everywhere I J s' := by
  obtain ⟨hstorage, hframes⟩ := h
  unfold BountyPayment.step at hstep
  cases a with
  | call msg call =>
    dsimp only at hstep
    cases hrun : BountyPayment.run s.storage msg call with
    | error revert =>
      rw [hrun] at hstep
      obtain rfl := Option.some.inj hstep
      exact ⟨hstorage, hframes⟩
    | ok result =>
      obtain ⟨st, pending⟩ := result
      rw [hrun] at hstep
      obtain ⟨hst, hpending⟩ := hcall _ _ _ hstorage (run_turns hrun hcareful)
      cases pending with
      | none =>
        obtain rfl := Option.some.inj hstep
        exact ⟨hst, hframes⟩
      | some pending =>
        obtain rfl := Option.some.inj hstep
        exact ⟨hst, List.forall_mem_cons.mpr ⟨⟨hstorage, hpending _ rfl⟩, hframes⟩⟩
  | foreignBegins =>
    obtain rfl := Option.some.inj hstep
    exact ⟨hstorage, List.forall_mem_cons.mpr ⟨⟨hstorage, hforeign⟩, hframes⟩⟩
  | returns success =>
    dsimp only at hstep
    cases hlist : s.frames with
    | nil =>
      rw [hlist] at hstep
      cases hstep
    | cons frame rest =>
      rw [hlist, List.forall_mem_cons] at hframes
      rw [hlist] at hstep
      dsimp only at hstep
      split_ifs at hstep
      · obtain rfl := Option.some.inj hstep
        obtain ⟨hst, hnew⟩ := everywhere_resume htransfer hfinish hstorage hframes.1
        exact ⟨hst, List.forall_mem_append.mpr ⟨hnew, hframes.2⟩⟩
      · obtain rfl := Option.some.inj hstep
        exact ⟨hframes.1.1, hframes.2⟩

end Runs

namespace Storage

/-- Nothing has gone to the zero address, and every bounty has a claimant when it should. -/
structure Kept (st : Storage) : Prop where
  recipients : ∀ event ∈ st.paid, event.recipient = 0 → event.amount = 0
  coherent : ∀ i, (st.bounties i).Coherent

theorem Kept.turns {st st' : Storage} {pending : Option Pending} (h : Kept st) (hturns : Turns st st' pending) :
    Kept st' ∧ ∀ p ∈ pending, p.Endowed := by
  refine ⟨⟨?_, fun i => ?_⟩, hturns.endowed⟩
  · rw [hturns.paid]
    exact h.recipients
  · rcases hturns.bounties with hsame | ⟨j, bounty, hturn, hset⟩
    · rw [hsame]
      exact h.coherent i
    · rw [hset]
      by_cases hi : i = j
      · rw [hi, Function.update_self]
        exact hturn.coherent (h.coherent j)
      · rw [Function.update_of_ne hi]
        exact h.coherent i

theorem Kept.transfer (st : Storage) (i prNumber : ℕ) (transfer : Address × ℕ) (rest : List (Address × ℕ)) (h : Kept st)
    (hendowed : (Pending.payment i prNumber (transfer :: rest)).Endowed) :
    Kept (BountyPayment.transferred st i prNumber transfer) ∧ (Pending.payment i prNumber rest).Endowed := by
  obtain ⟨hfirst, hrest⟩ := List.forall_mem_cons.mp hendowed
  refine ⟨⟨List.forall_mem_append.mpr ⟨h.recipients, ?_⟩, h.coherent⟩, hrest⟩
  exact List.forall_mem_singleton.mpr hfirst

end Storage

def Storage.Registered (st : Storage) (i amount : ℕ) : Prop := 0 < (st.bounties i).createdAt ∧ (st.bounties i).amount = amount

theorem Storage.Registered.turns {st st' : Storage} {pending : Option Pending} {i amount : ℕ} (h : st.Registered i amount)
    (hturns : Turns st st' pending) : st'.Registered i amount := by
  rcases hturns.bounties with hsame | ⟨j, bounty, hturn, hset⟩
  · unfold Storage.Registered
    rw [hsame]
    exact h
  · unfold Storage.Registered
    rw [hset]
    by_cases hi : i = j
    · rw [hi, Function.update_self]
      rw [hi] at h
      obtain ⟨hcreated, hamount⟩ := hturn.amount h.1
      exact ⟨hcreated, hamount.trans h.2⟩
    · rw [Function.update_of_ne hi]
      exact h

theorem Sound.settled {st : Storage} {payment : Option (ℕ × List (Address × ℕ))} (h : Sound st payment) (hidle : st.entered = false) {i : ℕ}
    (hpaid : (st.bounties i).status = .Paid) : ((st.transfersOf i).map Prod.snd).sum = (st.bounties i).amount := by
  have hnone : payment = none := by
    have hentered := h.entered
    rw [hidle] at hentered
    exact Option.isNone_iff_eq_none.mp (by simpa using hentered.symm)
  have htransfers := h.transfers i
  obtain ⟨-, hlength, -, hsum⟩ := h.record i hpaid
  rw [hnone, left, List.append_nil, Storage.due, if_pos hpaid, Payment.transfers] at htransfers
  rw [htransfers, List.map_snd_zip hlength.ge, hsum]

namespace BountyPayment

theorem kept_start : Everywhere Storage.Kept Pending.Endowed start :=
  ⟨⟨List.forall_mem_nil _, fun _ => ⟨rfl, rfl⟩⟩, List.forall_mem_nil _⟩

theorem careful_kept {s : BountyPayment} (hs : Reachable step Careful start s) : Everywhere Storage.Kept Pending.Endowed s :=
  hs.invariant kept_start fun _ _ _ h hcareful hstep =>
    Everywhere.step trivial (fun _ _ _ hst hturns => hst.turns hturns) Storage.Kept.transfer (fun _ hst => ⟨hst.recipients, hst.coherent⟩) h
      hcareful hstep

/-- In every careful run the funds go to somebody, a paid bounty is paid in full with the amount it was registered with, and the
claimant is there exactly while the bounty is claimed, disputed or paid. -/
theorem careful_legitimate {s : BountyPayment} (hs : Reachable step Careful start s) :
    s.storage.Legitimate ∧ (s.frames = [] → ∀ i, 0 < (s.storage.bounties i).createdAt → ∀ s', Reachable step Careful s s' →
      (s'.storage.bounties i).amount = (s.storage.bounties i).amount) := by
  have hkept := (careful_kept hs).1
  have hsane : Sane s := hs.invariant consistent_start fun _ _ _ h _ hstep => Consistent.step h hstep
  refine ⟨⟨hkept.recipients, fun hidle i hpaid => ?_, fun i _ => ?_, fun i _ => ?_⟩, fun hframes i hcreated s' hs' => ?_⟩
  · exact (Consistent.sound hsane).settled hidle hpaid
  · exact (hkept.coherent i).claim.1
  · exact (hkept.coherent i).claim.2
  · have hstart : Everywhere (fun st => st.Registered i (s.storage.bounties i).amount) (fun _ => True) s := by
      refine ⟨⟨hcreated, rfl⟩, ?_⟩
      rw [hframes]
      exact List.forall_mem_nil _
    have hlater := hs'.invariant hstart fun _ _ _ h hcareful hstep =>
      Everywhere.step trivial (fun _ _ _ hst hturns => ⟨hst.turns hturns, fun _ _ => trivial⟩)
        (fun _ _ _ _ _ hst _ => ⟨hst, trivial⟩) (fun _ hst => hst) h hcareful hstep
    exact hlater.1.2

theorem careful_legitimate_callback : callbackState.storage.Legitimate ∧ callbackState.storage.transfersOf 7 = [(9, 2), (8, 3)] ∧
    ∀ s', Reachable step Careful callbackState s' → (s'.storage.bounties 8).amount = (callbackState.storage.bounties 8).amount := by
  have hexec : exec step start callbackRun = some callbackState := eq_some_getD (by decide +kernel) _
  have hcareful : ∀ s, ∀ a ∈ callbackRun, Careful s a := by
    intro s a ha
    simp only [callbackRun, List.mem_cons, List.not_mem_nil, or_false] at ha
    rcases ha with rfl | rfl | rfl | rfl | rfl | rfl | rfl | rfl | rfl | rfl | rfl <;> simp [Careful]
  have hframes : callbackState.frames.length = 0 := by decide +kernel
  obtain ⟨hlegitimate, hfixed⟩ := careful_legitimate (Reachable.start.of_exec callbackRun hcareful hexec)
  exact ⟨hlegitimate, by decide +kernel, hfixed (List.length_eq_zero_iff.mp hframes) 8 (by decide +kernel)⟩

/-- Issue 7 is paid to the zero address, and issue 8 is cancelled while it is claimed. -/
def carelessRun : List BountyAct :=
  [.call operator (.registerBounty 7 5 0 [] true), .call operator (.registerBounty 8 4 0 [] true), .call operator (.claimBounty 7 9),
    .call operator (.claimBounty 8 9), .call operator (.payBountyMultiple 7 70 [0] [5]), .returns true, .call operator (.cancelBounty 8 [])]

def carelessState : BountyPayment := (exec step start carelessRun).getD start

theorem careless_illegitimate : Reachable step (fun _ _ => True) start carelessState ∧
    carelessState.storage.transfersOf 7 = [(0, 5)] ∧ (carelessState.storage.bounties 8).status = .Cancelled ∧
    (carelessState.storage.bounties 8).claimant = 9 ∧ ¬ carelessState.storage.Legitimate := by
  have hexec : exec step start carelessRun = some carelessState := eq_some_getD (by decide +kernel) _
  refine ⟨Reachable.start.of_exec carelessRun (fun _ _ _ => trivial) hexec, by decide +kernel, by decide +kernel, by decide +kernel, ?_⟩
  intro h
  have hclaim := (h.claimant 8 (by decide +kernel)).mp (by decide +kernel)
  unfold Storage.hasClaim at hclaim
  revert hclaim
  decide +kernel

end BountyPayment

end OxScada.Contracts
