import OxScada.Dnp3.Outstation

/-! With a key provisioned, secure authentication stands before every effect of a critical
function. The journal of the controls, the counter of the clears and the two switches show
each such effect, so the gate is about what can change them. -/

namespace OxScada.Dnp3
open OxScada.Bytes

structure CriticalView where
  journal : List ControlEvent
  unsolicitedEnabled : Bool
  clears : ℕ
  restartPending : Bool

variable (ctx : OutstationContext)

def criticalView : CriticalView :=
  ⟨ctx.controls.journal, ctx.unsolicitedEnabled, ctx.eventBuffer.clears, ctx.restartPending⟩

/-! ### What is left alone -/

variable (req : ParsedRequest)

theorem handleRead_keeps :
    (handleRead ctx req).2.secureAuth = ctx.secureAuth ∧ criticalView (handleRead ctx req).2 = criticalView ctx := by
  unfold handleRead
  split
  · exact ⟨rfl, rfl⟩
  · dsimp only
    split_ifs
    · exact ⟨rfl, rfl⟩
    · exact ⟨rfl, rfl⟩

theorem handleConfirm_keeps (session : OutstationSession) :
    (handleConfirm ctx req session).2.1.secureAuth = ctx.secureAuth ∧
      criticalView (handleConfirm ctx req session).2.1 = criticalView ctx := by
  unfold handleConfirm
  split
  · exact ⟨rfl, rfl⟩
  · split_ifs
    · exact ⟨rfl, rfl⟩
    · split <;> exact ⟨rfl, rfl⟩
    · split <;> exact ⟨rfl, rfl⟩

theorem handleWrite_secureAuth :
    (handleWrite ctx req).2.secureAuth = ctx.secureAuth := by
  unfold handleWrite
  split
  · split_ifs <;> rfl
  · rfl

variable (session : OutstationSession)

theorem handleFunction_secureAuth (req : ParsedRequest)
    (now : ℤ) : (handleFunction ctx session req now).2.1.secureAuth = ctx.secureAuth := by
  unfold handleFunction
  split_ifs
  · exact (handleConfirm_keeps ctx req session).1
  · dsimp only
    split
    · exact (handleRead_keeps ctx req).1
    · exact (handleRead_keeps ctx req).1
  · exact handleWrite_secureAuth ctx req
  · rfl
  · rfl
  · rfl
  · rfl
  · rfl

theorem handleFunction_view {ctx : OutstationContext} {session : OutstationSession} {req : ParsedRequest} {now : ℤ}
    (hfunc : isCriticalFunction req.func = false) :
    criticalView (handleFunction ctx session req now).2.1 = criticalView ctx := by
  simp only [isCriticalFunction, List.mem_cons, List.not_mem_nil, or_false, decide_eq_false_iff_not, not_or] at hfunc
  obtain ⟨hselect, hoperate, hdirect, hdirectNr, hcold, hwarm, henable, hdisable, hwrite⟩ := hfunc
  unfold handleFunction
  split_ifs with hconfirm hread hcontrol hrestart
  · exact (handleConfirm_keeps ctx req session).2
  · dsimp only
    split
    · exact (handleRead_keeps ctx req).2
    · exact (handleRead_keeps ctx req).2
  · rcases hcontrol with h | h | h | h
    · exact absurd h hselect
    · exact absurd h hoperate
    · exact absurd h hdirect
    · exact absurd h hdirectNr
  · rcases hrestart with h | h
    · exact absurd h hcold
    · exact absurd h hwarm
  · rfl

theorem handleChecked_secureAuth (req : ParsedRequest)
    (now : ℤ) : (handleChecked ctx session req now).2.1.secureAuth = ctx.secureAuth := by
  unfold handleChecked
  split
  · rfl
  · exact handleFunction_secureAuth ctx session req now

/-! ### Challenges -/

/-- A challenge that was issued for the ASDU an association sent. -/
structure PendingChallenge.IssuedFor (p : PendingChallenge) (userNumber : ℕ) (asdu : Buffer) (now : ℤ) : Prop where
  reason : p.challenge.reason = challengeReasonCritical
  user : p.expectedUserNumber = userNumber
  asdu : p.criticalAsdu = asdu
  time : p.issuedAt = now

/-- What handling a request of an association can do to the challenges: drop some, and issue one
for that request. -/
structure Challenged (association userNumber : ℕ) (asdu : Buffer) (now : ℤ) (sa sa' : Sav5Outstation) : Prop where
  keys : sa'.controlDirectionKeys = sa.controlDirectionKeys
  counter : sa.csqCounter ≤ sa'.csqCounter
  pending : ∀ other, ∀ p ∈ sa'.pending other, sa.pending other = some p ∨
    (other = association ∧ p.IssuedFor userNumber asdu now ∧ p.serial = sa.csqCounter + 1 ∧
      sa'.csqCounter = sa.csqCounter + 1)

variable {association userNumber : ℕ} {asdu : Buffer} {now : ℤ}

theorem Challenged.refl (sa : Sav5Outstation) : Challenged association userNumber asdu now sa sa :=
  ⟨rfl, le_rfl, fun _ _ hp => .inl hp⟩

variable {p : PendingChallenge} {sa sa' : Sav5Outstation}

theorem mem_clearAssociation {other : ℕ}
    (hp : (sa.clearAssociation association).pending other = some p) :
    other ≠ association ∧ sa.pending other = some p := by
  rw [Sav5Outstation.clearAssociation_pending] at hp
  by_cases hsame : other = association
  · rw [hsame, Function.update_self] at hp
    cases hp
  · rw [Function.update_of_ne hsame] at hp
    exact ⟨hsame, hp⟩

theorem Challenged.clear (sa : Sav5Outstation) (dropped : ℕ) :
    Challenged association userNumber asdu now sa (sa.clearAssociation dropped) :=
  ⟨rfl, le_rfl, fun _ _ hp => .inl (mem_clearAssociation hp).2⟩

theorem Challenged.trans {sa'' : Sav5Outstation} (h : Challenged association userNumber asdu now sa sa')
    (h' : Challenged association userNumber asdu now sa' sa'') (hcounter : sa'.csqCounter = sa.csqCounter) :
    Challenged association userNumber asdu now sa sa'' where
  keys := h'.keys.trans h.keys
  counter := h.counter.trans h'.counter
  pending := by
    intro other p hp
    rcases h'.pending other p hp with hkept | ⟨hother, hissued, hserial, hnext⟩
    · rcases h.pending other p hkept with hkept | ⟨hother, hissued, hserial, hnext⟩
      · exact .inl hkept
      · rw [hnext] at hcounter
        omega
    · exact .inr ⟨hother, hissued, by rw [hserial, hcounter], by rw [hnext, hcounter]⟩

theorem mem_pending_update {pending : ℕ → Option PendingChallenge} {q : PendingChallenge} {other : ℕ}
    (hp : Function.update pending association (some q) other = some p) :
    (other = association ∧ p = q) ∨ pending other = some p := by
  by_cases hsame : other = association
  · rw [hsame, Function.update_self] at hp
    exact .inl ⟨hsame, (Option.some.inj hp).symm⟩
  · rw [Function.update_of_ne hsame] at hp
    exact .inr hp

theorem issueChallenge_challenged {nonce : Buffer} {appSeq : ℕ}
    {challenge : Sav5Challenge}
    (h : sa.issueChallenge userNumber association asdu nonce now appSeq = .ok (challenge, sa')) :
    Challenged association userNumber asdu now sa sa' ∧ sa'.csqCounter = sa.csqCounter + 1 ∧
      ∃ p, sa'.pending association = some p ∧ p.IssuedFor userNumber asdu now ∧ p.serial = sa.csqCounter + 1 := by
  unfold Sav5Outstation.issueChallenge at h
  split_ifs at h with huser hwaiting
  obtain ⟨-, rfl⟩ := Prod.mk.inj (Except.ok.inj h)
  refine ⟨⟨rfl, Nat.le_succ _, fun other p hp => ?_⟩, rfl, _, Function.update_self .., ⟨rfl, rfl, rfl, rfl⟩, rfl⟩
  rcases mem_pending_update (show Function.update sa.pending association _ other = some p from hp) with
    ⟨hother, rfl⟩ | hkept
  · exact .inr ⟨hother, ⟨rfl, rfl, rfl, rfl⟩, rfl, rfl⟩
  · exact .inl hkept

theorem bindChallengeFragment_mem {fragment : Buffer}
    (h : sa.bindChallengeFragment association fragment = .ok sa') :
    sa'.controlDirectionKeys = sa.controlDirectionKeys ∧ sa'.csqCounter = sa.csqCounter ∧
      ∀ other, ∀ p ∈ sa'.pending other, sa.pending other = some p ∨
        (other = association ∧ ∃ q, sa.pending association = some q ∧ p = { q with challengeFragment := some fragment }) := by
  unfold Sav5Outstation.bindChallengeFragment at h
  split at h
  · cases h
  · rename_i q hq
    dsimp only at h
    split_ifs at h
    obtain rfl := Except.ok.inj h
    refine ⟨rfl, rfl, fun other p hp => ?_⟩
    rw [Option.mem_def, Sav5Outstation.wait_pending] at hp
    rcases mem_pending_update hp with ⟨hother, rfl⟩ | hkept
    · exact .inr ⟨hother, q, hq, rfl⟩
    · exact .inl hkept

theorem challengeRequest_challenged (association userNumber : ℕ) (req : ParsedRequest) (now : ℤ)
    (nonce : Buffer) :
    Challenged association userNumber req.raw now ctx.secureAuth
        (challengeRequest ctx association userNumber req now nonce).2.secureAuth ∧
      criticalView (challengeRequest ctx association userNumber req now nonce).2 = criticalView ctx := by
  unfold challengeRequest
  split
  · exact ⟨.refl _, rfl⟩
  · rename_i challenge sa hissue
    obtain ⟨hchallenged, hcounter, q, hq, hissued, hserial⟩ := issueChallenge_challenged hissue
    dsimp only
    split
    · exact ⟨hchallenged, rfl⟩
    · split
      · exact ⟨hchallenged, rfl⟩
      · rename_i sa' hbind
        obtain ⟨hkeys, hcounter', hpending⟩ := bindChallengeFragment_mem hbind
        refine ⟨⟨hkeys.trans hchallenged.keys, hcounter' ▸ hchallenged.counter, fun other p hp => ?_⟩, rfl⟩
        rcases hpending other p hp with hkept | ⟨rfl, q', hq', rfl⟩
        · rw [hcounter']
          exact hchallenged.pending other p hkept
        · obtain rfl := Option.some.inj (hq.symm.trans hq')
          exact .inr ⟨rfl, ⟨hissued.reason, hissued.user, hissued.asdu, hissued.time⟩, hserial, hcounter'.trans hcounter⟩

theorem isWaiting_challenged (sa : Sav5Outstation) (association userNumber : ℕ) (asdu : Buffer) (now : ℤ) :
    Challenged association userNumber asdu now sa (sa.isWaiting association now).2 ∧
      (sa.isWaiting association now).2.csqCounter = sa.csqCounter := by
  unfold Sav5Outstation.isWaiting
  split
  · exact ⟨.refl sa, rfl⟩
  · split_ifs
    · exact ⟨.clear sa association, rfl⟩
    · exact ⟨.refl sa, rfl⟩

theorem handleApplicationRequest_challenged (association userNumber : ℕ) (req : ParsedRequest) (now : ℤ) (nonce : Buffer) :
    Challenged association userNumber req.raw now ctx.secureAuth
      (handleApplicationRequest ctx session association userNumber req now nonce).2.1.secureAuth := by
  obtain ⟨hwaiting, hcounter⟩ := isWaiting_challenged ctx.secureAuth association userNumber req.raw now
  unfold handleApplicationRequest
  dsimp only
  split_ifs
  · exact .clear _ _
  · exact .refl _
  · exact hwaiting
  · have hchallenge := challengeRequest_challenged
      { ctx with secureAuth := (ctx.secureAuth.isWaiting association now).2 } association userNumber req now nonce
    exact hwaiting.trans hchallenge.1 hcounter
  · rw [handleChecked_secureAuth]
    exact hwaiting

theorem handleApplicationRequest_view {ctx : OutstationContext} (hkey : ctx.secureAuth.hasUser userNumber = true)
    (session : OutstationSession) (association : ℕ) (req : ParsedRequest) (now : ℤ) (nonce : Buffer) :
    criticalView (handleApplicationRequest ctx session association userNumber req now nonce).2.1 = criticalView ctx := by
  obtain ⟨hwaiting, -⟩ := isWaiting_challenged ctx.secureAuth association userNumber req.raw now
  unfold handleApplicationRequest
  dsimp only
  split_ifs with hnoAck hauth hbusy hcritical
  · rfl
  · rfl
  · rfl
  · exact (challengeRequest_challenged _ association userNumber req now nonce).2
  · have hkey' : (ctx.secureAuth.isWaiting association now).2.hasUser userNumber = true := by
      rw [Sav5Outstation.hasUser, hwaiting.keys]
      exact hkey
    unfold handleChecked
    split
    · rfl
    · rename_i hcomplete
      -- a critical function with complete objects would have been challenged
      apply handleFunction_view
      by_contra hfunc
      rw [Bool.not_eq_false] at hfunc
      exact hcritical ⟨hfunc, by simpa [hfunc] using hcomplete, hkey'⟩

/-! ### Replies -/

structure Answers (hmac : Hmac) (sa : Sav5Outstation) (p : PendingChallenge) (req : ParsedRequest) (now : ℤ) : Prop where
  func : req.func = FunctionCode.authRequest
  appSeq : req.seq % 16 = p.expectedAppSeq
  inTime : now - p.issuedAt ≤ sa.challengeTimeoutMs
  reply : ∃ body ∈ isAuthObject req 2, ∃ reply, decodeReplyObject body = .ok reply ∧
    reply.challengeSeq = p.challenge.challengeSeq ∧ reply.userNumber = p.expectedUserNumber ∧
    ∃ challengeFragment ∈ p.challengeFragment, ∃ key ∈ sa.controlDirectionKeys reply.userNumber,
      reply.mac = (hmac p.challenge.macAlgorithm.spec.1 key (challengeFragment ++ p.criticalAsdu)).take
        p.challenge.macAlgorithm.spec.2

theorem checkReply_ok {hmac : Hmac} {reply : Sav5Reply} {replyAppSeq : ℕ}
    {verified : VerifiedAsdu} (hreason : p.challenge.reason = challengeReasonCritical)
    (h : sa.checkReply hmac p reply replyAppSeq now = .ok verified) :
    verified.criticalAsdu = p.criticalAsdu ∧ replyAppSeq % 16 = p.expectedAppSeq ∧
      now - p.issuedAt ≤ sa.challengeTimeoutMs ∧ reply.challengeSeq = p.challenge.challengeSeq ∧
      reply.userNumber = p.expectedUserNumber ∧
      ∃ challengeFragment ∈ p.challengeFragment, ∃ key ∈ sa.controlDirectionKeys reply.userNumber,
        reply.mac = (hmac p.challenge.macAlgorithm.spec.1 key (challengeFragment ++ p.criticalAsdu)).take
          p.challenge.macAlgorithm.spec.2 := by
  unfold Sav5Outstation.checkReply at h
  split_ifs at h with hseq hcsq huser hexpired
  split at h
  · cases h
  · rename_i challengeFragment hfragment
    split at h
    · cases h
    · rename_i key hkey
      split_ifs at h with hmac'
      obtain rfl := Except.ok.inj h
      rw [Bool.not_eq_false, macEquals, decide_eq_true_iff, computeMac, if_pos hreason] at hmac'
      have hintime : now - p.issuedAt ≤ sa.challengeTimeoutMs := by
        rw [Sav5Outstation.expired, decide_eq_true_iff] at hexpired
        exact not_lt.mp hexpired
      exact ⟨rfl, not_not.mp hseq, hintime, (not_not.mp hcsq).symm, not_not.mp huser, challengeFragment, hfragment, key,
        hkey, hmac'.2.2.symm⟩

namespace Dnp3Outstation
variable {hmac : Hmac} {o o' : Dnp3Outstation} {req : ParsedRequest}

theorem authorise_secureAuth (hmac : Hmac) (o : Dnp3Outstation) (association : ℕ) (req : ParsedRequest) (now : ℤ) :
    (o.authorise hmac association req now).2 = o ∨
      (o.authorise hmac association req now).2 = o.withSecureAuth (o.ctx.secureAuth.clearAssociation association) := by
  unfold authorise
  dsimp only
  split_ifs
  · exact .inl rfl
  · split
    · exact .inr rfl
    · split
      · exact .inr rfl
      · unfold Sav5Outstation.verifyReply
        split
        · exact .inl rfl
        · exact .inr rfl

theorem authorise_some {verified : VerifiedAsdu}
    (hreason : ∀ p ∈ o.ctx.secureAuth.pending association, p.challenge.reason = challengeReasonCritical)
    (h : o.authorise hmac association req now = (some verified, o')) :
    ∃ p ∈ o.ctx.secureAuth.pending association, verified.criticalAsdu = p.criticalAsdu ∧
      Answers hmac o.ctx.secureAuth p req now ∧
      o' = o.withSecureAuth (o.ctx.secureAuth.clearAssociation association) := by
  unfold authorise at h
  dsimp only at h
  split_ifs at h with hfunc
  · cases h
  split at h
  · cases h
  · rename_i body hbody
    split at h
    · cases h
    · rename_i reply hreply
      unfold Sav5Outstation.verifyReply at h
      split at h
      · cases h
      · rename_i p hp
        dsimp only at h
        obtain ⟨hcheck, rfl⟩ := Prod.mk.inj h
        rcases hverified : Sav5Outstation.checkReply hmac o.ctx.secureAuth p reply req.seq now with e | verified'
        · rw [hverified] at hcheck
          cases hcheck
        · rw [hverified] at hcheck
          obtain rfl := Option.some.inj hcheck
          obtain ⟨hasdu, hseq, hintime, hcsq, huser, hmac'⟩ := checkReply_ok (hreason p hp) hverified
          exact ⟨p, hp, hasdu, ⟨not_not.mp hfunc, hseq, hintime, body, hbody, reply, hreply, hcsq, huser, hmac'⟩, rfl⟩

theorem dispatchSecureAuthReply_secureAuth (hmac : Hmac) (o : Dnp3Outstation) (association : ℕ) (req : ParsedRequest)
    (now later : ℤ) :
    (o.dispatchSecureAuthReply hmac association req now later).2.ctx.secureAuth =
      (o.authorise hmac association req now).2.ctx.secureAuth := by
  unfold dispatchSecureAuthReply
  split
  · rename_i hauthorised
    rw [hauthorised]
  · rename_i hauthorised
    rw [hauthorised]
    split
    · rfl
    · exact handleChecked_secureAuth ..

theorem authorise_sav5UserNumber (hmac : Hmac) (o : Dnp3Outstation) (association : ℕ) (req : ParsedRequest) (now : ℤ) :
    (o.authorise hmac association req now).2.sav5UserNumber = o.sav5UserNumber := by
  rcases authorise_secureAuth hmac o association req now with h | h
  · rw [h]
  · rw [h]
    rfl

theorem dispatchSecureAuthReply_sav5UserNumber (hmac : Hmac) (o : Dnp3Outstation) (association : ℕ) (req : ParsedRequest)
    (now later : ℤ) :
    (o.dispatchSecureAuthReply hmac association req now later).2.sav5UserNumber = o.sav5UserNumber := by
  rw [← authorise_sav5UserNumber hmac o association req now]
  unfold dispatchSecureAuthReply
  split
  · rename_i hauthorised
    rw [hauthorised]
  · rename_i hauthorised
    rw [hauthorised]
    split <;> rfl

end Dnp3Outstation

end OxScada.Dnp3
