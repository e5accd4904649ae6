import OxScada.Dnp3.AuthGate
import OxScada.Dnp3.SelectBeforeOperate

/-! Runs of an outstation with secure authentication: any fragments on any associations, and
any replies to the challenges. -/

namespace OxScada.Dnp3
open OxScada.Bytes OxScada.Runs


theorem parseRequest_raw {fragment : Buffer} {req : ParsedRequest} (h : parseRequest fragment = .ok req) :
    req.raw = fragment := by
  rcases fragment with _ | ⟨appControl, _ | ⟨func, body⟩⟩
  · cases h
  · cases h
  · obtain rfl := Except.ok.inj h
    rfl

structure AuthRun where
  outstation : Dnp3Outstation
  clock : ℤ := 0
  dispatched : List (ℕ × Buffer) := []
  executed : List ℕ := []

namespace AuthRun

def secureAuth (r : AuthRun) : Sav5Outstation := r.outstation.ctx.secureAuth

def Provisioned (r : AuthRun) : Prop := r.secureAuth.hasUser r.outstation.sav5UserNumber = true

def usedChallenge (hmac : Hmac) (r : AuthRun) (association : ℕ) (req : ParsedRequest) (now : ℤ) : List ℕ :=
  match (r.outstation.authorise hmac association req now).1 with
  | none => []
  | some _ => ((r.secureAuth.pending association).map PendingChallenge.serial).toList

end AuthRun

inductive AuthAct where
  | provision (userNumber : ℕ) (key : Buffer)
  | dispatch (association : ℕ) (fragment : Buffer) (now : ℤ) (nonce : Buffer)
  | dispatchSecureAuthReply (association : ℕ) (fragment : Buffer) (now later : ℤ)
  | onAssociationClosed (association : ℕ)

def authStep (hmac : Hmac) (r : AuthRun) : AuthAct → Option AuthRun
  | .provision userNumber key =>
    match r.secureAuth.setControlDirectionKey userNumber key with
    | .error _ => none
    | .ok secureAuth => some { r with outstation := r.outstation.withSecureAuth secureAuth }
  | .dispatch association fragment now nonce =>
    match parseRequest fragment with
    | .error _ => none
    | .ok req =>
      if now < r.clock then none
      else
        some { r with
          outstation := (r.outstation.dispatch association req now nonce).2
          clock := now
          dispatched := (association, fragment) :: r.dispatched }
  | .dispatchSecureAuthReply association fragment now later =>
    match parseRequest fragment with
    | .error _ => none
    | .ok req =>
      if now < r.clock ∨ later < now then none
      else
        some { r with
          outstation := (r.outstation.dispatchSecureAuthReply hmac association req now later).2
          clock := later
          executed := r.usedChallenge hmac association req now ++ r.executed }
  | .onAssociationClosed association => some { r with outstation := r.outstation.onAssociationClosed association }

structure AuthInv (r : AuthRun) : Prop where
  issued : ∀ association, ∀ p ∈ r.secureAuth.pending association,
    p.challenge.reason = challengeReasonCritical ∧ p.expectedUserNumber = r.outstation.sav5UserNumber ∧
      (association, p.criticalAsdu) ∈ r.dispatched ∧ p.issuedAt ≤ r.clock
  unused : ∀ association, ∀ p ∈ r.secureAuth.pending association,
    p.serial ≤ r.secureAuth.csqCounter ∧ p.serial ∉ r.executed
  distinct : ∀ association other, ∀ p ∈ r.secureAuth.pending association, ∀ q ∈ r.secureAuth.pending other,
    p.serial = q.serial → association = other
  used : ∀ serial ∈ r.executed, serial ≤ r.secureAuth.csqCounter
  once : r.executed.Nodup

variable {r r' : AuthRun}

theorem AuthInv.start (hpending : ∀ association, r.secureAuth.pending association = none)
    (hexecuted : r.executed = []) : AuthInv r where
  issued := by simp [hpending]
  unused := by simp [hpending]
  distinct := by simp [hpending]
  used := by simp [hexecuted]
  once := by simp [hexecuted]

theorem AuthInv.drop (h : AuthInv r)
    (hpending : ∀ association, ∀ p ∈ r'.secureAuth.pending association, r.secureAuth.pending association = some p)
    (hcounter : r'.secureAuth.csqCounter = r.secureAuth.csqCounter)
    (huser : r'.outstation.sav5UserNumber = r.outstation.sav5UserNumber) (hdispatched : r'.dispatched = r.dispatched)
    (hclock : r.clock ≤ r'.clock) (hexecuted : r'.executed = r.executed) : AuthInv r' where
  issued := by
    intro association p hp
    obtain ⟨hreason, hexpected, hsent, htime⟩ := h.issued association p (hpending association p hp)
    rw [huser, hdispatched]
    exact ⟨hreason, hexpected, hsent, htime.trans hclock⟩
  unused := by
    intro association p hp
    rw [hcounter, hexecuted]
    exact h.unused association p (hpending association p hp)
  distinct := by
    intro association other p hp q hq
    exact h.distinct association other p (hpending association p hp) q (hpending other q hq)
  used := by
    rw [hcounter, hexecuted]
    exact h.used
  once := by
    rw [hexecuted]
    exact h.once

theorem AuthInv.use (h : AuthInv r') {association : ℕ} {p : PendingChallenge}
    (hp : r.secureAuth.pending association = some p) (hr : AuthInv r)
    (hcounter : r'.secureAuth.csqCounter = r.secureAuth.csqCounter) (hexecuted : r'.executed = r.executed)
    (hpending : ∀ other, ∀ q ∈ r'.secureAuth.pending other, other ≠ association ∧ r.secureAuth.pending other = some q) :
    AuthInv { r' with executed := p.serial :: r'.executed } where
  issued := h.issued
  unused := by
    intro other q hq
    obtain ⟨hother, hq'⟩ := hpending other q hq
    refine ⟨(h.unused other q hq).1, fun hmem => ?_⟩
    rcases List.mem_cons.mp hmem with hserial | hmem
    · exact hother (hr.distinct other association q hq' p hp hserial)
    · exact (h.unused other q hq).2 hmem
  distinct := h.distinct
  used := by
    intro serial hmem
    rcases List.mem_cons.mp hmem with rfl | hmem
    · exact (hr.unused association p hp).1.trans hcounter.ge
    · exact h.used serial hmem
  once := by
    refine List.nodup_cons.mpr ⟨?_, h.once⟩
    rw [hexecuted]
    exact (hr.unused association p hp).2

theorem AuthInv.challenge (h : AuthInv r) {association : ℕ} {asdu : Buffer}
    (hchallenged : Challenged association r.outstation.sav5UserNumber asdu r'.clock r.secureAuth r'.secureAuth)
    (huser : r'.outstation.sav5UserNumber = r.outstation.sav5UserNumber)
    (hdispatched : r'.dispatched = (association, asdu) :: r.dispatched) (hclock : r.clock ≤ r'.clock)
    (hexecuted : r'.executed = r.executed) : AuthInv r' where
  issued := by
    intro other p hp
    rw [huser, hdispatched]
    rcases hchallenged.pending other p hp with hkept | ⟨rfl, hissued, -⟩
    · obtain ⟨hreason, hexpected, hsent, htime⟩ := h.issued other p hkept
      exact ⟨hreason, hexpected, List.mem_cons_of_mem _ hsent, htime.trans hclock⟩
    · rw [hissued.asdu]
      exact ⟨hissued.reason, hissued.user, List.mem_cons_self .., hissued.time.le⟩
  unused := by
    intro other p hp
    rw [hexecuted]
    rcases hchallenged.pending other p hp with hkept | ⟨rfl, -, hserial, hnext⟩
    · exact ⟨(h.unused other p hkept).1.trans hchallenged.counter, (h.unused other p hkept).2⟩
    · rw [hserial, hnext]
      exact ⟨le_rfl, fun hmem => Nat.not_succ_le_self _ (h.used _ hmem)⟩
  distinct := by
    intro first second p hp q hq hserial
    rcases hchallenged.pending first p hp with hp | ⟨rfl, -, hp, -⟩ <;>
      rcases hchallenged.pending second q hq with hq | ⟨rfl, -, hq, -⟩
    · exact h.distinct first second p hp q hq hserial
    · have hle := (h.unused first p hp).1
      omega
    · have hle := (h.unused second q hq).1
      omega
    · rfl
  used := by
    intro serial hmem
    rw [hexecuted] at hmem
    exact (h.used serial hmem).trans hchallenged.counter
  once := by
    rw [hexecuted]
    exact h.once

theorem authStep_inv {hmac : Hmac} {a : AuthAct} (h : AuthInv r) (hstep : authStep hmac r a = some r') :
    AuthInv r' := by
  cases a with
  | provision userNumber key =>
    simp only [authStep] at hstep
    split at hstep
    · cases hstep
    · rename_i secureAuth hset
      obtain rfl := Option.some.inj hstep
      unfold Sav5Outstation.setControlDirectionKey at hset
      split_ifs at hset
      obtain rfl := Except.ok.inj hset
      exact h.drop (fun _ _ hp => hp) rfl rfl rfl le_rfl rfl
  | dispatch association fragment now nonce =>
    simp only [authStep] at hstep
    split at hstep
    · cases hstep
    · rename_i req hparse
      split_ifs at hstep with hclock
      obtain rfl := Option.some.inj hstep
      have hchallenged := handleApplicationRequest_challenged r.outstation.ctx (r.outstation.sessions association)
        association r.outstation.sav5UserNumber req now nonce
      rw [parseRequest_raw hparse] at hchallenged
      exact h.challenge hchallenged rfl rfl (not_lt.mp hclock) rfl
  | dispatchSecureAuthReply association fragment now later =>
    simp only [authStep] at hstep
    split at hstep
    · cases hstep
    · rename_i req hparse
      split_ifs at hstep with hclock
      obtain rfl := Option.some.inj hstep
      rw [not_or, not_lt, not_lt] at hclock
      have hlater : r.clock ≤ later := hclock.1.trans hclock.2
      have hsecure := Dnp3Outstation.dispatchSecureAuthReply_secureAuth hmac r.outstation association req now later
      have huser := Dnp3Outstation.dispatchSecureAuthReply_sav5UserNumber hmac r.outstation association req now later
      have hkept := Dnp3Outstation.authorise_secureAuth hmac r.outstation association req now
      -- the state without its record of the reply
      let r₀ : AuthRun := { r with
        outstation := (r.outstation.dispatchSecureAuthReply hmac association req now later).2, clock := later }
      have hcounter : r₀.secureAuth.csqCounter = r.secureAuth.csqCounter := by
        rw [show r₀.secureAuth = _ from hsecure]
        rcases hkept with hkept | hkept <;> rw [hkept] <;> rfl
      have hpending : ∀ other, ∀ q ∈ r₀.secureAuth.pending other, r.secureAuth.pending other = some q := by
        rw [show r₀.secureAuth = _ from hsecure]
        intro other q hq
        rcases hkept with hkept | hkept
        · rw [hkept] at hq
          exact hq
        · rw [hkept] at hq
          exact (mem_clearAssociation hq).2
      have hdrop : AuthInv r₀ := h.drop hpending hcounter huser rfl hlater rfl
      rcases hauthorised : r.outstation.authorise hmac association req now with ⟨_ | verified, o⟩
      · have hused : r.usedChallenge hmac association req now = [] := by
          rw [AuthRun.usedChallenge, hauthorised]
        rw [hused]
        exact hdrop
      · obtain ⟨p, hp, -, -, hcleared⟩ :=
          Dnp3Outstation.authorise_some (fun p hp => (h.issued association p hp).1) hauthorised
        have hused : r.usedChallenge hmac association req now = [p.serial] := by
          rw [AuthRun.usedChallenge, hauthorised]
          exact congrArg (fun q => (q.map PendingChallenge.serial).toList) hp
        rw [hused]
        refine hdrop.use hp h hcounter rfl fun other q hq => ?_
        rw [show r₀.secureAuth = _ from hsecure, hauthorised, hcleared] at hq
        exact mem_clearAssociation hq
  | onAssociationClosed association =>
    obtain rfl := Option.some.inj hstep
    exact h.drop (fun _ _ hp => (mem_clearAssociation hp).2) rfl rfl rfl le_rfl rfl

/-- What a step with a critical effect is: a reply on the association that sent the ASDU, which
answers the challenge for exactly these octets and has them executed. -/
structure AuthorisedStep (hmac : Hmac) (r r' : AuthRun) (association : ℕ) (fragment : Buffer) (now later : ℤ)
    (p : PendingChallenge) : Prop where
  pending : r.secureAuth.pending association = some p
  user : p.expectedUserNumber = r.outstation.sav5UserNumber
  sent : (association, p.criticalAsdu) ∈ r.dispatched
  issued : p.issuedAt ≤ now
  answers : ∃ req, parseRequest fragment = .ok req ∧ Answers hmac r.secureAuth p req now
  used : r'.executed = p.serial :: r.executed
  executes : ∃ authorised, parseRequest p.criticalAsdu = .ok authorised ∧
    r'.outstation = ((r.outstation.withSecureAuth (r.secureAuth.clearAssociation association)).after association
      (handleChecked { r.outstation.ctx with secureAuth := r.secureAuth.clearAssociation association }
        (r.outstation.sessions association) authorised later)).2

theorem critical_step {hmac : Hmac} {a : AuthAct} (h : AuthInv r)
    (hstep : authStep hmac r a = some r') (hkey : r.Provisioned)
    (heffect : criticalView r'.outstation.ctx ≠ criticalView r.outstation.ctx) :
    ∃ association fragment now later p, a = .dispatchSecureAuthReply association fragment now later ∧
      AuthorisedStep hmac r r' association fragment now later p := by
  cases a with
  | provision userNumber key =>
    simp only [authStep] at hstep
    split at hstep
    · cases hstep
    · obtain rfl := Option.some.inj hstep
      exact absurd rfl heffect
  | dispatch association fragment now nonce =>
    simp only [authStep] at hstep
    split at hstep
    · cases hstep
    · rename_i req hparse
      split_ifs at hstep with hclock
      obtain rfl := Option.some.inj hstep
      exact absurd (handleApplicationRequest_view hkey (r.outstation.sessions association) association req now nonce)
        heffect
  | dispatchSecureAuthReply association fragment now later =>
    simp only [authStep] at hstep
    split at hstep
    · cases hstep
    · rename_i req hparse
      split_ifs at hstep with hclock
      obtain rfl := Option.some.inj hstep
      rw [not_or, not_lt, not_lt] at hclock
      have hkept := Dnp3Outstation.authorise_secureAuth hmac r.outstation association req now
      dsimp only at heffect
      unfold Dnp3Outstation.dispatchSecureAuthReply at heffect ⊢
      rcases hauthorised : r.outstation.authorise hmac association req now with ⟨_ | verified, o⟩
      · rw [hauthorised] at hkept heffect
        rcases hkept with rfl | rfl <;> exact absurd rfl heffect
      · obtain ⟨p, hp, hasdu, hanswers, rfl⟩ :=
          Dnp3Outstation.authorise_some (fun p hp => (h.issued association p hp).1) hauthorised
        rw [hauthorised] at heffect
        dsimp only at heffect ⊢
        rw [hasdu] at heffect ⊢
        have hused : r.usedChallenge hmac association req now = [p.serial] := by
          rw [AuthRun.usedChallenge, hauthorised]
          exact congrArg (fun q => (q.map PendingChallenge.serial).toList) hp
        obtain ⟨-, huser, hsent, htime⟩ := h.issued association p hp
        rcases hparsed : parseRequest p.criticalAsdu with e | authorised
        · rw [hparsed] at heffect
          exact absurd rfl heffect
        · exact ⟨association, fragment, now, later, p, rfl,
            { pending := hp
              user := huser
              sent := hsent
              issued := htime.trans hclock.1
              answers := ⟨req, hparse, hanswers⟩
              used := by rw [hused]; rfl
              executes := ⟨authorised, hparsed, rfl⟩ }⟩
  | onAssociationClosed association =>
    obtain rfl := Option.some.inj hstep
    exact absurd rfl heffect

/-- In every run, once the key is there, the critical effects are those of authorised steps, and
no challenge authorises two of them. -/
theorem critical_effect_authenticated (hmac : Hmac) {start r r' : AuthRun}
    (hpending : ∀ association, start.secureAuth.pending association = none) (hexecuted : start.executed = [])
    (hr : Reachable (authStep hmac) (fun _ _ => True) start r) {a : AuthAct} (hstep : authStep hmac r a = some r') :
    r'.executed.Nodup ∧
      (r.Provisioned → criticalView r'.outstation.ctx ≠ criticalView r.outstation.ctx →
        ∃ association fragment now later p, a = .dispatchSecureAuthReply association fragment now later ∧
          AuthorisedStep hmac r r' association fragment now later p) := by
  have hinv : AuthInv r := hr.invariant (.start hpending hexecuted) fun _ _ _ h _ hstep => authStep_inv h hstep
  exact ⟨(authStep_inv hinv hstep).once, critical_step hinv hstep⟩

def restartedRun : AuthRun where
  outstation :=
    { ctx :=
        { pointMap := coilMap
          eventBuffer := .new {}
          secureAuth := { controlDirectionKeys := fun user => if user = 1 then some ((List.range 16).map UInt8.ofNat) else none }
          controls := {}
          restartPending := true } }

def clearRestart : Buffer := [0xc0, 0x02, 0x50, 0x01, 0x00, 0x07, 0x07, 0x00]

/-- HMAC-SHA-256 of the challenge fragment and the write, under the key of `restartedRun`. -/
def clearRestartMac : Buffer :=
  [0x1f, 0x7d, 0xa4, 0x3c, 0x59, 0xe5, 0x9b, 0x03, 0x82, 0xe7, 0xb0, 0xcb, 0xce, 0x10, 0x67, 0x54,
    0xcb, 0x15, 0x8a, 0x5b, 0xe3, 0x31, 0xfd, 0x52, 0x02, 0x35, 0x42, 0xcf, 0xf4, 0x0f, 0x03, 0xee]

def clearRestartHmac : Hmac := fun _ _ data => if data.drop 22 = clearRestart then clearRestartMac else []

def clearRestartReply : Buffer :=
  [0xc0, 0x20, 0x78, 0x02, 0x5b, 0x01, 0x16, 0x00, 0x01, 0x00, 0x00, 0x00, 0x01, 0x00] ++ clearRestartMac.take 16

theorem critical_effect_authenticated_write :
    ∃ r r', Reachable (authStep clearRestartHmac) (fun _ _ => True) restartedRun r ∧
      authStep clearRestartHmac r (.dispatchSecureAuthReply 1 clearRestartReply 2000 2000) = some r' ∧
      r.outstation.ctx.restartPending = true ∧ r'.outstation.ctx.restartPending = false ∧ r.Provisioned ∧
      ∃ p, AuthorisedStep clearRestartHmac r r' 1 clearRestartReply 2000 2000 p := by
  have hfirst : ∃ r, authStep clearRestartHmac restartedRun (.dispatch 1 clearRestart 1000 [0xa1, 0xb2, 0xc3, 0xd4]) =
      some r ∧ ∃ r', authStep clearRestartHmac r (.dispatchSecureAuthReply 1 clearRestartReply 2000 2000) = some r' ∧
        r.outstation.ctx.restartPending = true ∧ r'.outstation.ctx.restartPending = false ∧ r.Provisioned :=
    ⟨_, rfl, _, rfl, rfl, rfl, rfl⟩
  obtain ⟨r, hr, r', hstep, hbefore, hafter, hkey⟩ := hfirst
  have hreach : Reachable (authStep clearRestartHmac) (fun _ _ => True) restartedRun r := .step .start trivial hr
  have heffect : criticalView r'.outstation.ctx ≠ criticalView r.outstation.ctx := by
    intro hsame
    have hflag := congrArg CriticalView.restartPending hsame
    rw [criticalView, criticalView, hbefore, hafter] at hflag
    cases hflag
  obtain ⟨association, fragment, now, later, p, hact, hauthorised⟩ :=
    (critical_effect_authenticated clearRestartHmac (fun _ => rfl) rfl hreach hstep).2 hkey heffect
  cases hact
  exact ⟨r, r', hreach, hstep, hbefore, hafter, hkey, p, hauthorised⟩

end OxScada.Dnp3
