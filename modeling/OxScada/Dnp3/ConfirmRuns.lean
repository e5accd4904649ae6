import OxScada.Dnp3.ClassPoll

/-! Why an event leaves the buffer. Solicited and unsolicited responses wait for their
confirm in one place, and a confirm is matched by its sequence number alone. -/

namespace OxScada.Dnp3
open OxScada.Bytes OxScada.Runs

/-! ### Fragments and what is sent -/

def Dnp3ResponseFragment.isUnsolicited (f : Dnp3ResponseFragment) : Bool := f.bytes.headD 0 &&& 0x10 ≠ 0

def Dnp3ResponseFragment.Solicited (f : Dnp3ResponseFragment) : Prop := f.bytes ≠ [] ∧ f.isUnsolicited = false

theorem isUnsolicited_of_header {f : Dnp3ResponseFragment} {opts : ResponseHeader} {body : Buffer}
    (h : f.bytes = buildResponseHeader opts ++ body) : f.bytes ≠ [] ∧ f.isUnsolicited = opts.unsolicited := by
  have hhead : f.bytes.headD 0 = opts.appControl := by
    rw [h]
    rfl
  refine ⟨fun hnil => ?_, ?_⟩
  · rw [hnil] at h
    cases h
  · rw [Dnp3ResponseFragment.isUnsolicited, hhead, Bool.eq_iff_iff, decide_eq_true_iff]
    exact opts.appControl_bits.2.2.2.1

theorem handleRead_solicited {ctx : OutstationContext} {req : ParsedRequest} {fragments : List Dnp3ResponseFragment}
    (h : (handleRead ctx req).1 = .ok fragments) : ∀ f ∈ fragments, f.Solicited := by
  unfold handleRead at h
  split at h
  · cases h
  · obtain rfl := Except.ok.inj h
    intro f hf
    obtain ⟨i, hi⟩ := List.mem_iff_getElem?.mp hf
    obtain ⟨frag, -, -, -, -, hbytes⟩ := buildFragments_getElem? hi
    exact isUnsolicited_of_header hbytes

theorem unsolicitedFragment_isUnsolicited (o : Dnp3Outstation) (encoded : EventEncodeResult) :
    (o.unsolicitedFragment encoded).isUnsolicited = true :=
  (isUnsolicited_of_header (f := o.unsolicitedFragment encoded) rfl).2

/-- What a session may hold after a request: a fragment that waits for its confirm waited
before, or is the response. -/
structure Answered (session : OutstationSession) (h : Handled) : Prop where
  pending : ∀ f ∈ h.2.2.pendingFragments, f.Solicited
  awaiting : ∀ f ∈ h.2.2.awaitingConfirm, session.awaitingConfirm = some f ∨
    (f.Solicited ∧ ∃ result, h.1 = .ok result ∧ result.response = f.bytes)

section Requests
variable {session : OutstationSession} {req : ParsedRequest} {ctx : OutstationContext}

theorem Answered.same (hpending : ∀ f ∈ session.pendingFragments, f.Solicited) (result : Except String Dnp3RequestResult)
    (ctx : OutstationContext) : Answered session (result, ctx, session) := ⟨hpending, fun _ hf => .inl hf⟩

theorem Answered.none (result : Except String Dnp3RequestResult) (ctx : OutstationContext) :
    Answered session (result, ctx, {}) := by
  constructor
  · intro f hf
    exact absurd hf List.not_mem_nil
  · intro f hf
    cases hf

theorem handleConfirm_answered (hpending : ∀ f ∈ session.pendingFragments, f.Solicited) :
    Answered session (.ok (handleConfirm ctx req session).1, (handleConfirm ctx req session).2) := by
  unfold handleConfirm
  split
  · exact .same hpending _ _
  · split_ifs with hseq
    · exact .same hpending _ _
    all_goals
      split
      · rename_i hempty
        refine ⟨hpending, fun f hf => ?_⟩
        cases hf
      · rename_i next rest hnext
        rw [hnext] at hpending
        refine ⟨fun f hf => hpending f (List.mem_cons_of_mem next hf), fun f hf => .inr ?_⟩
        have hsame : f = next := by
          dsimp only at hf
          split_ifs at hf
          · exact (Option.some.inj hf).symm
          · cases hf
        rw [hsame]
        exact ⟨hpending next (List.mem_cons_self ..), _, rfl, rfl⟩

theorem dispatchFragments_answered {fragments : List Dnp3ResponseFragment} (hfragments : ∀ f ∈ fragments, f.Solicited)
    (ctx : OutstationContext) :
    Answered session (.ok (dispatchFragments fragments {}).1, ctx, (dispatchFragments fragments {}).2) := by
  unfold dispatchFragments
  split
  · exact .none _ _
  · rename_i first rest
    refine ⟨fun f hf => hfragments f (List.mem_cons_of_mem first hf), fun f hf => .inr ?_⟩
    have hsame : f = first := by
      dsimp only at hf
      split_ifs at hf
      · exact (Option.some.inj hf).symm
      · cases hf
    rw [hsame]
    exact ⟨hfragments first (List.mem_cons_self ..), _, rfl, rfl⟩

theorem handleFunction_answered (hpending : ∀ f ∈ session.pendingFragments, f.Solicited) (now : ℤ) :
    Answered session (handleFunction ctx session req now) := by
  unfold handleFunction
  split_ifs with hconfirm hread
  · exact handleConfirm_answered hpending
  · dsimp only
    split
    · exact .none _ _
    · rename_i fragments hfragments
      exact dispatchFragments_answered (handleRead_solicited hfragments) _
  all_goals exact .none _ _

theorem handleChecked_answered (ctx : OutstationContext) (req : ParsedRequest)
    (hpending : ∀ f ∈ session.pendingFragments, f.Solicited) (now : ℤ) :
    Answered session (handleChecked ctx session req now) := by
  unfold handleChecked
  split
  · exact .same hpending _ _
  · exact handleFunction_answered hpending now

theorem handleApplicationRequest_answered (hpending : ∀ f ∈ session.pendingFragments, f.Solicited)
    (association userNumber : ℕ) (now : ℤ) (nonce : Buffer) :
    Answered session (handleApplicationRequest ctx session association userNumber req now nonce) := by
  unfold handleApplicationRequest
  dsimp only
  split_ifs
  · exact .same hpending _ _
  · exact .same hpending _ _
  · exact .same hpending _ _
  · exact .same hpending _ _
  · exact handleChecked_answered _ _ hpending now

end Requests

/-! ### Sessions along a run -/

structure SentInv (r : LinkRun) : Prop where
  pending : ∀ association, ∀ f ∈ (r.session association).pendingFragments, f.Solicited
  awaiting : ∀ association, ∀ f ∈ (r.session association).awaitingConfirm,
    ⟨association, f.bytes, f.isUnsolicited⟩ ∈ r.sent

variable {r r' : LinkRun}

theorem SentInv.congr (h : SentInv r) (hsessions : r'.outstation.sessions = r.outstation.sessions)
    (hsent : r.sent ⊆ r'.sent) : SentInv r' where
  pending association := by
    rw [LinkRun.session, hsessions]
    exact h.pending association
  awaiting association f := by
    rw [LinkRun.session, hsessions]
    exact fun hf => hsent (h.awaiting association f hf)

theorem Dnp3Outstation.receiveRequest_answered (hmac : Hmac) (o : Dnp3Outstation) (association : ℕ) (req : ParsedRequest)
    (now later : ℤ) (nonce : Buffer) (hpending : ∀ f ∈ (o.sessions association).pendingFragments, f.Solicited) :
    (o.receiveRequest hmac association req now later nonce).2.sessions = o.sessions ∨
      ∃ handled, Answered (o.sessions association) handled ∧
        (o.receiveRequest hmac association req now later nonce).1 = handled.1.map (·.response) ∧
        (o.receiveRequest hmac association req now later nonce).2.sessions =
          Function.update o.sessions association handled.2.2 := by
  unfold receiveRequest
  split_ifs with hreply
  · obtain ⟨secureAuth, hauthorise⟩ := authorise_ctx hmac o association req now
    rcases hresult : o.authorise hmac association req now with ⟨_ | verified, o'⟩
    · rw [hresult] at hauthorise
      obtain rfl : o' = o.withSecureAuth secureAuth := hauthorise
      left
      rw [dispatchSecureAuthReply, hresult]
      rfl
    · rw [hresult] at hauthorise
      obtain rfl : o' = o.withSecureAuth secureAuth := hauthorise
      rw [dispatchSecureAuthReply, hresult]
      dsimp only
      rcases hparse : parseRequest verified.criticalAsdu with e | authorised
      · exact .inl rfl
      · exact .inr ⟨_, handleChecked_answered _ authorised hpending later, rfl, rfl⟩
  · exact .inr ⟨_, handleApplicationRequest_answered hpending association o.sav5UserNumber now nonce, rfl, rfl⟩

theorem SentInv.receive (h : SentInv r) (hmac : Hmac) (association : ℕ) (req : ParsedRequest)
    (now later : ℤ) (nonce : Buffer) :
    SentInv (r.respond association (r.outstation.receiveRequest hmac association req now later nonce)) := by
  have hsent : r.sent ⊆ (r.respond association
      (r.outstation.receiveRequest hmac association req now later nonce)).sent := by
    unfold LinkRun.respond
    dsimp only
    split
    · exact List.Subset.refl _
    · split_ifs
      · exact List.Subset.refl _
      · exact List.subset_cons_self ..
  rcases r.outstation.receiveRequest_answered hmac association req now later nonce (h.pending association) with
    hsame | ⟨handled, hanswered, hresponse, hsessions⟩
  · exact h.congr hsame hsent
  · constructor
    · intro other f hf
      rw [LinkRun.session, show (r.respond association _).outstation.sessions = _ from hsessions] at hf
      by_cases hother : other = association
      · rw [hother, Function.update_self] at hf
        exact hanswered.pending f hf
      · rw [Function.update_of_ne hother] at hf
        exact h.pending other f hf
    · intro other f hf
      rw [LinkRun.session, show (r.respond association _).outstation.sessions = _ from hsessions] at hf
      by_cases hother : other = association
      · rw [hother, Function.update_self] at hf
        rcases hanswered.awaiting f hf with hold | ⟨⟨hbytes, hkind⟩, result, hresult, hfirst⟩
        · rw [hother]
          exact hsent (h.awaiting association f hold)
        · rw [hother, hkind]
          unfold LinkRun.respond
          rw [hresponse, hresult]
          dsimp only [Except.map]
          rw [hfirst, if_neg hbytes]
          exact List.mem_cons_self ..
      · rw [Function.update_of_ne hother] at hf
        exact hsent (h.awaiting other f hf)

theorem Dnp3Outstation.maybeSendUnsolicited_session (o : Dnp3Outstation) (now : ℤ) (association : ℕ) :
    (o.maybeSendUnsolicited now).sessions association = o.sessions association ∨
      ∃ encoded, o.dueUnsolicited now = some encoded ∧
        association ∈ (o.broadcastUnsolicited (o.unsolicitedFragment encoded)).1 ∧
        (o.maybeSendUnsolicited now).sessions association =
          { o.sessions association with awaitingConfirm := some (o.unsolicitedFragment encoded) } := by
  unfold maybeSendUnsolicited
  rcases hdue : o.dueUnsolicited now with _ | encoded
  · exact .inl rfl
  · dsimp only
    have hsessions : ∀ o' : Dnp3Outstation, o'.sessions = (o.broadcastUnsolicited (o.unsolicitedFragment encoded)).2.sessions →
        o'.sessions association = o.sessions association ∨ ∃ encoded', some encoded = some encoded' ∧
          association ∈ (o.broadcastUnsolicited (o.unsolicitedFragment encoded')).1 ∧
          o'.sessions association =
            { o.sessions association with awaitingConfirm := some (o.unsolicitedFragment encoded') } := by
      intro o' ho'
      rw [ho']
      unfold broadcastUnsolicited
      dsimp only
      split_ifs with hreached
      · exact .inr ⟨encoded, rfl, hreached, rfl⟩
      · exact .inl rfl
    split_ifs
    · exact hsessions _ rfl
    · exact hsessions _ rfl

theorem SentInv.maybeSendUnsolicited (h : SentInv r) (now : ℤ) : SentInv (r.maybeSendUnsolicited now) := by
  have hsent : r.sent ⊆ (r.maybeSendUnsolicited now).sent := by
    unfold LinkRun.maybeSendUnsolicited
    dsimp only
    split
    · exact List.Subset.refl _
    · exact List.subset_append_right ..
  constructor
  · intro association f hf
    rcases r.outstation.maybeSendUnsolicited_session now association with hsame | ⟨encoded, -, -, hsession⟩
    · rw [LinkRun.session, show (r.maybeSendUnsolicited now).outstation.sessions association = _ from hsame] at hf
      exact h.pending association f hf
    · rw [LinkRun.session, show (r.maybeSendUnsolicited now).outstation.sessions association = _ from hsession] at hf
      exact h.pending association f hf
  · intro association f hf
    rcases r.outstation.maybeSendUnsolicited_session now association with hsame | ⟨encoded, hdue, hreached, hsession⟩
    · rw [LinkRun.session, show (r.maybeSendUnsolicited now).outstation.sessions association = _ from hsame] at hf
      exact hsent (h.awaiting association f hf)
    · rw [LinkRun.session, show (r.maybeSendUnsolicited now).outstation.sessions association = _ from hsession] at hf
      obtain rfl := Option.some.inj hf
      rw [unsolicitedFragment_isUnsolicited]
      unfold LinkRun.maybeSendUnsolicited
      rw [hdue]
      exact List.mem_append_left _ (List.mem_map_of_mem hreached)

theorem Dnp3Outstation.onConnection_session (o : Dnp3Outstation) (association other : ℕ) :
    (o.onConnection association).sessions other = {} ∨ (o.onConnection association).sessions other = o.sessions other := by
  by_cases hother : other = association
  · left
    rw [hother]
    exact Function.update_self ..
  · right
    exact Function.update_of_ne hother ..

theorem linkStep_sentInv {hmac : Hmac} {a : LinkAct} (h : SentInv r)
    (hstep : linkStep hmac r a = some r') : SentInv r' := by
  cases a with
  | receive association fragment now later nonce =>
    simp only [linkStep] at hstep
    split_ifs at hstep with hconnected
    split at hstep
    · cases hstep
    · rename_i req hparse
      obtain rfl := Option.some.inj hstep
      exact h.receive hmac association req now later nonce
  | updateTag tagId sample clock =>
    obtain rfl := Option.some.inj hstep
    have hsample : SentInv { r with outstation := r.outstation.withSample tagId sample clock } :=
      h.congr rfl (List.Subset.refl _)
    exact hsample.maybeSendUnsolicited _
  | unsolicitedTimer now =>
    obtain rfl := Option.some.inj hstep
    exact h.maybeSendUnsolicited now
  | onConnection association =>
    simp only [linkStep] at hstep
    split_ifs at hstep
    obtain rfl := Option.some.inj hstep
    constructor
    · intro other f hf
      change f ∈ ((r.outstation.onConnection association).sessions other).pendingFragments at hf
      rcases r.outstation.onConnection_session association other with hnew | hold
      · rw [hnew] at hf
        exact absurd hf List.not_mem_nil
      · rw [hold] at hf
        exact h.pending other f hf
    · intro other f hf
      change f ∈ ((r.outstation.onConnection association).sessions other).awaitingConfirm at hf
      rcases r.outstation.onConnection_session association other with hnew | hold
      · rw [hnew] at hf
        cases hf
      · rw [hold] at hf
        exact h.awaiting other f hf
  | onAssociationClosed association =>
    obtain rfl := Option.some.inj hstep
    exact h.congr rfl (List.Subset.refl _)

/-! ### Overflow -/

def ClassQueue.Overrun (q : ClassQueue) : Prop := q.overflowed = true ∧ q.config.maxEvents ≤ q.events.length

theorem ClassQueue.push_overrun (q : ClassQueue) (event : Dnp3Event) :
    (q.Overrun → (q.push event).Overrun) ∧ ∀ e ∈ q.events, e ∉ (q.push event).events → (q.push event).Overrun := by
  unfold push makeRoom Overrun
  by_cases hfull : q.config.maxEvents ≤ q.events.length
  · rw [if_pos hfull]
    have hlength : q.config.maxEvents ≤ (q.events.tail ++ [event]).length := by
      rw [List.length_append, List.length_tail, List.length_singleton]
      omega
    exact ⟨fun _ => ⟨rfl, hlength⟩, fun _ _ _ => ⟨rfl, hlength⟩⟩
  · rw [if_neg hfull]
    exact ⟨fun h => absurd h.2 hfull, fun e he hgone => absurd (List.mem_append_left [event] he) hgone⟩

theorem enqueue_overrun (b : Dnp3EventBuffer) (event : Dnp3Event) (cls : EventClass) :
    ((b.queues cls).Overrun → ((b.enqueue event).queues cls).Overrun) ∧
      ∀ e ∈ (b.queues cls).events, e ∉ ((b.enqueue event).queues cls).events → ((b.enqueue event).queues cls).Overrun := by
  by_cases hcls : cls = event.eventClass
  · subst hcls
    simp only [Dnp3EventBuffer.enqueue, Function.update_self]
    exact (b.queues event.eventClass).push_overrun _
  · simp only [Dnp3EventBuffer.enqueue, Function.update_of_ne hcls]
    exact ⟨id, fun e he hgone => absurd he hgone⟩

theorem enqueueChanged_overrun (m : Dnp3PointMap) (changed : List (PointKey × ℤ)) (b : Dnp3EventBuffer)
    (cls : EventClass) :
    ((b.queues cls).Overrun → ((Dnp3Outstation.enqueueChanged m b changed).queues cls).Overrun) ∧
      ∀ e ∈ (b.queues cls).events, e ∉ ((Dnp3Outstation.enqueueChanged m b changed).queues cls).events →
        ((Dnp3Outstation.enqueueChanged m b changed).queues cls).Overrun := by
  induction changed generalizing b with
  | nil => exact ⟨id, fun e he hgone => absurd he hgone⟩
  | cons point rest ih =>
    unfold Dnp3Outstation.enqueueChanged
    split
    · exact ih b
    · rename_i event hevent
      obtain ⟨hstays, hlost⟩ := ih (b.enqueue event)
      obtain ⟨hstays', hlost'⟩ := enqueue_overrun b event cls
      refine ⟨fun h => hstays (hstays' h), fun e he hgone => ?_⟩
      by_cases hkept : e ∈ ((b.enqueue event).queues cls).events
      · exact hlost e hkept hgone
      · exact hstays (hlost' e he hkept)

theorem Dnp3Outstation.maybeSendUnsolicited_overrun {o : Dnp3Outstation} {now : ℤ} {cls : EventClass}
    (h : (o.ctx.eventBuffer.queues cls).Overrun) :
    ((o.maybeSendUnsolicited now).ctx.eventBuffer.queues cls).Overrun := by
  unfold maybeSendUnsolicited
  split
  · exact h
  · dsimp only
    split_ifs <;> exact h

theorem LinkRun.maybeSendUnsolicited_events (r : LinkRun) (now : ℤ) (cls : EventClass) :
    (r.maybeSendUnsolicited now).events cls = r.events cls := (r.outstation.maybeSendUnsolicited_ctx now).2.2.2 cls

/-! ### Removals -/

/-- The ways an event leaves the buffer. A confirm removes what a fragment carried that was
sent to its association with its sequence number, unsolicited if the confirm has the UNS bit. -/
inductive RemovedBy (hmac : Hmac) (r r' : LinkRun) (cls : EventClass) (e : Dnp3Event) : LinkAct → Prop
  | confirm {association : ℕ} {fragment nonce : Buffer} {now later : ℤ} {req handled : ParsedRequest}
      {awaiting : Dnp3ResponseFragment} (hparse : parseRequest fragment = .ok req)
      (hhandled : r.outstation.handledRequest hmac association req now = some handled)
      (hfunc : handled.func = FunctionCode.confirm)
      (hawaiting : (r.session association).awaitingConfirm = some awaiting) (hseq : awaiting.seq = handled.seq)
      (hcarried : e.seq ∈ awaiting.eventSeqs) (hsent : ⟨association, awaiting.bytes, handled.uns⟩ ∈ r.sent) :
      RemovedBy hmac r r' cls e (.receive association fragment now later nonce)
  | restart {association : ℕ} {fragment nonce : Buffer} {now later : ℤ} {req handled : ParsedRequest}
      (hparse : parseRequest fragment = .ok req)
      (hhandled : r.outstation.handledRequest hmac association req now = some handled)
      (hfunc : handled.func = FunctionCode.coldRestart ∨ handled.func = FunctionCode.warmRestart) :
      RemovedBy hmac r r' cls e (.receive association fragment now later nonce)
  | overflow {tagId : String} {sample : PointSample} {clock : ℕ → ℤ}
      (hfull : (r'.ctx.eventBuffer.queues cls).Overrun) : RemovedBy hmac r r' cls e (.updateTag tagId sample clock)

/-- A confirm with the sequence number of the fragment that waits is of its kind. -/
def ConfirmsKind (hmac : Hmac) (r : LinkRun) : LinkAct → Prop
  | .receive association fragment now _ _ =>
    ∀ req handled awaiting, parseRequest fragment = .ok req →
      r.outstation.handledRequest hmac association req now = some handled → handled.func = FunctionCode.confirm →
      (r.session association).awaitingConfirm = some awaiting → awaiting.seq = handled.seq →
      handled.uns = awaiting.isUnsolicited
  | _ => True

theorem not_keepsEvent {session : OutstationSession} {req : ParsedRequest} {e : Dnp3Event}
    (h : keepsEvent session req e = false) :
    (req.func = FunctionCode.confirm ∧ ∃ awaiting, session.awaitingConfirm = some awaiting ∧ awaiting.seq = req.seq ∧
        e.seq ∈ awaiting.eventSeqs) ∨ req.func = FunctionCode.coldRestart ∨ req.func = FunctionCode.warmRestart := by
  unfold keepsEvent at h
  split_ifs at h with hconfirm
  · rw [Bool.not_eq_false'] at h
    rcases hawaiting : session.awaitingConfirm with _ | awaiting
    · rw [hawaiting] at h
      cases h
    · rw [hawaiting, Option.any_some, decide_eq_true_iff] at h
      exact .inl ⟨hconfirm, awaiting, rfl, h⟩
  · rw [Bool.not_eq_false', decide_eq_true_iff] at h
    exact .inr h

theorem linkStep_removed {hmac : Hmac} {a : LinkAct} (h : SentInv r) (hok : ConfirmsKind hmac r a)
    (hstep : linkStep hmac r a = some r') {cls : EventClass} {e : Dnp3Event} (he : e ∈ r.events cls)
    (hgone : e ∉ r'.events cls) : RemovedBy hmac r r' cls e a := by
  cases a with
  | receive association fragment now later nonce =>
    simp only [linkStep] at hstep
    split_ifs at hstep with hconnected
    split at hstep
    · cases hstep
    · rename_i req hparse
      obtain rfl := Option.some.inj hstep
      rcases r.outstation.receiveRequest_requested hmac association req now later nonce with
        ⟨handled, hhandled, hrequested⟩ | ⟨secureAuth, hsame⟩
      · rcases hrequested.events with hevents | hevents
        · rw [LinkRun.events, show ((r.respond association _).ctx.eventBuffer.queues cls).events = _ from hevents cls] at hgone
          exact absurd he hgone
        · rw [LinkRun.events, show ((r.respond association _).ctx.eventBuffer.queues cls).events = _ from hevents cls] at hgone
          have hkeeps : keepsEvent (r.session association) handled e = false := by
            rw [← Bool.not_eq_true]
            exact fun hkeeps => hgone (List.mem_filter.mpr ⟨he, hkeeps⟩)
          rcases not_keepsEvent hkeeps with ⟨hfunc, awaiting, hawaiting, hseq, hcarried⟩ | hfunc
          · have hkind := hok req handled awaiting hparse hhandled hfunc hawaiting hseq
            have hsent := h.awaiting association awaiting hawaiting
            rw [← hkind] at hsent
            exact .confirm hparse hhandled hfunc hawaiting hseq hcarried hsent
          · exact .restart hparse hhandled hfunc
      · have hctx : (r.respond association (r.outstation.receiveRequest hmac association req now later nonce)).ctx =
            (r.outstation.withSecureAuth secureAuth).ctx := congrArg Dnp3Outstation.ctx hsame
        rw [LinkRun.events, hctx] at hgone
        exact absurd he hgone
  | updateTag tagId sample clock =>
    obtain rfl := Option.some.inj hstep
    rw [LinkRun.maybeSendUnsolicited_events] at hgone
    have hlost : ((r.outstation.withSample tagId sample clock).ctx.eventBuffer.queues cls).Overrun :=
      (enqueueChanged_overrun _ _ r.ctx.eventBuffer cls).2 e he hgone
    exact .overflow (Dnp3Outstation.maybeSendUnsolicited_overrun hlost)
  | unsolicitedTimer now =>
    obtain rfl := Option.some.inj hstep
    rw [LinkRun.maybeSendUnsolicited_events] at hgone
    exact absurd he hgone
  | onConnection association =>
    simp only [linkStep] at hstep
    split_ifs at hstep
    obtain rfl := Option.some.inj hstep
    exact absurd he hgone
  | onAssociationClosed association =>
    obtain rfl := Option.some.inj hstep
    exact absurd he hgone

/-- In a run in which the confirms are of the kind of what they match, an event leaves the
buffer only when it was confirmed, with a restart or because its queue is full. -/
theorem event_removed_by {hmac : Hmac} {start r r' : LinkRun} (hstart : ∀ association, start.session association = {})
    (hr : Reachable (linkStep hmac) (ConfirmsKind hmac) start r) {a : LinkAct} (hok : ConfirmsKind hmac r a)
    (hstep : linkStep hmac r a = some r') {cls : EventClass} {e : Dnp3Event} (he : e ∈ r.events cls)
    (hgone : e ∉ r'.events cls) : RemovedBy hmac r r' cls e a := by
  have hfresh : SentInv start := by
    constructor
    · intro association f hf
      rw [hstart] at hf
      exact absurd hf List.not_mem_nil
    · intro association f hf
      rw [hstart] at hf
      cases hf
  have hinv : SentInv r := hr.invariant hfresh fun _ _ _ h _ hstep => linkStep_sentInv h hstep
  exact linkStep_removed hinv hok hstep he hgone

/-- The outstation of `levelRun`, with unsolicited responses. -/
def reportingRun : LinkRun :=
  { levelRun with
    outstation := { levelRun.outstation with ctx := { levelRun.outstation.ctx with unsolicitedEnabled := true } } }

/-- The first event is sent unsolicited, with sequence number 0. The master polls class 1 with
the same sequence number before it confirms, and by then there is a second event. -/
def pollBeforeConfirm : List LinkAct :=
  [.onConnection 1, .updateTag "level" ⟨.number 1.5, .good, 1000⟩ fun _ => 1000, .unsolicitedTimer 3000,
    .updateTag "level" ⟨.number 2.5, .good, 3500⟩ fun _ => 3500, .receive 1 [0xc0, 0x01, 0x3c, 0x02, 0x06] 4000 4000 []]

def unsolicitedConfirm : LinkAct := .receive 1 [0xd0, 0x00] 4100 4100 []

def noHmac : Hmac := fun _ _ _ => []

def polledEarly : LinkRun := (exec (linkStep noHmac) reportingRun pollBeforeConfirm).getD reportingRun

def confirmedEarly : LinkRun := (linkStep noHmac polledEarly unsolicitedConfirm).getD reportingRun

/-- The confirm of the unsolicited fragment removes the second event, which that fragment does
not carry. -/
theorem unsolicitedConfirm_removes_unconfirmed :
    ∃ r r', Reachable (linkStep noHmac) (fun _ _ => True) reportingRun r ∧ linkStep noHmac r unsolicitedConfirm = some r' ∧
      ∃ e ∈ r.events .class1, e.seq = 2 ∧ e ∉ r'.events .class1 ∧
        ¬ RemovedBy noHmac r r' .class1 e unsolicitedConfirm := by
  have hrun : ∃ r, exec (linkStep noHmac) reportingRun pollBeforeConfirm = some r ∧
      ∃ r', linkStep noHmac r unsolicitedConfirm = some r' ∧ r'.events .class1 = [] ∧
        (∃ e ∈ r.events .class1, e.seq = 2) ∧
        (∀ awaiting ∈ (r.session 1).awaitingConfirm, ⟨1, awaiting.bytes, true⟩ ∉ r.sent) :=
    ⟨polledEarly, eq_some_getD (by decide +kernel) _, confirmedEarly, eq_some_getD (by decide +kernel) _, by decide +kernel,
      by decide +kernel, by decide +kernel⟩
  obtain ⟨r, hexec, r', hstep, hempty, ⟨e, he, hseq⟩, hkind⟩ := hrun
  refine ⟨r, r', Reachable.start.of_exec _ (fun _ _ _ => trivial) hexec, hstep, e, he, hseq, ?_, ?_⟩
  · rw [hempty]
    exact List.not_mem_nil
  · intro h
    cases h with
    | confirm hparse hhandled hfunc hawaiting hseq' hcarried hsent =>
      obtain rfl := Except.ok.inj hparse
      obtain rfl := Option.some.inj hhandled
      exact hkind _ hawaiting hsent
    | restart hparse hhandled hfunc =>
      obtain rfl := Except.ok.inj hparse
      obtain rfl := Option.some.inj hhandled
      exact absurd hfunc (by decide)

def solicitedConfirm : LinkAct := .receive 1 [0xc0, 0x00] 4100 4100 []

theorem pollBeforeConfirm_kind (r : LinkRun) : ∀ a ∈ pollBeforeConfirm, ConfirmsKind noHmac r a := by
  intro a ha
  simp only [pollBeforeConfirm, List.mem_cons, List.not_mem_nil, or_false] at ha
  rcases ha with rfl | rfl | rfl | rfl | rfl
  · trivial
  · trivial
  · trivial
  · trivial
  · intro req handled awaiting hparse hhandled hfunc
    obtain rfl := Except.ok.inj hparse
    obtain rfl := Option.some.inj hhandled
    exact absurd hfunc (by decide)

/-- The confirm of the poll removes what the poll reported. -/
theorem event_removed_by_poll :
    ∃ r r', Reachable (linkStep noHmac) (ConfirmsKind noHmac) reportingRun r ∧ ConfirmsKind noHmac r solicitedConfirm ∧
      linkStep noHmac r solicitedConfirm = some r' ∧
      ∃ e ∈ r.events .class1, e ∉ r'.events .class1 ∧ RemovedBy noHmac r r' .class1 e solicitedConfirm := by
  have hrun : ∃ r, exec (linkStep noHmac) reportingRun pollBeforeConfirm = some r ∧
      ∃ r', linkStep noHmac r solicitedConfirm = some r' ∧ r'.events .class1 = [] ∧ (∃ e ∈ r.events .class1, e.seq = 2) ∧
        ∀ awaiting ∈ (r.session 1).awaitingConfirm, awaiting.isUnsolicited = false :=
    ⟨polledEarly, eq_some_getD (by decide +kernel) _, (linkStep noHmac polledEarly solicitedConfirm).getD reportingRun,
      eq_some_getD (by decide +kernel) _, by decide +kernel, by decide +kernel, by decide +kernel⟩
  obtain ⟨r, hexec, r', hstep, hempty, ⟨e, he, -⟩, hkind⟩ := hrun
  have hreach : Reachable (linkStep noHmac) (ConfirmsKind noHmac) reportingRun r :=
    Reachable.start.of_exec _ (fun s a ha => pollBeforeConfirm_kind s a ha) hexec
  have hok : ConfirmsKind noHmac r solicitedConfirm := by
    intro req handled awaiting hparse hhandled _ hawaiting _
    obtain rfl := Except.ok.inj hparse
    obtain rfl := Option.some.inj hhandled
    rw [hkind awaiting hawaiting]
    rfl
  have hgone : e ∉ r'.events .class1 := by
    rw [hempty]
    exact List.not_mem_nil
  exact ⟨r, r', hreach, hok, hstep, e, he, hgone, event_removed_by (fun _ => rfl) hreach hok hstep he hgone⟩

end OxScada.Dnp3
