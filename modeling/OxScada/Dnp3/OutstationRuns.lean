import OxScada.Dnp3.EventEncoding
import OxScada.Dnp3.Outstation
import OxScada.Runs.Reachable

/-! Runs of a whole outstation: requests and confirms on any associations, samples, and the
timer of the unsolicited responses. The events of the buffer stay in the order of their
numbers, and belong to mapped points. -/

namespace OxScada.Dnp3
open OxScada.Bytes OxScada.Runs

/-! ### What a request does to the buffer -/

/-- The events that handling a request leaves in the buffer. -/
def keepsEvent (session : OutstationSession) (req : ParsedRequest) (e : Dnp3Event) : Bool :=
  if req.func = FunctionCode.confirm then
    !(session.awaitingConfirm.any fun awaiting => awaiting.seq = req.seq ∧ e.seq ∈ awaiting.eventSeqs)
  else !(decide (req.func = FunctionCode.coldRestart ∨ req.func = FunctionCode.warmRestart))

/-- All that handling a request can do to the points and the buffer. -/
structure Requested (session : OutstationSession) (req : ParsedRequest) (ctx ctx' : OutstationContext) : Prop where
  pointMap : ctx'.pointMap = ctx.pointMap
  maxTx : ctx'.maxTxFragmentSize = ctx.maxTxFragmentSize
  counter : ctx'.eventBuffer.seqCounter = ctx.eventBuffer.seqCounter
  events : (∀ cls, (ctx'.eventBuffer.queues cls).events = (ctx.eventBuffer.queues cls).events) ∨
    ∀ cls, (ctx'.eventBuffer.queues cls).events = (ctx.eventBuffer.queues cls).events.filter (keepsEvent session req)

section Requests
variable {session : OutstationSession} {req : ParsedRequest} {ctx : OutstationContext}

theorem handleConfirm_requested (hfunc : req.func = FunctionCode.confirm) :
    Requested session req ctx (handleConfirm ctx req session).2.1 := by
  unfold handleConfirm
  split
  · exact ⟨rfl, rfl, rfl, .inl fun _ => rfl⟩
  · rename_i awaiting hawaiting
    split_ifs with hseq hempty
    · exact ⟨rfl, rfl, rfl, .inl fun _ => rfl⟩
    · split <;> exact ⟨rfl, rfl, rfl, .inl fun _ => rfl⟩
    · have hkeeps : ∀ e, keepsEvent session req e = decide (e.seq ∉ awaiting.eventSeqs) := by
        intro e
        rw [keepsEvent, if_pos hfunc, hawaiting]
        simp [not_not.mp hseq]
      have hevents : ∀ cls, ((ctx.eventBuffer.confirm awaiting.eventSeqs).queues cls).events =
          (ctx.eventBuffer.queues cls).events.filter (keepsEvent session req) := by
        intro cls
        rw [show keepsEvent session req = _ from funext hkeeps]
        rfl
      split <;> exact ⟨rfl, rfl, rfl, .inr hevents⟩

theorem handleRead_requested : Requested session req ctx (handleRead ctx req).2 := by
  unfold handleRead
  split
  · exact ⟨rfl, rfl, rfl, .inl fun _ => rfl⟩
  · dsimp only
    split_ifs <;> exact ⟨rfl, rfl, rfl, .inl fun _ => rfl⟩

theorem handleWrite_requested : Requested session req ctx (handleWrite ctx req).2 := by
  unfold handleWrite
  split
  · split_ifs <;> exact ⟨rfl, rfl, rfl, .inl fun _ => rfl⟩
  · exact ⟨rfl, rfl, rfl, .inl fun _ => rfl⟩

theorem restart_requested
    (hfunc : req.func = FunctionCode.coldRestart ∨ req.func = FunctionCode.warmRestart) :
    Requested session req ctx (restart ctx) := by
  have hkeeps : ∀ e, keepsEvent session req e = false := by
    intro e
    have hconfirm : req.func ≠ FunctionCode.confirm := by
      rcases hfunc with h | h <;> rw [h] <;> decide
    rw [keepsEvent, if_neg hconfirm, decide_eq_true hfunc]
    rfl
  refine ⟨rfl, rfl, rfl, .inr fun cls => ?_⟩
  rw [show keepsEvent session req = _ from funext hkeeps, List.filter_false]
  rfl

theorem handleFunction_requested (now : ℤ) : Requested session req ctx (handleFunction ctx session req now).2.1 := by
  unfold handleFunction
  split_ifs with hconfirm hread hwrite hcontrol henable hdisable hrestart
  · exact handleConfirm_requested hconfirm
  · dsimp only
    split <;> exact handleRead_requested
  · exact handleWrite_requested
  · exact ⟨rfl, rfl, rfl, .inl fun _ => rfl⟩
  · exact ⟨rfl, rfl, rfl, .inl fun _ => rfl⟩
  · exact ⟨rfl, rfl, rfl, .inl fun _ => rfl⟩
  · exact restart_requested hrestart
  · exact ⟨rfl, rfl, rfl, .inl fun _ => rfl⟩

theorem handleChecked_requested (ctx : OutstationContext) (session : OutstationSession) (req : ParsedRequest) (now : ℤ) :
    Requested session req ctx (handleChecked ctx session req now).2.1 := by
  unfold handleChecked
  split
  · exact ⟨rfl, rfl, rfl, .inl fun _ => rfl⟩
  · exact handleFunction_requested now

theorem challengeRequest_requested (ctx : OutstationContext) (association userNumber : ℕ) (req : ParsedRequest) (now : ℤ)
    (nonce : Buffer) : Requested session req ctx (challengeRequest ctx association userNumber req now nonce).2 := by
  unfold challengeRequest
  split
  · exact ⟨rfl, rfl, rfl, .inl fun _ => rfl⟩
  · dsimp only
    split
    · exact ⟨rfl, rfl, rfl, .inl fun _ => rfl⟩
    · split <;> exact ⟨rfl, rfl, rfl, .inl fun _ => rfl⟩

theorem handleApplicationRequest_requested (ctx : OutstationContext) (session : OutstationSession)
    (association userNumber : ℕ) (req : ParsedRequest) (now : ℤ) (nonce : Buffer) :
    Requested session req ctx (handleApplicationRequest ctx session association userNumber req now nonce).2.1 := by
  unfold handleApplicationRequest
  dsimp only
  split_ifs
  · exact ⟨rfl, rfl, rfl, .inl fun _ => rfl⟩
  · exact ⟨rfl, rfl, rfl, .inl fun _ => rfl⟩
  · exact ⟨rfl, rfl, rfl, .inl fun _ => rfl⟩
  · have hchallenged : Requested session req _ _ := challengeRequest_requested
      { ctx with secureAuth := (ctx.secureAuth.isWaiting association now).2 } association userNumber req now nonce
    exact ⟨hchallenged.pointMap, hchallenged.maxTx, hchallenged.counter, hchallenged.events⟩
  · have hchecked := handleChecked_requested
      { ctx with secureAuth := (ctx.secureAuth.isWaiting association now).2 } session req now
    exact ⟨hchecked.pointMap, hchecked.maxTx, hchecked.counter, hchecked.events⟩

end Requests

/-! ### The machine -/

namespace Dnp3Outstation

/-- A fragment from a master: an authentication reply, or a request. -/
def receiveRequest (hmac : Hmac) (o : Dnp3Outstation) (association : ℕ) (req : ParsedRequest) (now later : ℤ)
    (nonce : Buffer) : Except String Buffer × Dnp3Outstation :=
  if req.func = FunctionCode.authRequest then o.dispatchSecureAuthReply hmac association req now later
  else o.dispatch association req now nonce

/-- The request that is handled in the end: a reply brings the one it authorises. -/
def handledRequest (hmac : Hmac) (o : Dnp3Outstation) (association : ℕ) (req : ParsedRequest) (now : ℤ) :
    Option ParsedRequest :=
  if req.func = FunctionCode.authRequest then
    match (o.authorise hmac association req now).1 with
    | none => none
    | some verified => (parseRequest verified.criticalAsdu).toOption
  else some req

/-- `updateTag` up to the response. `clock i` is the i-th reading of the clock. -/
def withSample (o : Dnp3Outstation) (tagId : String) (sample : PointSample) (clock : ℕ → ℤ) : Dnp3Outstation :=
  let applied := o.ctx.pointMap.applyTagUpdate tagId sample
  { o with
    ctx := { o.ctx with
      pointMap := applied.2
      eventBuffer := enqueueChanged applied.2 o.ctx.eventBuffer (applied.1.zipIdx.map fun (key, i) => (key, clock i)) } }

end Dnp3Outstation

/-- Octets that went out to an association, as a response or unsolicited. -/
structure Transmission where
  association : ℕ
  bytes : Buffer
  unsolicited : Bool
  deriving DecidableEq

structure LinkRun where
  outstation : Dnp3Outstation
  sent : List Transmission := []

namespace LinkRun

def ctx (r : LinkRun) : OutstationContext := r.outstation.ctx

def session (r : LinkRun) (association : ℕ) : OutstationSession := r.outstation.sessions association

def events (r : LinkRun) (cls : EventClass) : List Dnp3Event := (r.ctx.eventBuffer.queues cls).events

/-- The timer of the unsolicited responses, and the end of `updateTag`. -/
def maybeSendUnsolicited (r : LinkRun) (now : ℤ) : LinkRun where
  outstation := r.outstation.maybeSendUnsolicited now
  sent :=
    match r.outstation.dueUnsolicited now with
    | none => r.sent
    | some encoded =>
      let fragment := r.outstation.unsolicitedFragment encoded
      ((r.outstation.broadcastUnsolicited fragment).1.map fun association => ⟨association, fragment.bytes, true⟩) ++ r.sent

def respond (r : LinkRun) (association : ℕ) (handled : Except String Buffer × Dnp3Outstation) : LinkRun where
  outstation := handled.2
  sent :=
    match handled.1 with
    | .error _ => r.sent
    | .ok response => if response = [] then r.sent else ⟨association, response, false⟩ :: r.sent

end LinkRun

inductive LinkAct where
  | receive (association : ℕ) (fragment : Buffer) (now later : ℤ) (nonce : Buffer)
  | updateTag (tagId : String) (sample : PointSample) (clock : ℕ → ℤ)
  | unsolicitedTimer (now : ℤ)
  | onConnection (association : ℕ)
  | onAssociationClosed (association : ℕ)

def linkStep (hmac : Hmac) (r : LinkRun) : LinkAct → Option LinkRun
  | .receive association fragment now later nonce =>
    if association ∉ r.outstation.connections then none
    else
      match parseRequest fragment with
      | .error _ => none
      | .ok req =>
        some (r.respond association (r.outstation.receiveRequest hmac association req now later nonce))
  | .updateTag tagId sample clock =>
    some ({ r with outstation := r.outstation.withSample tagId sample clock }.maybeSendUnsolicited
      (clock (r.ctx.pointMap.applyTagUpdate tagId sample).1.length))
  | .unsolicitedTimer now => some (r.maybeSendUnsolicited now)
  | .onConnection association =>
    if association ∈ r.outstation.connections then none
    else some { r with outstation := r.outstation.onConnection association }
  | .onAssociationClosed association =>
    some { r with outstation := r.outstation.onAssociationClosed association }

/-! ### The events in the buffer -/

/-- Each queue is in the order of its numbers, which no two events share. -/
structure Dnp3EventBuffer.Ordered (b : Dnp3EventBuffer) : Prop where
  increasing : ∀ cls, (b.queues cls).events.Pairwise (·.seq < ·.seq)
  bounded : ∀ cls, ∀ e ∈ (b.queues cls).events, e.seq ≤ b.seqCounter
  distinct : ∀ cls other, ∀ e ∈ (b.queues cls).events, ∀ e' ∈ (b.queues other).events, e.seq = e'.seq → cls = other

theorem Dnp3EventBuffer.Ordered.new (config : EventBufferConfig) : (Dnp3EventBuffer.new config).Ordered where
  increasing _ := List.Pairwise.nil
  bounded _ _ he := absurd he List.not_mem_nil
  distinct _ _ _ he := absurd he List.not_mem_nil

variable {b : Dnp3EventBuffer} {e : Dnp3Event} {m : Dnp3PointMap} {r r' : LinkRun}

theorem Dnp3EventBuffer.Ordered.sublist {b' : Dnp3EventBuffer} (h : b.Ordered)
    (hevents : ∀ cls, (b'.queues cls).events.Sublist (b.queues cls).events) (hcounter : b'.seqCounter = b.seqCounter) :
    b'.Ordered where
  increasing cls := (h.increasing cls).sublist (hevents cls)
  bounded cls e he := by
    rw [hcounter]
    exact h.bounded cls e ((hevents cls).subset he)
  distinct cls other e he e' he' := h.distinct cls other e ((hevents cls).subset he) e' ((hevents other).subset he')

theorem ClassQueue.makeRoom_events (q : ClassQueue) : q.makeRoom.events.Sublist q.events := by
  unfold makeRoom
  split_ifs
  · exact List.tail_sublist q.events
  · exact List.Sublist.refl q.events

theorem Dnp3EventBuffer.mem_enqueue {event : Dnp3Event} {cls : EventClass}
    (he : e ∈ ((b.enqueue event).queues cls).events) :
    e ∈ (b.queues cls).events ∨ (cls = event.eventClass ∧ e = { event with seq := b.seqCounter + 1 }) := by
  by_cases hcls : cls = event.eventClass
  · subst hcls
    have he' : e ∈ ((b.queues event.eventClass).push { event with seq := b.seqCounter + 1 }).events := by
      simpa only [enqueue, Function.update_self] using he
    rcases List.mem_append.mp he' with hold | hnew
    · exact .inl ((b.queues event.eventClass).makeRoom_events.subset hold)
    · exact .inr ⟨rfl, List.mem_singleton.mp hnew⟩
  · left
    simpa only [enqueue, Function.update_of_ne hcls] using he

theorem Dnp3EventBuffer.Ordered.enqueue (h : b.Ordered) (event : Dnp3Event) :
    (b.enqueue event).Ordered where
  increasing := by
    intro cls
    by_cases hcls : cls = event.eventClass
    · subst hcls
      simp only [Dnp3EventBuffer.enqueue, Function.update_self, ClassQueue.push]
      have hroom := (b.queues event.eventClass).makeRoom_events
      refine List.pairwise_append.mpr ⟨(h.increasing _).sublist hroom, List.pairwise_singleton .., ?_⟩
      intro e he e' he'
      rw [List.mem_singleton.mp he']
      exact Nat.lt_succ_of_le (h.bounded _ e (hroom.subset he))
    · simp only [Dnp3EventBuffer.enqueue, Function.update_of_ne hcls]
      exact h.increasing cls
  bounded := by
    intro cls e he
    rcases Dnp3EventBuffer.mem_enqueue he with hold | ⟨-, rfl⟩
    · exact (h.bounded cls e hold).trans (Nat.le_succ _)
    · exact le_rfl
  distinct := by
    intro cls other e he e' he' hseq
    rcases Dnp3EventBuffer.mem_enqueue he with hold | ⟨rfl, rfl⟩ <;>
      rcases Dnp3EventBuffer.mem_enqueue he' with hold' | ⟨rfl, rfl⟩
    · exact h.distinct cls other e hold e' hold' hseq
    · exact absurd (h.bounded cls e hold) (by rw [hseq]; exact Nat.not_succ_le_self _)
    · exact absurd (h.bounded other e' hold') (by rw [← hseq]; exact Nat.not_succ_le_self _)
    · rfl

/-! ### Points -/

def Dnp3PointMap.defs (m : Dnp3PointMap) : List Dnp3PointDef := m.points.map (·.pointDef)

theorem Dnp3PointMap.getPoint_eq (m : Dnp3PointMap) (type : Dnp3PointType) (index : ℕ) :
    m.getPoint type index = m.defs.find? fun d => d.key = (type, index) := by
  rw [getPoint, lookup, defs, List.find?_map]
  rfl

theorem Dnp3PointMap.applyTagUpdate_defs (m : Dnp3PointMap) (tagId : String) (sample : PointSample) :
    (m.applyTagUpdate tagId sample).2.defs = m.defs := by
  rw [defs, applyTagUpdate, List.map_map]
  exact List.map_congr_left fun point _ => updated_pointDef tagId sample point

theorem Dnp3Event.Mapped.of_defs {m' : Dnp3PointMap} (h : e.Mapped m) (hdefs : m'.defs = m.defs) :
    e.Mapped m' where
  point := by
    rw [Dnp3PointMap.getPoint_eq, hdefs, ← Dnp3PointMap.getPoint_eq]
    exact h.point
  index := h.index

theorem Dnp3Outstation.pointEvent_mapped (hindex : ∀ d ∈ m.defs, d.index ≤ 0xffff) {key : PointKey}
    {now : ℤ} (h : Dnp3Outstation.pointEvent m key now = some e) : e.Mapped m := by
  unfold pointEvent at h
  split at h
  · cases h
  · rename_i resolved hlookup
    obtain ⟨eventClass, -, rfl⟩ := Option.map_eq_some_iff.mp h
    obtain ⟨hmem, hkey⟩ := Dnp3PointMap.lookup_key hlookup
    refine ⟨?_, hindex _ (List.mem_map_of_mem hmem)⟩
    have hpoint : m.getPoint resolved.pointDef.type resolved.pointDef.index = some resolved.pointDef := by
      rw [Dnp3PointMap.getPoint, show (resolved.pointDef.type, resolved.pointDef.index) = key from hkey, hlookup]
      rfl
    rw [hpoint]
    rfl

structure EventInv (r : LinkRun) : Prop where
  index : ∀ d ∈ r.ctx.pointMap.defs, d.index ≤ 0xffff
  ordered : r.ctx.eventBuffer.Ordered
  mapped : ∀ cls, ∀ e ∈ r.events cls, e.Mapped r.ctx.pointMap

theorem EventInv.sublist (h : EventInv r) (hdefs : r'.ctx.pointMap.defs = r.ctx.pointMap.defs)
    (hcounter : r'.ctx.eventBuffer.seqCounter = r.ctx.eventBuffer.seqCounter)
    (hevents : ∀ cls, (r'.events cls).Sublist (r.events cls)) : EventInv r' where
  index := by
    rw [hdefs]
    exact h.index
  ordered := h.ordered.sublist hevents hcounter
  mapped cls e he := (h.mapped cls e ((hevents cls).subset he)).of_defs hdefs

theorem EventInv.congr (h : EventInv r) (hmap : r'.ctx.pointMap = r.ctx.pointMap)
    (hbuffer : r'.ctx.eventBuffer = r.ctx.eventBuffer) : EventInv r' := by
  have hevents : ∀ cls, r'.events cls = r.events cls := fun cls => by rw [LinkRun.events, hbuffer]; rfl
  refine h.sublist (congrArg Dnp3PointMap.defs hmap) (congrArg Dnp3EventBuffer.seqCounter hbuffer) fun cls => ?_
  rw [hevents]

theorem Requested.sublist {session : OutstationSession} {req : ParsedRequest} {ctx ctx' : OutstationContext}
    (h : Requested session req ctx ctx') (cls : EventClass) :
    (ctx'.eventBuffer.queues cls).events.Sublist (ctx.eventBuffer.queues cls).events := by
  rcases h.events with hsame | hfilter
  · rw [hsame]
  · rw [hfilter]
    exact List.filter_sublist

/-! ### One step -/

namespace Dnp3Outstation
variable {hmac : Hmac} {o : Dnp3Outstation} {association : ℕ} {req : ParsedRequest} {now later : ℤ} {nonce : Buffer}

theorem authorise_ctx (hmac : Hmac) (o : Dnp3Outstation) (association : ℕ) (req : ParsedRequest) (now : ℤ) :
    ∃ secureAuth, (o.authorise hmac association req now).2 = o.withSecureAuth secureAuth := by
  unfold authorise
  dsimp only
  split_ifs
  · exact ⟨o.ctx.secureAuth, rfl⟩
  · split
    · exact ⟨_, rfl⟩
    · split <;> exact ⟨_, rfl⟩

theorem receiveRequest_requested (hmac : Hmac) (o : Dnp3Outstation) (association : ℕ) (req : ParsedRequest)
    (now later : ℤ) (nonce : Buffer) :
    (∃ handled ∈ o.handledRequest hmac association req now, Requested (o.sessions association) handled o.ctx
        (o.receiveRequest hmac association req now later nonce).2.ctx) ∨
      ∃ secureAuth, (o.receiveRequest hmac association req now later nonce).2 = o.withSecureAuth secureAuth := by
  unfold receiveRequest handledRequest
  split_ifs with hreply
  · obtain ⟨secureAuth, hauthorise⟩ := authorise_ctx hmac o association req now
    rcases hresult : o.authorise hmac association req now with ⟨_ | verified, o'⟩
    · rw [hresult] at hauthorise
      refine .inr ⟨secureAuth, ?_⟩
      rw [dispatchSecureAuthReply, hresult]
      exact hauthorise
    · rw [hresult] at hauthorise
      obtain rfl : o' = o.withSecureAuth secureAuth := hauthorise
      rw [dispatchSecureAuthReply, hresult]
      dsimp only
      rcases hparse : parseRequest verified.criticalAsdu with e | authorised
      · exact .inr ⟨secureAuth, rfl⟩
      · refine .inl ⟨authorised, rfl, ?_⟩
        have hchecked := handleChecked_requested (o.withSecureAuth secureAuth).ctx (o.sessions association) authorised later
        exact ⟨hchecked.pointMap, hchecked.maxTx, hchecked.counter, hchecked.events⟩
  · exact .inl ⟨req, rfl, handleApplicationRequest_requested ..⟩

theorem maybeSendUnsolicited_ctx (o : Dnp3Outstation) (now : ℤ) :
    (o.maybeSendUnsolicited now).ctx.pointMap = o.ctx.pointMap ∧
      (o.maybeSendUnsolicited now).ctx.maxTxFragmentSize = o.ctx.maxTxFragmentSize ∧
      (o.maybeSendUnsolicited now).ctx.eventBuffer.seqCounter = o.ctx.eventBuffer.seqCounter ∧
      ∀ cls, ((o.maybeSendUnsolicited now).ctx.eventBuffer.queues cls).events = (o.ctx.eventBuffer.queues cls).events := by
  unfold maybeSendUnsolicited
  split
  · exact ⟨rfl, rfl, rfl, fun _ => rfl⟩
  · dsimp only
    split_ifs <;> exact ⟨rfl, rfl, rfl, fun _ => rfl⟩

end Dnp3Outstation

theorem EventInv.maybeSendUnsolicited (h : EventInv r) (now : ℤ) : EventInv (r.maybeSendUnsolicited now) := by
  obtain ⟨hmap, -, hcounter, hevents⟩ := r.outstation.maybeSendUnsolicited_ctx now
  refine h.sublist (congrArg Dnp3PointMap.defs hmap) hcounter fun cls => ?_
  rw [show (r.maybeSendUnsolicited now).events cls = r.events cls from hevents cls]

theorem enqueueChanged_inv (hindex : ∀ d ∈ m.defs, d.index ≤ 0xffff) (changed : List (PointKey × ℤ))
    (hordered : b.Ordered) (hmapped : ∀ cls, ∀ e ∈ (b.queues cls).events, e.Mapped m) :
    (Dnp3Outstation.enqueueChanged m b changed).Ordered ∧
      ∀ cls, ∀ e ∈ ((Dnp3Outstation.enqueueChanged m b changed).queues cls).events, e.Mapped m := by
  induction changed generalizing b with
  | nil => exact ⟨hordered, hmapped⟩
  | cons point rest ih =>
    unfold Dnp3Outstation.enqueueChanged
    split
    · exact ih hordered hmapped
    · rename_i event hevent
      refine ih (hordered.enqueue event) fun cls e he => ?_
      rcases Dnp3EventBuffer.mem_enqueue he with hold | ⟨-, rfl⟩
      · exact hmapped cls e hold
      · have hnew := Dnp3Outstation.pointEvent_mapped hindex hevent
        exact ⟨hnew.point, hnew.index⟩

theorem EventInv.withSample (h : EventInv r) (tagId : String) (sample : PointSample) (clock : ℕ → ℤ) :
    EventInv { r with outstation := r.outstation.withSample tagId sample clock } := by
  have hdefs := r.ctx.pointMap.applyTagUpdate_defs tagId sample
  have hindex : ∀ d ∈ (r.ctx.pointMap.applyTagUpdate tagId sample).2.defs, d.index ≤ 0xffff := by
    rw [hdefs]
    exact h.index
  obtain ⟨hordered, hmapped⟩ := enqueueChanged_inv hindex
    ((r.ctx.pointMap.applyTagUpdate tagId sample).1.zipIdx.map fun (key, i) => (key, clock i)) h.ordered
    fun cls e he => (h.mapped cls e he).of_defs hdefs
  exact ⟨hindex, hordered, hmapped⟩

theorem linkStep_eventInv {hmac : Hmac} {a : LinkAct} (h : EventInv r)
    (hstep : linkStep hmac r a = some r') : EventInv r' := by
  cases a with
  | receive association fragment now later nonce =>
    simp only [linkStep] at hstep
    split_ifs at hstep with hconnected
    split at hstep
    · cases hstep
    · rename_i req hparse
      obtain rfl := Option.some.inj hstep
      rcases r.outstation.receiveRequest_requested hmac association req now later nonce with
        ⟨handled, -, hrequested⟩ | ⟨secureAuth, hsame⟩
      · exact h.sublist (congrArg Dnp3PointMap.defs hrequested.pointMap) hrequested.counter hrequested.sublist
      · have hctx : (r.respond association (r.outstation.receiveRequest hmac association req now later nonce)).ctx =
            (r.outstation.withSecureAuth secureAuth).ctx := congrArg Dnp3Outstation.ctx hsame
        exact h.congr (by rw [hctx]; rfl) (by rw [hctx]; rfl)
  | updateTag tagId sample clock =>
    obtain rfl := Option.some.inj hstep
    exact (h.withSample tagId sample clock).maybeSendUnsolicited _
  | unsolicitedTimer now =>
    obtain rfl := Option.some.inj hstep
    exact h.maybeSendUnsolicited now
  | onConnection association =>
    simp only [linkStep] at hstep
    split_ifs at hstep
    obtain rfl := Option.some.inj hstep
    exact ⟨h.index, h.ordered, h.mapped⟩
  | onAssociationClosed association =>
    obtain rfl := Option.some.inj hstep
    exact ⟨h.index, h.ordered, h.mapped⟩

theorem linkStep_maxTx {hmac : Hmac} {a : LinkAct} (hstep : linkStep hmac r a = some r') :
    r'.ctx.maxTxFragmentSize = r.ctx.maxTxFragmentSize := by
  cases a with
  | receive association fragment now later nonce =>
    simp only [linkStep] at hstep
    split_ifs at hstep with hconnected
    split at hstep
    · cases hstep
    · rename_i req hparse
      obtain rfl := Option.some.inj hstep
      rcases r.outstation.receiveRequest_requested hmac association req now later nonce with
        ⟨handled, -, hrequested⟩ | ⟨secureAuth, hsame⟩
      · exact hrequested.maxTx
      · have hctx : (r.respond association (r.outstation.receiveRequest hmac association req now later nonce)).ctx =
            (r.outstation.withSecureAuth secureAuth).ctx := congrArg Dnp3Outstation.ctx hsame
        rw [hctx]
        rfl
  | updateTag | unsolicitedTimer =>
    obtain rfl := Option.some.inj hstep
    exact (Dnp3Outstation.maybeSendUnsolicited_ctx _ _).2.1
  | onConnection association =>
    simp only [linkStep] at hstep
    split_ifs at hstep
    obtain rfl := Option.some.inj hstep
    rfl
  | onAssociationClosed association =>
    obtain rfl := Option.some.inj hstep
    rfl

end OxScada.Dnp3
