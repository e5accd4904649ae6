import OxScada.Dnp3.EventObjects
import OxScada.Dnp3.SecureAuth

/-! The outstation: how an application request is handled, and the object that dispatches
requests, samples and unsolicited responses. A handler that throws keeps what it had
already changed, so the result and the state are returned side by side. -/

namespace OxScada.Dnp3
open OxScada.Bytes OxScada.Js

structure Dnp3ResponseFragment where
  bytes : Buffer
  seq : ℕ
  con : Bool
  eventSeqs : List ℕ
  deriving DecidableEq, Repr

structure OutstationSession where
  pendingFragments : List Dnp3ResponseFragment := []
  awaitingConfirm : Option Dnp3ResponseFragment := none
  deriving DecidableEq, Repr

structure OutstationContext where
  pointMap : Dnp3PointMap
  eventBuffer : Dnp3EventBuffer
  secureAuth : Sav5Outstation
  controls : Dnp3ControlProcessor
  eventVariations : EventVariationPolicy := {}
  maxTxFragmentSize : ℕ := 2048
  restartPending : Bool := false
  unsolicitedEnabled : Bool := false

structure Dnp3RequestResult where
  response : Buffer
  fragments : List Dnp3ResponseFragment
  challenged : Bool
  deriving DecidableEq, Repr

def noResponse : Dnp3RequestResult := ⟨[], [], false⟩

def singleFragment (bytes : Buffer) (seq : ℕ) : Dnp3RequestResult := ⟨bytes, [⟨bytes, seq, false, []⟩], false⟩

def appHeaderLen : ℕ := 4

variable (ctx : OutstationContext)

def currentIin : Iin :=
  buildIin {
    deviceRestart := ctx.restartPending
    class1Events := ctx.eventBuffer.hasEvents .class1
    class2Events := ctx.eventBuffer.hasEvents .class2
    class3Events := ctx.eventBuffer.hasEvents .class3
    eventBufferOverflow := ctx.eventBuffer.overflowFlag }

def emptyResponse (seq : ℕ) : Buffer := buildResponseHeader { seq, iin := currentIin ctx }

def indicate (seq : ℕ) (opts : IinOptions) : Dnp3RequestResult :=
  singleFragment (buildResponseHeader { seq, iin := currentIin ctx ||| buildIin opts }) seq

/-! ### Reading -/

structure PackedFragment where
  blocks : List Buffer := []
  eventSeqs : List ℕ := []

def PackedFragment.used (frag : PackedFragment) : ℕ := frag.blocks.flatten.length

def packStatic (budget : ℕ) : List PackedFragment → PackedFragment → List Buffer → List PackedFragment × PackedFragment
  | packed, current, [] => (packed, current)
  | packed, current, block :: rest =>
    if 0 < current.used ∧ budget < current.used + block.length then
      packStatic budget (packed ++ [current]) { blocks := [block] } rest
    else packStatic budget packed { current with blocks := current.blocks ++ [block] } rest

def packEvents (m : Dnp3PointMap) (policy : EventVariationPolicy) (budget : ℕ) :
    ℕ → List PackedFragment → PackedFragment → List Dnp3Event → Except String (List PackedFragment × PackedFragment)
  | _, packed, current, [] => .ok (packed, current)
  | 0, packed, current, _ => .ok (packed, current)
  | rounds + 1, packed, current, event :: rest => do
    let pending := event :: rest
    let encoded ← buildEventObjects m policy (budget - current.used) pending
    if encoded.encodedSeqs = [] then
      -- not even one event fits in an empty fragment: the rest is withheld
      if current.used = 0 then return (packed, current)
      else packEvents m policy budget rounds (packed ++ [current]) {} pending
    else
      let current : PackedFragment :=
        ⟨current.blocks ++ [encoded.bytes], current.eventSeqs ++ encoded.encodedSeqs⟩
      match pending.drop encoded.encodedSeqs.length with
      | [] => return (packed, current)
      | pending => packEvents m policy budget rounds (packed ++ [current]) {} pending

def buildFragments (seq : ℕ) (iin : Iin) : ℕ → List PackedFragment → List Dnp3ResponseFragment
  | _, [] => []
  | i, frag :: rest =>
    let con := decide (frag.eventSeqs ≠ [] ∨ rest ≠ [])
    let header := buildResponseHeader
      { seq := (seq + i) % 16, fir := i = 0, fin := rest = [], con, iin }
    ⟨header ++ frag.blocks.flatten, (seq + i) % 16, con, frag.eventSeqs⟩ :: buildFragments seq iin (i + 1) rest

variable (targets : ClassTargets)

def requestedClasses : List EventClass :=
  (if targets.class1 then [.class1] else []) ++ (if targets.class2 then [.class2] else []) ++
    if targets.class3 then [.class3] else []

def wantStatic : Bool :=
  targets.class0 || (!targets.class1 && !targets.class2 && !targets.class3)

def fragmentBudget : ℕ := max 1 (ctx.maxTxFragmentSize - appHeaderLen)

def packPoll : Except String (List PackedFragment) := do
  let budget := fragmentBudget ctx
  let static := packStatic budget [] {} (if wantStatic targets then buildClass0Blocks ctx.pointMap budget else [])
  let pending := ctx.eventBuffer.peek (requestedClasses targets)
  let (packed, current) ← packEvents ctx.pointMap ctx.eventVariations budget (2 * pending.length) static.1 static.2 pending
  return if 0 < current.used ∨ packed = [] then packed ++ [current] else packed

variable (req : ParsedRequest)

def handleRead :
    Except String (List Dnp3ResponseFragment) × OutstationContext :=
  match packPoll ctx (classReadTargets req) with
  | .error e => (.error e, ctx)
  | .ok packed =>
    let fragments := buildFragments req.seq (currentIin ctx) 0 packed
    let reported := fragments.flatMap (·.eventSeqs)
    (.ok fragments,
      if reported = [] then ctx else { ctx with eventBuffer := ctx.eventBuffer.markReported reported })

/-! ### The other functions -/

def deviceRestartIinIndex : ℕ := 7

def handleWrite : Dnp3RequestResult × OutstationContext :=
  match req.objects with
  | [object] =>
    if object.group ≠ Group.internalIndications ∨ object.variation ≠ 1 then
      (indicate ctx req.seq { objectUnknown := true }, ctx)
    else if object.range = some (deviceRestartIinIndex, deviceRestartIinIndex) ∧
        object.data.any (fun data => data.length = 1 ∧ data.headD 0 &&& 0x01 = 0) then
      let ctx := { ctx with restartPending := false }
      (singleFragment (emptyResponse ctx req.seq) req.seq, ctx)
    else (indicate ctx req.seq { parameterError := true }, ctx)
  | _ => (indicate ctx req.seq { objectUnknown := true }, ctx)

def dispatchFragments (fragments : List Dnp3ResponseFragment) (session : OutstationSession) :
    Dnp3RequestResult × OutstationSession :=
  match fragments with
  | [] => (noResponse, session)
  | first :: rest =>
    (⟨first.bytes, fragments, false⟩, ⟨rest, if first.con then some first else none⟩)

variable (session : OutstationSession)

/-- A CONFIRM with the sequence number of the outstanding fragment removes the events the
fragment carried, and releases the next fragment. -/
def handleConfirm :
    Dnp3RequestResult × OutstationContext × OutstationSession :=
  match session.awaitingConfirm with
  | none => (noResponse, ctx, session)
  | some awaiting =>
    if awaiting.seq ≠ req.seq then (noResponse, ctx, session)
    else
      let ctx :=
        if awaiting.eventSeqs = [] then ctx
        else { ctx with eventBuffer := ctx.eventBuffer.confirm awaiting.eventSeqs }
      match session.pendingFragments with
      | [] => (noResponse, ctx, { session with awaitingConfirm := none })
      | next :: rest => (⟨next.bytes, [next], false⟩, ctx, ⟨rest, if next.con then some next else none⟩)

def handleControlRequest (now : ℤ) :
    Except String Dnp3RequestResult × OutstationContext :=
  let processed := ctx.controls.process ctx.pointMap req now
  let ctx := { ctx with controls := processed.2 }
  (processed.1.map fun result =>
    if req.func = FunctionCode.directOperateNr then noResponse
    else
      let header := buildResponseHeader { seq := req.seq, iin := currentIin ctx ||| result.iin }
      singleFragment (header ++ result.objects) req.seq, ctx)

def restart : OutstationContext :=
  { ctx with eventBuffer := ctx.eventBuffer.clear, controls := ctx.controls.disarm, restartPending := true }

abbrev Handled := Except String Dnp3RequestResult × OutstationContext × OutstationSession

def handleFunction (req : ParsedRequest) (now : ℤ) : Handled :=
  if req.func = FunctionCode.confirm then
    let confirmed := handleConfirm ctx req session
    (.ok confirmed.1, confirmed.2)
  else
    -- any other request abandons a response that was not confirmed
    let session : OutstationSession := {}
    if req.func = FunctionCode.read then
      let read := handleRead ctx req
      match read.1 with
      | .error e => (.error e, read.2, session)
      | .ok fragments =>
        let dispatched := dispatchFragments fragments session
        (.ok dispatched.1, read.2, dispatched.2)
    else if req.func = FunctionCode.write then
      let written := handleWrite ctx req
      (.ok written.1, written.2, session)
    else if req.func = FunctionCode.select ∨ req.func = FunctionCode.operate ∨ req.func = FunctionCode.directOperate ∨
        req.func = FunctionCode.directOperateNr then
      let controlled := handleControlRequest ctx req now
      (controlled.1, controlled.2, session)
    else if req.func = FunctionCode.enableUnsolicited then
      let ctx := { ctx with unsolicitedEnabled := true }
      (.ok (singleFragment (emptyResponse ctx req.seq) req.seq), ctx, session)
    else if req.func = FunctionCode.disableUnsolicited then
      let ctx := { ctx with unsolicitedEnabled := false }
      (.ok (singleFragment (emptyResponse ctx req.seq) req.seq), ctx, session)
    else if req.func = FunctionCode.coldRestart ∨ req.func = FunctionCode.warmRestart then
      let ctx := restart ctx
      (.ok (singleFragment (emptyResponse ctx req.seq) req.seq), ctx, session)
    else (.ok (indicate ctx req.seq { noFuncSupport := true }), ctx, session)

def challengeRequest (association userNumber : ℕ) (req : ParsedRequest) (now : ℤ)
    (nonce : Buffer) : Except String Dnp3RequestResult × OutstationContext :=
  match ctx.secureAuth.issueChallenge userNumber association req.raw nonce now req.seq with
  | .error e => (.error e, ctx)
  | .ok (challenge, secureAuth) =>
    let ctx := { ctx with secureAuth := secureAuth }
    let header := buildResponseHeader
      { seq := req.seq, functionCode := some FunctionCode.authResponse, iin := currentIin ctx }
    match buildFreeFormat16Object Group.secureAuth 1 (encodeChallengeObject challenge) with
    | .error e => (.error e, ctx)
    | .ok object =>
      let bytes := header ++ object
      match ctx.secureAuth.bindChallengeFragment association bytes with
      | .error e => (.error e, ctx)
      | .ok secureAuth =>
        (.ok ⟨bytes, [⟨bytes, req.seq, false, []⟩], true⟩, { ctx with secureAuth := secureAuth })

def isAuthObject (variation : UInt8) : Option Buffer :=
  match req.objects with
  | [object] =>
    match object.freeFormat with
    | some [body] =>
      if req.objectsComplete ∧ object.group = Group.secureAuth ∧ object.variation = variation ∧
          object.qualifier = 0x5b ∧ object.count = some 1 then some body
      else none
    | _ => none
  | _ => none

/-- `handleApplicationRequest` with `skipSecureAuth`, and its end without. -/
def handleChecked (req : ParsedRequest) (now : ℤ) : Handled :=
  if isCriticalFunction req.func ∧ req.objectsComplete = false then
    (.ok (if req.func = FunctionCode.directOperateNr then noResponse
      else indicate ctx req.seq { parameterError := true }), ctx, session)
  else handleFunction ctx session req now

def handleApplicationRequest (association userNumber : ℕ)
    (req : ParsedRequest) (now : ℤ) (nonce : Buffer) : Handled :=
  if req.func = FunctionCode.authRequestNoAck then
    (.ok noResponse,
      if (isAuthObject req 7).isSome then { ctx with secureAuth := ctx.secureAuth.clearAssociation association } else ctx,
      session)
  else
    let waiting := ctx.secureAuth.isWaiting association now
    let ctx := { ctx with secureAuth := waiting.2 }
    if waiting.1 then (.ok noResponse, ctx, session)
    else if isCriticalFunction req.func ∧ req.objectsComplete = true ∧ ctx.secureAuth.hasUser userNumber then
      let challenged := challengeRequest ctx association userNumber req now nonce
      (challenged.1, challenged.2, session)
    else handleChecked ctx session req now

/-! ### The outstation object -/

structure Dnp3Outstation where
  ctx : OutstationContext
  sav5UserNumber : ℕ := 1
  unsolicitedSeq : ℕ := 0
  connections : List ℕ := []
  sessions : ℕ → OutstationSession := fun _ => {}

namespace Dnp3Outstation
variable (o : Dnp3Outstation)
variable (association : ℕ)

def after (handled : Handled) : Except String Buffer × Dnp3Outstation :=
  (handled.1.map (·.response),
    { o with ctx := handled.2.1, sessions := Function.update o.sessions association handled.2.2 })

def dispatch (req : ParsedRequest) (now : ℤ) (nonce : Buffer) :
    Except String Buffer × Dnp3Outstation :=
  o.after association
    (handleApplicationRequest o.ctx (o.sessions association) association o.sav5UserNumber req now nonce)

def withSecureAuth (secureAuth : Sav5Outstation) : Dnp3Outstation :=
  { o with ctx := { o.ctx with secureAuth := secureAuth } }

/-- The first half of `dispatchSecureAuthReply`: the ASDU a reply authorises, if any. -/
def authorise (hmac : Hmac) (o : Dnp3Outstation) (association : ℕ) (req : ParsedRequest) (now : ℤ) :
    Option VerifiedAsdu × Dnp3Outstation :=
  let cleared := o.withSecureAuth (o.ctx.secureAuth.clearAssociation association)
  if req.func ≠ FunctionCode.authRequest then (none, o)
  else
    match isAuthObject req 2 with
    | none => (none, cleared)
    | some body =>
      match decodeReplyObject body with
      | .error _ => (none, cleared)
      | .ok reply =>
        let verified := o.ctx.secureAuth.verifyReply hmac reply association req.seq now
        (verified.1.toOption, o.withSecureAuth verified.2)

/-- The clock is read for the verification, and again for the execution. -/
def dispatchSecureAuthReply (hmac : Hmac) (o : Dnp3Outstation) (association : ℕ) (req : ParsedRequest) (now later : ℤ) :
    Except String Buffer × Dnp3Outstation :=
  match o.authorise hmac association req now with
  | (none, o) => (.ok [], o)
  | (some verified, o) =>
    match parseRequest verified.criticalAsdu with
    | .error _ => (.ok [], o)
    | .ok authorised => o.after association (handleChecked o.ctx (o.sessions association) authorised later)

/-- A master connects. `createSession` gives it an identity no other association has. -/
def onConnection : Dnp3Outstation :=
  { o with
    connections := o.connections ++ [association]
    sessions := Function.update o.sessions association {} }

def onAssociationClosed : Dnp3Outstation :=
  { o with
    ctx := { o.ctx with
      controls := o.ctx.controls.disarm
      secureAuth := o.ctx.secureAuth.clearAssociation association }
    connections := o.connections.erase association }

def broadcastUnsolicited (fragment : Dnp3ResponseFragment) : List ℕ × Dnp3Outstation :=
  let reached := o.connections.filter fun association => (o.sessions association).awaitingConfirm.isNone
  (reached,
    { o with
      sessions := fun association =>
        if association ∈ reached then { o.sessions association with awaitingConfirm := some fragment }
        else o.sessions association })

def unsolicitedFragment (encoded : EventEncodeResult) : Dnp3ResponseFragment where
  bytes := buildResponseHeader
    { seq := o.unsolicitedSeq % 16, unsolicited := true, con := true, iin := currentIin o.ctx } ++ encoded.bytes
  seq := o.unsolicitedSeq % 16
  con := true
  eventSeqs := encoded.encodedSeqs

/-- The events that are due, encoded in one fragment. Encoding may throw, and then nothing is sent. -/
def dueUnsolicited (now : ℤ) : Option EventEncodeResult :=
  if o.ctx.unsolicitedEnabled = false then none
  else
    let decision := o.ctx.eventBuffer.evaluateUnsolicited (Float.ofInt now)
    if decision.shouldSend = false then none
    else
      match o.ctx.eventBuffer.peek decision.classes with
      | [] => none
      | events =>
        match buildEventObjects o.ctx.pointMap o.ctx.eventVariations (fragmentBudget o.ctx) events with
        | .error _ => none
        | .ok encoded => if encoded.encodedSeqs = [] then none else some encoded

def maybeSendUnsolicited (now : ℤ) : Dnp3Outstation :=
  match o.dueUnsolicited now with
  | none => o
  | some encoded =>
    let fragment := o.unsolicitedFragment encoded
    let sent := { o with unsolicitedSeq := (o.unsolicitedSeq + 1) % 16 }.broadcastUnsolicited fragment
    if sent.1 = [] then sent.2
    else
      { sent.2 with
        ctx := { sent.2.ctx with eventBuffer := sent.2.ctx.eventBuffer.markReported fragment.eventSeqs } }

def pointEvent (m : Dnp3PointMap) (key : PointKey) (now : ℤ) : Option Dnp3Event :=
  match m.lookup key with
  | none => none
  | some resolved =>
    resolved.pointDef.eventClass.map fun eventClass =>
      { seq := 0
        pointType := resolved.pointDef.type
        index := resolved.pointDef.index
        eventClass := eventClass
        value := resolved.sample.value
        flags := deriveFlags resolved
        timestamp := orElse resolved.sample.timestamp (Float.ofInt now) }

def enqueueChanged (m : Dnp3PointMap) : Dnp3EventBuffer → List (PointKey × ℤ) → Dnp3EventBuffer
  | b, [] => b
  | b, (key, now) :: rest =>
    match pointEvent m key now with
    | none => enqueueChanged m b rest
    | some event => enqueueChanged m (b.enqueue event) rest

end Dnp3Outstation

end OxScada.Dnp3
