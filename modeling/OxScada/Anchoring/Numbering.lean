import OxScada.Anchoring.Relayer
import OxScada.Contracts.EventAnchor
import OxScada.Integrity.Verifier

/-! The numbers of the anchored batches: the counter of the pipeline, the queue of the relayer
and the sequential contract. A new process starts with a counter of its own. -/

namespace OxScada.Anchoring
open OxScada.Bytes OxScada.Runs OxScada.Integrity OxScada.Hashing

/-! ### The contract -/

/-- The 32 bytes of a root as the relayer writes them, `0x` and 64 hex digits. -/
structure RootHex where
  text : Text
  deriving DecidableEq

instance : Zero RootHex := ⟨⟨"0x".toList ++ List.replicate 64 '0'⟩⟩

abbrev EventAnchor := Contracts.EventAnchor RootHex

/-- The call of `contract.anchor` for a request. The wallet of the relayer owns the contract. -/
def AnchorRequest.call (request : AnchorRequest) (contract : EventAnchor) (timestamp : ℕ) : Contracts.AnchorCall RootHex :=
  ⟨contract.owner, ⟨request.merkleRoot⟩, request.batchId, request.eventCount, timestamp⟩

/-! ### The pipeline -/

structure PendingBatch where
  batchId : ℕ
  merkleRoot : Text
  eventCount : ℕ
  deriving DecidableEq

structure AnchorPipeline where
  batchCounter : ℕ
  signing : List PendingBatch
  relayer : Relayer

def AnchorPipeline.start : AnchorPipeline := ⟨0, [], Relayer.start⟩

/-- A request that the contract was asked to anchor, and the number it expected then. -/
structure Offer where
  batchId : ℕ
  eventCount : ℕ
  nextBatchId : ℕ
  deriving DecidableEq

/-- The running process, the contract, and the transactions between them. -/
structure AnchorSystem where
  pipeline : AnchorPipeline
  contract : EventAnchor
  mempool : List AnchorRequest
  receipts : List AnchorRequest
  /-- The calls of `contract.anchor.estimateGas`. -/
  estimates : List Offer
  /-- The calls of `contract.anchor`. -/
  calls : List Offer

inductive AnchorAct where
  | anchorBatch (batch : EventBatch)
  | signed (i : ℕ) (signature : SignatureResult)
  | signingFails (i : ℕ)
  | verified (i : ℕ) (answer : VerifierAnswer) (connected : Bool)
  | estimated (i : ℕ) (reached : Bool)
  | priced (i : ℕ) (gasPrice : Option ℕ)
  /-- The transaction may be delivered without an answer. -/
  | sent (i : ℕ) (delivered ok : Bool)
  | mines (j : ℕ) (timestamp : ℕ)
  | waited (i : ℕ) (ok : Bool)
  | confirmed (i : ℕ) (ok : Bool)
  | settles (i : ℕ)
  | resumes (i : ℕ)
  | retryFires (j : ℕ)
  | restart

namespace AnchorSystem

def start : AnchorSystem := ⟨AnchorPipeline.start, Contracts.EventAnchor.deployed 1, [], [], [], []⟩

section Machine
variable (sha256 : Text → Text) (config : RelayerConfig)
variable (s : AnchorSystem)

def offer (request : AnchorRequest) : Offer :=
  ⟨request.batchId, request.eventCount, s.contract.nextBatchId⟩

def withRelayer (relayer : Relayer) : AnchorSystem :=
  { s with pipeline := { s.pipeline with relayer } }

def relay (act : RelayerAct) : Option AnchorSystem :=
  (s.pipeline.relayer.step config act).map s.withRelayer

def step : AnchorAct → Option AnchorSystem
  | .anchorBatch batch =>
    let batchId := s.pipeline.batchCounter + 1
    let merkleRoot := rootBytes32 sha256 (batch.events.map (·.hash)) batch.batchHash
    some { s with pipeline := { s.pipeline with
      batchCounter := batchId
      signing := s.pipeline.signing ++ [⟨batchId, merkleRoot, batch.events.length⟩] } }
  | .signed i signature =>
    match s.pipeline.signing[i]? with
    | some batch =>
      let s := { s with pipeline := { s.pipeline with signing := s.pipeline.signing.eraseIdx i } }
      s.relay config (.submitAnchor batch.merkleRoot batch.batchId batch.eventCount signature .urgent)
    | none => none
  | .signingFails i =>
    if i < s.pipeline.signing.length then
      some { s with pipeline := { s.pipeline with signing := s.pipeline.signing.eraseIdx i } }
    else none
  | .verified i answer connected => s.relay config (.verified i answer connected)
  | .estimated i reached =>
    match s.pipeline.relayer.attemptAt i .estimating with
    | some request =>
      let accepted := (s.contract.anchor (request.call s.contract 0)).toOption.isSome
      let estimates := if reached then s.estimates ++ [s.offer request] else s.estimates
      { s with estimates }.relay config (.estimated i (reached && accepted))
    | none => none
  | .priced i gasPrice =>
    match s.pipeline.relayer.attemptAt i .pricing with
    | some request =>
      let calls := if (gasPrice.bind (Relayer.acceptedPrice config)).isSome then s.calls ++ [s.offer request] else s.calls
      { s with calls }.relay config (.priced i gasPrice)
    | none => none
  | .sent i delivered ok =>
    if ok && !delivered then none
    else
      match s.pipeline.relayer.attemptAt i .sending with
      | some request =>
        let mempool := if delivered then s.mempool ++ [request] else s.mempool
        { s with mempool }.relay config (.sent i ok)
      | none => none
  | .mines j timestamp =>
    match s.mempool[j]? with
    | some request =>
      let s := { s with mempool := s.mempool.eraseIdx j }
      match s.contract.anchor (request.call s.contract timestamp) with
      | .ok contract => some { s with contract, receipts := s.receipts ++ [request] }
      | .error _ => some s
    | none => none
  | .waited i ok =>
    match s.pipeline.relayer.attemptAt i .mining with
    | some request => if ok = true ∧ request ∉ s.receipts then none else s.relay config (.mined i ok)
    | none => none
  | .confirmed i ok => s.relay config (.confirmed i ok)
  | .settles i => s.relay config (.settles i)
  | .resumes i => s.relay config (.resumes i)
  | .retryFires j => s.relay config (.retryFires j)
  | .restart => some { s with pipeline := AnchorPipeline.start }

end Machine

/-! ### What the numbering promises -/

def Offer.Right (offer : Offer) : Prop := 0 < offer.eventCount → offer.batchId = offer.nextBatchId

/-- The contract is called with the number it expects, and no batch is held up because its
number is refused. -/
structure Numbered (s : AnchorSystem) : Prop where
  calls : ∀ offer ∈ s.calls, Offer.Right offer
  estimates : ∀ offer ∈ s.estimates, Offer.Right offer

section Orderly
variable (config : RelayerConfig)

/-- Batches are signed in their order. An attempt fails only
before its transaction is sent, with another attempt left and nothing behind it in the queue,
and nothing is submitted while its retry is due. A process starts on an unused contract. -/
def Orderly (s : AnchorSystem) : AnchorAct → Prop
  | .signed i _ => i = 0 ∧ s.pipeline.relayer.waiting = []
  | .signingFails _ => False
  | .sent _ delivered ok => delivered = ok
  | .waited _ ok => ok = true
  | .confirmed _ ok => ok = true
  | .settles i =>
    match s.pipeline.relayer.workers[i]? with
    | some (.attempting request (.failed permanent)) =>
      permanent = false ∧ ¬ Relayer.Exhausted config (request.retryCount + 1) ∧ s.pipeline.relayer.queue = []
    | _ => True
  | .restart => s.contract.nextBatchId = 1 ∧ s.mempool = []
  | _ => True

instance (s : AnchorSystem) (act : AnchorAct) : Decidable (s.Orderly config act) := by
  unfold Orderly
  split
  all_goals try infer_instance
  split <;> infer_instance

end Orderly

/-! ### The invariant -/

/-- Where the request stands that is not in the queue: its transaction is yet to be mined or was
refused, or there is none such. -/
inductive Front (relayer : Relayer) (mempool : List AnchorRequest) : List AnchorRequest → Prop
  | idle (hworkers : relayer.workers = []) (hprocessing : relayer.processing = false) (hqueue : relayer.queue = [])
      (hwaiting : relayer.waiting = []) (hmempool : mempool = []) : Front relayer mempool []
  | due (request : AnchorRequest) (hworkers : relayer.workers = []) (hprocessing : relayer.processing = false)
      (hqueue : relayer.queue = []) (hwaiting : relayer.waiting = [request]) (hmempool : mempool = []) : Front relayer mempool [request]
  | attempting (request : AnchorRequest) (stage : Stage)
      (hstage : stage = .verifying ∨ stage = .estimating ∨ stage = .pricing ∨ stage = .sending ∨ ∃ permanent, stage = .failed permanent)
      (hworkers : relayer.workers = [.attempting request stage]) (hprocessing : relayer.processing = true)
      (hwaiting : relayer.waiting = []) (hmempool : mempool = []) : Front relayer mempool [request]
  | sent (request : AnchorRequest) (hworkers : relayer.workers = [.attempting request .mining]) (hprocessing : relayer.processing = true)
      (hwaiting : relayer.waiting = []) (hmempool : mempool = [request] ∨ mempool = []) : Front relayer mempool [request]
  | mined (request : AnchorRequest) (stage : Stage) (hstage : stage = .mining ∨ stage = .confirming ∨ stage = .succeeded)
      (hworkers : relayer.workers = [.attempting request stage]) (hprocessing : relayer.processing = true)
      (hwaiting : relayer.waiting = []) (hmempool : mempool = []) : Front relayer mempool []
  | retrying (request : AnchorRequest) (hworkers : relayer.workers = [.resting]) (hprocessing : relayer.processing = true)
      (hqueue : relayer.queue = []) (hwaiting : relayer.waiting = [request]) (hmempool : mempool = []) : Front relayer mempool [request]
  | retried (hworkers : relayer.workers = [.resting]) (hprocessing : relayer.processing = true)
      (hwaiting : relayer.waiting = []) (hmempool : mempool = []) : Front relayer mempool []

/-- The batches that are not anchored yet are numbered from the number that the contract
expects to the last one given out. -/
def Line (contract : EventAnchor) (batchCounter : ℕ) (pending : List PendingBatch) : Prop :=
  ∃ n, pending.map (·.batchId) = List.range' contract.nextBatchId n ∧ contract.nextBatchId + n = batchCounter + 1

theorem Line.deployed {contract : EventAnchor} (h : contract.nextBatchId = 1) : Line contract 0 [] := ⟨0, rfl, h⟩

theorem Line.head {contract : EventAnchor} {batchCounter : ℕ} {batch : PendingBatch} {rest : List PendingBatch}
    (h : Line contract batchCounter (batch :: rest)) : batch.batchId = contract.nextBatchId := by
  obtain ⟨n, hnumbers, -⟩ := h
  cases n with
  | zero => cases hnumbers
  | succ n =>
    rw [List.range'_succ, List.map_cons] at hnumbers
    exact (List.cons.inj hnumbers).1

theorem Line.append {contract : EventAnchor} {batchCounter : ℕ} {pending : List PendingBatch} (h : Line contract batchCounter pending)
    {batch : PendingBatch} (hnumber : batch.batchId = batchCounter + 1) : Line contract (batchCounter + 1) (pending ++ [batch]) := by
  obtain ⟨n, hnumbers, hlast⟩ := h
  refine ⟨n + 1, ?_, ?_⟩
  · rw [List.map_append, hnumbers, List.range'_1_concat, List.map_singleton, hnumber, hlast]
  · rw [← hlast]
    rfl

theorem Line.anchor {contract contract' : EventAnchor} {batchCounter : ℕ} {batch : PendingBatch} {rest : List PendingBatch}
    (h : Line contract batchCounter (batch :: rest)) {call : Contracts.AnchorCall RootHex} (hcall : contract.anchor call = .ok contract') :
    contract'.nextBatchId = contract.nextBatchId + 1 ∧ Line contract' batchCounter rest := by
  -- the contract counts on by one, which is the number of the first batch in line
  obtain ⟨-, rfl⟩ := Contracts.EventAnchor.anchor_ok hcall
  obtain ⟨n, hnumbers, hlast⟩ := h
  cases n with
  | zero => cases hnumbers
  | succ n =>
    rw [List.range'_succ, List.map_cons] at hnumbers
    exact ⟨rfl, n, (List.cons.inj hnumbers).2, (Nat.succ_add_eq_add_succ _ _).trans hlast⟩

def pendingOf (request : AnchorRequest) : PendingBatch := ⟨request.batchId, request.merkleRoot, request.eventCount⟩

def pending (s : AnchorSystem) (front : List AnchorRequest) : List PendingBatch :=
  (front ++ s.pipeline.relayer.queue).map pendingOf ++ s.pipeline.signing

structure InOrder (s : AnchorSystem) (front : List AnchorRequest) : Prop where
  stands : Front s.pipeline.relayer s.mempool front
  unbatched : s.pipeline.relayer.currentBatch = []
  line : Line s.contract s.pipeline.batchCounter (s.pending front)
  receipted : ∀ request ∈ s.receipts, request.batchId < s.contract.nextBatchId
  numbered : Numbered s

def Ordered (s : AnchorSystem) : Prop := ∃ front, InOrder s front

section Steps
variable {sha256 : Text → Text} {config : RelayerConfig} {s s' : AnchorSystem} {front : List AnchorRequest}

theorem InOrder.start : InOrder AnchorSystem.start [] where
  stands := .idle rfl rfl rfl rfl rfl
  unbatched := rfl
  line := Line.deployed rfl
  receipted _ h := absurd h List.not_mem_nil
  numbered := ⟨fun _ h => absurd h List.not_mem_nil, fun _ h => absurd h List.not_mem_nil⟩

variable {i : ℕ} {relayer : Relayer} {request : AnchorRequest} {stage : Stage} {ok : Bool}

theorem Front.attempt {mempool : List AnchorRequest} (h : Front relayer mempool front)
    (hat : relayer.attemptAt i stage = some request) :
    i = 0 ∧ relayer.workers = [.attempting request stage] ∧ relayer.processing = true ∧ relayer.waiting = [] ∧
      (front = [request] ∧ mempool = [] ∧
          (stage = .verifying ∨ stage = .estimating ∨ stage = .pricing ∨ stage = .sending ∨ ∃ permanent, stage = .failed permanent) ∨
        front = [request] ∧ stage = .mining ∨
        front = [] ∧ mempool = [] ∧ (stage = .mining ∨ stage = .confirming ∨ stage = .succeeded)) := by
  have hworker := Relayer.attemptAt_eq hat
  have honly : ∀ worker, relayer.workers = [worker] → i = 0 ∧ worker = .attempting request stage := by
    intro worker hworkers
    rw [hworkers] at hworker
    obtain ⟨hlt, hget⟩ := List.getElem?_eq_some_iff.mp hworker
    obtain rfl : i = 0 := Nat.lt_one_iff.mp hlt
    exact ⟨rfl, hget⟩
  cases h with
  | idle hworkers =>
    rw [hworkers] at hworker
    cases hworker
  | due _ hworkers =>
    rw [hworkers] at hworker
    cases hworker
  | attempting other stage' hstage hworkers hprocessing hwaiting hmempool =>
    obtain ⟨hi, heq⟩ := honly _ hworkers
    cases heq
    exact ⟨hi, hworkers, hprocessing, hwaiting, .inl ⟨rfl, hmempool, hstage⟩⟩
  | sent other hworkers hprocessing hwaiting =>
    obtain ⟨hi, heq⟩ := honly _ hworkers
    cases heq
    exact ⟨hi, hworkers, hprocessing, hwaiting, .inr (.inl ⟨rfl, rfl⟩)⟩
  | mined other stage' hstage hworkers hprocessing hwaiting hmempool =>
    obtain ⟨hi, heq⟩ := honly _ hworkers
    cases heq
    exact ⟨hi, hworkers, hprocessing, hwaiting, .inr (.inr ⟨rfl, hmempool, hstage⟩)⟩
  | retrying other hworkers =>
    obtain ⟨-, heq⟩ := honly _ hworkers
    cases heq
  | retried hworkers =>
    obtain ⟨-, heq⟩ := honly _ hworkers
    cases heq

theorem InOrder.move (h : InOrder s front) {mempool front' : List AnchorRequest} {calls estimates : List Offer}
    (hstands : Front relayer mempool front') (hunbatched : relayer.currentBatch = [])
    (hsame : (front' ++ relayer.queue).map pendingOf = (front ++ s.pipeline.relayer.queue).map pendingOf)
    (hcalls : ∀ offer ∈ calls, Offer.Right offer) (hestimates : ∀ offer ∈ estimates, Offer.Right offer) :
    InOrder { s with pipeline := { s.pipeline with relayer }, mempool, calls, estimates } front' := by
  refine ⟨hstands, hunbatched, ?_, h.receipted, hcalls, hestimates⟩
  have hline := h.line
  unfold pending at hline ⊢
  rw [hsame]
  exact hline

theorem InOrder.quiet (h : InOrder s front) {front' : List AnchorRequest}
    (hstands : Front relayer s.mempool front') (hunbatched : relayer.currentBatch = [])
    (hsame : (front' ++ relayer.queue).map pendingOf = (front ++ s.pipeline.relayer.queue).map pendingOf) :
    InOrder (s.withRelayer relayer) front' := h.move hstands hunbatched hsame h.numbered.calls h.numbered.estimates

theorem InOrder.right (h : InOrder s front) (hfront : front = [request]) : Offer.Right (s.offer request) := by
  have hline := h.line
  rw [hfront] at hline
  exact fun _ => hline.head

theorem append_right {offers : List Offer} {last : Offer} (h : ∀ offer ∈ offers, Offer.Right offer) (hlast : Offer.Right last) :
    ∀ offer ∈ offers ++ [last], Offer.Right offer := by
  intro other hmem
  rcases List.mem_append.mp hmem with hold | hnew
  · exact h other hold
  · cases List.mem_singleton.mp hnew
    exact hlast

theorem next_empty {relayer : Relayer} (hqueue : relayer.queue = []) : relayer.next = { relayer with processing := false } := by
  unfold Relayer.next
  split
  next => rfl
  next request rest hcons =>
    rw [hqueue] at hcons
    cases hcons

theorem Front.next (hworkers : relayer.workers = []) (hprocessing : relayer.processing = true)
    (hwaiting : relayer.waiting = []) : ∃ front', Front relayer.next [] front' ∧ front' ++ relayer.next.queue = relayer.queue ∧
      relayer.next.currentBatch = relayer.currentBatch := by
  unfold Relayer.next
  split
  next hqueue => exact ⟨[], .idle hworkers rfl hqueue hwaiting rfl, rfl, rfl⟩
  next request rest hqueue =>
    have hworker : relayer.workers ++ [.attempting request .verifying] = [.attempting request .verifying] := by
      rw [hworkers]
      rfl
    exact ⟨[request], .attempting request .verifying (.inl rfl) hworker hprocessing hwaiting rfl, hqueue.symm, rfl⟩

/-! ### Steps -/

def Unsent (stage : Stage) : Prop :=
  stage = .verifying ∨ stage = .estimating ∨ stage = .pricing ∨ stage = .sending ∨ ∃ permanent, stage = .failed permanent

section
variable (h : InOrder s front)
include h

theorem InOrder.unsent (hat : s.pipeline.relayer.attemptAt i stage = some request) (hstage : stage = .verifying ∨ stage = .estimating ∨ stage = .pricing ∨ stage = .sending) :
    front = [request] ∧ s.mempool = [] := by
  obtain ⟨-, -, -, -, ⟨hfront, hmempool, -⟩ | ⟨-, rfl⟩ | ⟨-, -, hlate⟩⟩ := h.stands.attempt hat
  · exact ⟨hfront, hmempool⟩
  · rcases hstage with h | h | h | h <;> cases h
  · rcases hstage with rfl | rfl | rfl | rfl <;> rcases hlate with h | h | h <;> cases h

theorem InOrder.goOn {i : ℕ} {stage stage' : Stage} {request : AnchorRequest}
    (hat : s.pipeline.relayer.attemptAt i stage = some request)
    (hstage : stage = .verifying ∨ stage = .estimating ∨ stage = .pricing ∨ stage = .sending) (hstage' : Unsent stage') (log : List RelayerEvent)
    {calls estimates : List Offer} (hcalls : ∀ offer ∈ calls, Offer.Right offer) (hestimates : ∀ offer ∈ estimates, Offer.Right offer) :
    InOrder { s with
      pipeline := { s.pipeline with relayer := { s.pipeline.relayer.setStage i request stage' with log } }, calls, estimates } [request] := by
  obtain ⟨hfront, hmempool⟩ := h.unsent hat hstage
  obtain ⟨rfl, hworkers, hprocessing, hwaiting, -⟩ := h.stands.attempt hat
  have hset : s.pipeline.relayer.workers.set 0 (.attempting request stage') = [.attempting request stage'] := by
    rw [hworkers]
    rfl
  subst hfront
  have hstands : Front { s.pipeline.relayer.setStage 0 request stage' with log } s.mempool [request] :=
    .attempting request stage' hstage' hset hprocessing hwaiting hmempool
  exact h.move hstands h.unbatched rfl hcalls hestimates

theorem InOrder.verified {answer : VerifierAnswer} {connected : Bool}
    (hstep : step sha256 config s (.verified i answer connected) = some s') : ∃ front', InOrder s' front' := by
  obtain ⟨relayer, hrelayer, rfl⟩ := Option.map_eq_some_iff.mp hstep
  obtain ⟨request, hat, rfl⟩ := Option.map_eq_some_iff.mp hrelayer
  refine ⟨[request], ?_⟩
  have hfailed : ∀ permanent, Unsent (.failed permanent) := fun permanent => .inr (.inr (.inr (.inr ⟨permanent, rfl⟩)))
  split
  · refine h.goOn hat (.inl rfl) ?_ _ h.numbered.calls h.numbered.estimates
    split
    · exact .inr (.inl rfl)
    · exact hfailed false
  · exact h.goOn hat (.inl rfl) (hfailed true) _ h.numbered.calls h.numbered.estimates
  · exact h.goOn hat (.inl rfl) (hfailed false) _ h.numbered.calls h.numbered.estimates

theorem InOrder.estimated {reached : Bool}
    (hstep : step sha256 config s (.estimated i reached) = some s') : ∃ front', InOrder s' front' := by
  unfold step at hstep
  dsimp only at hstep
  split at hstep
  next request hat =>
    obtain ⟨relayer, hrelayer, rfl⟩ := Option.map_eq_some_iff.mp hstep
    obtain ⟨request', hat', rfl⟩ := Option.map_eq_some_iff.mp hrelayer
    cases hat.symm.trans hat'
    refine ⟨[request], h.goOn hat (.inr (.inl rfl)) ?_ _ h.numbered.calls ?_⟩
    · split
      · exact .inr (.inr (.inl rfl))
      · exact .inr (.inr (.inr (.inr ⟨false, rfl⟩)))
    · split
      · exact append_right h.numbered.estimates (h.right (h.unsent hat (.inr (.inl rfl))).1)
      · exact h.numbered.estimates
  next => cases hstep

theorem InOrder.priced {gasPrice : Option ℕ}
    (hstep : step sha256 config s (.priced i gasPrice) = some s') : ∃ front', InOrder s' front' := by
  unfold step at hstep
  dsimp only at hstep
  split at hstep
  next request hat =>
    obtain ⟨relayer, hrelayer, rfl⟩ := Option.map_eq_some_iff.mp hstep
    obtain ⟨request', hat', rfl⟩ := Option.map_eq_some_iff.mp hrelayer
    cases hat.symm.trans hat'
    have hcalls := append_right h.numbered.calls (h.right (h.unsent hat (.inr (.inr (.inl rfl)))).1)
    refine ⟨[request], ?_⟩
    cases gasPrice.bind (Relayer.acceptedPrice config) with
    | none =>
      exact h.goOn hat (.inr (.inr (.inl rfl))) (.inr (.inr (.inr (.inr ⟨false, rfl⟩)))) _ h.numbered.calls h.numbered.estimates
    | some price => exact h.goOn hat (.inr (.inr (.inl rfl))) (.inr (.inr (.inr (.inl rfl)))) _ hcalls h.numbered.estimates
  next => cases hstep

theorem InOrder.sent {delivered : Bool} (hok : delivered = ok)
    (hstep : step sha256 config s (.sent i delivered ok) = some s') : ∃ front', InOrder s' front' := by
  subst hok
  unfold step at hstep
  dsimp only at hstep
  rw [if_neg (by cases delivered <;> decide)] at hstep
  split at hstep
  next request hat =>
    obtain ⟨relayer, hrelayer, rfl⟩ := Option.map_eq_some_iff.mp hstep
    obtain ⟨request', hat', rfl⟩ := Option.map_eq_some_iff.mp hrelayer
    cases hat.symm.trans hat'
    refine ⟨[request], ?_⟩
    cases delivered with
    | false =>
      exact h.goOn hat (.inr (.inr (.inr rfl))) (.inr (.inr (.inr (.inr ⟨false, rfl⟩)))) _ h.numbered.calls h.numbered.estimates
    | true =>
      obtain ⟨rfl, hmempool⟩ := h.unsent hat (.inr (.inr (.inr rfl)))
      obtain ⟨rfl, hworkers, hprocessing, hwaiting, -⟩ := h.stands.attempt hat
      have hset : s.pipeline.relayer.workers.set 0 (.attempting request .mining) = [.attempting request .mining] := by
        rw [hworkers]
        rfl
      have hsent : s.mempool ++ [request] = [request] := by
        rw [hmempool]
        rfl
      have hstands : Front (s.pipeline.relayer.setStage 0 request .mining) (s.mempool ++ [request]) [request] :=
        .sent request hset hprocessing hwaiting (.inl hsent)
      exact h.move hstands h.unbatched rfl h.numbered.calls h.numbered.estimates
  next => cases hstep

theorem InOrder.mines {j timestamp : ℕ} (hstep : step sha256 config s (.mines j timestamp) = some s') :
    ∃ front', InOrder s' front' := by
  unfold step at hstep
  dsimp only at hstep
  cases hmem : s.mempool[j]? with
  | none =>
    rw [hmem] at hstep
    cases hstep
  | some request =>
    rw [hmem] at hstep
    dsimp only at hstep
    obtain ⟨hlt, hget⟩ := List.getElem?_eq_some_iff.mp hmem
    have hempty : s.mempool ≠ [] := List.ne_nil_of_length_pos (Nat.zero_lt_of_lt hlt)
    obtain ⟨hstands, hunbatched, hline, hreceipted, hnumbered⟩ := h
    cases hstands with
    | idle _ _ _ _ hmempool => exact absurd hmempool hempty
    | due _ _ _ _ _ hmempool => exact absurd hmempool hempty
    | attempting _ _ _ _ _ _ hmempool => exact absurd hmempool hempty
    | mined _ _ _ _ _ _ hmempool => exact absurd hmempool hempty
    | retrying _ _ _ _ _ hmempool => exact absurd hmempool hempty
    | retried _ _ _ hmempool => exact absurd hmempool hempty
    | sent sent hworkers hprocessing hwaiting hmempool =>
      obtain hmempool := hmempool.resolve_right hempty
      rw [hmempool] at hmem
      obtain ⟨hj, rfl⟩ := List.getElem?_eq_some_iff.mp hmem
      obtain rfl : j = 0 := Nat.lt_one_iff.mp hj
      have hnumber : sent.batchId = s.contract.nextBatchId := hline.head
      rw [List.getElem_singleton, hmempool] at hstep
      cases hanchor : s.contract.anchor (sent.call s.contract timestamp) with
      | error _ =>
        rw [hanchor] at hstep
        cases hstep
        exact ⟨[sent], .sent sent hworkers hprocessing hwaiting (.inr rfl), hunbatched, hline, hreceipted, hnumbered.calls,
          hnumbered.estimates⟩
      | ok contract' =>
        rw [hanchor] at hstep
        cases hstep
        obtain ⟨hnext, hline'⟩ := hline.anchor hanchor
        refine ⟨[], .mined sent .mining (.inl rfl) hworkers hprocessing hwaiting rfl, hunbatched, hline', fun other hmem' => ?_,
          hnumbered.calls, hnumbered.estimates⟩
        dsimp only at hmem' ⊢
        rw [hnext]
        rcases List.mem_append.mp hmem' with hold | hnew
        · exact Nat.lt_succ_of_lt (hreceipted other hold)
        · rw [List.mem_singleton.mp hnew, hnumber]
          exact Nat.lt_succ_self _

theorem InOrder.landed {stage' : Stage}
    (hat : s.pipeline.relayer.attemptAt i stage = some request) (hfront : front = [])
    (hstage' : stage' = .mining ∨ stage' = .confirming ∨ stage' = .succeeded) :
    InOrder (s.withRelayer (s.pipeline.relayer.setStage i request stage')) [] := by
  obtain ⟨rfl, hworkers, hprocessing, hwaiting, ⟨hother, -⟩ | ⟨hother, -⟩ | ⟨-, hmempool, -⟩⟩ := h.stands.attempt hat
  · rw [hfront] at hother
    cases hother
  · rw [hfront] at hother
    cases hother
  · have hset : s.pipeline.relayer.workers.set 0 (.attempting request stage') = [.attempting request stage'] := by
      rw [hworkers]
      rfl
    subst hfront
    exact h.quiet (.mined request stage' hstage' hset hprocessing hwaiting hmempool) h.unbatched rfl

theorem InOrder.waited (hok : ok = true)
    (hstep : step sha256 config s (.waited i ok) = some s') : ∃ front', InOrder s' front' := by
  subst hok
  unfold step at hstep
  dsimp only at hstep
  cases hat : s.pipeline.relayer.attemptAt i .mining with
  | none =>
    rw [hat] at hstep
    cases hstep
  | some request =>
    rw [hat] at hstep
    dsimp only at hstep
    split_ifs at hstep with hunmined
    have hreceipt : request ∈ s.receipts := by
      by_contra hnot
      exact hunmined ⟨rfl, hnot⟩
    obtain ⟨relayer, hrelayer, rfl⟩ := Option.map_eq_some_iff.mp hstep
    obtain ⟨request', hat', rfl⟩ := Option.map_eq_some_iff.mp hrelayer
    cases hat.symm.trans hat'
    -- An attempt whose transaction is not mined has the number that the contract expects.
    have hfront : front = [] := by
      obtain ⟨-, -, -, -, ⟨hfront, -⟩ | ⟨hfront, -⟩ | ⟨hfront, -⟩⟩ := h.stands.attempt hat
      · have hline := h.line
        rw [hfront] at hline
        exact absurd hline.head (h.receipted request hreceipt).ne
      · have hline := h.line
        rw [hfront] at hline
        exact absurd hline.head (h.receipted request hreceipt).ne
      · exact hfront
    exact ⟨[], h.landed hat hfront (.inr (.inl rfl))⟩

theorem InOrder.confirmed (hok : ok = true)
    (hstep : step sha256 config s (.confirmed i ok) = some s') : ∃ front', InOrder s' front' := by
  subst hok
  obtain ⟨relayer, hrelayer, rfl⟩ := Option.map_eq_some_iff.mp hstep
  obtain ⟨request, hat, rfl⟩ := Option.map_eq_some_iff.mp hrelayer
  have hfront : front = [] := by
    obtain ⟨-, -, -, -, ⟨-, -, hstage⟩ | ⟨-, hstage⟩ | ⟨hfront, -⟩⟩ := h.stands.attempt hat
    · rcases hstage with h | h | h | h | ⟨_, h⟩ <;> cases h
    · cases hstage
    · exact hfront
  exact ⟨[], h.landed hat hfront (.inr (.inr rfl))⟩

end

theorem InOrder.next (h : InOrder s []) (hqueue : relayer.queue = s.pipeline.relayer.queue)
    (hunbatched : relayer.currentBatch = []) (hworkers : relayer.workers = []) (hprocessing : relayer.processing = true)
    (hwaiting : relayer.waiting = []) (hmempool : s.mempool = []) : ∃ front', InOrder (s.withRelayer relayer.next) front' := by
  obtain ⟨front', hstands, hsame, hbatch⟩ := Front.next hworkers hprocessing hwaiting
  refine ⟨front', h.quiet ?_ (hbatch.trans hunbatched) ?_⟩
  · rw [hmempool]
    exact hstands
  · rw [hsame, hqueue]
    rfl

theorem InOrder.settles (h : InOrder s front) (hok : s.Orderly config (.settles i))
    (hstep : step sha256 config s (.settles i) = some s') : ∃ front', InOrder s' front' := by
  obtain ⟨relayer, hrelayer, rfl⟩ := Option.map_eq_some_iff.mp hstep
  unfold Relayer.step at hrelayer
  dsimp only at hrelayer
  unfold Orderly at hok
  dsimp only at hok
  split at hrelayer
  next request hworker =>
    cases hrelayer
    have hat : s.pipeline.relayer.attemptAt i .succeeded = some request := by
      unfold Relayer.attemptAt
      rw [hworker]
      exact if_pos rfl
    obtain ⟨rfl, hworkers, hprocessing, hwaiting, ⟨-, -, hstage⟩ | ⟨-, hstage⟩ | ⟨rfl, hmempool, -⟩⟩ := h.stands.attempt hat
    · rcases hstage with h | h | h | h | ⟨_, h⟩ <;> cases h
    · cases hstage
    · have hgone : s.pipeline.relayer.workers.eraseIdx 0 = [] := by
        rw [hworkers]
        rfl
      exact h.next rfl h.unbatched hgone hprocessing hwaiting hmempool
  next request permanent hworker =>
    cases hrelayer
    rw [hworker] at hok
    obtain ⟨rfl, hexhausted, hqueue⟩ := hok
    have hat : s.pipeline.relayer.attemptAt i (.failed false) = some request := by
      unfold Relayer.attemptAt
      rw [hworker]
      exact if_pos rfl
    obtain ⟨rfl, hworkers, hprocessing, hwaiting, ⟨rfl, hmempool, -⟩ | ⟨-, hstage⟩ | ⟨-, -, hstage⟩⟩ := h.stands.attempt hat
    · have hset : s.pipeline.relayer.workers.set 0 .resting = [.resting] := by
        rw [hworkers]
        rfl
      have hretry : s.pipeline.relayer.waiting ++ [{ request with retryCount := request.retryCount + 1 }] =
          [{ request with retryCount := request.retryCount + 1 }] := by
        rw [hwaiting]
        rfl
      unfold Relayer.handleFailure
      dsimp only
      rw [if_neg Bool.false_ne_true, if_neg hexhausted]
      exact ⟨_, h.quiet (.retrying _ hset hprocessing hqueue hretry hmempool) h.unbatched rfl⟩
    · cases hstage
    · rcases hstage with h | h | h <;> cases h
  next => cases hrelayer

theorem InOrder.resumes (h : InOrder s front) (hstep : step sha256 config s (.resumes i) = some s') :
    ∃ front', InOrder s' front' := by
  obtain ⟨relayer, hrelayer, rfl⟩ := Option.map_eq_some_iff.mp hstep
  unfold Relayer.step at hrelayer
  dsimp only at hrelayer
  split at hrelayer
  next hworker =>
    cases hrelayer
    have hother : ∀ request stage, s.pipeline.relayer.workers ≠ [.attempting request stage] := by
      intro request stage hworkers
      rw [hworkers] at hworker
      obtain ⟨hlt, hget⟩ := List.getElem?_eq_some_iff.mp hworker
      obtain rfl : i = 0 := Nat.lt_one_iff.mp hlt
      cases hget
    have hnone : s.pipeline.relayer.workers ≠ [] := by
      intro hworkers
      rw [hworkers] at hworker
      cases hworker
    obtain ⟨hlt, -⟩ := List.getElem?_eq_some_iff.mp hworker
    have hgone : ∀ worker, s.pipeline.relayer.workers = [worker] → s.pipeline.relayer.workers.eraseIdx i = [] := by
      intro worker hworkers
      rw [hworkers] at hlt ⊢
      obtain rfl : i = 0 := Nat.lt_one_iff.mp hlt
      rfl
    cases hstands : h.stands with
    | idle hworkers => exact absurd hworkers hnone
    | due _ hworkers => exact absurd hworkers hnone
    | attempting request stage _ hworkers => exact absurd hworkers (hother request stage)
    | sent request hworkers => exact absurd hworkers (hother request .mining)
    | mined request stage _ hworkers => exact absurd hworkers (hother request stage)
    | retrying request hworkers hprocessing hqueue hwaiting hmempool =>
      have hnext := @next_empty { s.pipeline.relayer with workers := s.pipeline.relayer.workers.eraseIdx i } hqueue
      rw [hnext]
      exact ⟨_, h.quiet (.due request (hgone _ hworkers) rfl hqueue hwaiting hmempool) h.unbatched rfl⟩
    | retried hworkers hprocessing hwaiting hmempool =>
      exact h.next rfl h.unbatched (hgone _ hworkers) hprocessing hwaiting hmempool
  next => cases hrelayer

theorem InOrder.retryFires (h : InOrder s front) {j : ℕ} (hstep : step sha256 config s (.retryFires j) = some s') :
    ∃ front', InOrder s' front' := by
  obtain ⟨relayer, hrelayer, rfl⟩ := Option.map_eq_some_iff.mp hstep
  unfold Relayer.step at hrelayer
  dsimp only at hrelayer
  split at hrelayer
  next request hrequest =>
    cases hrelayer
    have hsome : s.pipeline.relayer.waiting ≠ [] := by
      intro hwaiting
      rw [hwaiting] at hrequest
      cases hrequest
    have honly : ∀ other, s.pipeline.relayer.waiting = [other] → request = other ∧ s.pipeline.relayer.waiting.eraseIdx j = [] := by
      intro other hwaiting
      rw [hwaiting] at hrequest ⊢
      obtain ⟨hlt, rfl⟩ := List.getElem?_eq_some_iff.mp hrequest
      obtain rfl : j = 0 := Nat.lt_one_iff.mp hlt
      exact ⟨rfl, rfl⟩
    cases hstands : h.stands with
    | idle _ _ _ hwaiting => exact absurd hwaiting hsome
    | attempting _ _ _ _ _ hwaiting => exact absurd hwaiting hsome
    | sent _ _ _ hwaiting => exact absurd hwaiting hsome
    | mined _ _ _ _ _ hwaiting => exact absurd hwaiting hsome
    | retried _ _ hwaiting => exact absurd hwaiting hsome
    | due other hworkers hprocessing hqueue hwaiting hmempool =>
      obtain ⟨rfl, hgone⟩ := honly other hwaiting
      rw [hprocessing, hgone, hqueue]
      have hworker : s.pipeline.relayer.workers ++ [.attempting request .verifying] = [.attempting request .verifying] := by
        rw [hworkers]
        rfl
      refine ⟨[request], h.quiet (.attempting request .verifying (.inl rfl) hworker rfl rfl hmempool) h.unbatched ?_⟩
      rw [hqueue]
      rfl
    | retrying other hworkers hprocessing hqueue hwaiting hmempool =>
      obtain ⟨rfl, hgone⟩ := honly other hwaiting
      rw [hprocessing, hgone, hqueue]
      refine ⟨[], h.quiet (.retried hworkers rfl rfl hmempool) h.unbatched ?_⟩
      rw [hqueue]
      rfl
  next => cases hrelayer

theorem InOrder.anchorBatch (h : InOrder s front) {batch : EventBatch}
    (hstep : step sha256 config s (.anchorBatch batch) = some s') : ∃ front', InOrder s' front' := by
  cases hstep
  refine ⟨front, h.stands, h.unbatched, ?_, h.receipted, h.numbered.calls, h.numbered.estimates⟩
  have hline := @Line.append _ _ _ h.line
    ⟨s.pipeline.batchCounter + 1, rootBytes32 sha256 (batch.events.map (·.hash)) batch.batchHash, batch.events.length⟩
    rfl
  unfold pending at hline ⊢
  rw [List.append_assoc] at hline
  exact hline

theorem submit_urgent (relayer : Relayer) (hunbatched : relayer.currentBatch = []) (merkleRoot : Text) (batchId eventCount : ℕ)
    (signature : SignatureResult) : Relayer.step config relayer (.submitAnchor merkleRoot batchId eventCount signature .urgent) =
      let queued := { relayer with
        currentBatch := []
        submitted := relayer.submitted + 1
        queue := relayer.queue ++ [⟨relayer.submitted, merkleRoot, batchId, eventCount, signature, 0, .urgent⟩] }
      some (if queued.processing then queued else queued.processQueue) := by
  unfold Relayer.step
  dsimp only
  rw [hunbatched, if_pos rfl]
  rfl

theorem InOrder.signed (h : InOrder s front) {signature : SignatureResult} (hok : s.Orderly config (.signed i signature))
    (hstep : step sha256 config s (.signed i signature) = some s') : ∃ front', InOrder s' front' := by
  obtain ⟨rfl, hwaiting⟩ := hok
  unfold step at hstep
  dsimp only at hstep
  cases hsigning : s.pipeline.signing with
  | nil =>
    rw [hsigning] at hstep
    cases hstep
  | cons batch rest =>
    rw [hsigning] at hstep
    obtain ⟨relayer, hrelayer, rfl⟩ := Option.map_eq_some_iff.mp hstep
    dsimp only at hrelayer
    rw [submit_urgent _ h.unbatched] at hrelayer
    cases hrelayer
    have hsame : (front ++ (s.pipeline.relayer.queue ++ ([⟨s.pipeline.relayer.submitted, batch.merkleRoot, batch.batchId, batch.eventCount,
        signature, 0, .urgent⟩] : List AnchorRequest))).map pendingOf ++ rest = s.pending front := by
      unfold pending
      rw [hsigning, ← List.append_assoc, List.map_append, List.append_assoc]
      rfl
    have hqueued : ∀ relayer front', Front relayer s.mempool front' → relayer.currentBatch = [] →
        (front' ++ relayer.queue).map pendingOf ++ rest = s.pending front →
        InOrder { s with pipeline := { s.pipeline with signing := rest, relayer } } front' := by
      intro relayer front' hstands hunbatched hsame
      have hline := h.line
      rw [← hsame] at hline
      exact ⟨hstands, hunbatched, hline, h.receipted, h.numbered.calls, h.numbered.estimates⟩
    cases hstands : h.stands with
    | idle hworkers hprocessing hqueue _ hmempool =>
      have hworker : ∀ request, s.pipeline.relayer.workers ++ [.attempting request .verifying] = [.attempting request .verifying] := by
        intro request
        rw [hworkers]
        rfl
      rw [hqueue] at hsame ⊢
      rw [hprocessing]
      exact ⟨_, hqueued _ _ (.attempting _ .verifying (.inl rfl) (hworker _) rfl hwaiting hmempool) rfl hsame⟩
    | due _ _ _ _ hdue =>
      rw [hwaiting] at hdue
      cases hdue
    | attempting request stage hstage hworkers hprocessing _ hmempool =>
      rw [hprocessing]
      exact ⟨_, hqueued _ _ (.attempting request stage hstage hworkers rfl hwaiting hmempool) rfl hsame⟩
    | sent request hworkers hprocessing _ hmempool =>
      rw [hprocessing]
      exact ⟨_, hqueued _ _ (.sent request hworkers rfl hwaiting hmempool) rfl hsame⟩
    | mined request stage hstage hworkers hprocessing _ hmempool =>
      rw [hprocessing]
      exact ⟨_, hqueued _ _ (.mined request stage hstage hworkers rfl hwaiting hmempool) rfl hsame⟩
    | retrying other hworkers hprocessing hqueue hdue =>
      rw [hwaiting] at hdue
      cases hdue
    | retried hworkers hprocessing _ hmempool =>
      rw [hprocessing]
      exact ⟨_, hqueued _ _ (.retried hworkers rfl hwaiting hmempool) rfl hsame⟩

theorem InOrder.step (h : InOrder s front) {act : AnchorAct} (hok : s.Orderly config act)
    (hstep : step sha256 config s act = some s') : ∃ front', InOrder s' front' := by
  cases act with
  | anchorBatch => exact h.anchorBatch hstep
  | signed => exact h.signed hok hstep
  | signingFails => exact hok.elim
  | verified => exact h.verified hstep
  | estimated => exact h.estimated hstep
  | priced => exact h.priced hstep
  | sent => exact h.sent hok hstep
  | mines => exact h.mines hstep
  | waited => exact h.waited hok hstep
  | confirmed => exact h.confirmed hok hstep
  | settles => exact h.settles hok hstep
  | resumes => exact h.resumes hstep
  | retryFires => exact h.retryFires hstep
  | restart =>
    cases hstep
    obtain ⟨hunused, hmempool⟩ := hok
    exact ⟨[], .idle rfl rfl rfl rfl hmempool, rfl, Line.deployed hunused, h.receipted, h.numbered.calls, h.numbered.estimates⟩

end Steps

/-- In an orderly run every batch is offered to the contract under the number it expects. -/
theorem reachable_numbered (sha256 : Text → Text) (config : RelayerConfig) {s : AnchorSystem}
    (hs : Reachable (step sha256 config) (Orderly config) start s) : Numbered s := by
  have hordered : s.Ordered := by
    apply Reachable.invariant hs ⟨[], InOrder.start⟩
    rintro before act after ⟨front, h⟩ hok hstep
    exact h.step hok hstep
  obtain ⟨front, h⟩ := hordered
  exact h.numbered

def oneEvent : EventBatch := ⟨[⟨"event".toList, "hash".toList⟩], "batch".toList⟩

def oneEventSigned : SignatureResult := ⟨"sig".toList, rootBytes32 bracketed (oneEvent.events.map (·.hash)) oneEvent.batchHash, 1⟩

def submitted : List AnchorAct := [.anchorBatch oneEvent, .signed 0 oneEventSigned, .verified 0 (.valid true) true]

/-- An attempt fails at the estimation, and the timer of its retry fires. -/
def unreached : List AnchorAct := [.estimated 0 false, .settles 0, .resumes 0, .retryFires 0, .verified 0 (.valid true) true]

def retriedBatch : List AnchorAct :=
  submitted ++ unreached ++ [.estimated 0 true, .priced 0 (some 1), .sent 0 true true, .mines 0 5, .waited 0 true, .confirmed 0 true, .settles 0]
    ++ submitted ++ [.estimated 0 true, .priced 0 (some 1)]

def retriedBatchRun : AnchorSystem :=
  (exec (checked (step bracketed Relayer.twoAttempts) (Orderly Relayer.twoAttempts)) start retriedBatch).getD start

theorem reachable_numbered_retried : retriedBatchRun.calls = [⟨1, 1, 1⟩, ⟨2, 1, 2⟩] ∧ Numbered retriedBatchRun := by
  have hexec : exec (checked (step bracketed Relayer.twoAttempts) (Orderly Relayer.twoAttempts)) start retriedBatch =
      some retriedBatchRun := eq_some_getD (by decide +kernel) _
  exact ⟨by decide +kernel, reachable_numbered bracketed Relayer.twoAttempts (Reachable.start.of_exec_checked retriedBatch hexec)⟩

/-- The wait for a transaction fails, and it is mined after the estimation for the retry. -/
def lateMined : List AnchorAct :=
  submitted ++ [.estimated 0 true, .priced 0 (some 1), .sent 0 true true, .waited 0 false, .settles 0, .resumes 0, .retryFires 0,
    .verified 0 (.valid true) true, .estimated 0 true, .mines 0 5, .priced 0 (some 1)]

def lateMinedRun : AnchorSystem := (exec (step bracketed Relayer.twoAttempts) start lateMined).getD start

/-- Both attempts for the first batch fail, and the second batch is refused. -/
def firstFails : List AnchorAct :=
  submitted ++ unreached ++ [.estimated 0 false, .settles 0, .resumes 0] ++ submitted ++ [.estimated 0 true]

def firstFailsRun : AnchorSystem := (exec (step bracketed Relayer.twoAttempts) start firstFails).getD start

theorem failures_misnumber :
    (¬ ∀ s, Reachable (step bracketed Relayer.twoAttempts) (fun _ _ => True) start s → ∀ offer ∈ s.calls, Offer.Right offer) ∧
      ¬ ∀ s, Reachable (step bracketed Relayer.twoAttempts) (fun _ _ => True) start s → ∀ offer ∈ s.estimates, Offer.Right offer := by
  constructor
  · intro hright
    have hexec : exec (step bracketed Relayer.twoAttempts) start lateMined = some lateMinedRun := eq_some_getD (by decide +kernel) _
    have hrun := Reachable.start.of_exec lateMined (fun _ _ _ => trivial) hexec
    have hcall : (⟨1, 1, 2⟩ : Offer) ∈ lateMinedRun.calls := by decide +kernel
    have hequal : 1 = 2 := hright lateMinedRun hrun _ hcall Nat.one_pos
    cases hequal
  · intro hright
    have hexec : exec (step bracketed Relayer.twoAttempts) start firstFails = some firstFailsRun := eq_some_getD (by decide +kernel) _
    have hrun := Reachable.start.of_exec firstFails (fun _ _ _ => trivial) hexec
    have hestimate : (⟨2, 1, 1⟩ : Offer) ∈ firstFailsRun.estimates := by decide +kernel
    have hequal : 2 = 1 := hright firstFailsRun hrun _ hestimate Nat.one_pos
    cases hequal

end AnchorSystem

end OxScada.Anchoring
