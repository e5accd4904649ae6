import OxScada.Bytes.Buffer
import OxScada.Runs.Reachable

/-! The anchor relayer. A step is a stretch of its code between two `await`s. A request is in
one place at a time, so its record stands for the object; `ref` counts the submissions. -/

namespace OxScada.Anchoring
open OxScada.Bytes OxScada.Runs

inductive Priority where
  | normal | high | urgent
  deriving DecidableEq

def Priority.order : Priority → ℕ
  | .urgent => 3
  | .high => 2
  | .normal => 1

structure SignatureResult where
  signature : Text
  merkleRoot : Text
  timestamp : ℤ
  deriving DecidableEq

structure RelayerConfig where
  /-- `none` is what is not a number. -/
  maxRetries : Option (WithTop ℚ)
  maxGasPrice : ℕ
  /-- A signature verifier is wired. -/
  signatureVerifier : Bool
  allowUnverified : Bool

structure AnchorRequest where
  ref : ℕ
  merkleRoot : Text
  batchId : ℕ
  eventCount : ℕ
  signatureResult : SignatureResult
  retryCount : ℕ
  priority : Priority
  deriving DecidableEq

def ByPriority (a b : AnchorRequest) : Prop := b.priority.order ≤ a.priority.order

instance : DecidableRel ByPriority := fun a b => inferInstanceAs (Decidable (b.priority.order ≤ a.priority.order))

/-- What `submitToBlockchain` awaits, or what it resolved to. -/
inductive Stage where
  | verifying | estimating | pricing | sending | mining | confirming | succeeded
  | failed (permanent : Bool)
  deriving DecidableEq

/-- A run of `processQueue`. After the handling of a failure it yields once more. -/
inductive Worker where
  | attempting (request : AnchorRequest) (stage : Stage)
  | resting
  deriving DecidableEq

inductive RelayerEvent where
  | attempt (ref : ℕ)
  /-- `verifySignature` returned true. -/
  | verified (ref : ℕ)
  /-- `contract.anchor` was called. -/
  | anchorCall (ref : ℕ)
  | anchorRetry (ref : ℕ)
  | anchorSuccess (ref : ℕ)
  | anchorFailed (ref : ℕ) (permanent : Bool)
  deriving DecidableEq

def Worker.request : Worker → Option AnchorRequest
  | .attempting request _ => some request
  | .resting => none

def RelayerEvent.ref : RelayerEvent → ℕ
  | .attempt ref | .verified ref | .anchorCall ref | .anchorRetry ref | .anchorSuccess ref | .anchorFailed ref _ => ref

def RelayerEvent.Final : RelayerEvent → Prop
  | .anchorSuccess _ | .anchorFailed _ _ => True
  | _ => False

instance (event : RelayerEvent) : Decidable event.Final := by
  unfold RelayerEvent.Final
  split <;> infer_instance

structure Relayer where
  currentBatch : List AnchorRequest
  queue : List AnchorRequest
  processing : Bool
  /-- The batch timer runs. -/
  batchTimer : Bool
  workers : List Worker
  /-- The requests on a retry timer. -/
  waiting : List AnchorRequest
  submitted : ℕ
  log : List RelayerEvent
  deriving DecidableEq

inductive VerifierAnswer where
  | valid (valid : Bool)
  | rejects
  /-- The verifier rejects with `null` or `undefined`, which has no message to read. -/
  | rejectsNullish
  deriving DecidableEq

inductive RelayerAct where
  | submitAnchor (merkleRoot : Text) (batchId eventCount : ℕ) (signatureResult : SignatureResult) (priority : Priority)
  | batchTick
  | shutdown
  | verified (i : ℕ) (answer : VerifierAnswer) (connected : Bool)
  | estimated (i : ℕ) (ok : Bool)
  /-- The answer of `getFeeData`, if there is one. -/
  | priced (i : ℕ) (gasPrice : Option ℕ)
  | sent (i : ℕ) (ok : Bool)
  | mined (i : ℕ) (ok : Bool)
  | confirmed (i : ℕ) (ok : Bool)
  | settles (i : ℕ)
  | resumes (i : ℕ)
  | retryFires (j : ℕ)
  deriving DecidableEq

namespace Relayer

def start : Relayer := ⟨[], [], false, true, [], [], 0, []⟩

/-! ### The queue -/

/-- The loop of `processQueue` up to the first `await` of the next attempt. -/
def next (s : Relayer) : Relayer :=
  match s.queue with
  | [] => { s with processing := false }
  | request :: rest =>
    { s with
      queue := rest
      workers := s.workers ++ [.attempting request .verifying]
      log := s.log ++ [.attempt request.ref] }

def processQueue (s : Relayer) : Relayer :=
  if s.processing ∨ s.queue = [] then s else next { s with processing := true }

def processBatch (s : Relayer) : Relayer :=
  if s.currentBatch = [] then s
  else
    let batchToProcess := s.currentBatch.insertionSort ByPriority
    let s := { s with currentBatch := [], queue := s.queue ++ batchToProcess }
    if s.processing then s else processQueue s

/-! ### An attempt -/

variable (config : RelayerConfig)

def verifySignature (request : AnchorRequest) (answer : VerifierAnswer) : Option Bool :=
  let structurallyValid := request.signatureResult.signature ≠ [] ∧
    request.signatureResult.merkleRoot = request.merkleRoot ∧ 0 < request.signatureResult.timestamp
  if ¬ structurallyValid then some false
  else if config.signatureVerifier then
    match answer with
    | .valid valid => some valid
    | .rejects => some false
    | .rejectsNullish => none
  else some config.allowUnverified

def Exhausted (retryCount : ℕ) : Prop :=
  match config.maxRetries with
  | some maxRetries => maxRetries ≤ retryCount
  | none => False

instance (retryCount : ℕ) : Decidable (Exhausted config retryCount) := by
  unfold Exhausted
  split <;> infer_instance

variable (s : Relayer)

def handleFailure (request : AnchorRequest) (permanent : Bool) : Relayer :=
  let request := { request with retryCount := request.retryCount + 1 }
  if permanent then { s with log := s.log ++ [.anchorFailed request.ref true] }
  else if Exhausted config request.retryCount then { s with log := s.log ++ [.anchorFailed request.ref false] }
  else { s with waiting := s.waiting ++ [request], log := s.log ++ [.anchorRetry request.ref] }

def oneGwei : ℕ := 1000000000

def acceptedPrice (gasPrice : ℕ) : Option ℕ :=
  let gasPrice := if gasPrice = 0 then oneGwei else gasPrice
  if config.maxGasPrice < gasPrice then none else some gasPrice

def attemptAt (i : ℕ) (stage : Stage) : Option AnchorRequest :=
  match s.workers[i]? with
  | some (.attempting request stage') => if stage' = stage then some request else none
  | _ => none

def setStage (i : ℕ) (request : AnchorRequest) (stage : Stage) : Relayer :=
  { s with workers := s.workers.set i (.attempting request stage) }

/-- An awaited call of the provider or of the contract ends. -/
def answered (i : ℕ) (stage onward : Stage) (ok : Bool) : Option Relayer :=
  (s.attemptAt i stage).map fun request => s.setStage i request (if ok then onward else .failed false)

def step : RelayerAct → Option Relayer
  | .submitAnchor merkleRoot batchId eventCount signatureResult priority =>
    let request := ⟨s.submitted, merkleRoot, batchId, eventCount, signatureResult, 0, priority⟩
    let s := { s with currentBatch := s.currentBatch ++ [request], submitted := s.submitted + 1 }
    some (if priority = .urgent then processBatch s else s)
  | .batchTick => if s.batchTimer then some (processBatch s) else none
  | .shutdown => some (processBatch { s with batchTimer := false })
  | .verified i answer connected =>
    (s.attemptAt i .verifying).map fun request =>
      match verifySignature config request answer with
      | some true =>
        { s.setStage i request (if connected then .estimating else .failed false) with
          log := s.log ++ [.verified request.ref] }
      | some false => s.setStage i request (.failed true)
      | none => s.setStage i request (.failed false)
  | .estimated i ok => s.answered i .estimating .pricing ok
  | .priced i gasPrice =>
    (s.attemptAt i .pricing).map fun request =>
      match gasPrice.bind (acceptedPrice config) with
      | some _ => { s.setStage i request .sending with log := s.log ++ [.anchorCall request.ref] }
      | none => s.setStage i request (.failed false)
  | .sent i ok => s.answered i .sending .mining ok
  | .mined i ok => s.answered i .mining .confirming ok
  | .confirmed i ok => s.answered i .confirming .succeeded ok
  | .settles i =>
    match s.workers[i]? with
    | some (.attempting request .succeeded) =>
      some (next { s with workers := s.workers.eraseIdx i, log := s.log ++ [.anchorSuccess request.ref] })
    | some (.attempting request (.failed permanent)) =>
      some (handleFailure config { s with workers := s.workers.set i .resting } request permanent)
    | _ => none
  | .resumes i =>
    match s.workers[i]? with
    | some .resting => some (next { s with workers := s.workers.eraseIdx i })
    | _ => none
  | .retryFires j =>
    match s.waiting[j]? with
    | some request =>
      let s := { s with waiting := s.waiting.eraseIdx j, queue := request :: s.queue }
      some (if s.processing then s else processQueue s)
    | none => none

/-! ### What the relayer promises -/

def inFlight : List AnchorRequest := s.workers.filterMap Worker.request

def anchored : List ℕ :=
  s.log.filterMap fun
    | .anchorSuccess ref => some ref
    | _ => none

def failed : List ℕ :=
  s.log.filterMap fun
    | .anchorFailed ref _ => some ref
    | _ => none

def places : List ℕ :=
  (s.currentBatch ++ s.queue ++ s.inFlight ++ s.waiting).map (·.ref) ++ s.anchored ++ s.failed

def attempts (ref : ℕ) : ℕ := s.log.count (.attempt ref)

def Allowed (n : ℕ) : Prop := ∃ maxRetries ∈ config.maxRetries, (n : WithTop ℚ) ≤ maxRetries

/-- Every request is in exactly one place, nothing happens to it after its one terminal event,
and the relayer does not sleep while there is work. -/
structure Conserves (s : Relayer) : Prop where
  custody : s.places.Perm (List.range s.submitted)
  terminal : s.log.Pairwise fun event later => event.Final → later.ref ≠ event.ref
  attempts : ∀ ref, Allowed config (s.attempts ref)
  calls : ∀ ref, s.log.count (.anchorCall ref) ≤ s.log.count (.verified ref)
  awake : s.queue ≠ [] → s.processing = true

/-- A positive number of attempts is configured, or no bound. -/
def Bounded : Prop :=
  ∃ maxRetries ∈ config.maxRetries, maxRetries = ⊤ ∨ ∃ n : ℕ, 1 ≤ n ∧ maxRetries = n

theorem Bounded.one {config : RelayerConfig} (h : Bounded config) : Allowed config 1 := by
  obtain ⟨maxRetries, hmem, rfl | ⟨n, hn, rfl⟩⟩ := h
  · exact ⟨⊤, hmem, le_top⟩
  · exact ⟨n, hmem, Nat.cast_le.mpr hn⟩

theorem Bounded.succ {config : RelayerConfig} (h : Bounded config) {n : ℕ} (hn : ¬ Exhausted config n) : Allowed config (n + 1) := by
  obtain ⟨maxRetries, hmem, hbound⟩ := h
  unfold Exhausted at hn
  rw [hmem] at hn
  refine ⟨maxRetries, hmem, ?_⟩
  rcases hbound with rfl | ⟨m, -, rfl⟩
  · exact le_top
  · have hlt : n < m := Nat.cast_lt.mp (not_le.mp hn)
    exact Nat.cast_le.mpr hlt

theorem Allowed.mono {config : RelayerConfig} {n m : ℕ} (h : Allowed config m) (hle : n ≤ m) : Allowed config n := by
  obtain ⟨maxRetries, hmem, hbound⟩ := h
  exact ⟨maxRetries, hmem, (Nat.cast_le.mpr hle).trans hbound⟩

/-! ### The invariant -/

/-- The request may be attempted, and was attempted once for each failure. -/
structure Pending (log : List RelayerEvent) (request : AnchorRequest) : Prop where
  attempts : log.count (.attempt request.ref) = request.retryCount
  allowed : Allowed config (request.retryCount + 1)

def Stage.Verified : Stage → Prop
  | .estimating | .pricing => True
  | _ => False

/-- The signature was verified in this attempt, and `contract.anchor` is yet to be called. -/
structure Attempted (log : List RelayerEvent) (request : AnchorRequest) (stage : Stage) : Prop where
  attempts : log.count (.attempt request.ref) = request.retryCount + 1
  calls : Stage.Verified stage → log.count (.anchorCall request.ref) < log.count (.verified request.ref)

def live (s : Relayer) : List AnchorRequest := s.currentBatch ++ s.queue ++ s.inFlight ++ s.waiting

def tally (l : List AnchorRequest) (ref : ℕ) : ℕ := (l.map (·.ref)).count ref

variable (log : List RelayerEvent)

def settled (ref : ℕ) : ℕ := log.countP fun event => event.Final ∧ event.ref = ref

structure Kept (s : Relayer) : Prop where
  custody : ∀ ref, tally s.live ref + settled s.log ref = if ref < s.submitted then 1 else 0
  terminal : s.log.Pairwise fun event later => event.Final → later.ref ≠ event.ref
  attempts : ∀ ref, Allowed config (s.log.count (.attempt ref))
  calls : ∀ ref, s.log.count (.anchorCall ref) ≤ s.log.count (.verified ref)
  pending : ∀ request ∈ s.currentBatch ++ s.queue ++ s.waiting, Pending config s.log request
  attempted : ∀ request stage, .attempting request stage ∈ s.workers → Attempted s.log request stage
  known : ∀ event ∈ s.log, event.ref < s.submitted

structure Awake (s : Relayer) : Prop where
  crew : s.workers.length = if s.processing then 1 else 0
  idle : s.processing = false → s.queue = []

/-! ### Counting -/

@[simp] theorem tally_nil (ref : ℕ) : tally [] ref = 0 := rfl

@[simp] theorem tally_cons (request : AnchorRequest) (l : List AnchorRequest) (ref : ℕ) :
    tally (request :: l) ref = tally l ref + if request.ref = ref then 1 else 0 := by
  unfold tally
  rw [List.map_cons, List.count_cons]
  simp only [beq_iff_eq]

@[simp] theorem tally_append (l l' : List AnchorRequest) (ref : ℕ) : tally (l ++ l') ref = tally l ref + tally l' ref := by
  unfold tally
  rw [List.map_append, List.count_append]

theorem tally_pos {l : List AnchorRequest} {request : AnchorRequest} (h : request ∈ l) : 0 < tally l request.ref :=
  List.count_pos_iff.mpr (List.mem_map_of_mem h)

theorem tally_perm {l l' : List AnchorRequest} (h : l.Perm l') (ref : ℕ) : tally l ref = tally l' ref :=
  (h.map _).count_eq ref

@[simp] theorem count_log (event other : RelayerEvent) :
    (log ++ [event]).count other = log.count other + if event = other then 1 else 0 := by
  rw [List.count_append, List.count_singleton]
  simp only [beq_iff_eq]

@[simp] theorem settled_log (event : RelayerEvent) (ref : ℕ) :
    settled (log ++ [event]) ref = settled log ref + if event.Final ∧ event.ref = ref then 1 else 0 := by
  unfold settled
  rw [List.countP_append, List.countP_singleton]
  simp only [decide_eq_true_eq]

theorem settled_pos {log : List RelayerEvent} {event : RelayerEvent} (hmem : event ∈ log) (hfinal : event.Final) :
    0 < settled log event.ref :=
  List.countP_pos_iff.mpr ⟨event, hmem, decide_eq_true ⟨hfinal, rfl⟩⟩

theorem settled_eq (s : Relayer) (ref : ℕ) : settled s.log ref = s.anchored.count ref + s.failed.count ref := by
  unfold anchored failed
  induction s.log using List.reverseRecOn with
  | nil => rfl
  | append_singleton log event ih =>
    rw [settled_log, ih, List.filterMap_append, List.filterMap_append, List.count_append, List.count_append]
    cases event <;> simp [RelayerEvent.Final, RelayerEvent.ref, List.count_singleton] <;> omega

theorem terminal_append {log : List RelayerEvent} {event : RelayerEvent}
    (h : log.Pairwise fun event later => event.Final → later.ref ≠ event.ref) (hopen : settled log event.ref = 0) :
    (log ++ [event]).Pairwise fun event later => event.Final → later.ref ≠ event.ref := by
  refine List.pairwise_append.mpr ⟨h, List.pairwise_singleton .., fun earlier hmem last hlast hfinal heq => ?_⟩
  rw [List.mem_singleton.mp hlast] at heq
  rw [heq] at hopen
  exact (settled_pos hmem hfinal).ne' hopen

/-! ### Operations -/

theorem Kept.start (hbounded : Bounded config) : Kept config start where
  custody _ := rfl
  terminal := List.Pairwise.nil
  attempts _ := hbounded.one.mono (Nat.zero_le 1)
  calls _ := le_rfl
  pending _ h := absurd h List.not_mem_nil
  attempted _ _ h := absurd h List.not_mem_nil
  known _ h := absurd h List.not_mem_nil

theorem Awake.start : Awake start := ⟨rfl, fun _ => rfl⟩

section Steps
variable {config} {s : Relayer}

theorem Pending.append {log : List RelayerEvent} {request : AnchorRequest} {event : RelayerEvent}
    (h : Pending config log request) (hne : event ≠ .attempt request.ref) : Pending config (log ++ [event]) request := by
  refine ⟨?_, h.allowed⟩
  rw [count_log, if_neg hne]
  exact h.attempts

theorem Kept.count_le (h : Kept config s) (ref : ℕ) : tally s.live ref + settled s.log ref ≤ 1 := by
  rw [h.custody]
  split <;> decide

theorem Kept.live_lt (h : Kept config s) {request : AnchorRequest} (hmem : request ∈ s.live) : request.ref < s.submitted := by
  have hcustody := h.custody request.ref
  have hpos := tally_pos hmem
  by_contra hge
  rw [if_neg hge] at hcustody
  omega

theorem known_append {log : List RelayerEvent} {submitted : ℕ} (h : ∀ event ∈ log, event.ref < submitted) {last : RelayerEvent}
    (hlast : last.ref < submitted) : ∀ event ∈ log ++ [last], event.ref < submitted := by
  intro event hmem
  rcases List.mem_append.mp hmem with hold | hnew
  · exact h event hold
  · rw [List.mem_singleton.mp hnew]
    exact hlast

theorem next_kept (h : Kept config s) (hworkers : s.workers = []) : Kept config (next s) := by
  unfold next
  cases hqueue : s.queue with
  | nil =>
    obtain ⟨hcustody, hterminal, hattempts, hcalls, hpending, hattempted, hknown⟩ := h
    unfold live inFlight at hcustody
    rw [hqueue] at hcustody hpending
    exact ⟨hcustody, hterminal, hattempts, hcalls, hpending, hattempted, hknown⟩
  | cons request rest =>
    have hpending : Pending config s.log request := by
      apply h.pending
      rw [hqueue]
      exact List.mem_append_left _ (List.mem_append_right _ List.mem_cons_self)
    have hle := h.count_le
    unfold live inFlight at hle
    simp only [hqueue, hworkers, tally_append, tally_cons, List.filterMap_nil, tally_nil] at hle
    constructor
    case custody =>
      intro ref
      have hcustody := h.custody ref
      unfold live inFlight at hcustody ⊢
      simp [hqueue, hworkers, RelayerEvent.Final, Worker.request] at hcustody ⊢
      omega
    case terminal =>
      apply terminal_append h.terminal
      have hone := hle request.ref
      rw [if_pos rfl] at hone
      show settled s.log request.ref = 0
      omega
    case attempts =>
      intro ref
      dsimp only
      rw [count_log]
      split_ifs with heq
      · obtain rfl := RelayerEvent.attempt.inj heq
        rw [hpending.attempts]
        exact hpending.allowed
      · exact h.attempts ref
    case calls =>
      intro ref
      have hcalls := h.calls ref
      simpa using hcalls
    case pending =>
      intro other hother
      dsimp only at hother ⊢
      have hmem : other ∈ s.currentBatch ++ s.queue ++ s.waiting := by
        rw [hqueue]
        simp only [List.mem_append, List.mem_cons] at hother ⊢
        tauto
      apply (h.pending other hmem).append
      intro heq
      have href : request.ref = other.ref := RelayerEvent.attempt.inj heq
      have hone := hle other.ref
      rw [if_pos href] at hone
      have hpos := tally_pos hother
      simp only [tally_append] at hpos
      omega
    case attempted =>
      intro other stage hother
      dsimp only at hother ⊢
      rw [hworkers] at hother
      cases List.mem_singleton.mp hother
      refine ⟨?_, fun h => h.elim⟩
      rw [count_log, if_pos rfl, hpending.attempts]
    case known =>
      apply known_append h.known
      apply h.live_lt
      unfold live
      rw [hqueue]
      exact List.mem_append_left _ (List.mem_append_left _ (List.mem_append_right _ List.mem_cons_self))

section Attempt
variable {request : AnchorRequest} {stage : Stage}

theorem Kept.attemptedAt (h : Kept config s) (hworkers : s.workers = [.attempting request stage]) :
    Attempted s.log request stage := by
  apply h.attempted
  rw [hworkers]
  exact List.mem_singleton_self _

theorem mem_live (hworkers : s.workers = [.attempting request stage]) : request ∈ s.live := by
  unfold live inFlight
  rw [hworkers]
  exact List.mem_append_left _ (List.mem_append_right _ (List.mem_singleton_self _))

theorem Kept.open (h : Kept config s) (hworkers : s.workers = [.attempting request stage]) : settled s.log request.ref = 0 := by
  have hle := h.count_le request.ref
  have hpos := tally_pos (mem_live hworkers)
  omega

theorem Kept.goOn (h : Kept config s) (hworkers : s.workers = [.attempting request stage]) {stage' : Stage} {events : List RelayerEvent}
    (hevents : events = [] ∨ events = [.verified request.ref] ∨ events = [.anchorCall request.ref] ∧ Stage.Verified stage)
    (hstage : Stage.Verified stage' → events = [] ∧ Stage.Verified stage ∨ events = [.verified request.ref]) :
    Kept config { s with workers := [.attempting request stage'], log := s.log ++ events } := by
  obtain ⟨hattempts, hverified⟩ := h.attemptedAt hworkers
  have hquiet : ∀ ref, (s.log ++ events).count (.attempt ref) = s.log.count (.attempt ref) := by
    intro ref
    rcases hevents with rfl | rfl | ⟨rfl, -⟩ <;> simp
  have hsettled : ∀ ref, settled (s.log ++ events) ref = settled s.log ref := by
    intro ref
    rcases hevents with rfl | rfl | ⟨rfl, -⟩ <;> simp [RelayerEvent.Final]
  constructor
  case custody =>
    intro ref
    have hcustody := h.custody ref
    unfold live inFlight at hcustody ⊢
    rw [hworkers] at hcustody
    rw [hsettled]
    exact hcustody
  case terminal =>
    have hopen := h.open hworkers
    rcases hevents with rfl | rfl | ⟨rfl, -⟩
    · rw [List.append_nil]
      exact h.terminal
    · exact terminal_append h.terminal hopen
    · exact terminal_append h.terminal hopen
  case attempts =>
    intro ref
    rw [hquiet]
    exact h.attempts ref
  case calls =>
    intro ref
    have hcalls := h.calls ref
    rcases hevents with rfl | rfl | ⟨rfl, hbefore⟩
    · simpa using hcalls
    · simp only [count_log, reduceCtorEq, if_false]
      omega
    · have hlt := hverified hbefore
      simp only [count_log, reduceCtorEq, if_false, RelayerEvent.anchorCall.injEq]
      split_ifs with href
      · rw [← href]
        omega
      · exact hcalls
  case pending =>
    intro other hother
    obtain ⟨hattempts, hallowed⟩ := h.pending other hother
    exact ⟨(hquiet _).trans hattempts, hallowed⟩
  case attempted =>
    intro other stage'' hother
    cases List.mem_singleton.mp hother
    refine ⟨(hquiet _).trans hattempts, fun hverified' => ?_⟩
    have hcalls := h.calls request.ref
    rcases hstage hverified' with ⟨rfl, hbefore⟩ | rfl
    · simpa using hverified hbefore
    · simp only [count_log, reduceCtorEq, if_false, if_true]
      omega
  case known =>
    have hlt := h.live_lt (mem_live hworkers)
    rcases hevents with rfl | rfl | ⟨rfl, -⟩
    · rw [List.append_nil]
      exact h.known
    · exact known_append h.known hlt
    · exact known_append h.known hlt

theorem Kept.settle (h : Kept config s) (hworkers : s.workers = [.attempting request stage]) (event : RelayerEvent)
    (hfinal : event.Final) (href : event.ref = request.ref) {workers : List Worker} (hidle : workers.filterMap Worker.request = []) :
    Kept config { s with workers, log := s.log ++ [event] } := by
  have hopen := h.open hworkers
  have hkind : ∀ ref, event ≠ .attempt ref ∧ event ≠ .anchorCall ref ∧ event ≠ .verified ref := by
    intro ref
    refine ⟨?_, ?_, ?_⟩ <;> · rintro rfl; exact hfinal
  constructor
  case custody =>
    intro ref
    have hcustody := h.custody ref
    unfold live inFlight at hcustody ⊢
    simp [hworkers, hidle, hfinal, href, Worker.request] at hcustody ⊢
    omega
  case terminal =>
    apply terminal_append h.terminal
    rw [href]
    exact hopen
  case attempts =>
    intro ref
    rw [count_log, if_neg (hkind ref).1]
    exact h.attempts ref
  case calls =>
    intro ref
    rw [count_log, count_log, if_neg (hkind ref).2.1, if_neg (hkind ref).2.2]
    exact h.calls ref
  case pending =>
    exact fun other hother => (h.pending other hother).append (hkind _).1
  case attempted =>
    intro other stage' hother
    have hmem : other ∈ workers.filterMap Worker.request := List.mem_filterMap.mpr ⟨_, hother, rfl⟩
    rw [hidle] at hmem
    exact absurd hmem List.not_mem_nil
  case known =>
    apply known_append h.known
    rw [href]
    exact h.live_lt (mem_live hworkers)

theorem Kept.retry (h : Kept config s) (hworkers : s.workers = [.attempting request stage])
    (hallowed : Allowed config (request.retryCount + 2)) :
    Kept config { s with
      workers := [.resting]
      waiting := s.waiting ++ [{ request with retryCount := request.retryCount + 1 }]
      log := s.log ++ [.anchorRetry request.ref] } := by
  obtain ⟨hattempts, -⟩ := h.attemptedAt hworkers
  have hopen := h.open hworkers
  constructor
  case custody =>
    intro ref
    have hcustody := h.custody ref
    have hresting : [Worker.resting].filterMap Worker.request = [] := rfl
    unfold live inFlight at hcustody ⊢
    simp [hworkers, hresting, Worker.request, RelayerEvent.Final] at hcustody ⊢
    omega
  case terminal =>
    exact terminal_append h.terminal hopen
  case attempts =>
    intro ref
    simpa using h.attempts ref
  case calls =>
    intro ref
    simpa using h.calls ref
  case pending =>
    intro other hother
    dsimp only at hother
    rw [← List.append_assoc] at hother
    rcases List.mem_append.mp hother with hold | hnew
    · exact (h.pending other hold).append nofun
    · rw [List.mem_singleton.mp hnew]
      refine ⟨?_, hallowed⟩
      simpa using hattempts
  case attempted =>
    intro other stage' hother
    cases List.mem_singleton.mp hother
  case known =>
    exact known_append h.known (h.live_lt (mem_live hworkers))

theorem handleFailure_kept (hbounded : Bounded config) (h : Kept config s) (hworkers : s.workers = [.attempting request stage])
    (permanent : Bool) : Kept config (handleFailure config { s with workers := [.resting] } request permanent) := by
  unfold handleFailure
  dsimp only
  split_ifs with hpermanent hexhausted
  · exact h.settle hworkers (.anchorFailed request.ref true) trivial rfl rfl
  · exact h.settle hworkers (.anchorFailed request.ref false) trivial rfl rfl
  · exact h.retry hworkers (hbounded.succ hexhausted)

end Attempt

theorem Kept.dismiss (h : Kept config s) (hworkers : s.workers = [.resting]) : Kept config { s with workers := [] } := by
  obtain ⟨hcustody, hterminal, hattempts, hcalls, hpending, -, hknown⟩ := h
  unfold live inFlight at hcustody
  rw [hworkers] at hcustody
  exact ⟨hcustody, hterminal, hattempts, hcalls, hpending, fun _ _ hmem => absurd hmem List.not_mem_nil, hknown⟩

theorem Kept.move (h : Kept config s) {currentBatch queue waiting : List AnchorRequest} (batchTimer processing : Bool)
    (hperm : (currentBatch ++ queue ++ waiting).Perm (s.currentBatch ++ s.queue ++ s.waiting)) :
    Kept config { s with currentBatch, queue, waiting, batchTimer, processing } := by
  refine ⟨fun ref => ?_, h.terminal, h.attempts, h.calls, fun request hmem => h.pending request (hperm.subset hmem), h.attempted, h.known⟩
  have hcustody := h.custody ref
  have htally := tally_perm hperm ref
  unfold live inFlight at hcustody ⊢
  simp only [tally_append] at hcustody htally ⊢
  omega

theorem Kept.submit (hbounded : Bounded config) (h : Kept config s) {request : AnchorRequest} (href : request.ref = s.submitted)
    (hfresh : request.retryCount = 0) :
    Kept config { s with currentBatch := s.currentBatch ++ [request], submitted := s.submitted + 1 } := by
  refine ⟨fun ref => ?_, h.terminal, h.attempts, h.calls, fun other hother => ?_, h.attempted, fun event hmem => ?_⟩
  · have hcustody := h.custody ref
    unfold live inFlight at hcustody ⊢
    simp only [tally_append, tally_cons, tally_nil, href] at hcustody ⊢
    split_ifs at hcustody ⊢ <;> omega
  · have hmem : other ∈ s.currentBatch ++ s.queue ++ s.waiting ∨ other = request := by
      simp only [List.mem_append, List.mem_singleton] at hother ⊢
      tauto
    rcases hmem with hold | rfl
    · exact h.pending other hold
    · have hunknown : s.log.count (.attempt other.ref) = 0 := by
        apply List.count_eq_zero.mpr
        intro hmem
        exact (h.known _ hmem).ne href
      refine ⟨hunknown.trans hfresh.symm, ?_⟩
      rw [hfresh]
      exact hbounded.one
  · exact Nat.lt_succ_of_lt (h.known event hmem)

theorem next_awake (hworkers : s.workers = []) (hprocessing : s.processing = true) : Awake (next s) := by
  unfold next
  split
  next hqueue =>
    refine ⟨?_, fun _ => hqueue⟩
    dsimp only
    rw [hworkers]
    rfl
  next request rest hqueue =>
    refine ⟨?_, fun hidle => ?_⟩
    · dsimp only
      rw [hworkers, hprocessing]
      rfl
    · rw [hprocessing] at hidle
      cases hidle

theorem wake_awake (hcrew : s.workers.length = if s.processing then 1 else 0) :
    Awake (if s.processing then s else processQueue s) := by
  split_ifs with hprocessing
  · refine ⟨hcrew, fun hidle => ?_⟩
    rw [hprocessing] at hidle
    cases hidle
  · rw [if_neg hprocessing] at hcrew
    unfold processQueue
    split_ifs with hstop
    · refine ⟨?_, fun _ => hstop.resolve_left hprocessing⟩
      rw [hcrew, if_neg hprocessing]
    · exact next_awake (List.length_eq_zero_iff.mp hcrew) rfl

theorem wake_kept (h : Kept config s) (hcrew : s.workers.length = if s.processing then 1 else 0) :
    Kept config (if s.processing then s else processQueue s) := by
  split_ifs with hprocessing
  · exact h
  · rw [if_neg hprocessing] at hcrew
    unfold processQueue
    split_ifs
    · exact h
    · exact next_kept (h.move s.batchTimer true (List.Perm.refl _)) (List.length_eq_zero_iff.mp hcrew)

theorem processBatch_kept (h : Kept config s) (hawake : Awake s) : Kept config (processBatch s) ∧ Awake (processBatch s) := by
  unfold processBatch
  split_ifs with hempty
  · exact ⟨h, hawake⟩
  · have hsorted := List.perm_insertionSort ByPriority s.currentBatch
    have hperm : ([] ++ (s.queue ++ s.currentBatch.insertionSort ByPriority) ++ s.waiting).Perm
        (s.currentBatch ++ s.queue ++ s.waiting) := by
      apply List.Perm.append_right
      rw [List.nil_append]
      exact (hsorted.append_left _).trans List.perm_append_comm
    exact ⟨wake_kept (h.move s.batchTimer s.processing hperm) hawake.crew, wake_awake hawake.crew⟩

/-! ### Steps -/

variable {i : ℕ} {worker : Worker} {s' : Relayer}

theorem Awake.only (h : Awake s) (hworker : s.workers[i]? = some worker) :
    i = 0 ∧ s.workers = [worker] ∧ s.processing = true := by
  have hcrew := h.crew
  obtain ⟨hlt, hget⟩ := List.getElem?_eq_some_iff.mp hworker
  cases hprocessing : s.processing with
  | false =>
    rw [hprocessing, if_neg Bool.false_ne_true] at hcrew
    omega
  | true =>
    rw [hprocessing, if_pos rfl] at hcrew
    obtain ⟨only, honly⟩ := List.length_eq_one_iff.mp hcrew
    obtain rfl : i = 0 := by omega
    refine ⟨rfl, ?_, rfl⟩
    rw [honly] at hworker ⊢
    rw [Option.some.inj hworker]

theorem attemptAt_eq {stage : Stage} {request : AnchorRequest} (h : s.attemptAt i stage = some request) :
    s.workers[i]? = some (.attempting request stage) := by
  unfold attemptAt at h
  split at h
  next request' stage' hworker =>
    split_ifs at h with hstage
    cases h
    rw [hworker, hstage]
  next => cases h

theorem Awake.replace (h : Awake s) (hworkers : s.workers = [worker]) (worker' : Worker) (waiting : List AnchorRequest)
    (log : List RelayerEvent) : Awake { s with workers := [worker'], waiting, log } := by
  obtain ⟨hcrew, hidle⟩ := h
  rw [hworkers] at hcrew
  exact ⟨hcrew, hidle⟩

theorem handleFailure_awake (h : Awake s) (hworkers : s.workers = [worker]) (request : AnchorRequest)
    (permanent : Bool) : Awake (handleFailure config { s with workers := [.resting] } request permanent) := by
  unfold handleFailure
  dsimp only
  split_ifs <;> exact h.replace hworkers _ _ _

structure Steady (config : RelayerConfig) (s : Relayer) : Prop where
  kept : Kept config s
  awake : Awake s

theorem Steady.wake (hkept : Kept config s) (hcrew : s.workers.length = if s.processing then 1 else 0) :
    Steady config (if s.processing then s else processQueue s) := ⟨wake_kept hkept hcrew, wake_awake hcrew⟩

section
variable (h : Steady config s)
include h

theorem Steady.goOn {i : ℕ} {stage : Stage} {request : AnchorRequest} (hat : s.attemptAt i stage = some request)
    (stage' : Stage) {events : List RelayerEvent}
    (hevents : events = [] ∨ events = [.verified request.ref] ∨ events = [.anchorCall request.ref] ∧ Stage.Verified stage)
    (hstage : Stage.Verified stage' → events = [] ∧ Stage.Verified stage ∨ events = [.verified request.ref]) :
    Steady config { s.setStage i request stage' with log := s.log ++ events } := by
  obtain ⟨rfl, hworkers, -⟩ := h.awake.only (attemptAt_eq hat)
  unfold setStage
  rw [hworkers]
  exact ⟨h.kept.goOn hworkers hevents hstage, h.awake.replace hworkers _ _ _⟩

theorem Steady.answered {s' : Relayer} {i : ℕ} {stage onward : Stage} {ok : Bool}
    (hnext : Stage.Verified onward → Stage.Verified stage) (hstep : s.answered i stage onward ok = some s') : Steady config s' := by
  obtain ⟨request, hat, rfl⟩ := Option.map_eq_some_iff.mp hstep
  have hsteady := @Steady.goOn config s h i stage request hat (if ok then onward else .failed false) [] (.inl rfl)
  rw [List.append_nil] at hsteady
  apply hsteady
  intro hverified
  cases ok with
  | false => exact hverified.elim
  | true => exact .inl ⟨rfl, hnext hverified⟩

theorem Steady.processBatch : Steady config (processBatch s) := by
  obtain ⟨hkept, hawake⟩ := processBatch_kept h.kept h.awake
  exact ⟨hkept, hawake⟩

theorem Steady.verified {answer : VerifierAnswer} {connected : Bool}
    (hstep : step config s (.verified i answer connected) = some s') : Steady config s' := by
  obtain ⟨request, hat, rfl⟩ := Option.map_eq_some_iff.mp hstep
  have hsilent : ∀ permanent, Steady config (s.setStage i request (.failed permanent)) := by
    intro permanent
    have hsteady := h.goOn hat (.failed permanent) (.inl rfl) False.elim
    rwa [List.append_nil] at hsteady
  split
  · exact h.goOn hat _ (.inr (.inl rfl)) fun _ => .inr rfl
  · exact hsilent true
  · exact hsilent false

theorem Steady.priced {gasPrice : Option ℕ}
    (hstep : step config s (.priced i gasPrice) = some s') : Steady config s' := by
  obtain ⟨request, hat, rfl⟩ := Option.map_eq_some_iff.mp hstep
  split
  · exact h.goOn hat .sending (.inr (.inr ⟨rfl, trivial⟩)) False.elim
  · have hsteady := h.goOn hat (.failed false) (.inl rfl) False.elim
    rwa [List.append_nil] at hsteady

end

theorem Steady.settles (hbounded : Bounded config) (h : Steady config s)
    (hstep : step config s (.settles i) = some s') : Steady config s' := by
  unfold step at hstep
  dsimp only at hstep
  split at hstep
  next request hworker =>
    cases hstep
    obtain ⟨rfl, hworkers, hprocessing⟩ := h.awake.only hworker
    rw [hworkers]
    have hkept := h.kept.settle hworkers (.anchorSuccess request.ref) trivial rfl (@rfl _ (([] : List Worker).filterMap Worker.request))
    exact ⟨next_kept hkept rfl, next_awake rfl hprocessing⟩
  next request permanent hworker =>
    cases hstep
    obtain ⟨rfl, hworkers, -⟩ := h.awake.only hworker
    rw [hworkers]
    exact ⟨handleFailure_kept hbounded h.kept hworkers permanent, handleFailure_awake h.awake hworkers request permanent⟩
  next => cases hstep

theorem Steady.resumes (h : Steady config s) (hstep : step config s (.resumes i) = some s') :
    Steady config s' := by
  unfold step at hstep
  dsimp only at hstep
  split at hstep
  next hworker =>
    cases hstep
    obtain ⟨rfl, hworkers, hprocessing⟩ := h.awake.only hworker
    rw [hworkers]
    exact ⟨next_kept (h.kept.dismiss hworkers) rfl, next_awake rfl hprocessing⟩
  next => cases hstep

theorem Steady.retryFires (h : Steady config s) {j : ℕ} (hstep : step config s (.retryFires j) = some s') :
    Steady config s' := by
  unfold step at hstep
  dsimp only at hstep
  split at hstep
  next request hwaiting =>
    cases hstep
    obtain ⟨hlt, rfl⟩ := List.getElem?_eq_some_iff.mp hwaiting
    have hperm : (s.currentBatch ++ s.waiting[j] :: s.queue ++ s.waiting.eraseIdx j).Perm (s.currentBatch ++ s.queue ++ s.waiting) := by
      rw [List.append_assoc, List.append_assoc]
      apply List.Perm.append_left
      rw [List.cons_append]
      exact List.perm_middle.symm.trans ((List.getElem_cons_eraseIdx_perm hlt).append_left _)
    have hkept := h.kept.move s.batchTimer s.processing hperm
    exact Steady.wake hkept h.awake.crew
  next => cases hstep

theorem Steady.submitAnchor (hbounded : Bounded config) (h : Steady config s) {merkleRoot : Text} {batchId eventCount : ℕ}
    {signatureResult : SignatureResult} {priority : Priority}
    (hstep : step config s (.submitAnchor merkleRoot batchId eventCount signatureResult priority) = some s') : Steady config s' := by
  cases hstep
  have hsteady : Steady config { s with
      currentBatch := s.currentBatch ++ [⟨s.submitted, merkleRoot, batchId, eventCount, signatureResult, 0, priority⟩]
      submitted := s.submitted + 1 } := ⟨h.kept.submit hbounded rfl rfl, h.awake.crew, h.awake.idle⟩
  split_ifs
  · exact hsteady.processBatch
  · exact hsteady

theorem Steady.step (hbounded : Bounded config) (h : Steady config s) {s' : Relayer} {act : RelayerAct}
    (hstep : step config s act = some s') : Steady config s' := by
  cases act with
  | submitAnchor => exact h.submitAnchor hbounded hstep
  | batchTick =>
    unfold Relayer.step at hstep
    dsimp only at hstep
    split_ifs at hstep
    cases hstep
    exact h.processBatch
  | shutdown =>
    cases hstep
    have hkept := h.kept.move false s.processing (List.Perm.refl _)
    have hsteady : Steady config { s with batchTimer := false } := ⟨hkept, h.awake.crew, h.awake.idle⟩
    exact hsteady.processBatch
  | verified => exact h.verified hstep
  | estimated => exact @Steady.answered config s h _ _ .estimating .pricing _ (fun _ => trivial) hstep
  | priced => exact h.priced hstep
  | sent | mined | confirmed => exact h.answered False.elim hstep
  | settles => exact h.settles hbounded hstep
  | resumes => exact h.resumes hstep
  | retryFires => exact h.retryFires hstep

theorem Steady.conserves (h : Steady config s) : Conserves config s := by
  refine ⟨?_, h.kept.terminal, h.kept.attempts, h.kept.calls, fun hqueue => ?_⟩
  · apply List.perm_iff_count.mpr
    intro ref
    have hplaces : s.places.count ref = tally s.live ref + settled s.log ref := by
      rw [settled_eq, places, List.count_append, List.count_append, add_assoc]
      rfl
    rw [hplaces, h.kept.custody, List.count_range]
  · by_contra hidle
    exact hqueue (h.awake.idle (Bool.eq_false_of_not_eq_true hidle))

end Steps

/-- With a positive number of attempts, requests are conserved in every run. -/
theorem requests_conserved (hbounded : Bounded config) {s : Relayer} (hs : Reachable (step config) (fun _ _ => True) start s) :
    Conserves config s := by
  have hsteady : Steady config s :=
    Reachable.invariant hs ⟨Kept.start config hbounded, Awake.start⟩ fun _ _ _ h _ hstep => h.step hbounded hstep
  exact hsteady.conserves

def twoAttempts : RelayerConfig := ⟨some ((2 : ℕ) : WithTop ℚ), 50 * oneGwei, true, false⟩

def signed : SignatureResult := ⟨"sig".toList, "0x1".toList, 1⟩

def secondAttempt : List RelayerAct :=
  [.submitAnchor "0x1".toList 1 1 signed .urgent, .verified 0 (.valid true) true, .estimated 0 false, .settles 0, .resumes 0,
    .retryFires 0, .verified 0 (.valid true) true, .estimated 0 true, .priced 0 none, .settles 0]

def secondRun : Relayer := (exec (step twoAttempts) start secondAttempt).getD start

theorem requests_conserved_second : secondRun.log.count (.anchorFailed 0 false) = 1 ∧ Conserves twoAttempts secondRun := by
  have hexec : exec (step twoAttempts) start secondAttempt = some secondRun := eq_some_getD (by decide +kernel) _
  have hbounded : Bounded twoAttempts := ⟨_, rfl, .inr ⟨2, by decide, rfl⟩⟩
  exact ⟨by decide +kernel, requests_conserved twoAttempts hbounded (Reachable.start.of_exec secondAttempt (fun _ _ _ => trivial) hexec)⟩

/-- The spread of the given configuration puts back the zero that the default replaced. -/
def noAttempts : RelayerConfig := ⟨some ((0 : ℕ) : WithTop ℚ), 50 * oneGwei, true, false⟩

theorem zero_retries_attempted :
    ¬ ∀ s, Reachable (step noAttempts) (fun _ _ => True) start s → Conserves noAttempts s := by
  intro hconserves
  have hstep : step noAttempts start (.submitAnchor "0x1".toList 1 1 signed .urgent) = some _ := rfl
  have hrun := (hconserves _ (Reachable.start.step trivial hstep)).attempts 0
  obtain ⟨maxRetries, hmem, hle⟩ := hrun
  cases hmem
  exact absurd (Nat.cast_le.mp hle) (by decide +kernel)

end Relayer

end OxScada.Anchoring
