import OxScada.Bytes.Buffer
import OxScada.Resilience.CircuitBreaker

/-! The resilience manager: anchoring behind a circuit breaker, and the queue of roots whose
anchoring is tried again. A step is a stretch of its code between two `await`s. Queued items
are objects, named by the order in which they were made. -/

namespace OxScada.Resilience
open OxScada.Bytes OxScada.Runs

inductive Component where
  | hsm | blockchain | merkle
  deriving DecidableEq

inductive Reason where
  | error (message : Text)
  | nullish
  deriving DecidableEq

structure Metrics where
  requests : ℕ
  failures : ℕ
  responseTimes : List ℤ
  errors : Option (List (Text × ℤ))

structure BlockchainConfig where
  enabled : Bool
  retryAttempts : ℕ
  retryDelayMs : ℤ
  queueMaxSize : ℕ
  anchor : Bool

structure ManagerConfig where
  blockchain : BlockchainConfig
  circuitBreaker : CircuitBreakerConfig

structure AnchorArgs (σ : Type) where
  batchId : Text
  merkleRoot : Text
  signature : σ
  deriving DecidableEq

structure AnchorRetryItem (σ : Type) extends AnchorArgs σ where
  attempts : ℕ
  lastAttempt : ℤ
  nextAttempt : ℤ

inductive Call (σ : Type) where
  | operating (args : AnchorArgs σ)
  | succeeded (args : AnchorArgs σ)
  | failed (args : AnchorArgs σ) (reason : Reason)

structure Pass where
  now : ℤ
  current : ℕ
  rest : List ℕ

def Pass.todo (pass : Pass) : List ℕ := pass.current :: pass.rest

structure Manager (σ : Type) where
  breaker : CircuitBreaker
  metrics : Component → Option Metrics
  items : ℕ → Option (AnchorRetryItem σ)
  objects : ℕ
  anchorQueue : List ℕ
  calls : List (Call σ)
  late : ℕ
  passes : List Pass
  answers : List (AnchorArgs σ × Option Bool)
  anchored : List ℕ
  unanchored : List ℕ
  /-- The items for which the operation was invoked after it had returned true. -/
  repeated : List ℕ

inductive ManagerAct (σ : Type) where
  | anchorMerkleRoot (args : AnchorArgs σ) (now : ℤ)
  | operationReturns (i : ℕ) (success : Bool) (now : ℤ)
  | operationThrows (i : ℕ) (reason : Reason) (now : ℤ)
  | operationTimesOut (i : ℕ) (now : ℤ)
  | succeeds (i : ℕ)
  | fails (i : ℕ) (now : ℤ)
  | lateReturns (success : Bool) (now : ℤ)
  | retryTick (now : ℤ)
  | retryReturns (i : ℕ) (success : Bool)
  | retryThrows (i : ℕ) (reason : Reason)
  | otherSucceeds (signing : Bool) (now : ℤ)
  | otherFails (signing : Bool) (reason : Reason) (now : ℤ)
  | resetCircuitBreakers

namespace Manager
variable {σ : Type}

/-! ### Metrics -/

def keepLast {α : Type} (n : ℕ) (l : List α) : List α := l.drop (l.length - n)

def recordSuccess (metrics : Component → Option Metrics) (component : Component) (now : ℤ) : Component → Option Metrics :=
  let record := (metrics component).getD ⟨0, 0, [], none⟩
  Function.update metrics component (some { record with
    requests := record.requests + 1
    responseTimes := keepLast 100 (record.responseTimes ++ [now]) })

/-- The metrics, and whether the bookkeeping itself throws: on a record without `errors`, and
on a reason that has no properties. A record that is in the map has then already changed. -/
def recordFailure (metrics : Component → Option Metrics) (component : Component) (reason : Reason) (now : ℤ) :
    (Component → Option Metrics) × Bool :=
  let record := (metrics component).getD ⟨0, 0, [], some []⟩
  let record := { record with requests := record.requests + 1, failures := record.failures + 1 }
  match record.errors, reason with
  | some errors, .error message =>
    (Function.update metrics component (some { record with errors := some (keepLast 50 (errors ++ [(message, now)])) }), false)
  | _, _ => (if (metrics component).isSome then Function.update metrics component (some record) else metrics, true)

/-! ### Anchoring -/

def breakerOpen : Reason := .error "Circuit breaker is open".toList

def operationTimeout : Reason := .error "Operation timeout".toList

def anchoringFailed : Reason := .error "Blockchain anchoring failed".toList

variable (config : ManagerConfig)
variable (s : Manager σ)

def queueForRetry (args : AnchorArgs σ) (now : ℤ) : Manager σ :=
  { s with
    items := Function.update s.items s.objects
      (some { args with attempts := 0, lastAttempt := 0, nextAttempt := now + config.blockchain.retryDelayMs })
    objects := s.objects + 1
    anchorQueue := s.anchorQueue ++ [s.objects] }

def handleFailure (args : AnchorArgs σ) (reason : Reason) (now : ℤ) : Manager σ :=
  let (metrics, threw) := recordFailure s.metrics .blockchain reason now
  if threw then { s with metrics, answers := s.answers ++ [(args, none)] }
  else if config.blockchain.enabled ∧ s.anchorQueue.length < config.blockchain.queueMaxSize then
    { queueForRetry config { s with metrics } args now with answers := s.answers ++ [(args, some false)] }
  else { s with metrics, answers := s.answers ++ [(args, none)] }

/-! ### Retries -/

def retryFrom (s : Manager σ) (now : ℤ) : List ℕ → Manager σ
  | [] => s
  | ref :: rest =>
    if config.blockchain.retryAttempts ≤ ((s.items ref).map (·.attempts)).getD 0 then
      retryFrom { s with anchorQueue := s.anchorQueue.filter (· ≠ ref) } now rest
    else
      { s with
        passes := s.passes ++ [⟨now, ref, rest⟩]
        repeated := if ref ∈ s.anchored then s.repeated ++ [ref] else s.repeated }

def due (now : ℤ) : List ℕ :=
  s.anchorQueue.filter fun ref => (s.items ref).any fun item => item.nextAttempt ≤ now

def scheduleNext (pass : Pass) : Manager σ :=
  { s with
    items := Function.update s.items pass.current ((s.items pass.current).map fun item =>
      { item with
        attempts := item.attempts + 1
        lastAttempt := pass.now
        nextAttempt := pass.now + config.blockchain.retryDelayMs * 2 ^ (item.attempts + 1) })
    unanchored := s.unanchored ++ [pass.current] }

def succeedPass (pass : Pass) : Manager σ :=
  { s with
    anchorQueue := s.anchorQueue.filter (· ≠ pass.current)
    anchored := s.anchored ++ [pass.current] }

/-! ### Steps -/

def start : Manager σ where
  breaker := {}
  metrics := fun _ => none
  items := fun _ => none
  objects := 0
  anchorQueue := []
  calls := []
  late := 0
  passes := []
  answers := []
  anchored := []
  unanchored := []
  repeated := []

/-- Without an anchor operation the attempt returns false. The report of a failed attempt
throws on a reason that has no properties, and its pass ends there. -/
def step : ManagerAct σ → Option (Manager σ)
  | .anchorMerkleRoot args now =>
    match s.breaker.execute config.circuitBreaker now with
    | some breaker => some { s with breaker, calls := s.calls ++ [.operating args] }
    | none => some { s with calls := s.calls ++ [.failed args breakerOpen] }
  | .operationReturns i success now =>
    match s.calls[i]? with
    | some (.operating args) =>
      if success then
        if config.blockchain.anchor then
          some { s with metrics := recordSuccess s.metrics .blockchain now, calls := s.calls.set i (.succeeded args) }
        else none
      else
        some { s with
          breaker := s.breaker.onFailure config.circuitBreaker now
          calls := s.calls.set i (.failed args anchoringFailed) }
    | _ => none
  | .operationThrows i reason now =>
    match s.calls[i]? with
    | some (.operating args) =>
      some { s with
        breaker := s.breaker.onFailure config.circuitBreaker now
        calls := s.calls.set i (.failed args reason) }
    | _ => none
  | .operationTimesOut i now =>
    match s.calls[i]? with
    | some (.operating args) =>
      some { s with
        breaker := s.breaker.onFailure config.circuitBreaker now
        calls := s.calls.set i (.failed args operationTimeout)
        late := s.late + 1 }
    | _ => none
  | .succeeds i =>
    match s.calls[i]? with
    | some (.succeeded args) =>
      some { s with
        breaker := s.breaker.onSuccess
        calls := s.calls.eraseIdx i
        answers := s.answers ++ [(args, some true)] }
    | _ => none
  | .fails i now =>
    match s.calls[i]? with
    | some (.failed args reason) => some (handleFailure config { s with calls := s.calls.eraseIdx i } args reason now)
    | _ => none
  | .lateReturns success now =>
    match s.late with
    | 0 => none
    | late + 1 => some { s with late, metrics := if success then recordSuccess s.metrics .blockchain now else s.metrics }
  | .retryTick now => some (retryFrom config s now (s.due now))
  | .retryReturns i success =>
    match s.passes[i]? with
    | some pass =>
      let s := { s with passes := s.passes.eraseIdx i }
      if success then
        if config.blockchain.anchor then some (retryFrom config (succeedPass s pass) pass.now pass.rest) else none
      else some (retryFrom config (scheduleNext config s pass) pass.now pass.rest)
    | none => none
  | .retryThrows i reason =>
    match s.passes[i]? with
    | some pass =>
      let s := scheduleNext config { s with passes := s.passes.eraseIdx i } pass
      match reason with
      | .error _ => some (retryFrom config s pass.now pass.rest)
      | .nullish => some s
    | none => none
  | .otherSucceeds signing now =>
    some { s with metrics := recordSuccess s.metrics (if signing then .hsm else .merkle) now }
  | .otherFails signing reason now =>
    some { s with metrics := (recordFailure s.metrics (if signing then .hsm else .merkle) reason now).1 }
  | .resetCircuitBreakers => some { s with breaker := s.breaker.reset }

/-! ### What the manager promises -/

def busy : List ℕ := s.passes.flatMap Pass.todo

/-- A failure that is handled while there is room in the queue finds the bookkeeping of the
metrics possible, and a pass takes no item that another one has yet to deal with. -/
def Careful : ManagerAct σ → Prop
  | .fails i _ =>
    match s.calls[i]? with
    | some (.failed _ reason) =>
      s.anchorQueue.length < config.blockchain.queueMaxSize →
        reason ≠ .nullish ∧ ∀ record ∈ s.metrics .blockchain, record.errors ≠ none
    | _ => True
  | .retryTick now => ∀ ref ∈ s.due now, ref ∉ s.busy
  | _ => True

instance (s : Manager σ) (act : ManagerAct σ) : Decidable (s.Careful config act) := by
  unfold Careful
  split
  · split <;> infer_instance
  · infer_instance
  · infer_instance

/-- A call that fails while there is room resolves to false and its root is queued. What left
the queue was anchored or was tried often enough. Nothing is anchored again. -/
structure Conserves (ok : Manager σ → ManagerAct σ → Prop) (s : Manager σ) : Prop where
  queued : ∀ i now args reason, s.calls[i]? = some (.failed args reason) → ok s (.fails i now) →
    s.anchorQueue.length < config.blockchain.queueMaxSize → ∃ s', step config s (.fails i now) = some s' ∧
      s'.answers = s.answers ++ [(args, some false)] ∧ s'.anchorQueue = s.anchorQueue ++ [s.objects] ∧
      ∃ item, s'.items s.objects = some item ∧ item.toAnchorArgs = args
  left : ∀ ref < s.objects, ref ∈ s.anchorQueue ∨ ref ∈ s.anchored ∨ config.blockchain.retryAttempts ≤ s.unanchored.count ref
  once : s.repeated = []

theorem recordFailure_quiet {metrics : Component → Option Metrics} {component : Component} {reason : Reason} (now : ℤ)
    (hreason : reason ≠ .nullish) (herrors : ∀ record ∈ metrics component, record.errors ≠ none) :
    (recordFailure metrics component reason now).2 = false := by
  unfold recordFailure
  dsimp only
  cases reason with
  | nullish => exact absurd rfl hreason
  | error message =>
    cases hmetrics : metrics component with
    | none => rfl
    | some record =>
      obtain ⟨errors, hsome⟩ := Option.ne_none_iff_exists'.mp (herrors record hmetrics)
      rw [Option.getD_some, hsome]

theorem fails_queued (henabled : config.blockchain.enabled = true) {s : Manager σ} {i : ℕ} {now : ℤ} {args : AnchorArgs σ}
    {reason : Reason} (hcall : s.calls[i]? = some (.failed args reason)) (hok : s.Careful config (.fails i now))
    (hroom : s.anchorQueue.length < config.blockchain.queueMaxSize) : ∃ s', step config s (.fails i now) = some s' ∧
      s'.answers = s.answers ++ [(args, some false)] ∧ s'.anchorQueue = s.anchorQueue ++ [s.objects] ∧
      ∃ item, s'.items s.objects = some item ∧ item.toAnchorArgs = args := by
  unfold Careful at hok
  dsimp only at hok
  rw [hcall] at hok
  obtain ⟨hreason, herrors⟩ := hok hroom
  have hquiet := recordFailure_quiet now hreason herrors
  have hstep : step config s (.fails i now) =
      some (handleFailure config { s with calls := s.calls.eraseIdx i } args reason now) := by
    rw [step, hcall]
  refine ⟨_, hstep, ?_⟩
  have hhandle : handleFailure config { s with calls := s.calls.eraseIdx i } args reason now =
      { queueForRetry config { s with
          calls := s.calls.eraseIdx i
          metrics := (recordFailure s.metrics .blockchain reason now).1 } args now with
        answers := s.answers ++ [(args, some false)] } := by
    unfold handleFailure
    dsimp only
    rw [hquiet, if_neg Bool.false_ne_true, if_pos ⟨henabled, hroom⟩]
  rw [hhandle]
  exact ⟨rfl, rfl, _, Function.update_self .., rfl⟩

/-! ### The invariant -/

structure Sound (s : Manager σ) : Prop where
  queueFresh : ∀ ref ∈ s.anchorQueue, ref < s.objects
  anchoredFresh : ∀ ref ∈ s.anchored, ref < s.objects
  unanchoredFresh : ∀ ref ∈ s.unanchored, ref < s.objects
  nodup : s.anchorQueue.Nodup
  attempts : ∀ ref < s.objects, ∃ item, s.items ref = some item ∧ item.attempts = s.unanchored.count ref
  anchored : ∀ ref ∈ s.anchored, ref ∉ s.anchorQueue
  left : ∀ ref < s.objects, ref ∈ s.anchorQueue ∨ ref ∈ s.anchored ∨ config.blockchain.retryAttempts ≤ s.unanchored.count ref
  once : s.repeated = []
  apart : s.busy.Nodup
  busy : s.busy ⊆ s.anchorQueue

theorem Sound.start : Sound config (start : Manager σ) where
  queueFresh _ h := absurd h List.not_mem_nil
  anchoredFresh _ h := absurd h List.not_mem_nil
  unanchoredFresh _ h := absurd h List.not_mem_nil
  nodup := List.nodup_nil
  attempts _ h := absurd h (Nat.not_lt_zero _)
  anchored _ h := absurd h List.not_mem_nil
  left _ h := absurd h (Nat.not_lt_zero _)
  once := rfl
  apart := List.nodup_nil
  busy _ h := absurd h List.not_mem_nil

section Steps
variable {config} {s : Manager σ}

theorem Sound.calls (h : Sound config s) (breaker : CircuitBreaker) (metrics : Component → Option Metrics)
    (calls : List (Call σ)) (late : ℕ) (answers : List (AnchorArgs σ × Option Bool)) :
    Sound config { s with breaker, metrics, calls, late, answers } :=
  ⟨h.queueFresh, h.anchoredFresh, h.unanchoredFresh, h.nodup, h.attempts, h.anchored, h.left, h.once, h.apart, h.busy⟩

theorem Sound.queueForRetry (h : Sound config s) (args : AnchorArgs σ) (now : ℤ) :
    Sound config (queueForRetry config s args now) := by
  have hnew : s.objects ∉ s.unanchored := fun hmem => lt_irrefl _ (h.unanchoredFresh _ hmem)
  constructor
  case queueFresh =>
    intro ref href
    rcases List.mem_append.mp href with hold | hnew
    · exact Nat.lt_succ_of_lt (h.queueFresh ref hold)
    · rw [List.mem_singleton.mp hnew]
      exact Nat.lt_succ_self _
  case anchoredFresh =>
    exact fun ref href => Nat.lt_succ_of_lt (h.anchoredFresh ref href)
  case unanchoredFresh =>
    exact fun ref href => Nat.lt_succ_of_lt (h.unanchoredFresh ref href)
  case nodup =>
    refine List.nodup_append.mpr ⟨h.nodup, List.nodup_singleton _, fun ref href other hother => ?_⟩
    rw [List.mem_singleton.mp hother]
    exact (h.queueFresh ref href).ne
  case attempts =>
    intro ref href
    rcases Nat.lt_succ_iff_lt_or_eq.mp href with hold | rfl
    · obtain ⟨item, hitem, hcount⟩ := h.attempts ref hold
      exact ⟨item, (Function.update_of_ne hold.ne _ _).trans hitem, hcount⟩
    · exact ⟨_, Function.update_self .., (List.count_eq_zero.mpr hnew).symm⟩
  case anchored =>
    intro ref href hmem
    rcases List.mem_append.mp hmem with hold | hnew
    · exact h.anchored ref href hold
    · exact (h.anchoredFresh ref href).ne (List.mem_singleton.mp hnew)
  case left =>
    intro ref href
    rcases Nat.lt_succ_iff_lt_or_eq.mp href with hold | rfl
    · exact (h.left ref hold).imp_left (List.mem_append_left _)
    · exact .inl (List.mem_append_right _ (List.mem_singleton_self _))
  case once =>
    exact h.once
  case apart =>
    exact h.apart
  case busy =>
    exact fun ref href => List.mem_append_left _ (h.busy href)

theorem Sound.remove (h : Sound config s) {ref : ℕ} (hidle : ref ∉ s.busy) {anchored : List ℕ}
    (hold : s.anchored ⊆ anchored) (hfresh : ∀ other ∈ anchored, other ∈ s.anchored ∨ other = ref) (hlt : ref < s.objects)
    (hleft : ref ∈ anchored ∨ config.blockchain.retryAttempts ≤ s.unanchored.count ref) :
    Sound config { s with anchorQueue := s.anchorQueue.filter (· ≠ ref), anchored } := by
  constructor
  case queueFresh =>
    exact fun other hother => h.queueFresh other (List.mem_of_mem_filter hother)
  case anchoredFresh =>
    intro other hother
    rcases hfresh other hother with hmem | rfl
    · exact h.anchoredFresh other hmem
    · exact hlt
  case unanchoredFresh =>
    exact h.unanchoredFresh
  case nodup =>
    exact h.nodup.filter _
  case attempts =>
    exact h.attempts
  case anchored =>
    intro other hother hqueue
    obtain ⟨hmem, hne⟩ := List.mem_filter.mp hqueue
    rcases hfresh other hother with hmem' | heq
    · exact h.anchored other hmem' hmem
    · exact of_decide_eq_true hne heq
  case left =>
    intro other hother
    by_cases heq : other = ref
    · rw [heq]
      exact .inr hleft
    · rcases h.left other hother with hqueue | hdone | hexhausted
      · exact .inl (List.mem_filter.mpr ⟨hqueue, decide_eq_true heq⟩)
      · exact .inr (.inl (hold hdone))
      · exact .inr (.inr hexhausted)
  case once =>
    exact h.once
  case apart =>
    exact h.apart
  case busy =>
    intro other hother
    have hne : other ≠ ref := by
      rintro rfl
      exact hidle hother
    exact List.mem_filter.mpr ⟨h.busy hother, decide_eq_true hne⟩

variable {i : ℕ} {pass : Pass}

theorem busy_eraseIdx {passes : List Pass} (h : passes[i]? = some pass) :
    (pass.todo ++ (passes.eraseIdx i).flatMap Pass.todo).Perm (passes.flatMap Pass.todo) := by
  obtain ⟨hlt, rfl⟩ := List.getElem?_eq_some_iff.mp h
  have hperm := (List.getElem_cons_eraseIdx_perm hlt).flatMap_right Pass.todo
  rwa [List.flatMap_cons] at hperm

section
variable (h : Sound config s)
include h

theorem retryFrom_sound (now : ℤ) {todo : List ℕ} (hapart : (todo ++ s.busy).Nodup)
    (hsubset : todo ⊆ s.anchorQueue) : Sound config (retryFrom config s now todo) := by
  induction todo generalizing s with
  | nil => exact h
  | cons ref rest ih =>
    have hmem : ref ∈ s.anchorQueue := hsubset List.mem_cons_self
    have hlt : ref < s.objects := h.queueFresh ref hmem
    obtain ⟨item, hitem, hattempts⟩ := h.attempts ref hlt
    rw [List.cons_append] at hapart
    obtain ⟨hnot, hrest⟩ := List.nodup_cons.mp hapart
    unfold retryFrom
    rw [hitem]
    dsimp only [Option.map_some, Option.getD_some]
    by_cases hexhausted : config.blockchain.retryAttempts ≤ item.attempts
    · rw [if_pos hexhausted]
      have hidle : ref ∉ s.busy := fun hbusy => hnot (List.mem_append_right _ hbusy)
      rw [hattempts] at hexhausted
      apply ih (h.remove hidle (List.Subset.refl _) (fun _ => .inl) hlt (.inr hexhausted)) hrest
      intro other hother
      have hne : other ≠ ref := by
        rintro rfl
        exact hnot (List.mem_append_left _ hother)
      exact List.mem_filter.mpr ⟨hsubset (List.mem_cons_of_mem _ hother), decide_eq_true hne⟩
    · rw [if_neg hexhausted, if_neg (fun hanchored => h.anchored ref hanchored hmem)]
      have hbusy : (s.passes ++ [(⟨now, ref, rest⟩ : Pass)]).flatMap Pass.todo = s.busy ++ ref :: rest := by
        rw [List.flatMap_append, List.flatMap_singleton]
        rfl
      refine ⟨h.queueFresh, h.anchoredFresh, h.unanchoredFresh, h.nodup, h.attempts, h.anchored, h.left, h.once, ?_, ?_⟩
      · rw [busy, hbusy]
        exact List.nodup_append_comm.mp hapart
      · rw [busy, hbusy]
        exact List.append_subset.mpr ⟨h.busy, hsubset⟩

theorem Sound.resume (hpass : s.passes[i]? = some pass) :
    Sound config { s with passes := s.passes.eraseIdx i } ∧
      (pass.current :: (pass.rest ++ (s.passes.eraseIdx i).flatMap Pass.todo)).Nodup ∧
      pass.current :: pass.rest ⊆ s.anchorQueue := by
  have hperm := busy_eraseIdx hpass
  have hnodup := hperm.nodup_iff.mpr h.apart
  have hqueued : ∀ ref ∈ pass.todo ++ (s.passes.eraseIdx i).flatMap Pass.todo, ref ∈ s.anchorQueue := by
    intro ref href
    exact h.busy (hperm.subset href)
  refine ⟨?_, hnodup, fun ref href => hqueued ref (List.mem_append_left _ href)⟩
  exact ⟨h.queueFresh, h.anchoredFresh, h.unanchoredFresh, h.nodup, h.attempts, h.anchored, h.left, h.once,
    (List.nodup_append.mp hnodup).2.1, fun ref href => hqueued ref (List.mem_append_right _ href)⟩

theorem Sound.scheduleNext (hmem : pass.current ∈ s.anchorQueue) :
    Sound config (scheduleNext config s pass) := by
  have hlt := h.queueFresh _ hmem
  refine ⟨h.queueFresh, h.anchoredFresh, fun ref href => ?_, h.nodup, fun ref href => ?_, h.anchored, fun ref href => ?_,
    h.once, h.apart, h.busy⟩
  · rcases List.mem_append.mp href with hold | hnew
    · exact h.unanchoredFresh ref hold
    · rw [List.mem_singleton.mp hnew]
      exact hlt
  · obtain ⟨item, hitem, hcount⟩ := h.attempts ref href
    have happend : (s.unanchored ++ [pass.current]).count ref =
        s.unanchored.count ref + if pass.current = ref then 1 else 0 := by
      rw [List.count_append, List.count_singleton]
      simp only [beq_iff_eq]
    by_cases heq : pass.current = ref
    · subst heq
      rw [if_pos rfl] at happend
      refine ⟨_, (Function.update_self ..).trans (congrArg _ hitem), ?_⟩
      exact (congrArg (· + 1) hcount).trans happend.symm
    · rw [if_neg heq] at happend
      exact ⟨item, (Function.update_of_ne (Ne.symm heq) _ _).trans hitem, hcount.trans happend.symm⟩
  · have hle : s.unanchored.count ref ≤ (s.unanchored ++ [pass.current]).count ref := List.Sublist.count_le _ (List.sublist_append_left _ _)
    exact (h.left ref href).imp_right (Or.imp_right hle.trans')

theorem Sound.handleFailure (args : AnchorArgs σ) (reason : Reason) (now : ℤ) :
    Sound config (handleFailure config s args reason now) := by
  unfold Manager.handleFailure
  dsimp only
  split_ifs
  · exact h.calls _ _ _ _ _
  · exact ((h.calls _ _ _ _ _).queueForRetry args now).calls _ _ _ _ _
  · exact h.calls _ _ _ _ _

theorem Sound.retryFailed (hpass : s.passes[i]? = some pass) :
    Sound config (retryFrom config (Manager.scheduleNext config { s with passes := s.passes.eraseIdx i } pass) pass.now pass.rest) := by
  obtain ⟨hsound, hnodup, hsubset⟩ := h.resume hpass
  apply retryFrom_sound (hsound.scheduleNext (hsubset List.mem_cons_self))
  · exact (List.nodup_cons.mp hnodup).2
  · exact fun ref href => hsubset (List.mem_cons_of_mem _ href)

theorem Sound.retrySucceeded (hpass : s.passes[i]? = some pass) :
    Sound config (retryFrom config (succeedPass { s with passes := s.passes.eraseIdx i } pass) pass.now pass.rest) := by
  obtain ⟨hsound, hnodup, hsubset⟩ := h.resume hpass
  obtain ⟨hnot, hrest⟩ := List.nodup_cons.mp hnodup
  have hlt := h.queueFresh _ (hsubset List.mem_cons_self)
  have hdone : pass.current ∈ s.anchored ++ [pass.current] := List.mem_append_right _ (List.mem_singleton_self _)
  have hfresh : ∀ other ∈ s.anchored ++ [pass.current], other ∈ s.anchored ∨ other = pass.current := by
    intro other hother
    exact (List.mem_append.mp hother).imp_right List.mem_singleton.mp
  have hremoved := hsound.remove (fun hbusy => hnot (List.mem_append_right _ hbusy)) (List.subset_append_left _ _) hfresh hlt (.inl hdone)
  apply retryFrom_sound hremoved
  · exact hrest
  · intro other hother
    have hne : other ≠ pass.current := by
      rintro rfl
      exact hnot (List.mem_append_left _ hother)
    exact List.mem_filter.mpr ⟨hsubset (List.mem_cons_of_mem _ hother), decide_eq_true hne⟩

theorem Sound.step {s' : Manager σ} {act : ManagerAct σ} (hok : s.Careful config act)
    (hstep : step config s act = some s') : Sound config s' := by
  cases act with
  | anchorMerkleRoot args now =>
    unfold Manager.step at hstep
    dsimp only at hstep
    split at hstep <;> cases hstep <;> exact h.calls _ _ _ _ _
  | operationReturns i success now =>
    unfold Manager.step at hstep
    dsimp only at hstep
    split at hstep
    · split_ifs at hstep <;> cases hstep <;> exact h.calls _ _ _ _ _
    · cases hstep
  | operationThrows | operationTimesOut | succeeds | lateReturns =>
    unfold Manager.step at hstep
    dsimp only at hstep
    split at hstep <;> cases hstep
    exact h.calls _ _ _ _ _
  | fails i now =>
    unfold Manager.step at hstep
    dsimp only at hstep
    split at hstep <;> cases hstep
    exact (h.calls _ _ _ _ _).handleFailure _ _ _
  | retryTick now =>
    cases hstep
    have hdue : (s.due now).Nodup := h.nodup.filter _
    apply retryFrom_sound h
    · refine List.nodup_append.mpr ⟨hdue, h.apart, fun ref href other hother heq => ?_⟩
      rw [← heq] at hother
      exact hok ref href hother
    · exact List.filter_subset_self _
  | retryReturns i success =>
    unfold Manager.step at hstep
    dsimp only at hstep
    cases hpass : s.passes[i]? with
    | none =>
      rw [hpass] at hstep
      cases hstep
    | some pass =>
      rw [hpass] at hstep
      dsimp only at hstep
      split_ifs at hstep <;> cases hstep
      · exact h.retrySucceeded hpass
      · exact h.retryFailed hpass
  | retryThrows i reason =>
    unfold Manager.step at hstep
    dsimp only at hstep
    split at hstep
    next pass hpass =>
      cases reason with
      | error message =>
        cases hstep
        exact h.retryFailed hpass
      | nullish =>
        cases hstep
        obtain ⟨hsound, -, hsubset⟩ := h.resume hpass
        exact hsound.scheduleNext (hsubset List.mem_cons_self)
    next => cases hstep
  | otherSucceeds | otherFails | resetCircuitBreakers =>
    cases hstep
    exact h.calls _ _ _ _ _

end

end Steps

/-- With retries enabled, in a careful run no root is dropped and none is anchored twice. -/
theorem roots_conserved (henabled : config.blockchain.enabled = true) {s : Manager σ}
    (hs : Reachable (step config) (Careful config) start s) : Conserves config (Careful config) s := by
  have hsound : Sound config s :=
    Reachable.invariant hs (Sound.start config) fun _ _ _ h hok hstep => h.step hok hstep
  exact ⟨fun _ _ _ _ hcall hok hroom => fails_queued config henabled hcall hok hroom, hsound.left, hsound.once⟩

def oneRetry : ManagerConfig := ⟨⟨true, 2, 100, 1, true⟩, ⟨5, 60000⟩⟩

def root : AnchorArgs Unit := ⟨"batch".toList, "0x".toList, ()⟩

def retrySucceeds : List (ManagerAct Unit) :=
  [.anchorMerkleRoot root 0, .operationReturns 0 false 10, .fails 0 10, .retryTick 200, .retryReturns 0 true]

def retriedRun : Manager Unit := (exec (checked (step oneRetry) (Careful oneRetry)) start retrySucceeds).getD start

theorem roots_conserved_retried : (retriedRun.answers = [(root, some false)] ∧ retriedRun.anchored = [0]) ∧
    Conserves oneRetry (Careful oneRetry) retriedRun := by
  have hexec : exec (checked (step oneRetry) (Careful oneRetry)) start retrySucceeds = some retriedRun :=
    eq_some_getD (by decide +kernel) _
  exact ⟨by decide +kernel, roots_conserved oneRetry rfl (Reachable.start.of_exec_checked retrySucceeds hexec)⟩

def failsAfterSuccess : List (ManagerAct Unit) :=
  [.anchorMerkleRoot root 0, .operationReturns 0 true 10, .succeeds 0, .anchorMerkleRoot root 20, .operationReturns 0 false 30]

def failedRun : Manager Unit := (exec (step oneRetry) start failsAfterSuccess).getD start

/-- The bookkeeping throws on the metrics of the success, and the root is not queued. -/
theorem failure_after_success_drops_root :
    ¬ ∀ s, Reachable (step oneRetry) (fun _ _ => True) (start : Manager Unit) s → Conserves oneRetry (fun _ _ => True) s := by
  intro hconserves
  have hexec : exec (step oneRetry) start failsAfterSuccess = some failedRun := eq_some_getD (by decide +kernel) _
  have hrun := Reachable.start.of_exec failsAfterSuccess (fun _ _ _ => trivial) hexec
  have hcall : failedRun.calls[0]? = some (.failed root anchoringFailed) := rfl
  obtain ⟨s', hstep, hanswers, -⟩ := (hconserves failedRun hrun).queued 0 40 root anchoringFailed hcall trivial (by decide +kernel)
  have hreject : (step oneRetry failedRun (.fails 0 40)).map (·.answers) = some [(root, some true), (root, none)] := rfl
  rw [hstep, Option.map_some, hanswers] at hreject
  cases hreject

end Manager

end OxScada.Resilience
