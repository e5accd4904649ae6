import OxScada.Dnp3.PointMap

/-! The event buffer: one queue for each event class, and what has been reported from it. -/

namespace OxScada.Dnp3

structure Dnp3Event where
  seq : ℕ
  pointType : Dnp3PointType
  index : ℕ
  eventClass : EventClass
  value : PointValue
  flags : UInt8
  timestamp : Float
  deriving DecidableEq

structure ClassBufferConfig where
  maxEvents : ℕ := 1000
  unsolicitedThreshold : ℕ := 5
  deriving DecidableEq, Repr

structure EventBufferConfig where
  classes : EventClass → ClassBufferConfig := fun _ => {}
  unsolicitedMaxDelayMs : Float := 2000

structure ClassQueue where
  config : ClassBufferConfig
  events : List Dnp3Event := []
  reported : Finset ℕ := ∅
  oldestUnreportedAt : Option Float := none
  overflowed : Bool := false

namespace ClassQueue
variable (q : ClassQueue)

def unreported : List Dnp3Event := q.events.filter (·.seq ∉ q.reported)

/-- The timer follows the oldest event that is not reported. -/
def settle : ClassQueue := { q with oldestUnreportedAt := q.unreported.head?.map (·.timestamp) }

def makeRoom : ClassQueue :=
  if q.config.maxEvents ≤ q.events.length then
    { q with
      events := q.events.tail
      reported := q.events.head?.elim q.reported fun dropped => q.reported.erase dropped.seq
      overflowed := true }
  else q

def push (event : Dnp3Event) : ClassQueue :=
  let q := q.makeRoom
  { q with
    events := q.events ++ [event]
    oldestUnreportedAt := some (q.oldestUnreportedAt.getD event.timestamp) }

def markReported (seqs : List ℕ) : ClassQueue :=
  settle { q with reported := q.reported ∪ ((q.events.map (·.seq)).filter (· ∈ seqs)).toFinset }

def confirm (seqs : List ℕ) : ClassQueue :=
  let q := settle { q with events := q.events.filter (·.seq ∉ seqs), reported := q.reported \ seqs.toFinset }
  { q with overflowed := q.overflowed && !q.events.isEmpty }

end ClassQueue

structure Dnp3EventBuffer where
  seqCounter : ℕ := 0
  queues : EventClass → ClassQueue
  overflowFlag : Bool := false
  maxDelayMs : Float
  /-- How often `clear` was called, which the source does not count. -/
  clears : ℕ := 0

inductive UnsolicitedReason where
  | count | delay | none
  deriving DecidableEq, Repr

structure UnsolicitedDecision where
  shouldSend : Bool
  classes : List EventClass
  reason : UnsolicitedReason
  deriving DecidableEq, Repr

def EventClass.all : List EventClass := [.class1, .class2, .class3]

namespace Dnp3EventBuffer

def new (config : EventBufferConfig) : Dnp3EventBuffer where
  queues cls := { config := config.classes cls }
  maxDelayMs := config.unsolicitedMaxDelayMs

variable (b : Dnp3EventBuffer)

/-- The event gets the next sequence number, and a place at the end of its class. -/
def enqueue (event : Dnp3Event) : Dnp3EventBuffer :=
  let event := { event with seq := b.seqCounter + 1 }
  let q := b.queues event.eventClass
  { b with
    seqCounter := b.seqCounter + 1
    queues := Function.update b.queues event.eventClass (q.push event)
    overflowFlag := b.overflowFlag || decide (q.config.maxEvents ≤ q.events.length) }

/-- The events of some classes, in the order they were enqueued. -/
def peek (classes : List EventClass) : List Dnp3Event :=
  (classes.flatMap fun cls => (b.queues cls).events).insertionSort fun x y => x.seq ≤ y.seq

def markReported (seqs : List ℕ) : Dnp3EventBuffer :=
  { b with queues := fun cls => (b.queues cls).markReported seqs }

def confirm (seqs : List ℕ) : Dnp3EventBuffer :=
  let queues cls := (b.queues cls).confirm seqs
  { b with
    queues := queues
    overflowFlag := b.overflowFlag && EventClass.all.any fun cls => (queues cls).overflowed }

def clear : Dnp3EventBuffer :=
  { b with
    queues := fun cls => { config := (b.queues cls).config }
    overflowFlag := false
    clears := b.clears + 1 }

def evaluateUnsolicited (now : Float) : UnsolicitedDecision :=
  let byCount := EventClass.all.filter fun cls =>
    let q := b.queues cls
    decide (0 < q.unreported.length ∧ 0 < q.config.unsolicitedThreshold ∧
      q.config.unsolicitedThreshold ≤ q.unreported.length)
  let byDelay := EventClass.all.filter fun cls =>
    let q := b.queues cls
    decide (0 < q.unreported.length) && decide (0 < b.maxDelayMs) &&
      q.oldestUnreportedAt.any fun oldest => decide (b.maxDelayMs ≤ now - oldest)
  if byCount ≠ [] then ⟨true, EventClass.all.filter fun cls => cls ∈ byCount ∨ cls ∈ byDelay, .count⟩
  else if byDelay ≠ [] then ⟨true, byDelay, .delay⟩
  else ⟨false, [], .none⟩

def hasEvents (cls : EventClass) : Bool := !(b.queues cls).events.isEmpty

end Dnp3EventBuffer

end OxScada.Dnp3
