import OxScada.Dnp3.OutstationRuns

/-! Whole histories of the event buffer. Each class holds its latest events, in order and within its
limit, what is reported is buffered, and the overflow flag tells what was dropped. The timer of a
class is that of the oldest event that is not reported, unless such an event was dropped when the
class was full: then the timer stays where it was. -/

namespace OxScada.Dnp3

variable {q : ClassQueue} {b : Dnp3EventBuffer} {event dropped : Dnp3Event} {cls : EventClass} {seqs : List ℕ} {next seq : ℕ}
  {config : EventBufferConfig}

inductive BufferCall where
  | enqueue (event : Dnp3Event)
  | markReported (seqs : List ℕ)
  | confirm (seqs : List ℕ)
  | clear
  | evaluateUnsolicited (now : Float)

namespace Dnp3EventBuffer

def hasOverflow (b : Dnp3EventBuffer) : Bool := b.overflowFlag

def call (b : Dnp3EventBuffer) : BufferCall → Dnp3EventBuffer
  | .enqueue event => b.enqueue event
  | .markReported seqs => b.markReported seqs
  | .confirm seqs => b.confirm seqs
  | .clear => b.clear
  | .evaluateUnsolicited _ => b

def after (config : EventBufferConfig) : List BufferCall → Dnp3EventBuffer
  | [] => new config
  | latest :: earlier => (after config earlier).call latest

/-- The call finds the class full, and drops its oldest event. -/
def Drops (b : Dnp3EventBuffer) (cls : EventClass) (call : BufferCall) : Prop :=
  ∃ event, call = .enqueue event ∧ event.eventClass = cls ∧ (b.queues cls).config.maxEvents ≤ (b.queues cls).events.length

/-- An event of the class was dropped, and the class was never empty since then. -/
def DroppedSince (config : EventBufferConfig) (cls : EventClass) : List BufferCall → Prop
  | [] => False
  | latest :: earlier => (Drops (after config earlier) cls latest ∨ DroppedSince config cls earlier) ∧
      ((after config (latest :: earlier)).queues cls).events ≠ []

/-- The event that the class drops is not reported, and the event that is then the oldest that is not
reported has another timestamp. -/
def LosesTimer (b : Dnp3EventBuffer) (cls : EventClass) (call : BufferCall) : Prop :=
  ∃ event dropped, call = .enqueue event ∧ Drops b cls call ∧ (b.queues cls).unreported.head? = some dropped ∧
    (b.queues cls).events.head? = some dropped ∧
    ((b.queues cls).unreported.tail ++ [event]).head?.map (·.timestamp) ≠ some dropped.timestamp

/-- The class has lost its timer, which no call has set anew since. -/
def TimerLost (config : EventBufferConfig) (cls : EventClass) : List BufferCall → Prop
  | [] => False
  | .markReported _ :: _ | .confirm _ :: _ | .clear :: _ => False
  | latest :: earlier => LosesTimer (after config earlier) cls latest ∨ TimerLost config cls earlier

end Dnp3EventBuffer

/-! ### One class -/

namespace ClassQueue

/-- The events are in the order of their numbers, none above `next`, and what is reported is buffered. -/
structure Sound (next : ℕ) (q : ClassQueue) : Prop where
  increasing : q.events.Pairwise (·.seq < ·.seq)
  numbered : ∀ e ∈ q.events, e.seq ≤ next
  reported : ∀ seq ∈ q.reported, seq ∈ q.events.map (·.seq)
  room : 1 ≤ q.config.maxEvents
  bounded : q.events.length ≤ q.config.maxEvents

/-- The timer is that of the oldest event that is not reported. -/
def Timely (q : ClassQueue) : Prop := q.oldestUnreportedAt = q.unreported.head?.map (·.timestamp)

theorem Sound.mono (h : q.Sound next) {later : ℕ} (hle : next ≤ later) : q.Sound later :=
  ⟨h.increasing, fun e he => (h.numbered e he).trans hle, h.reported, h.room, h.bounded⟩

theorem Sound.empty {config : ClassBufferConfig} (hroom : 1 ≤ config.maxEvents) : Sound next { config } :=
  ⟨.nil, fun _ he => absurd he List.not_mem_nil, fun _ hseq => absurd hseq (Finset.notMem_empty _), hroom, Nat.zero_le _⟩

theorem Sound.full (h : q.Sound next) (hfull : q.config.maxEvents ≤ q.events.length) :
    ∃ dropped rest, q.events = dropped :: rest ∧ dropped.seq ∉ rest.map (·.seq) := by
  cases hevents : q.events with
  | nil =>
    have hroom := h.room
    rw [hevents] at hfull
    exact absurd (hroom.trans hfull) (by simp)
  | cons dropped rest =>
    refine ⟨dropped, rest, rfl, fun hmem => ?_⟩
    have hincreasing := h.increasing
    rw [hevents] at hincreasing
    obtain ⟨later, hlater, heq⟩ := List.mem_map.mp hmem
    have hlt : dropped.seq < later.seq := List.rel_of_pairwise_cons hincreasing hlater
    exact absurd heq hlt.ne'

theorem makeRoom_full {rest : List Dnp3Event} (hfull : q.config.maxEvents ≤ q.events.length) (hevents : q.events = dropped :: rest) :
    q.makeRoom = { q with events := rest, reported := q.reported.erase dropped.seq, overflowed := true } := by
  rw [makeRoom, if_pos hfull, hevents]
  rfl

theorem Sound.makeRoom (h : q.Sound next) : q.makeRoom.Sound next ∧ q.makeRoom.events.length < q.config.maxEvents := by
  by_cases hfull : q.config.maxEvents ≤ q.events.length
  · obtain ⟨dropped, rest, hevents, -⟩ := h.full hfull
    have hincreasing := h.increasing
    have hnumbered := h.numbered
    have hreported := h.reported
    have hbounded := h.bounded
    rw [hevents] at hincreasing hnumbered hreported hbounded
    rw [makeRoom_full hfull hevents]
    have hless : rest.length < q.config.maxEvents := by
      rw [List.length_cons] at hbounded
      exact hbounded
    refine ⟨⟨hincreasing.of_cons, fun e he => hnumbered e (List.mem_cons_of_mem _ he), fun seq hseq => ?_, h.room, hless.le⟩, hless⟩
    obtain ⟨hne, hseq⟩ := Finset.mem_erase.mp hseq
    rw [List.map_cons] at hreported
    exact (List.mem_cons.mp (hreported seq hseq)).resolve_left hne
  · rw [ClassQueue.makeRoom, if_neg hfull]
    exact ⟨h, not_le.mp hfull⟩

theorem Sound.push (h : q.Sound next) (hseq : event.seq = next + 1) : (q.push event).Sound (next + 1) := by
  obtain ⟨hroom, hless⟩ := h.makeRoom
  refine ⟨?_, fun e he => ?_, fun seq hreported => ?_, hroom.room, ?_⟩
  · refine List.pairwise_append.mpr ⟨hroom.increasing, List.pairwise_singleton .., fun e he last hlast => ?_⟩
    obtain rfl := List.mem_singleton.mp hlast
    rw [hseq]
    exact Nat.lt_succ_of_le (hroom.numbered e he)
  · rcases List.mem_append.mp he with he | he
    · exact (hroom.numbered e he).trans (Nat.le_succ _)
    · obtain rfl := List.mem_singleton.mp he
      exact hseq.le
  · have hold : seq ∈ q.makeRoom.events.map (·.seq) := hroom.reported seq hreported
    show seq ∈ (q.makeRoom.events ++ [event]).map (·.seq)
    rw [List.map_append]
    exact List.mem_append_left _ hold
  · show (q.makeRoom.events ++ [event]).length ≤ q.makeRoom.config.maxEvents
    have hconfig : q.makeRoom.config = q.config := by
      unfold ClassQueue.makeRoom
      split_ifs <;> rfl
    rw [List.length_append, hconfig]
    exact hless

theorem Sound.markReported (h : q.Sound next) (seqs : List ℕ) : (q.markReported seqs).Sound next := by
  refine ⟨h.increasing, h.numbered, fun seq hseq => ?_, h.room, h.bounded⟩
  rcases Finset.mem_union.mp hseq with hold | hnew
  · exact h.reported seq hold
  · exact (List.mem_filter.mp (List.mem_toFinset.mp hnew)).1

theorem Sound.confirm (h : q.Sound next) (seqs : List ℕ) : (q.confirm seqs).Sound next := by
  refine ⟨h.increasing.filter _, fun e he => h.numbered e (List.mem_filter.mp he).1, fun seq hseq => ?_, h.room,
    (List.length_filter_le ..).trans h.bounded⟩
  obtain ⟨hold, hnot⟩ := Finset.mem_sdiff.mp hseq
  obtain ⟨e, he, rfl⟩ := List.mem_map.mp (h.reported seq hold)
  have hkept : e ∈ q.events.filter (·.seq ∉ seqs) := List.mem_filter.mpr ⟨he, by simpa using hnot⟩
  exact List.mem_map_of_mem hkept

theorem settle_timely (q : ClassQueue) : q.settle.Timely := rfl

theorem markReported_timely (q : ClassQueue) (seqs : List ℕ) : (q.markReported seqs).Timely := settle_timely _

theorem confirm_timely (q : ClassQueue) (seqs : List ℕ) : (q.confirm seqs).Timely := rfl

theorem Sound.push_unreported (h : q.Sound next) (hseq : event.seq = next + 1) :
    (q.push event).unreported = q.makeRoom.unreported ++ [event] := by
  have hfresh : event.seq ∉ q.makeRoom.reported := by
    intro hmem
    obtain ⟨e, he, heq⟩ := List.mem_map.mp (h.makeRoom.1.reported event.seq hmem)
    have hle : e.seq ≤ next := h.makeRoom.1.numbered e he
    rw [heq, hseq] at hle
    exact absurd hle (Nat.not_succ_le_self _)
  show (q.makeRoom.events ++ [event]).filter (·.seq ∉ q.makeRoom.reported) = _
  rw [List.filter_append, List.filter_cons_of_pos (by simpa using hfresh)]
  rfl

theorem makeRoom_unreported {rest : List Dnp3Event} (hfull : q.config.maxEvents ≤ q.events.length)
    (hevents : q.events = dropped :: rest) (hdropped : dropped.seq ∉ rest.map (·.seq)) :
    q.makeRoom.unreported = rest.filter (·.seq ∉ q.reported) := by
  rw [makeRoom_full hfull hevents]
  refine List.filter_congr fun e he => ?_
  have hne : e.seq ≠ dropped.seq := by
    intro heq
    exact hdropped (heq ▸ List.mem_map_of_mem he)
  simp [Finset.mem_erase, hne]

theorem Timely.push (ht : q.Timely) (h : q.Sound next) (hseq : event.seq = next + 1)
    (hkeeps : q.config.maxEvents ≤ q.events.length → ∀ dropped, q.unreported.head? = some dropped → q.events.head? = some dropped →
      (q.unreported.tail ++ [event]).head?.map (·.timestamp) = some dropped.timestamp) : (q.push event).Timely := by
  have htimer : (q.push event).oldestUnreportedAt = some (q.oldestUnreportedAt.getD event.timestamp) := by
    unfold ClassQueue.push ClassQueue.makeRoom
    split_ifs <;> rfl
  have ht : q.oldestUnreportedAt = q.unreported.head?.map (·.timestamp) := ht
  rw [Timely, htimer, h.push_unreported hseq, ht]
  by_cases hfull : q.config.maxEvents ≤ q.events.length
  · obtain ⟨dropped, rest, hevents, hfresh⟩ := h.full hfull
    rw [makeRoom_unreported hfull hevents hfresh]
    by_cases hreported : dropped.seq ∈ q.reported
    · have hsame : q.unreported = rest.filter (·.seq ∉ q.reported) := by
        rw [unreported, hevents, List.filter_cons_of_neg (by simpa using hreported)]
      rw [← hsame]
      cases q.unreported <;> rfl
    · have hhead : q.unreported = dropped :: rest.filter (·.seq ∉ q.reported) := by
        rw [unreported, hevents, List.filter_cons_of_pos (by simpa using hreported)]
      have hnext := hkeeps hfull dropped (by rw [hhead]; rfl) (by rw [hevents]; rfl)
      rw [hhead] at hnext ⊢
      exact hnext.symm
  · rw [ClassQueue.makeRoom, if_neg hfull]
    cases q.unreported <;> rfl

end ClassQueue

/-! ### The classes together -/

namespace Dnp3EventBuffer

structure Sound (config : EventBufferConfig) (b : Dnp3EventBuffer) : Prop where
  queues : ∀ cls, (b.queues cls).Sound b.seqCounter
  configured : ∀ cls, (b.queues cls).config = config.classes cls
  delay : b.maxDelayMs = config.unsolicitedMaxDelayMs
  overflow : b.overflowFlag = true ↔ ∃ cls, (b.queues cls).overflowed = true

theorem mem_all (cls : EventClass) : cls ∈ EventClass.all := by cases cls <;> decide

theorem Sound.new (hroom : ∀ cls, 1 ≤ (config.classes cls).maxEvents) : (new config).Sound config :=
  ⟨fun cls => .empty (hroom cls), fun _ => rfl, rfl, by simp [Dnp3EventBuffer.new]⟩

theorem enqueue_queue (b : Dnp3EventBuffer) (event : Dnp3Event) :
    (b.enqueue event).queues event.eventClass = (b.queues event.eventClass).push { event with seq := b.seqCounter + 1 } := by
  simp only [enqueue, Function.update_self]

theorem enqueue_other (hcls : cls ≠ event.eventClass) : (b.enqueue event).queues cls = b.queues cls := by
  simp only [enqueue, Function.update_of_ne hcls]

theorem push_config (q : ClassQueue) (event : Dnp3Event) : (q.push event).config = q.config := by
  unfold ClassQueue.push ClassQueue.makeRoom
  split_ifs <;> rfl

theorem push_overflowed (q : ClassQueue) (event : Dnp3Event) :
    (q.push event).overflowed = true ↔ q.config.maxEvents ≤ q.events.length ∨ q.overflowed = true := by
  unfold ClassQueue.push ClassQueue.makeRoom
  split_ifs with hfull
  · simp [hfull]
  · simp [hfull]

theorem Sound.enqueue (h : b.Sound config) (event : Dnp3Event) : (b.enqueue event).Sound config where
  queues cls := by
    by_cases hcls : cls = event.eventClass
    · rw [hcls, enqueue_queue]
      exact (h.queues event.eventClass).push rfl
    · rw [enqueue_other hcls]
      exact (h.queues cls).mono (Nat.le_succ _)
  configured cls := by
    by_cases hcls : cls = event.eventClass
    · rw [hcls, enqueue_queue, push_config]
      exact h.configured event.eventClass
    · rw [enqueue_other hcls]
      exact h.configured cls
  delay := h.delay
  overflow := by
    have hflag : (b.enqueue event).overflowFlag = true ↔
        b.overflowFlag = true ∨ (b.queues event.eventClass).config.maxEvents ≤ (b.queues event.eventClass).events.length := by
      simp [Dnp3EventBuffer.enqueue]
    rw [hflag, h.overflow]
    constructor
    · rintro (⟨cls, hoverflowed⟩ | hfull)
      · by_cases hcls : cls = event.eventClass
        · refine ⟨event.eventClass, ?_⟩
          rw [enqueue_queue, push_overflowed]
          exact .inr (hcls ▸ hoverflowed)
        · exact ⟨cls, by rwa [enqueue_other hcls]⟩
      · refine ⟨event.eventClass, ?_⟩
        rw [enqueue_queue, push_overflowed]
        exact .inl hfull
    · rintro ⟨cls, hoverflowed⟩
      by_cases hcls : cls = event.eventClass
      · rw [hcls, enqueue_queue, push_overflowed] at hoverflowed
        exact hoverflowed.symm.imp (fun hold => ⟨_, hold⟩) id
      · rw [enqueue_other hcls] at hoverflowed
        exact .inl ⟨cls, hoverflowed⟩

theorem Sound.confirm (h : b.Sound config) (seqs : List ℕ) : (b.confirm seqs).Sound config where
  queues cls := (h.queues cls).confirm seqs
  configured := h.configured
  delay := h.delay
  overflow := by
    have hflag : (b.confirm seqs).overflowFlag = true ↔
        b.overflowFlag = true ∧ ∃ cls, ((b.queues cls).confirm seqs).overflowed = true := by
      simp [Dnp3EventBuffer.confirm, mem_all]
    rw [hflag, h.overflow]
    constructor
    · rintro ⟨-, hsome⟩
      exact hsome
    · rintro ⟨cls, hoverflowed⟩
      have hbefore : (b.queues cls).overflowed = true := by
        have hoverflowed : ((b.queues cls).overflowed && !((b.queues cls).events.filter (·.seq ∉ seqs)).isEmpty) = true := hoverflowed
        exact (Bool.and_eq_true_iff.mp hoverflowed).1
      exact ⟨⟨cls, hbefore⟩, cls, hoverflowed⟩

theorem Sound.call (h : b.Sound config) (latest : BufferCall) : (b.call latest).Sound config := by
  cases latest with
  | enqueue event => exact h.enqueue event
  | markReported seqs => exact ⟨fun cls => (h.queues cls).markReported seqs, h.configured, h.delay, h.overflow⟩
  | confirm seqs => exact h.confirm seqs
  | clear =>
    have hroom : ∀ cls, 1 ≤ (b.queues cls).config.maxEvents := fun cls => (h.queues cls).room
    exact ⟨fun cls => .empty (hroom cls), h.configured, h.delay, by simp [Dnp3EventBuffer.call, clear]⟩
  | evaluateUnsolicited now => exact h

theorem sound_after (hroom : ∀ cls, 1 ≤ (config.classes cls).maxEvents) (calls : List BufferCall) : (after config calls).Sound config := by
  induction calls with
  | nil => exact .new hroom
  | cons latest earlier ih => exact ih.call latest

theorem DroppedSince.nonempty {calls : List BufferCall} (h : DroppedSince config cls calls) :
    ((after config calls).queues cls).events ≠ [] := by
  cases calls with
  | nil => exact absurd h id
  | cons latest earlier => exact h.2

theorem overflowed_iff (config : EventBufferConfig) (cls : EventClass) (calls : List BufferCall) :
    ((after config calls).queues cls).overflowed = true ↔ DroppedSince config cls calls := by
  induction calls with
  | nil => simp [after, Dnp3EventBuffer.new, DroppedSince]
  | cons latest earlier ih =>
    rw [DroppedSince, ← ih]
    have hkept : ((after config earlier).queues cls).overflowed = true → ((after config earlier).queues cls).events ≠ [] :=
      fun hoverflowed => DroppedSince.nonempty (ih.mp hoverflowed)
    cases latest with
    | enqueue event =>
      by_cases hcls : cls = event.eventClass
      · subst hcls
        have hdrops : Drops (after config earlier) event.eventClass (.enqueue event) ↔
            ((after config earlier).queues event.eventClass).config.maxEvents ≤ ((after config earlier).queues event.eventClass).events.length := by
          simp [Drops]
        have hsome : (((after config earlier).enqueue event).queues event.eventClass).events ≠ [] := by
          rw [enqueue_queue]
          exact List.append_ne_nil_of_right_ne_nil _ (List.cons_ne_nil _ _)
        rw [hdrops]
        show (((after config earlier).enqueue event).queues event.eventClass).overflowed = true ↔ _
        rw [enqueue_queue, push_overflowed]
        exact ⟨fun h => ⟨h, hsome⟩, fun h => h.1⟩
      · have hdrops : ¬Drops (after config earlier) cls (.enqueue event) := by
          rintro ⟨other, heq, hother, -⟩
          obtain rfl := BufferCall.enqueue.inj heq
          exact hcls hother.symm
        simp only [after, Dnp3EventBuffer.call, enqueue_other hcls]
        simp only [hdrops, false_or]
        exact ⟨fun h => ⟨h, hkept h⟩, fun h => h.1⟩
    | markReported | evaluateUnsolicited =>
      simp only [Drops, reduceCtorEq, false_and, exists_false, false_or]
      exact ⟨fun h => ⟨h, hkept h⟩, fun h => h.1⟩
    | confirm seqs =>
      simp only [Drops, reduceCtorEq, false_and, exists_false, false_or]
      show (((after config earlier).queues cls).overflowed && !(((after config earlier).queues cls).events.filter (·.seq ∉ seqs)).isEmpty) = true ↔
        ((after config earlier).queues cls).overflowed = true ∧ ((after config earlier).queues cls).events.filter (·.seq ∉ seqs) ≠ []
      rw [Bool.and_eq_true_iff]
      simp only [Bool.not_eq_true', ne_eq, List.isEmpty_eq_false_iff]
    | clear => simp [Drops, after, Dnp3EventBuffer.call, clear]

theorem timely_after (hroom : ∀ cls, 1 ≤ (config.classes cls).maxEvents) {calls : List BufferCall} {cls : EventClass}
    (hkept : ¬TimerLost config cls calls) : ((after config calls).queues cls).Timely := by
  induction calls with
  | nil => rfl
  | cons latest earlier ih =>
    cases latest with
    | enqueue event =>
      obtain ⟨hlatest, hearlier⟩ := not_or.mp hkept
      show (((after config earlier).enqueue event).queues cls).Timely
      by_cases hcls : cls = event.eventClass
      · subst hcls
        rw [enqueue_queue]
        refine (ih hearlier).push ((sound_after hroom earlier).queues event.eventClass) rfl fun hfull dropped holdest hfirst => ?_
        by_contra hother
        refine hlatest ⟨event, dropped, rfl, ⟨event, rfl, rfl, hfull⟩, holdest, hfirst, fun hsame => hother ?_⟩
        cases htail : ((after config earlier).queues event.eventClass).unreported.tail with
        | nil | cons =>
          rw [htail] at hsame
          exact hsame
      · rw [enqueue_other hcls]
        exact ih hearlier
    | markReported seqs => exact ClassQueue.markReported_timely _ seqs
    | confirm seqs => exact ClassQueue.confirm_timely _ seqs
    | clear => rfl
    | evaluateUnsolicited now => exact ih (not_or.mp hkept).2

theorem mem_classes (b : Dnp3EventBuffer) (cls : EventClass) (now : Float) : cls ∈ (b.evaluateUnsolicited now).classes ↔
    0 < (b.queues cls).unreported.length ∧
      (0 < (b.queues cls).config.unsolicitedThreshold ∧ (b.queues cls).config.unsolicitedThreshold ≤ (b.queues cls).unreported.length ∨
        0 < b.maxDelayMs ∧ ∃ oldest, (b.queues cls).oldestUnreportedAt = some oldest ∧ b.maxDelayMs ≤ now - oldest) := by
  unfold evaluateUnsolicited
  extract_lets byCount byDelay
  have hcount : cls ∈ byCount ↔ 0 < (b.queues cls).unreported.length ∧ 0 < (b.queues cls).config.unsolicitedThreshold ∧
      (b.queues cls).config.unsolicitedThreshold ≤ (b.queues cls).unreported.length := by
    simp [byCount, mem_all]
  have hdelay : cls ∈ byDelay ↔ 0 < (b.queues cls).unreported.length ∧ 0 < b.maxDelayMs ∧
      ∃ oldest, (b.queues cls).oldestUnreportedAt = some oldest ∧ b.maxDelayMs ≤ now - oldest := by
    simp [byDelay, mem_all, Option.any_eq_true, and_assoc]
  have heither : cls ∈ byCount ∨ cls ∈ byDelay ↔ 0 < (b.queues cls).unreported.length ∧
      (0 < (b.queues cls).config.unsolicitedThreshold ∧ (b.queues cls).config.unsolicitedThreshold ≤ (b.queues cls).unreported.length ∨
        0 < b.maxDelayMs ∧ ∃ oldest, (b.queues cls).oldestUnreportedAt = some oldest ∧ b.maxDelayMs ≤ now - oldest) := by
    rw [hcount, hdelay, ← and_or_left]
  rw [← heither]
  split_ifs with hsome hlate
  · simp [mem_all]
  · rw [not_not.mp hsome]
    simp
  · rw [not_not.mp hsome, not_not.mp hlate]
    simp

/-- After any calls each class has its events in the order of their numbers, at most as many as it may
hold, and no other events are reported. The buffer says that it overflowed if a class has dropped an
event and was not empty since. While it has not lost its timer, the timer of a class is that of its oldest
event that is not reported, and the class is listed when enough of its events are not reported, or the
oldest of them is old enough for a delay that is not disabled. -/
theorem buffer_invariant {config : EventBufferConfig} (hroom : ∀ cls, 1 ≤ (config.classes cls).maxEvents) (calls : List BufferCall) :
    (∀ cls, (((after config calls).queues cls).events.map (·.seq)).Pairwise (· < ·) ∧
      ((after config calls).queues cls).events.length ≤ (config.classes cls).maxEvents ∧
      ∀ seq ∈ ((after config calls).queues cls).reported, seq ∈ ((after config calls).queues cls).events.map (·.seq)) ∧
    ((after config calls).hasOverflow = true ↔ ∃ cls, DroppedSince config cls calls) ∧
    (∀ cls, ¬TimerLost config cls calls →
      ((after config calls).queues cls).oldestUnreportedAt = ((after config calls).queues cls).unreported.head?.map (·.timestamp) ∧
      ∀ now, cls ∈ ((after config calls).evaluateUnsolicited now).classes ↔
        0 < (config.classes cls).unsolicitedThreshold ∧
            (config.classes cls).unsolicitedThreshold ≤ ((after config calls).queues cls).unreported.length ∨
          0 < config.unsolicitedMaxDelayMs ∧ ∃ oldest, ((after config calls).queues cls).unreported.head? = some oldest ∧
            config.unsolicitedMaxDelayMs ≤ now - oldest.timestamp) := by
  have hsound := sound_after hroom calls
  refine ⟨fun cls => ?_, ?_, fun cls hkept => ?_⟩
  · have hqueue := hsound.queues cls
    have hbounded := hqueue.bounded
    rw [hsound.configured cls] at hbounded
    exact ⟨List.pairwise_map.mpr hqueue.increasing, hbounded, hqueue.reported⟩
  · rw [hasOverflow, hsound.overflow]
    exact exists_congr fun cls => overflowed_iff config cls calls
  · have htimely : ((after config calls).queues cls).oldestUnreportedAt =
        ((after config calls).queues cls).unreported.head?.map (·.timestamp) := timely_after hroom hkept
    refine ⟨htimely, fun now => ?_⟩
    rw [mem_classes, htimely, hsound.configured cls, hsound.delay]
    generalize ((after config calls).queues cls).unreported = unreported
    cases unreported with
    | nil => simp [Nat.pos_iff_ne_zero]
    | cons oldest rest => simp

end Dnp3EventBuffer

open Dnp3EventBuffer

def singles : EventBufferConfig := ⟨fun _ => ⟨1, 0⟩, 10⟩

def changeAt (timestamp : Float) : BufferCall := .enqueue ⟨0, .binaryInput, 0, .class1, .boolean true, 1, timestamp⟩

/-- A change makes room for a later one, and class 1 is not empty since. The first change alone is due
after ten milliseconds. -/
theorem buffer_invariant_singles : (∃ cls, DroppedSince singles cls [changeAt 20, changeAt 5]) ∧
    .class1 ∈ ((after singles [changeAt 5]).evaluateUnsolicited 16).classes := by
  have hroom : ∀ cls, 1 ≤ (singles.classes cls).maxEvents := fun _ => le_rfl
  constructor
  · exact (buffer_invariant hroom [changeAt 20, changeAt 5]).2.1.mp (by decide +kernel)
  · have hkept : ¬TimerLost singles .class1 [changeAt 5] := by
      rintro (⟨event, dropped, -, -, hnone, -⟩ | hlost)
      · cases hnone
      · exact hlost
    refine (((buffer_invariant hroom [changeAt 5]).2.2 .class1 hkept).2 16).mpr (.inr ⟨by decide +kernel, _, rfl, by decide +kernel⟩)

/-- The timer of class 1 is that of a change that was dropped, and the class is listed before the change
that it holds is due. Where the delay is disabled, a class is not listed for it. -/
theorem timer_outlives_change :
    (((after singles [changeAt 20, changeAt 5]).queues .class1).oldestUnreportedAt = some 5 ∧
      ((after singles [changeAt 20, changeAt 5]).queues .class1).unreported.head?.map (·.timestamp) = some 20 ∧
      .class1 ∈ ((after singles [changeAt 20, changeAt 5]).evaluateUnsolicited 16).classes ∧ ¬(10 : Float) ≤ 16 - 20) ∧
    (((after { singles with unsolicitedMaxDelayMs := 0 } [changeAt 5]).queues .class1).unreported.head?.map (·.timestamp) = some 5 ∧
      (0 : Float) ≤ 16 - 5 ∧
      .class1 ∉ ((after { singles with unsolicitedMaxDelayMs := 0 } [changeAt 5]).evaluateUnsolicited 16).classes) := by
  decide +kernel

end OxScada.Dnp3
