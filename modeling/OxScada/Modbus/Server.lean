import OxScada.Modbus.Handlers
import OxScada.Runs.Reachable

/-! A connection of the Modbus server. A step is a stretch of its code between two `await`s, or a
round of the loop of `drain`. The drains are chained, so at most one is under way, and more data
may arrive while it is. -/

namespace OxScada.Modbus
open OxScada.Bytes OxScada.Runs

structure ModbusServerConfig where
  maxBufferBytes : ℕ := 65536
  allowWrites : Bool := false

def writeFunctionCodes : List ℕ :=
  [FunctionCode.writeSingleCoil, FunctionCode.writeSingleRegister, FunctionCode.writeMultipleCoils, FunctionCode.writeMultipleRegisters]

inductive Drain where
  | looping (buffer : Buffer)
  /-- It awaits `processRequest`. -/
  | processing (request : ModbusRequest) (buffer : Buffer)
  /-- It has returned, and the caller has not run on. -/
  | returned (remainder : Buffer)
  deriving DecidableEq

def Drain.bytes : Drain → Buffer
  | .looping buffer => buffer
  | .processing _ buffer => buffer
  | .returned remainder => remainder

def Drain.inFlight : Drain → List ModbusRequest
  | .processing request _ => [request]
  | _ => []

structure Connection where
  buffer : Buffer := []
  queued : ℕ := 0
  drain : Option Drain := none
  destroyed : Bool := false
  written : List Buffer := []
  received : Buffer := []
  answers : List ModelAnswer := []

inductive ConnectionAct where
  | data (chunk : Buffer)
  | begins
  | loops
  | settles
  | answered (answer : ModelAnswer)
  | putsBack
  /-- The idle timeout, `stop`, or the other side. -/
  | closes

namespace Connection

def write (s : Connection) (response : Buffer) : Connection :=
  if s.destroyed then s else { s with written := s.written ++ [response] }

def respond (s : Connection) (response buffer : Buffer) : Connection :=
  { s.write response with drain := some (.looping buffer) }

section Machine
variable (config : ModbusServerConfig)

def writeRefused (request : ModbusRequest) : Bool := !config.allowWrites && request.functionCode ∈ writeFunctionCodes

def refusal (request : ModbusRequest) : Buffer :=
  encodeExceptionResponse request.header request.functionCode .illegalFunction

variable (s : Connection)

def loop (buffer : Buffer) : Connection :=
  if buffer = [] ∨ s.destroyed = true then { s with drain := some (.returned buffer) }
  else match decodeRequest buffer with
    | .error _ => { s with destroyed := true, drain := some (.returned []) }
    | .ok none => { s with drain := some (.returned buffer) }
    | .ok (some (request, bytesConsumed)) =>
      if writeRefused config request then s.respond (refusal request) (buffer.drop bytesConsumed)
      else { s with drain := some (.processing request (buffer.drop bytesConsumed)) }

def onData (chunk : Buffer) : Connection :=
  let s := { s with buffer := s.buffer ++ chunk, received := s.received ++ chunk }
  if config.maxBufferBytes < s.buffer.length then { s with destroyed := true } else { s with queued := s.queued + 1 }

def step : ConnectionAct → Option Connection
  | .data chunk => if s.destroyed then none else some (s.onData config chunk)
  | .begins =>
    match s.drain, s.queued with
    | none, queued + 1 => some { s with queued, buffer := [], drain := some (.looping s.buffer) }
    | _, _ => none
  | .loops =>
    match s.drain with
    | some (.looping buffer) => some (s.loop config buffer)
    | _ => none
  | .settles =>
    match s.drain with
    | some (.processing request buffer) =>
      match dispatch request.functionCode request.data with
      | .settled result => some (s.respond (encodeResult request result) buffer)
      | .asks _ _ => none
    | _ => none
  | .answered answer =>
    match s.drain with
    | some (.processing request buffer) =>
      match dispatch request.functionCode request.data with
      | .settled _ => none
      | .asks call resume =>
        if call.promises answer then
          some { s.respond (encodeResult request (resume answer)) buffer with answers := s.answers ++ [answer] }
        else none
    | _ => none
  | .putsBack =>
    match s.drain with
    | some (.returned remainder) => some { s with buffer := remainder ++ s.buffer, drain := none }
    | _ => none
  | .closes => some { s with destroyed := true }

/-- The buffer stays within its limit, and nothing else closes the connection. -/
def Untripped : ConnectionAct → Prop
  | .data chunk => (s.buffer ++ chunk).length ≤ config.maxBufferBytes
  | .closes => False
  | _ => True

instance (s : Connection) : DecidablePred (Untripped config s)
  | .data chunk => inferInstanceAs (Decidable ((s.buffer ++ chunk).length ≤ config.maxBufferBytes))
  | .closes => inferInstanceAs (Decidable False)
  | .begins | .loops | .settles | .answered _ | .putsBack => inferInstanceAs (Decidable True)

inductive Answered : List ModbusRequest → List ModelAnswer → List Buffer → Prop
  | nil : Answered [] [] []
  | refused {requests answers responses} {request : ModbusRequest} (h : writeRefused config request = true)
      (hrest : Answered requests answers responses) : Answered (requests ++ [request]) answers (responses ++ [refusal request])
  | processed {requests answers responses} {request : ModbusRequest} {taken : List ModelAnswer} {response : Buffer}
      (h : writeRefused config request = false) (hresponse : ProcessRequest request taken response)
      (hrest : Answered requests answers responses) :
      Answered (requests ++ [request]) (answers ++ taken) (responses ++ [response])

end Machine

/-! ### Where the bytes are -/

def held (s : Connection) : Buffer := (s.drain.map Drain.bytes).getD [] ++ s.buffer

def inFlight (s : Connection) : List ModbusRequest := (s.drain.map Drain.inFlight).getD []

def Quiet (s : Connection) : Prop := s.drain = none ∧ s.queued = 0

/-! ### What a step keeps -/

/-- While the connection is open: the consumed bytes are the frames that are answered, and the one
in flight, and a drain that has not begun will take all that has arrived since. -/
structure Sound (config : ModbusServerConfig) (s : Connection) : Prop where
  answered : ∃ consumed done, s.received = consumed ++ s.held ∧ Frames consumed (done ++ s.inFlight) [] ∧
    Answered config done s.answers s.written
  accepted : ∀ request buffer, s.drain = some (.processing request buffer) → writeRefused config request = false
  remainder : ∀ remainder, s.drain = some (.returned remainder) → decodeRequest remainder = .ok none
  taken : s.queued = 0 → s.drain ≠ none → s.buffer = []
  rest : s.queued = 0 → s.drain = none → decodeRequest s.buffer = .ok none

def Malformed (s : Connection) : Prop := ∀ later requests tail, ¬ Frames (s.received ++ later) requests tail

variable {config : ModbusServerConfig} {s s' : Connection}

theorem respond_open (hopen : s.destroyed = false) (response buffer : Buffer) :
    s.respond response buffer = { s with written := s.written ++ [response], drain := some (.looping buffer) } := by
  rw [respond, write, hopen]
  rfl

theorem sound_start : Sound config {} where
  answered := ⟨[], [], rfl, .tail rfl, .nil⟩
  accepted _ _ h := by cases h
  remainder _ h := by cases h
  taken _ h := absurd rfl h
  rest _ _ := rfl

theorem Sound.data (h : s.Sound config) {chunk : Buffer} :
    Sound config { s with buffer := s.buffer ++ chunk, received := s.received ++ chunk, queued := s.queued + 1 } where
  answered := by
    obtain ⟨consumed, done, hreceived, hframes, hanswered⟩ := h.answered
    refine ⟨consumed, done, ?_, hframes, hanswered⟩
    show s.received ++ chunk = consumed ++ (_ ++ (s.buffer ++ chunk))
    rw [hreceived, held, List.append_assoc, List.append_assoc]
  accepted := h.accepted
  remainder := h.remainder
  taken hqueued := absurd hqueued (Nat.succ_ne_zero _)
  rest hqueued := absurd hqueued (Nat.succ_ne_zero _)

theorem Sound.begins (h : s.Sound config) {queued : ℕ} (hdrain : s.drain = none) :
    Sound config { s with queued, buffer := [], drain := some (.looping s.buffer) } where
  answered := by
    obtain ⟨consumed, done, hreceived, hframes, hanswered⟩ := h.answered
    refine ⟨consumed, done, ?_, ?_, hanswered⟩
    · rw [hreceived, held, hdrain]
      exact congrArg _ (List.append_nil s.buffer).symm
    · rw [inFlight, hdrain] at hframes
      exact hframes
  accepted _ _ hd := by cases hd
  remainder _ hd := by cases hd
  taken _ _ := rfl
  rest _ hd := by cases hd

theorem Sound.putsBack (h : s.Sound config) {remainder : Buffer} (hdrain : s.drain = some (.returned remainder)) :
    Sound config { s with buffer := remainder ++ s.buffer, drain := none } where
  answered := by
    obtain ⟨consumed, done, hreceived, hframes, hanswered⟩ := h.answered
    refine ⟨consumed, done, ?_, ?_, hanswered⟩
    · rw [hreceived, held, hdrain]
      rfl
    · rw [inFlight, hdrain] at hframes
      exact hframes
  accepted _ _ hd := by cases hd
  remainder _ hd := by cases hd
  taken _ hd := absurd rfl hd
  rest hqueued _ := by
    show decodeRequest (remainder ++ s.buffer) = .ok none
    rw [h.taken hqueued (by rw [hdrain]; exact Option.some_ne_none _), List.append_nil]
    exact h.remainder remainder hdrain

variable {buffer : Buffer} {act : ConnectionAct}

theorem Sound.respond (h : s.Sound config) (hopen : s.destroyed = false) {request : ModbusRequest} {response : Buffer}
    {taken : List ModelAnswer} (hdrain : s.drain = some (.processing request buffer)) (hresponse : ProcessRequest request taken response) :
    Sound config { s.respond response buffer with answers := s.answers ++ taken } where
  answered := by
    obtain ⟨consumed, done, hreceived, hframes, hanswered⟩ := h.answered
    rw [inFlight, hdrain] at hframes
    rw [held, hdrain] at hreceived
    rw [respond_open hopen]
    refine ⟨consumed, done ++ [request], hreceived, ?_, .processed (h.accepted _ _ hdrain) hresponse hanswered⟩
    exact (List.append_nil _).symm ▸ hframes
  accepted _ _ hd := by cases hd
  remainder _ hd := by cases hd
  taken hqueued _ := by
    rw [respond_open hopen] at hqueued ⊢
    exact h.taken hqueued (by rw [hdrain]; exact Option.some_ne_none _)
  rest _ hd := by cases hd

theorem Sound.loop (h : s.Sound config) (hopen : s.destroyed = false) (hdrain : s.drain = some (.looping buffer)) :
    (s.loop config buffer).destroyed = false ∧ (s.loop config buffer).Sound config ∨
      (s.loop config buffer).destroyed = true ∧ (s.loop config buffer).Malformed := by
  obtain ⟨consumed, done, hreceived, hframes, hanswered⟩ := h.answered
  rw [inFlight, hdrain] at hframes
  rw [held, hdrain] at hreceived
  have htaken : s.queued = 0 → s.buffer = [] := fun hqueued => h.taken hqueued (by rw [hdrain]; exact Option.some_ne_none _)
  have hreturned : decodeRequest buffer = .ok none → Sound config { s with drain := some (.returned buffer) } := by
    intro hnone
    refine ⟨⟨consumed, done, hreceived, hframes, hanswered⟩, fun _ _ hd => (by cases hd), ?_, fun hqueued _ => htaken hqueued, fun _ hd => (by cases hd)⟩
    rintro _ ⟨⟩
    exact hnone
  unfold Connection.loop
  by_cases hempty : buffer = []
  · rw [if_pos (.inl hempty)]
    exact .inl ⟨hopen, hreturned (by rw [hempty]; rfl)⟩
  rw [if_neg (by rw [hopen]; simpa using hempty)]
  cases hdecode : decodeRequest buffer with
  | error message =>
    refine .inr ⟨rfl, fun later requests tail hall => ?_⟩
    have hall : Frames (consumed ++ (buffer ++ (s.buffer ++ later))) requests tail := by
      have hsplit : s.received ++ later = consumed ++ (buffer ++ (s.buffer ++ later)) := by
        rw [hreceived]
        simp [Drain.bytes]
      exact hsplit ▸ hall
    obtain ⟨rest, -, hrest⟩ := hframes.split hall
    exact Frames.error (decodeRequest_error hdecode _) hrest
  | ok decoded =>
    cases decoded with
    | none => exact .inl ⟨hopen, hreturned hdecode⟩
    | some decoded =>
      obtain ⟨request, n⟩ := decoded
      have hbytes : s.received = consumed ++ buffer.take n ++ (buffer.drop n ++ s.buffer) := by
        rw [hreceived]
        simp [Drain.bytes, ← List.append_assoc (buffer.take n)]
      have hconsumed : Frames (consumed ++ buffer.take n) (done ++ [request]) [] := by
        rw [show done ++ (Option.map Drain.inFlight (some (Drain.looping buffer))).getD [] = done from List.append_nil done] at hframes
        exact hframes.concat hdecode
      dsimp only
      by_cases hrefused : writeRefused config request = true
      · rw [if_pos hrefused]
        rw [respond_open hopen]
        refine .inl ⟨hopen, ⟨⟨_, done ++ [request], hbytes, ?_, .refused hrefused hanswered⟩, fun _ _ hd => (by cases hd),
          fun _ hd => (by cases hd), fun hqueued _ => htaken hqueued, fun _ hd => (by cases hd)⟩⟩
        exact (List.append_nil _).symm ▸ hconsumed
      · rw [if_neg hrefused]
        refine .inl ⟨hopen, ⟨⟨_, done, hbytes, hconsumed, hanswered⟩, ?_, fun _ hd => (by cases hd),
          fun hqueued _ => htaken hqueued, fun _ hd => (by cases hd)⟩⟩
        rintro _ _ ⟨⟩
        exact Bool.not_eq_true _ ▸ hrefused

inductive Move (config : ModbusServerConfig) (s : Connection) : ConnectionAct → Connection → Prop
  | data (chunk : Buffer) (hopen : s.destroyed = false) : Move config s (.data chunk) (s.onData config chunk)
  | begins (queued : ℕ) (hdrain : s.drain = none) (hqueued : s.queued = queued + 1) :
      Move config s .begins { s with queued, buffer := [], drain := some (.looping s.buffer) }
  | loops (buffer : Buffer) (hdrain : s.drain = some (.looping buffer)) : Move config s .loops (s.loop config buffer)
  | responds (act : ConnectionAct) {request : ModbusRequest} {buffer response : Buffer} {taken : List ModelAnswer}
      (hdrain : s.drain = some (.processing request buffer)) (hresponse : ProcessRequest request taken response) :
      Move config s act { s.respond response buffer with answers := s.answers ++ taken }
  | putsBack (remainder : Buffer) (hdrain : s.drain = some (.returned remainder)) :
      Move config s .putsBack { s with buffer := remainder ++ s.buffer, drain := none }
  | closes : Move config s .closes { s with destroyed := true }

theorem step_move (h : s.step config act = some s') : Move config s act s' := by
  cases act with
  | data chunk =>
    rw [step.eq_def] at h
    dsimp only at h
    split_ifs at h with hclosed
    obtain rfl := Option.some.inj h
    exact .data chunk (Bool.not_eq_true _ ▸ hclosed)
  | begins =>
    rw [step.eq_def] at h
    dsimp only at h
    split at h
    next queued hdrain hqueued =>
      obtain rfl := Option.some.inj h
      exact .begins queued hdrain hqueued
    · cases h
  | loops =>
    rw [step.eq_def] at h
    dsimp only at h
    split at h
    next buffer hdrain =>
      obtain rfl := Option.some.inj h
      exact .loops buffer hdrain
    · cases h
  | settles =>
    rw [step.eq_def] at h
    dsimp only at h
    split at h
    next request buffer hdrain =>
      split at h
      next result hresult =>
        obtain rfl := Option.some.inj h
        have hsame : s.respond (encodeResult request result) buffer =
            { s.respond (encodeResult request result) buffer with answers := s.answers ++ [] } := by
          rw [respond, write]
          split_ifs <;> simp
        rw [hsame]
        exact .responds _ hdrain (.settled hresult)
      · cases h
    · cases h
  | answered answer =>
    rw [step.eq_def] at h
    dsimp only at h
    split at h
    next request buffer hdrain =>
      split at h
      · cases h
      next call resume hcall =>
        split_ifs at h with hpromises
        obtain rfl := Option.some.inj h
        exact .responds _ hdrain (.asked hcall hpromises)
    · cases h
  | putsBack =>
    rw [step.eq_def] at h
    dsimp only at h
    split at h
    next remainder hdrain =>
      obtain rfl := Option.some.inj h
      exact .putsBack remainder hdrain
    · cases h
  | closes =>
    obtain rfl := Option.some.inj h
    exact .closes

def Kept (config : ModbusServerConfig) (s : Connection) : Prop :=
  s.destroyed = false ∧ s.Sound config ∨ s.destroyed = true ∧ s.Malformed

theorem Sound.move (h : s.Sound config) (hopen : s.destroyed = false) (hok : s.Untripped config act)
    (hmove : Move config s act s') : Kept config s' := by
  cases hmove with
  | data chunk =>
    unfold onData
    rw [if_neg (not_lt.mpr hok)]
    exact .inl ⟨hopen, h.data⟩
  | begins queued hdrain => exact .inl ⟨hopen, h.begins hdrain⟩
  | loops buffer hdrain => exact h.loop hopen hdrain
  | responds act hdrain hresponse =>
    refine .inl ⟨?_, h.respond hopen hdrain hresponse⟩
    rw [respond_open hopen]
    exact hopen
  | putsBack remainder hdrain => exact .inl ⟨hopen, h.putsBack hdrain⟩
  | closes => exact absurd hok id

theorem Move.closed (h : Move config s act s') (hclosed : s.destroyed = true) :
    s'.destroyed = true ∧ s'.received = s.received := by
  have hrespond : ∀ response buffer, (s.respond response buffer).destroyed = true ∧ (s.respond response buffer).received = s.received := by
    intro response buffer
    rw [respond, write, if_pos hclosed]
    exact ⟨hclosed, rfl⟩
  cases h with
  | data chunk hopen =>
    rw [hclosed] at hopen
    cases hopen
  | begins | putsBack => exact ⟨hclosed, rfl⟩
  | loops buffer =>
    unfold loop
    rw [if_pos (.inr hclosed)]
    exact ⟨hclosed, rfl⟩
  | @responds _ _ buffer response => exact hrespond response buffer
  | closes => exact ⟨rfl, rfl⟩

theorem kept_reachable (h : Reachable (step config) (Untripped config) {} s) : Kept config s := by
  refine h.invariant (.inl ⟨rfl, sound_start⟩) fun s act s' hs hok hstep => ?_
  have hmove := step_move hstep
  rcases hs with ⟨hopen, hsound⟩ | ⟨hclosed, hmalformed⟩
  · exact hsound.move hopen hok hmove
  · obtain ⟨hclosed', hreceived⟩ := hmove.closed hclosed
    exact .inr ⟨hclosed', fun later => hreceived ▸ hmalformed later⟩

/-! ### Progress -/

def IsDrain : ConnectionAct → Prop
  | .data _ | .closes => False
  | _ => True

/-- The rounds that are left bound the steps, as a frame has more than two bytes. -/
def work (s : Connection) : ℕ :=
  2 * s.held.length + 3 * s.queued + match s.drain with
    | none => 0
    | some (.returned _) => 1
    | some (.looping _) => 2
    | some (.processing _ _) => 3

theorem work_respond (response buffer : Buffer) (answers : List ModelAnswer) :
    work { s.respond response buffer with answers } = 2 * (buffer ++ s.buffer).length + 3 * s.queued + 2 := by
  unfold respond write
  split_ifs <;> rfl

theorem work_loop (hdrain : s.drain = some (.looping buffer)) : (s.loop config buffer).work < s.work := by
  have hwork : s.work = 2 * (buffer ++ s.buffer).length + 3 * s.queued + 2 := by
    unfold work held
    rw [hdrain]
    rfl
  have hreturned : ∀ remainder : Buffer, ∀ destroyed, remainder.length ≤ buffer.length →
      work { s with destroyed, drain := some (.returned remainder) } < s.work := by
    intro remainder destroyed hle
    rw [hwork]
    show 2 * (remainder ++ s.buffer).length + 3 * s.queued + 1 < _
    rw [List.length_append, List.length_append]
    omega
  unfold loop
  split_ifs with hend
  · exact hreturned buffer s.destroyed le_rfl
  · cases hdecode : decodeRequest buffer with
    | error message => exact hreturned [] true (Nat.zero_le _)
    | ok decoded =>
      cases decoded with
      | none => exact hreturned buffer s.destroyed le_rfl
      | some decoded =>
        obtain ⟨hn, hle⟩ := decodeRequest_length hdecode
        unfold mbapHeaderLength at hn
        have hrest : 2 * (buffer.drop decoded.2 ++ s.buffer).length + 3 * s.queued + 3 < s.work := by
          rw [hwork, List.length_append, List.length_append, List.length_drop]
          omega
        dsimp only
        split_ifs
        · have hrespond : (s.respond (refusal decoded.1) (buffer.drop decoded.2)).work =
              2 * (buffer.drop decoded.2 ++ s.buffer).length + 3 * s.queued + 2 := by
            unfold respond write
            split_ifs <;> rfl
          rw [hrespond]
          omega
        · exact hrest

theorem Move.work_lt (hact : IsDrain act) (h : Move config s act s') : s'.work < s.work := by
  cases h with
  | data | closes => exact absurd hact id
  | begins queued hdrain hqueued =>
    unfold work held
    rw [hdrain, hqueued]
    show 2 * (s.buffer ++ []).length + 3 * queued + 2 < 2 * ([] ++ s.buffer).length + 3 * (queued + 1) + 0
    rw [List.append_nil, List.nil_append]
    omega
  | loops buffer hdrain => exact work_loop hdrain
  | responds _ hdrain =>
    rw [work_respond]
    unfold work held
    rw [hdrain]
    exact Nat.lt_succ_self _
  | putsBack remainder hdrain =>
    unfold work held
    rw [hdrain]
    exact Nat.lt_succ_self _

theorem exec_work {acts : List ConnectionAct} (hacts : ∀ act ∈ acts, IsDrain act) (hexec : exec (step config) s acts = some s') :
    acts.length + s'.work ≤ s.work := by
  induction acts generalizing s with
  | nil =>
    obtain rfl := Option.some.inj hexec
    exact (Nat.zero_add _).le
  | cons act rest ih =>
    obtain ⟨next, hnext, hrest⟩ := Option.bind_eq_some_iff.mp hexec
    have hlt := (step_move hnext).work_lt (hacts act List.mem_cons_self)
    have hle := ih (fun act hact => hacts act (List.mem_cons_of_mem _ hact)) hrest
    rw [List.length_cons]
    omega

theorem quiet_of_stuck (h : ∀ act, IsDrain act → step config s act = none) : s.Quiet := by
  cases hdrain : s.drain with
  | none =>
    cases hqueued : s.queued with
    | zero => exact ⟨hdrain, hqueued⟩
    | succ queued =>
      have hbegins := h .begins trivial
      simp only [step, hdrain, hqueued] at hbegins
      cases hbegins
  | some drain =>
    exfalso
    cases drain with
    | looping buffer =>
      have hloops := h .loops trivial
      simp only [step, hdrain] at hloops
      cases hloops
    | processing request buffer =>
      cases hdispatch : dispatch request.functionCode request.data with
      | settled result =>
        have hsettles := h .settles trivial
        simp only [step, hdrain, hdispatch] at hsettles
        cases hsettles
      | asks call resume =>
        have hanswered := h (.answered (.fails none)) trivial
        have hpromises : call.promises (.fails none) = true := by cases call <;> rfl
        simp only [step, hdrain, hdispatch, hpromises, if_true] at hanswered
        cases hanswered
    | returned remainder =>
      have hputsBack := h .putsBack trivial
      simp only [step, hdrain] at hputsBack
      cases hputsBack

/-- However a stream is cut, its requests are answered in order, one response to each, and what is
held are the bytes that come after them. A connection comes to rest, and then only an incomplete
frame is left. -/
theorem answers_stream (h : Reachable (step config) (Untripped config) {} s) {later tail : Buffer} {requests : List ModbusRequest}
    (hframes : Frames (s.received ++ later) requests tail) :
    s.destroyed = false ∧
    (∃ consumed done rest, s.received = consumed ++ s.held ∧ requests = done ++ s.inFlight ++ rest ∧
      Frames consumed (done ++ s.inFlight) [] ∧ Answered config done s.answers s.written ∧ Frames (s.held ++ later) rest tail) ∧
    (s.Quiet → later = [] → Answered config requests s.answers s.written ∧ s.buffer = tail) ∧
    ∀ acts s', (∀ act ∈ acts, IsDrain act) → exec (step config) s acts = some s' →
      acts.length ≤ s.work ∧ ((∀ act, IsDrain act → step config s' act = none) → s'.Quiet) := by
  rcases kept_reachable h with ⟨hopen, hsound⟩ | ⟨-, hmalformed⟩
  · obtain ⟨consumed, done, hreceived, hconsumed, hanswered⟩ := hsound.answered
    have hall := hframes
    rw [hreceived, List.append_assoc] at hall
    obtain ⟨rest, hrequests, hrest⟩ := hconsumed.split hall
    refine ⟨hopen, ⟨consumed, done, rest, hreceived, hrequests, hconsumed, hanswered, hrest⟩, ?_, fun acts s' hacts hexec => ?_⟩
    · rintro ⟨hdrain, hqueued⟩ rfl
      have hnone := hsound.rest hqueued hdrain
      have hflight : s.inFlight = [] := by
        rw [inFlight, hdrain]
        rfl
      rw [List.append_nil, held, hdrain] at hrest
      obtain ⟨rfl, htail⟩ := hrest.of_none hnone
      rw [hflight, List.append_nil, List.append_nil] at hrequests
      exact ⟨hrequests ▸ hanswered, htail.symm⟩
    · exact ⟨(Nat.le_add_right _ _).trans (exec_work hacts hexec), quiet_of_stuck⟩
  · exact absurd hframes (hmalformed later requests tail)

/-! ### Two requests in three pieces -/

/-- A read of the coil 0, and a write to it, which a listener that is read only refuses. -/
def readThenWrite : Buffer := [0, 1, 0, 0, 0, 6, 1, 1, 0, 0, 0, 1] ++ [0, 2, 0, 0, 0, 6, 1, 5, 0, 0, 0xff, 0]

def readThenWriteActs : List ConnectionAct :=
  [.data (readThenWrite.take 5), .begins, .loops, .data ((readThenWrite.drop 5).take 9), .putsBack, .begins, .loops,
    .data (readThenWrite.drop 14), .answered (.bits [true]), .loops, .putsBack, .begins, .loops, .loops, .putsBack]

def readThenWriteEnd : Connection := (exec (checked (step {}) (Untripped {})) {} readThenWriteActs).getD {}

theorem readThenWrite_frames : ∃ first second, Frames readThenWrite [first, second] [] := by
  refine ⟨_, _, .frame (n := 12) rfl (.frame (n := 12) rfl (.tail rfl))⟩

theorem answers_stream_pieces : exec (checked (step {}) (Untripped {})) {} readThenWriteActs = some readThenWriteEnd ∧
    (∃ requests, Frames readThenWrite requests [] ∧ Answered {} requests readThenWriteEnd.answers readThenWriteEnd.written) ∧
    readThenWriteEnd.written = [[0, 1, 0, 0, 0, 4, 1, 1, 1, 1], [0, 2, 0, 0, 0, 3, 1, 0x85, 1]] := by
  have hsome : (exec (checked (step {}) (Untripped {})) {} readThenWriteActs).isSome := by decide +kernel
  have hexec : exec (checked (step {}) (Untripped {})) {} readThenWriteActs = some readThenWriteEnd := eq_some_getD hsome {}
  have hreceived : readThenWriteEnd.received ++ [] = readThenWrite := by decide +kernel
  have hquiet : readThenWriteEnd.Quiet := ⟨by decide +kernel, by decide +kernel⟩
  obtain ⟨first, second, hframes⟩ := readThenWrite_frames
  have hstream := answers_stream (.of_exec_checked .start readThenWriteActs hexec) (hreceived.symm ▸ hframes)
  exact ⟨hexec, ⟨_, hframes, (hstream.2.2.1 hquiet rfl).1⟩, by decide +kernel⟩

end Connection

end OxScada.Modbus
