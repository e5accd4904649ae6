import OxScada.Dnp3.Chunking
import OxScada.Dnp3.Loopback
import OxScada.Runs.Reachable

/-! One connection of the TCP listener, as far as it holds received octets: the stream
reader and the transport reassembler behind it. -/

namespace OxScada.Dnp3
open OxScada.Bytes OxScada.Runs Dnp3LinkFrameReader TransportReassembler

def requestLinkStatus : UInt8 := 0x9

/-- The receive side of a connection. `frames` are the ones of the last chunk that the data
handler has still to go through. -/
structure ConnectionState where
  reader : Dnp3LinkFrameReader
  reassembler : Option ReassemblyState := none
  masterAddress : ℕ := 1
  frames : List Buffer := []
  destroyed : Bool := false

inductive Delivery where
  | badCrc | linkStatus | service | error (e : ReassembleError) | pending | fragment (appFragment : Buffer)
  deriving DecidableEq, Repr

def ReassembleResult.delivery : ReassembleResult → Delivery
  | ⟨_, some e⟩ => .error e
  | ⟨none, none⟩ => .pending
  | ⟨some appFragment, none⟩ => .fragment appFragment

variable (conn : ConnectionState)

def processFrame (frame : Buffer) : Delivery × ConnectionState :=
  match extractPayload frame with
  | none => (.badCrc, conn)
  | some (header, payload) =>
    let conn := { conn with masterAddress := header.source }
    if payload.length = 0 then (if header.func = requestLinkStatus then .linkStatus else .service, conn)
    else
      let result := accept conn.reassembler payload
      (result.2.delivery, { conn with reassembler := result.1 })

/-- A chunk arrives, the data handler takes its next frame, or the socket is destroyed by a
timeout, an error or the transmit bound. -/
inductive Receive where
  | data (chunk : Buffer)
  | frame
  | destroy

def receive : Receive → Option ConnectionState
  | .data chunk =>
    if conn.destroyed ∨ conn.frames ≠ [] then none
    else
      let pushed := conn.reader.push chunk
      some { conn with reader := pushed.2, frames := pushed.1.frames, destroyed := pushed.1.overflow }
  | .frame =>
    match conn.destroyed, conn.frames with
    | false, frame :: rest => some (processFrame { conn with frames := rest } frame).2
    | _, _ => none
  | .destroy => some { conn with frames := [], destroyed := true }

def retained : ℕ :=
  conn.reader.buffer.length + (conn.reassembler.map fun state => state.chunks.flatten.length).getD 0

/-! ### Segments are short -/

theorem extractBlocks_length {rest payload : Buffer} {remaining : ℕ}
    (h : extractBlocks rest remaining = some payload) : payload.length = remaining := by
  induction remaining using Nat.strong_induction_on generalizing rest payload with
  | _ remaining ih =>
    rw [extractBlocks] at h
    split_ifs at h with hpos
    · dsimp only at h
      split_ifs at h with hshort hcrc
      obtain ⟨later, hlater, rfl⟩ := Option.map_eq_some_iff.mp h
      have hless : remaining - min blockSize remaining < remaining := by
        simp only [blockSize]
        omega
      rw [List.length_append, ih _ hless hlater, List.length_take]
      omega
    · obtain rfl := Option.some.inj h
      exact (Nat.eq_zero_of_not_pos hpos).symm

theorem extractPayload_length {frame payload : Buffer} {header : Dnp3LinkHeader}
    (h : extractPayload frame = some (header, payload)) : payload.length ≤ 250 := by
  unfold extractPayload at h
  rcases hparse : parseLinkHeader frame with _ | parsed
  · rw [hparse] at h
    cases h
  · rw [hparse] at h
    dsimp only at h
    split_ifs at h
    obtain ⟨extracted, hblocks, hpair⟩ := Option.map_eq_some_iff.mp h
    obtain ⟨-, rfl⟩ := Prod.mk.inj hpair
    have hlen := parseLinkHeader_length hparse
    rw [extractBlocks_length hblocks]
    omega

/-! ### A peer that never ends its fragment -/

/-- The segment continues the fragment in `current` and does not end it. -/
def Continues (current : ReassemblyState) (seg : Buffer) : Prop :=
  ∃ h payload, seg = h :: payload ∧ parseHeader h = ⟨false, false, current.expectedSeq⟩

/-- A segment that continues a fragment without ending it finds fewer than `segments` of them kept. -/
def EndsWithin (segments : ℕ) (conn : ConnectionState) : Receive → Prop
  | .frame =>
    ∀ frame rest header payload current, conn.frames = frame :: rest →
      extractPayload frame = some (header, payload) → conn.reassembler = some current →
      Continues current payload → current.chunks.length < segments
  | _ => True

structure Modest (segments : ℕ) (state : ReassemblyState) : Prop where
  few : state.chunks.length ≤ segments
  short : ∀ chunk ∈ state.chunks, chunk.length ≤ 249

variable {segments : ℕ} {seg : Buffer} {conn : ConnectionState}

theorem Modest.octets {state : ReassemblyState} (h : Modest segments state) :
    state.chunks.flatten.length ≤ 249 * segments := by
  rw [List.length_flatten]
  calc (state.chunks.map List.length).sum ≤ (state.chunks.map List.length).length • 249 :=
        List.sum_le_card_nsmul _ _ fun n hn => by
          obtain ⟨chunk, hchunk, rfl⟩ := List.mem_map.mp hn
          exact h.short chunk hchunk
    _ = 249 * state.chunks.length := by rw [List.length_map, smul_eq_mul, Nat.mul_comm]
    _ ≤ 249 * segments := Nat.mul_le_mul_left 249 h.few

theorem complete_eq_some {fin : Bool} {state next : ReassemblyState} (h : (complete fin state).1 = some next) :
    fin = false ∧ next = state := by
  cases fin with
  | true => cases h
  | false => exact ⟨rfl, (Option.some.inj h).symm⟩

theorem accept_cases {state : Option ReassemblyState} {next : ReassemblyState}
    (h : (accept state seg).1 = some next) :
    state = some next ∨ (∃ head payload, seg = head :: payload ∧ next.chunks = [payload]) ∨
      ∃ current head payload, state = some current ∧ seg = head :: payload ∧ Continues current seg ∧
        next.chunks = current.chunks ++ [payload] := by
  cases seg with
  | nil => exact .inl h
  | cons head payload =>
    unfold accept at h
    dsimp only at h
    split_ifs at h with hfir
    · obtain ⟨-, rfl⟩ := complete_eq_some h
      exact .inr (.inl ⟨head, payload, rfl, rfl⟩)
    · cases state with
      | none => cases h
      | some current =>
        dsimp only at h
        split_ifs at h with hseq
        obtain ⟨hfin, rfl⟩ := complete_eq_some h
        rw [not_not] at hseq
        refine .inr (.inr ⟨current, head, payload, rfl, rfl, ⟨head, payload, rfl, ?_⟩, rfl⟩)
        rw [Bool.not_eq_true] at hfir
        show Header.mk (parseHeader head).fir (parseHeader head).fin (parseHeader head).seq = _
        rw [hfir, hfin, hseq]

theorem accept_modest {state : Option ReassemblyState}
    (hstate : ∀ current ∈ state, Modest (max 1 segments) current) (hseg : seg.length ≤ 250)
    (hends : ∀ current ∈ state, Continues current seg → current.chunks.length < segments) :
    ∀ next ∈ (accept state seg).1, Modest (max 1 segments) next := by
  intro next hnext
  rcases accept_cases hnext with hsame | ⟨head, payload, rfl, hchunks⟩ | ⟨current, head, payload, rfl, rfl, hmore, hchunks⟩
  · exact hstate next hsame
  · rw [List.length_cons] at hseg
    refine ⟨?_, ?_⟩
    · rw [hchunks]
      exact Nat.le_max_left 1 segments
    · rw [hchunks]
      simp only [List.mem_singleton, forall_eq]
      omega
  · have hfew := hends current rfl hmore
    rw [List.length_cons] at hseg
    refine ⟨?_, ?_⟩
    · rw [hchunks, List.length_append, List.length_singleton]
      exact Nat.le_trans hfew (Nat.le_max_right 1 segments)
    · intro chunk hchunk
      rw [hchunks, List.mem_append, List.mem_singleton] at hchunk
      rcases hchunk with hchunk | rfl
      · exact (hstate current rfl).short chunk hchunk
      · omega

theorem processFrame_reader (conn : ConnectionState) (frame : Buffer) :
    (processFrame conn frame).2.reader = conn.reader := by
  unfold processFrame
  split
  · rfl
  · dsimp only
    split_ifs <;> rfl

theorem processFrame_modest {frame : Buffer}
    (hconn : ∀ current ∈ conn.reassembler, Modest (max 1 segments) current)
    (hends : ∀ header payload, extractPayload frame = some (header, payload) → ∀ current ∈ conn.reassembler,
      Continues current payload → current.chunks.length < segments) :
    ∀ next ∈ (processFrame conn frame).2.reassembler, Modest (max 1 segments) next := by
  unfold processFrame
  rcases hextract : extractPayload frame with _ | ⟨header, payload⟩
  · exact hconn
  · by_cases hempty : payload.length = 0
    · simp only [if_pos hempty]
      exact hconn
    · simp only [if_neg hempty]
      exact accept_modest hconn (extractPayload_length hextract) (hends header payload hextract)

structure Bounded (segments : ℕ) (conn : ConnectionState) : Prop where
  buffer : conn.reader.buffer.length ≤ maxLinkFrameBytes
  reassembler : ∀ current ∈ conn.reassembler, Modest (max 1 segments) current

theorem receive_bounded {conn' : ConnectionState} {a : Receive} (h : Bounded segments conn)
    (hends : EndsWithin segments conn a) (hstep : receive conn a = some conn') : Bounded segments conn' := by
  cases a with
  | data chunk =>
    simp only [receive] at hstep
    split_ifs at hstep
    obtain rfl := Option.some.inj hstep
    exact ⟨(push_buffer_length conn.reader chunk).le, h.reassembler⟩
  | frame =>
    simp only [receive] at hstep
    split at hstep
    · rename_i frame rest hopen hframes
      obtain rfl := Option.some.inj hstep
      refine ⟨?_, processFrame_modest h.reassembler fun header payload hextract current hcurrent hmore => ?_⟩
      · rw [processFrame_reader]
        exact h.buffer
      · exact hends frame rest header payload current hframes hextract hcurrent hmore
    · cases hstep
  | destroy =>
    obtain rfl := Option.some.inj hstep
    exact ⟨h.buffer, h.reassembler⟩

theorem Bounded.retained_le (h : Bounded segments conn) :
    retained conn ≤ maxLinkFrameBytes + 249 * max 1 segments := by
  have hbuffer := h.buffer
  rw [retained]
  rcases hstate : conn.reassembler with _ | state
  · rw [Option.map_none, Option.getD_none]
    omega
  · have hoctets := (h.reassembler state hstate).octets
    rw [Option.map_some, Option.getD_some]
    omega

/-- As long as no fragment goes on for more than `segments` segments, whatever a peer sends,
the octets kept for it stay below a bound. -/
theorem receive_memory_bounded {maxBufferBytes segments : ℕ} {reader : Dnp3LinkFrameReader}
    (hnew : Dnp3LinkFrameReader.new maxBufferBytes = .ok reader) {conn : ConnectionState}
    (hrun : Reachable receive (EndsWithin segments) { reader } conn) :
    retained conn ≤ maxBufferBytes + 249 * max 1 segments := by
  have hfresh : reader.buffer = [] ∧ reader.maxBufferBytes = maxBufferBytes := by
    rw [Dnp3LinkFrameReader.new] at hnew
    split_ifs at hnew
    obtain rfl := Except.ok.inj hnew
    exact ⟨rfl, rfl⟩
  have hstart : Bounded segments { reader } := by
    refine ⟨?_, fun current hcurrent => by cases hcurrent⟩
    rw [hfresh.1]
    exact Nat.zero_le _
  have hroom := hfresh.2 ▸ reader.roomy
  have hbounded := hrun.invariant hstart fun _ _ _ h hends hstep => receive_bounded h hends hstep
  exact hbounded.retained_le.trans (Nat.add_le_add_right hroom _)

/-! ### The endless fragment -/

def masterFrame (seg : Buffer) : Buffer := linkFrame 0xc4 10 1 seg

theorem receive_masterFrame (hopen : conn.destroyed = false)
    (hidle : conn.frames = []) (hbuffer : conn.reader.buffer = []) (hseg : 1 ≤ seg.length ∧ seg.length ≤ 250) :
    exec receive conn [.data (masterFrame seg), .frame] =
      some { conn with reassembler := (accept conn.reassembler seg).1, masterAddress := 1 } := by
  have hframe : IsFrame (masterFrame seg) := isFrame_linkFrame hseg.2
  have hlen : (masterFrame seg).length ≤ maxLinkFrameBytes := by
    obtain ⟨header, hparse, -, hlen⟩ := hframe
    rw [hlen]
    exact frameLength_le hparse
  have hroom := conn.reader.roomy
  have hdrain : drain { conn.reader with buffer := masterFrame seg } = ([masterFrame seg], conn.reader) := by
    have hrest : ({ conn.reader with buffer := masterFrame seg } : Dnp3LinkFrameReader).buffer =
        masterFrame seg ++ [] := (List.append_nil _).symm
    rw [drain_frame hframe hrest, drain_nil rfl]
    rw [← hbuffer]
  have hpush : conn.reader.push (masterFrame seg) = (⟨[masterFrame seg], false⟩, conn.reader) := by
    rw [push, if_neg (by rw [hbuffer, List.length_nil]; omega), hbuffer, List.nil_append]
    dsimp only
    rw [hdrain]
  have hpayload : extractPayload (masterFrame seg) = some (frameHeader 0xc4 10 1 seg, seg) :=
    extractPayload_linkFrame hseg.2
  have hsome : seg ≠ [] := List.ne_nil_of_length_pos hseg.1
  simp [exec, receive, hopen, hidle, hpush, processFrame, hpayload, hsome, frameHeader, headerOf]

def endlessSeq : ℕ → UInt8
  | 0 => 0
  | n + 1 => (endlessSeq n + 1) &&& transportSeqMask

def endless (n : ℕ) : Buffer := [segmentHeader (endlessSeq n) (n == 0) false, 0]

def endlessRun : ℕ → List Receive
  | 0 => []
  | n + 1 => endlessRun n ++ [.data (masterFrame (endless n)), .frame]

theorem endlessSeq_mask (n : ℕ) : endlessSeq n &&& transportSeqMask = endlessSeq n := by
  cases n with
  | zero => rfl
  | succ n => exact mask_mask _

theorem exec_endlessRun (reader : Dnp3LinkFrameReader) (hbuffer : reader.buffer = []) (n : ℕ) :
    exec receive { reader } (endlessRun (n + 1)) =
      some { reader, reassembler := some ⟨List.replicate (n + 1) [0], endlessSeq (n + 1)⟩ } := by
  induction n with
  | zero =>
    rw [endlessRun, endlessRun, List.nil_append, receive_masterFrame rfl rfl hbuffer (by decide)]
    rfl
  | succ n ih =>
    have hseg : 1 ≤ (endless (n + 1)).length ∧ (endless (n + 1)).length ≤ 250 := ⟨by simp [endless], by simp [endless]⟩
    have hnext : accept (some ⟨List.replicate (n + 1) [0], endlessSeq (n + 1)⟩) (endless (n + 1)) =
        complete false ⟨List.replicate (n + 1) [0] ++ [[0]], endlessSeq (n + 2)⟩ :=
      accept_next (endlessSeq_mask (n + 1)) false _ _
    rw [endlessRun, exec_append, ih, Option.bind_some, receive_masterFrame rfl rfl hbuffer hseg]
    simp only [hnext, ← List.replicate_succ']
    rfl

/-- No bound on the receive buffer bounds what a connection keeps. -/
theorem receive_memory_unbounded :
    ¬ ∃ bound : ℕ → ℕ, ∀ maxBufferBytes reader, Dnp3LinkFrameReader.new maxBufferBytes = .ok reader →
      ∀ conn, Reachable receive (fun _ _ => True) { reader } conn → retained conn ≤ bound maxBufferBytes := by
  rintro ⟨bound, hbound⟩
  have hnew : Dnp3LinkFrameReader.new 8192 = .ok { maxBufferBytes := 8192, roomy := by decide } := rfl
  have hexec := exec_endlessRun { maxBufferBytes := 8192, roomy := by decide } rfl (bound 8192)
  have hle := hbound 8192 _ hnew _ (.of_exec .start _ (fun _ _ _ => trivial) hexec)
  rw [retained, Option.map_some, Option.getD_some, List.length_flatten, List.map_replicate, List.sum_replicate] at hle
  simp only [List.length_nil, List.length_singleton, smul_eq_mul] at hle
  omega

theorem reachable_dataFrame {start conn' : ConnectionState} {chunk : Buffer} (hrun : Reachable receive (EndsWithin segments) start conn)
    (hexec : exec receive conn [.data chunk, .frame] = some conn')
    (hfew : ∀ current ∈ conn.reassembler, current.chunks.length < segments) : Reachable receive (EndsWithin segments) start conn' := by
  obtain ⟨mid, hdata, hframe⟩ := Option.bind_eq_some_iff.mp hexec
  obtain ⟨last, hlast, hsame⟩ := Option.bind_eq_some_iff.mp hframe
  cases hsame
  -- a chunk only goes into the buffer of the reader
  have hmid : mid.reassembler = conn.reassembler := by
    unfold receive at hdata
    dsimp only at hdata
    split_ifs at hdata
    cases hdata
    rfl
  refine (hrun.step (show EndsWithin segments conn (.data chunk) from trivial) hdata).step ?_ hlast
  intro frame rest header payload current _ _ hcurrent _
  rw [hmid] at hcurrent
  exact hfew current hcurrent

theorem reachable_endless (reader : Dnp3LinkFrameReader) (hbuffer : reader.buffer = []) {n : ℕ} (hn : n < segments) :
    Reachable receive (EndsWithin segments) { reader } { reader, reassembler := some ⟨List.replicate (n + 1) [0], endlessSeq (n + 1)⟩ } := by
  induction n with
  | zero =>
    refine reachable_dataFrame .start (exec_endlessRun reader hbuffer 0) fun current hcurrent => ?_
    cases hcurrent
  | succ n ih =>
    have hexec := exec_endlessRun reader hbuffer (n + 1)
    rw [endlessRun, exec_append, exec_endlessRun reader hbuffer n, Option.bind_some] at hexec
    refine reachable_dataFrame (ih (Nat.lt_of_succ_lt hn)) hexec fun current hcurrent => ?_
    cases hcurrent
    rw [List.length_replicate]
    exact hn

theorem receive_memory_bounded_two :
    ∃ conn, Reachable receive (EndsWithin 2) { reader := { maxBufferBytes := 8192, roomy := by decide } } conn ∧
      retained conn = 2 ∧ retained conn ≤ 8192 + 249 * max 1 2 := by
  have hnew : Dnp3LinkFrameReader.new 8192 = .ok { maxBufferBytes := 8192, roomy := by decide } := rfl
  have hrun := reachable_endless { maxBufferBytes := 8192, roomy := by decide } rfl Nat.one_lt_two
  exact ⟨_, hrun, rfl, receive_memory_bounded hnew hrun⟩

end OxScada.Dnp3
