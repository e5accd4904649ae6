import OxScada.Bytes.Buffer

/-! The DNP3 transport function: an application fragment is cut into segments with a
one-octet header, and put together again. -/

namespace OxScada.Dnp3
open OxScada.Bytes

def transportFin : UInt8 := 0x80

def transportFir : UInt8 := 0x40

def transportSeqMask : UInt8 := 0x3f

def defaultMaxSegmentPayload : ℤ := 249

def segmentHeader (seq : UInt8) (first last : Bool) : UInt8 :=
  (seq &&& transportSeqMask) ||| (if first then transportFir else 0) ||| (if last then transportFin else 0)

/-- The loop of `segment`, with the number of rounds that are left. -/
def segmentLoop (appFragment : Buffer) (maxPayload total : ℕ) : ℕ → ℕ → UInt8 → List Buffer
  | 0, _, _ => []
  | left + 1, i, seq =>
    let chunk := (appFragment.drop (i * maxPayload)).take maxPayload
    (segmentHeader seq (i == 0) (i == total - 1) :: chunk) ::
      segmentLoop appFragment maxPayload total left (i + 1) ((seq + 1) &&& transportSeqMask)

def segment (appFragment : Buffer) (startSeq maxPayload : ℤ) : Except String (List Buffer) :=
  if maxPayload ≤ 0 then .error "maxPayload must be positive"
  else
    let seq := UInt8.ofInt startSeq &&& transportSeqMask
    if appFragment.length = 0 then .ok [[transportFir ||| transportFin ||| seq]]
    else
      let total := (appFragment.length + maxPayload.toNat - 1) / maxPayload.toNat
      .ok (segmentLoop appFragment maxPayload.toNat total total 0 seq)

structure ReassemblyState where
  chunks : List Buffer
  expectedSeq : UInt8
  deriving DecidableEq, Repr

inductive ReassembleError where
  | unexpectedSequence | missingFir
  deriving DecidableEq, Repr

structure ReassembleResult where
  fragment : Option Buffer := none
  error : Option ReassembleError := none
  deriving DecidableEq, Repr

def ReassembleResult.pending : ReassembleResult := {}

namespace TransportReassembler

structure Header where
  fir : Bool
  fin : Bool
  seq : UInt8
  deriving DecidableEq, Repr

def parseHeader (h : UInt8) : Header where
  fir := h &&& transportFir ≠ 0
  fin := h &&& transportFin ≠ 0
  seq := h &&& transportSeqMask

/-- The end of `accept`: a final segment completes the fragment. -/
def complete (fin : Bool) (state : ReassemblyState) : Option ReassemblyState × ReassembleResult :=
  if fin then (none, { fragment := some state.chunks.flatten }) else (some state, .pending)

def accept (state : Option ReassemblyState) : Buffer → Option ReassemblyState × ReassembleResult
  | [] => (state, { error := some .missingFir })
  | h :: payload =>
    let header := parseHeader h
    let nextSeq := (header.seq + 1) &&& transportSeqMask
    if header.fir then complete header.fin ⟨[payload], nextSeq⟩
    else
      match state with
      | none => (none, { error := some .missingFir })
      | some current =>
        if header.seq ≠ current.expectedSeq then (none, { error := some .unexpectedSequence })
        else complete header.fin ⟨current.chunks ++ [payload], nextSeq⟩

/-- The state and the results after segments in arrival order. -/
def acceptAll (state : Option ReassemblyState) : List Buffer → Option ReassemblyState × List ReassembleResult
  | [] => (state, [])
  | seg :: rest =>
    let first := accept state seg
    let later := acceptAll first.1 rest
    (later.1, first.2 :: later.2)

end TransportReassembler

/-! ### Segments are accepted in order -/

section Reassembly
open TransportReassembler

theorem parseHeader_segmentHeader (seq : UInt8) (first last : Bool) :
    parseHeader (segmentHeader seq first last) = ⟨first, last, seq &&& transportSeqMask⟩ := by
  obtain ⟨seq⟩ := seq
  revert seq first last
  decide

theorem mask_mask (seq : UInt8) : seq &&& transportSeqMask &&& transportSeqMask = seq &&& transportSeqMask := by
  obtain ⟨seq⟩ := seq
  revert seq
  decide

variable {seq : UInt8}

theorem accept_next (hseq : seq &&& transportSeqMask = seq) (last : Bool) (chunks : List Buffer)
    (chunk : Buffer) :
    accept (some ⟨chunks, seq⟩) (segmentHeader seq false last :: chunk) =
      complete last ⟨chunks ++ [chunk], (seq + 1) &&& transportSeqMask⟩ := by
  unfold accept
  dsimp only
  rw [parseHeader_segmentHeader, hseq]
  simp

theorem accept_first (state : Option ReassemblyState) (hseq : seq &&& transportSeqMask = seq)
    (last : Bool) (chunk : Buffer) :
    accept state (segmentHeader seq true last :: chunk) =
      complete last ⟨[chunk], (seq + 1) &&& transportSeqMask⟩ := by
  unfold accept
  dsimp only
  rw [parseHeader_segmentHeader, hseq]
  simp

variable {appFragment : Buffer} {maxPayload total : ℕ}

theorem take_append_chunk (i : ℕ) :
    appFragment.take (i * maxPayload) ++ (appFragment.drop (i * maxPayload)).take maxPayload =
      appFragment.take ((i + 1) * maxPayload) := by
  rw [Nat.add_mul, Nat.one_mul, List.take_add]

theorem acceptAll_segmentLoop (hlen : appFragment.length ≤ total * maxPayload) {left i : ℕ}
    (hseq : seq &&& transportSeqMask = seq) {chunks : List Buffer}
    (hchunks : chunks.flatten = appFragment.take (i * maxPayload)) (hi : i ≠ 0) (htotal : i + (left + 1) = total) :
    acceptAll (some ⟨chunks, seq⟩) (segmentLoop appFragment maxPayload total (left + 1) i seq) =
      (none, List.replicate left .pending ++ [{ fragment := some appFragment }]) := by
  have hfirst : (i == 0) = false := by simpa using hi
  induction left generalizing i seq chunks with
  | zero =>
    have hlast : (i == total - 1) = true := by
      rw [beq_iff_eq]
      omega
    have hwhole : (chunks ++ [(appFragment.drop (i * maxPayload)).take maxPayload]).flatten = appFragment := by
      rw [List.flatten_append, List.flatten_singleton, hchunks, take_append_chunk]
      apply List.take_of_length_le
      rwa [show i + 1 = total by omega]
    rw [segmentLoop, segmentLoop, hfirst, hlast]
    rw [acceptAll, accept_next hseq, complete, if_pos rfl, hwhole]
    rfl
  | succ left ih =>
    have hlast : (i == total - 1) = false := by
      rw [beq_eq_false_iff_ne]
      omega
    have hmore : (chunks ++ [(appFragment.drop (i * maxPayload)).take maxPayload]).flatten =
        appFragment.take ((i + 1) * maxPayload) := by
      rw [List.flatten_append, List.flatten_singleton, hchunks, take_append_chunk]
    have hrest := ih (mask_mask (seq + 1)) hmore (Nat.succ_ne_zero i) (by omega) (by simp)
    rw [segmentLoop, hfirst, hlast]
    rw [acceptAll, accept_next hseq, complete, if_neg (by simp)]
    dsimp only
    rw [hrest]
    rfl

theorem segmentLoop_length (left i : ℕ) (seq : UInt8) :
    (segmentLoop appFragment maxPayload total left i seq).length = left := by
  induction left generalizing i seq with
  | zero => rfl
  | succ left ih => rw [segmentLoop, List.length_cons, ih]

theorem segmentLoop_bound (left i : ℕ) (seq : UInt8) :
    ∀ seg ∈ segmentLoop appFragment maxPayload total left i seq, 1 ≤ seg.length ∧ seg.length ≤ maxPayload + 1 := by
  induction left generalizing i seq with
  | zero =>
    intro seg hseg
    cases hseg
  | succ left ih =>
    intro seg hseg
    rcases List.mem_cons.mp hseg with rfl | hseg
    · have htake := List.length_take_le maxPayload (appFragment.drop (i * maxPayload))
      rw [List.length_cons]
      omega
    · exact ih _ _ seg hseg

theorem acceptAll_segments (hlen : appFragment.length ≤ total * maxPayload) (htotal : 0 < total)
    (hseq : seq &&& transportSeqMask = seq) (state : Option ReassemblyState) :
    acceptAll state (segmentLoop appFragment maxPayload total total 0 seq) =
      (none, List.replicate (total - 1) .pending ++ [{ fragment := some appFragment }]) := by
  obtain ⟨left, hleft⟩ := Nat.exists_eq_add_one.mpr htotal
  have hrounds : segmentLoop appFragment maxPayload total total 0 seq =
      (segmentHeader seq true (0 == total - 1) :: appFragment.take maxPayload) ::
        segmentLoop appFragment maxPayload total left 1 ((seq + 1) &&& transportSeqMask) := by
    rw [hleft, segmentLoop, Nat.zero_mul, List.drop_zero]
    rfl
  rw [hrounds, acceptAll, accept_first state hseq]
  cases left with
  | zero =>
    have hwhole : [appFragment.take maxPayload].flatten = appFragment := by
      rw [List.flatten_singleton]
      apply List.take_of_length_le
      rwa [hleft, Nat.zero_add, Nat.one_mul] at hlen
    have hlast : (0 == total - 1) = true := by
      rw [hleft]
      rfl
    rw [hlast, complete, if_pos rfl, hwhole, hleft]
    rfl
  | succ left =>
    -- more segments follow, which the loop lemma takes from round 1 on
    have hlast : (0 == total - 1) = false := by
      rw [hleft]
      rfl
    have hchunks : [appFragment.take maxPayload].flatten = appFragment.take (1 * maxPayload) := by
      rw [List.flatten_singleton, Nat.one_mul]
    have hrest := acceptAll_segmentLoop hlen (mask_mask (seq + 1)) hchunks one_ne_zero
      (show 1 + (left + 1) = total by omega)
    rw [hlast, complete, if_neg (by simp)]
    dsimp only
    rw [hrest, hleft]
    rfl

/-- The segments of a fragment, from any sequence number: there is at least one, each fits, and
a reassembler in any state returns the fragment on the last of them. -/
theorem segment_spec (appFragment : Buffer) (startSeq : ℤ) {maxPayload : ℤ} (hmax : 0 < maxPayload) :
    ∃ segments, segment appFragment startSeq maxPayload = .ok segments ∧ segments ≠ [] ∧
      (∀ seg ∈ segments, 1 ≤ seg.length ∧ seg.length ≤ maxPayload.toNat + 1) ∧
      ∀ state, acceptAll state segments =
        (none, List.replicate (segments.length - 1) .pending ++ [{ fragment := some appFragment }]) := by
  have hpos : 0 < maxPayload.toNat := by omega
  have hseq := mask_mask (UInt8.ofInt startSeq)
  unfold segment
  rw [if_neg (by omega)]
  dsimp only
  generalize UInt8.ofInt startSeq &&& transportSeqMask = seq at hseq ⊢
  split_ifs with hempty
  · obtain rfl := List.eq_nil_of_length_eq_zero hempty
    have hheader : transportFir ||| transportFin ||| seq = segmentHeader seq true true := by
      unfold segmentHeader
      rw [hseq, if_pos rfl, if_pos rfl, UInt8.or_comm, UInt8.or_assoc]
    refine ⟨_, rfl, List.cons_ne_nil _ _, by simp, fun state => ?_⟩
    rw [hheader, acceptAll, accept_first state hseq]
    rfl
  · generalize htotal : (appFragment.length + maxPayload.toNat - 1) / maxPayload.toNat = total
    have hround := Nat.div_add_mod (appFragment.length + maxPayload.toNat - 1) maxPayload.toNat
    have hrest := Nat.mod_lt (appFragment.length + maxPayload.toNat - 1) hpos
    rw [htotal] at hround
    have hlen : appFragment.length ≤ total * maxPayload.toNat := by
      rw [Nat.mul_comm]
      omega
    have hsome : 0 < total := by
      rw [Nat.pos_iff_ne_zero]
      rintro rfl
      omega
    refine ⟨_, rfl, ?_, segmentLoop_bound _ _ _, fun state => ?_⟩
    · exact List.ne_nil_of_length_pos (by rwa [segmentLoop_length])
    · rw [acceptAll_segments hlen hsome hseq, segmentLoop_length]

end Reassembly

/-! ### Only genuine fragments -/

namespace TransportReassembler

def segmentHeaderOf (seg : Buffer) : Header := parseHeader (seg.headD 0)

def nextSeqOf (seg : Buffer) : UInt8 := ((segmentHeaderOf seg).seq + 1) &&& transportSeqMask

/-- Segments from a FIR segment up to a last one, with consecutive sequence numbers and no FIR between. -/
inductive FragmentRun : List Buffer → Buffer → Prop
  | first {seg : Buffer} (hfir : (segmentHeaderOf seg).fir = true) : FragmentRun [seg] seg
  | next {run : List Buffer} {last seg : Buffer} (hrun : FragmentRun run last) (hfir : (segmentHeaderOf seg).fir = false)
    (hseq : (segmentHeaderOf seg).seq = nextSeqOf last) : FragmentRun (run ++ [seg]) seg

variable (received : List Buffer)

/-- The last non-empty segments that were received are a run up to a FIN segment, and carry the fragment. -/
def Genuine (fragment : Buffer) : Prop :=
  ∃ before run last, received.filter (· ≠ []) = before ++ run ∧ FragmentRun run last ∧ (segmentHeaderOf last).fin = true ∧
    fragment = (run.map List.tail).flatten

/-- The payloads of the last segments that were received are retained. -/
def Retained (current : ReassemblyState) (last : Buffer) : Prop :=
  ∃ before run, received.filter (· ≠ []) = before ++ run ∧ FragmentRun run last ∧ current.expectedSeq = nextSeqOf last ∧
    current.chunks = run.map List.tail

def Retains (state : Option ReassemblyState) : Prop :=
  ∀ current ∈ state, ∃ last, Retained received current last

variable {received : List Buffer} {state : Option ReassemblyState}

theorem complete_retains {seg : Buffer} {current : ReassemblyState} (h : Retained received current seg) :
    Retains received (complete (segmentHeaderOf seg).fin current).1 ∧
      ∀ fragment, (complete (segmentHeaderOf seg).fin current).2.fragment = some fragment → Genuine received fragment := by
  unfold complete
  split_ifs with hfin
  · refine ⟨fun after hafter => (by cases hafter), fun fragment hfragment => ?_⟩
    obtain rfl := Option.some.inj hfragment
    obtain ⟨before, run, hreceived, hrun, -, hchunks⟩ := h
    exact ⟨before, run, seg, hreceived, hrun, hfin, by rw [hchunks]⟩
  · refine ⟨fun after hafter => ?_, fun fragment hfragment => (by cases hfragment)⟩
    obtain rfl := Option.some.inj hafter
    exact ⟨seg, h⟩

theorem accept_retains (h : Retains received state) (seg : Buffer) : Retains (received ++ [seg]) (accept state seg).1 ∧
    ∀ fragment, (accept state seg).2.fragment = some fragment → Genuine (received ++ [seg]) fragment := by
  have hdropped : Retains (received ++ [seg]) none := fun current hcurrent => by cases hcurrent
  cases seg with
  | nil =>
    refine ⟨fun current hcurrent => ?_, fun fragment hfragment => (by cases hfragment)⟩
    obtain ⟨last, before, run, hreceived, hretained⟩ := h current hcurrent
    have hfilter : (received ++ [[]]).filter (· ≠ []) = received.filter (· ≠ []) := by simp [List.filter_append]
    exact ⟨last, before, run, hfilter.trans hreceived, hretained⟩
  | cons octet payload =>
    have hfilter : (received ++ [octet :: payload]).filter (· ≠ []) = received.filter (· ≠ []) ++ [octet :: payload] := by
      simp [List.filter_append]
    unfold accept
    dsimp only
    split_ifs with hfir
    · exact complete_retains ⟨_, _, hfilter, .first hfir, rfl, rfl⟩
    · cases state with
      | none => exact ⟨hdropped, fun fragment hfragment => (by cases hfragment)⟩
      | some current =>
        dsimp only
        split_ifs with hseq
        · exact ⟨hdropped, fun fragment hfragment => (by cases hfragment)⟩
        · obtain ⟨last, before, run, hreceived, hrun, hexpected, hchunks⟩ := h current rfl
          have hnext : FragmentRun (run ++ [octet :: payload]) (octet :: payload) :=
            hrun.next (Bool.eq_false_of_not_eq_true hfir) ((not_not.mp hseq).trans hexpected)
          refine complete_retains ⟨before, _, ?_, hnext, rfl, ?_⟩
          · rw [hfilter, hreceived, List.append_assoc]
          · simp [hchunks]

theorem acceptAll_append (earlier later : List Buffer) (state : Option ReassemblyState) :
    (acceptAll state (earlier ++ later)).1 = (acceptAll (acceptAll state earlier).1 later).1 := by
  induction earlier generalizing state with
  | nil => rfl
  | cons seg rest ih => exact ih (accept state seg).1

theorem acceptAll_retains (received : List Buffer) : Retains received (acceptAll none received).1 := by
  induction received using List.reverseRecOn with
  | nil => exact fun current hcurrent => by cases hcurrent
  | append_singleton received seg ih =>
    rw [acceptAll_append]
    exact (accept_retains ih seg).1

def Drops (result : ReassembleResult) : Prop := result.fragment.isSome ∨ result.error = some .unexpectedSequence

theorem accept_dropped {seg : Buffer} (h : Drops (accept state seg).2) : (accept state seg).1 = none := by
  revert h
  unfold Drops
  cases seg with
  | nil => simp [accept]
  | cons octet payload =>
    unfold accept complete
    cases state with
    | none | some =>
      dsimp only
      split_ifs <;> simp [ReassembleResult.pending]

end TransportReassembler

end OxScada.Dnp3
