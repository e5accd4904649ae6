import OxScada.Dnp3.FrameReader

/-! The frame reader on an arbitrary byte stream, noise and corrupt headers included. What
it keeps back is either one octet or the beginning of a frame, so a cut of the stream is
only ever postponed and never changes what is read. -/

namespace OxScada.Dnp3
open OxScada.Bytes

theorem parseLinkHeader_take (buf : Buffer) : parseLinkHeader (buf.take headerBytes) = parseLinkHeader buf := by
  rcases buf with _ | ⟨a, _ | ⟨b, _ | ⟨c, _ | ⟨d, _ | ⟨e, _ | ⟨f, _ | ⟨g, _ | ⟨h, _ | ⟨i, _ | ⟨j, rest⟩⟩⟩⟩⟩⟩⟩⟩⟩⟩ <;> rfl

theorem parseLinkHeader_length {header : Dnp3LinkHeader} {buf : Buffer} (h : parseLinkHeader buf = some header) :
    header.length ≤ 255 := by
  unfold parseLinkHeader at h
  split at h
  · split_ifs at h
    obtain rfl := Option.some.inj h
    exact Nat.le_of_lt_succ (UInt8.toNat_lt _)
  · cases h

theorem frameLength_le {header : Dnp3LinkHeader} {buf : Buffer} (h : parseLinkHeader buf = some header) :
    frameLength (header.length - 5) ≤ maxLinkFrameBytes := by
  have hlen := parseLinkHeader_length h
  simp only [maxLinkFrameBytes, frameLength, headerBytes, blockSize]
  omega

namespace Dnp3LinkFrameReader

/-- The header that the reader accepts at the front of its buffer. -/
def headerAt (buf : Buffer) : Option Dnp3LinkHeader :=
  (parseLinkHeader (buf.take headerBytes)).filter fun header => 5 ≤ header.length

theorem headerAt_eq_some {buf : Buffer} {header : Dnp3LinkHeader} :
    headerAt buf = some header ↔ parseLinkHeader (buf.take headerBytes) = some header ∧ 5 ≤ header.length := by
  rw [headerAt, Option.filter_eq_some_iff, decide_eq_true_eq]

/-! ### One round of `drain` -/

variable {r : Dnp3LinkFrameReader} {a : UInt8} {rest : Buffer}

theorem drain_nil (hbuf : r.buffer = []) : drain r = ([], r) := by
  rw [drain, if_pos (by simp [hbuf]), settleShort, if_neg (by simp [hbuf])]

theorem drain_single (hbuf : r.buffer = [a]) :
    drain r = ([], if a = startByte then r else { r with discarded := r.discarded + 1, buffer := [] }) := by
  rw [drain, if_pos (by simp [hbuf]), settleShort]
  by_cases ha : a = startByte
  · rw [if_neg (by simp [hbuf, ha]), if_pos ha]
  · rw [if_pos (by simp [hbuf, ha]), if_neg ha]

theorem skipTo_skipTo (r : Dnp3LinkFrameReader) (m n : ℕ) : (r.skipTo m).skipTo n = r.skipTo (m + n) := by
  simp only [skipTo, List.drop_drop, Nat.add_assoc]

theorem dropNoise_skipTo_one {b : UInt8}
    (hbuf : r.buffer = a :: b :: rest) : (r.skipTo 1).dropNoise = r.dropNoise := by
  have hlast : (a :: b :: rest).getLast? = (b :: rest).getLast? := List.getLast?_cons_cons
  simp only [dropNoise, skipTo, hbuf, List.drop_one, List.tail_cons, hlast]
  generalize hkeep : (if (b :: rest).getLast? = some startByte then 1 else 0) = keep
  have hle : keep ≤ 1 := by
    rw [← hkeep]
    split_ifs <;> omega
  have hcut : (a :: b :: rest).length - keep = ((b :: rest).length - keep) + 1 := by
    simp only [List.length_cons]
    omega
  simp only [mk.injEq, true_and, and_true]
  constructor
  · rw [hcut, List.drop_succ_cons]
  · omega

theorem drain_noise {b : UInt8} (hbuf : r.buffer = a :: b :: rest)
    (hstart : ¬ (a = startByte ∧ b = syncByte)) : drain r = drain (r.skipTo 1) := by
  have hindex : startIndex r.buffer = (startIndex (b :: rest)).map (· + 1) := by
    rw [hbuf, startIndex, if_neg hstart]
  have hskip : (r.skipTo 1).buffer = b :: rest := by
    rw [skipTo, hbuf]
    rfl
  cases rest with
  | nil =>
    rw [drain, if_neg (by simp [hbuf]), hindex, drain_single hskip]
    simp only [startIndex, Option.map_none, dropNoise, hbuf, skipTo]
    by_cases hb : b = startByte
    · simp [hb]
    · simp [hb]
  | cons c rest =>
    rw [drain.eq_1 r, drain.eq_1 (r.skipTo 1), if_neg (by simp [hbuf]), if_neg (by simp [hskip]), hindex,
      hskip]
    rcases startIndex (b :: c :: rest) with _ | start
    · simp only [Option.map_none, dropNoise_skipTo_one hbuf]
    · simp only [Option.map_some, skipTo_skipTo, Nat.add_comm 1]

theorem drain_reject (hbuf : r.buffer = startByte :: syncByte :: rest)
    (hlong : headerBytes ≤ r.buffer.length) (hheader : headerAt r.buffer = none) : drain r = drain r.resync := by
  have hindex : startIndex r.buffer = some 0 := by
    rw [hbuf]
    exact startIndex_start _
  rw [headerAt] at hheader
  rw [drain.eq_1 r, if_neg (by simp [hbuf]), hindex]
  dsimp only
  rw [skipTo_zero, if_neg (by omega), hheader]

theorem drain_wait (hbuf : r.buffer = startByte :: syncByte :: rest)
    (hshort : headerBytes ≤ r.buffer.length →
      ∃ header, headerAt r.buffer = some header ∧ r.buffer.length < frameLength (header.length - 5)) :
    drain r = ([], r) := by
  have hindex : startIndex r.buffer = some 0 := by
    rw [hbuf]
    exact startIndex_start _
  rw [drain.eq_1 r, if_neg (by simp [hbuf]), hindex]
  dsimp only
  rw [skipTo_zero]
  split_ifs with hten
  · rfl
  · obtain ⟨header, hheader, hlen⟩ := hshort (by omega)
    rw [headerAt] at hheader
    rw [hheader]
    dsimp only
    rw [if_pos hlen]

inductive Round (r : Dnp3LinkFrameReader) : Prop
  | empty (hbuf : r.buffer = [])
  | single {a : UInt8} (hbuf : r.buffer = [a])
  | noise {a b : UInt8} {rest : Buffer} (hbuf : r.buffer = a :: b :: rest)
      (hstart : ¬ (a = startByte ∧ b = syncByte))
  | wait {rest : Buffer} (hbuf : r.buffer = startByte :: syncByte :: rest)
      (hshort : headerBytes ≤ r.buffer.length →
        ∃ header, headerAt r.buffer = some header ∧ r.buffer.length < frameLength (header.length - 5))
  | reject {rest : Buffer} (hbuf : r.buffer = startByte :: syncByte :: rest)
      (hlong : headerBytes ≤ r.buffer.length) (hheader : headerAt r.buffer = none)
  | frame {f rest : Buffer} (hf : IsFrame f) (hbuf : r.buffer = f ++ rest)

theorem round (r : Dnp3LinkFrameReader) : Round r := by
  rcases hbuf : r.buffer with _ | ⟨a, _ | ⟨b, rest⟩⟩
  · exact .empty hbuf
  · exact .single hbuf
  · by_cases hstart : a = startByte ∧ b = syncByte
    · obtain ⟨rfl, rfl⟩ := hstart
      by_cases hten : headerBytes ≤ r.buffer.length
      · rcases hheader : headerAt r.buffer with _ | header
        · exact .reject hbuf hten hheader
        · by_cases hlen : r.buffer.length < frameLength (header.length - 5)
          · exact .wait hbuf fun _ => ⟨header, hheader, hlen⟩
          · obtain ⟨hparse, hfive⟩ := headerAt_eq_some.mp hheader
            have hcut : headerBytes ≤ frameLength (header.length - 5) := by
              rw [frameLength]
              omega
            refine .frame ⟨header, ?_, hfive, ?_⟩ (List.take_append_drop (frameLength (header.length - 5)) _).symm
            · rwa [List.take_take, Nat.min_eq_left hcut]
            · rw [List.length_take]
              omega
      · exact .wait hbuf fun h => absurd h hten
    · exact .noise hbuf hstart

/-! ### Cutting the stream -/

theorem drain_append (c : Buffer) (r : Dnp3LinkFrameReader) :
    drain { r with buffer := r.buffer ++ c } =
      let first := drain r
      let later := drain { first.2 with buffer := first.2.buffer ++ c }
      (first.1 ++ later.1, later.2) := by
  induction hn : r.buffer.length using Nat.strong_induction_on generalizing r with
  | _ n ih =>
    rcases round r with hbuf | hbuf | ⟨hbuf, hstart⟩ | ⟨hbuf, hshort⟩ | ⟨hbuf, hlong, hheader⟩ | ⟨hf, hbuf⟩
    · rw [drain_nil hbuf]
      rfl
    · rename_i a
      rw [drain_single hbuf]
      by_cases ha : a = startByte
      · rw [if_pos ha]
        rfl
      · rw [if_neg ha]
        cases c with
        | nil =>
          have hlone : ({ r with buffer := r.buffer ++ [] } : Dnp3LinkFrameReader).buffer = [a] := by
            simp [hbuf]
          have hnone : drain { r with discarded := r.discarded + 1, buffer := ([] : Buffer) ++ [] } =
              ([], { r with discarded := r.discarded + 1, buffer := [] }) := drain_nil rfl
          rw [drain_single hlone, if_neg ha]
          dsimp only
          rw [hnone]
          rfl
        -- the octet that waited alone is the first of two
        | cons b c =>
          have hmore : ({ r with buffer := r.buffer ++ b :: c } : Dnp3LinkFrameReader).buffer = a :: b :: c := by
            simp [hbuf]
          rw [drain_noise hmore fun h => ha h.1]
          simp [skipTo, hbuf]
    · rename_i a b rest
      have hmore : ({ r with buffer := r.buffer ++ c } : Dnp3LinkFrameReader).buffer = a :: b :: (rest ++ c) := by
        simp [hbuf]
      have hskip : ({ r with buffer := r.buffer ++ c } : Dnp3LinkFrameReader).skipTo 1 =
          { r.skipTo 1 with buffer := (r.skipTo 1).buffer ++ c } := by
        simp [skipTo, hbuf]
      rw [drain_noise hmore hstart, drain_noise hbuf hstart, hskip]
      exact ih _ (by simp [skipTo, hbuf] at hn ⊢; omega) (r.skipTo 1) rfl
    · rw [drain_wait hbuf hshort]
      rfl
    · rename_i rest
      have hmore : ({ r with buffer := r.buffer ++ c } : Dnp3LinkFrameReader).buffer =
          startByte :: syncByte :: (rest ++ c) := by
        simp [hbuf]
      -- a header is judged by octets that are there, whatever comes
      have hheader' : headerAt (r.buffer ++ c) = none := by
        rwa [headerAt, List.take_append_of_le_length hlong]
      have hskip : ({ r with buffer := r.buffer ++ c } : Dnp3LinkFrameReader).resync =
          { r.resync with buffer := r.resync.buffer ++ c } := by
        simp [resync, hbuf]
      rw [drain_reject hmore (by simp only [List.length_append]; omega) hheader', drain_reject hbuf hlong hheader,
        hskip]
      exact ih _ (by simp [resync, hbuf] at hn ⊢; omega) r.resync rfl
    · rename_i f rest
      have hpos := hf.headerBytes_le
      have hmore : ({ r with buffer := r.buffer ++ c } : Dnp3LinkFrameReader).buffer = f ++ (rest ++ c) := by
        simp [hbuf]
      have hrest := ih rest.length (by simp [hbuf, headerBytes] at hn hpos ⊢; omega) { r with buffer := rest } rfl
      rw [drain_frame hf hmore, drain_frame hf hbuf]
      simp only at hrest ⊢
      rw [hrest]
      simp

def Settled (r : Dnp3LinkFrameReader) : Prop := drain r = ([], r)

theorem drain_settled (r : Dnp3LinkFrameReader) : Settled (drain r).2 := by
  have hagain : drain r = ((drain r).1 ++ (drain (drain r).2).1, (drain (drain r).2).2) := by
    simpa only [List.append_nil] using drain_append [] r
  have hframes : (drain r).1 = (drain r).1 ++ (drain (drain r).2).1 := congrArg Prod.fst hagain
  have hnone : (drain (drain r).2).1 = [] := List.self_eq_append_right.mp hframes
  exact Prod.ext hnone (congrArg Prod.snd hagain).symm

theorem pushAll_eq_drain {chunks : List Buffer} (hsettled : Settled r)
    (hroom : ∀ result ∈ (pushAll r chunks).1, result.overflow = false) :
    ((pushAll r chunks).1.flatMap (·.frames), (pushAll r chunks).2) =
      drain { r with buffer := r.buffer ++ chunks.flatten } := by
  induction chunks generalizing r with
  | nil =>
    rw [List.flatten_nil, List.append_nil]
    exact hsettled.symm
  | cons chunk chunks ih =>
    have hpush : r.push chunk = (⟨(drain { r with buffer := r.buffer ++ chunk }).1, false⟩,
        (drain { r with buffer := r.buffer ++ chunk }).2) := by
      have hfirst := hroom (r.push chunk).1 (List.mem_cons_self ..)
      rw [push] at hfirst ⊢
      split_ifs with hover
      · rw [if_pos hover] at hfirst
        cases hfirst
      · rfl
    rw [pushAll, hpush] at hroom ⊢
    have hlater := ih (drain_settled _) fun result hresult => hroom result (List.mem_cons_of_mem _ hresult)
    have hcut := drain_append chunks.flatten { r with buffer := r.buffer ++ chunk }
    simp only [List.append_assoc, ← hlater] at hcut
    rw [List.flatten_cons, hcut, List.flatMap_cons]

theorem push_settled (r : Dnp3LinkFrameReader) (chunk : Buffer) : Settled (r.push chunk).2 := by
  rw [push]
  split_ifs
  · exact drain_nil rfl
  · exact drain_settled _

theorem pushAll_settled {chunks : List Buffer} (hsettled : Settled r) :
    Settled (pushAll r chunks).2 := by
  induction chunks generalizing r with
  | nil => exact hsettled
  | cons chunk chunks ih => exact ih (push_settled r chunk)

/-! ### What is handed out and what is kept -/

theorem drain_spec (r : Dnp3LinkFrameReader) :
    (∀ f ∈ (drain r).1, IsFrame f) ∧ (drain r).2.buffer.length < maxLinkFrameBytes := by
  induction hn : r.buffer.length using Nat.strong_induction_on generalizing r with
  | _ n ih =>
    rcases round r with hbuf | hbuf | ⟨hbuf, hstart⟩ | ⟨hbuf, hshort⟩ | ⟨hbuf, hlong, hheader⟩ | ⟨hf, hbuf⟩
    · rw [drain_nil hbuf]
      refine ⟨by simp, ?_⟩
      rw [hbuf]
      exact (by decide : 0 < maxLinkFrameBytes)
    · rw [drain_single hbuf]
      refine ⟨by simp, ?_⟩
      split_ifs
      · rw [hbuf]
        exact (by decide : 1 < maxLinkFrameBytes)
      · exact (by decide : 0 < maxLinkFrameBytes)
    · rw [drain_noise hbuf hstart]
      exact ih _ (by simp [skipTo, hbuf] at hn ⊢; omega) (r.skipTo 1) rfl
    · rw [drain_wait hbuf hshort]
      refine ⟨by simp, ?_⟩
      by_cases hten : headerBytes ≤ r.buffer.length
      · obtain ⟨header, hheader, hlen⟩ := hshort hten
        exact hlen.trans_le (frameLength_le (headerAt_eq_some.mp hheader).1)
      · have hroom : headerBytes ≤ maxLinkFrameBytes := by decide
        dsimp only
        omega
    · rw [drain_reject hbuf hlong hheader]
      exact ih _ (by simp [resync, hbuf] at hn ⊢; omega) r.resync rfl
    · rename_i f rest
      have hpos := hf.headerBytes_le
      obtain ⟨hframes, hkept⟩ := ih rest.length (by simp [hbuf, headerBytes] at hn hpos ⊢; omega)
        { r with buffer := rest } rfl
      rw [drain_frame hf hbuf]
      refine ⟨fun g hg => ?_, hkept⟩
      rcases List.mem_cons.mp hg with rfl | hg
      · exact hf
      · exact hframes g hg

theorem push_frames {chunk f : Buffer} (hf : f ∈ (r.push chunk).1.frames) : IsFrame f := by
  rw [push] at hf
  split_ifs at hf
  · cases hf
  · exact (drain_spec _).1 f hf

theorem push_buffer_length (r : Dnp3LinkFrameReader) (chunk : Buffer) :
    (r.push chunk).2.buffer.length < maxLinkFrameBytes := by
  rw [push]
  split_ifs
  · exact (by decide : 0 < maxLinkFrameBytes)
  · exact (drain_spec _).2

/-- The reader, wherever earlier pushes have left it, reads a stream of octets the same way
however it is cut. -/
theorem pushAll_chunking :
    (∀ maxBufferBytes reader earlier, new maxBufferBytes = .ok reader →
      ∀ chunks chunks' : List Buffer, chunks.flatten = chunks'.flatten →
        let r := (pushAll reader earlier).2
        (∀ result ∈ (pushAll r chunks).1, result.overflow = false) →
        (∀ result ∈ (pushAll r chunks').1, result.overflow = false) →
        (pushAll r chunks).1.flatMap (·.frames) = (pushAll r chunks').1.flatMap (·.frames) ∧
          (pushAll r chunks).2.discarded = (pushAll r chunks').2.discarded ∧
          (pushAll r chunks).2.rejectedHeaders = (pushAll r chunks').2.rejectedHeaders ∧
          (pushAll r chunks).2.buffer = (pushAll r chunks').2.buffer) ∧
      ∀ (r : Dnp3LinkFrameReader) (chunk : Buffer),
        (∀ f ∈ (r.push chunk).1.frames, ∃ header, parseLinkHeader f = some header ∧ 5 ≤ header.length) ∧
          ((r.push chunk).1.overflow = false → (r.push chunk).2.buffer.length < maxLinkFrameBytes) := by
  refine ⟨?_, fun r chunk => ⟨fun f hf => ?_, fun _ => push_buffer_length r chunk⟩⟩
  · intro maxBufferBytes reader earlier hnew chunks chunks' hflat r hroom hroom'
    have hfresh : Settled reader := by
      rw [new] at hnew
      split_ifs at hnew
      obtain rfl := Except.ok.inj hnew
      exact drain_nil rfl
    have hr : Settled r := pushAll_settled hfresh
    have hsame := (pushAll_eq_drain hr hroom).trans (hflat ▸ (pushAll_eq_drain hr hroom').symm)
    have hreader := congrArg Prod.snd hsame
    simp only at hreader
    refine ⟨congrArg Prod.fst hsame, ?_, ?_, ?_⟩ <;> rw [hreader]
  · obtain ⟨header, hparse, hfive, -⟩ := push_frames hf
    exact ⟨header, (parseLinkHeader_take f).symm.trans hparse, hfive⟩

theorem pushAll_chunking_noise :
    let reader : Dnp3LinkFrameReader := { maxBufferBytes := 8192, roomy := by decide }
    new 8192 = .ok reader ∧ (pushAll reader [[0x05], [0x07]]).2.discarded = (pushAll reader [[0x05, 0x07]]).2.discarded := by
  intro reader
  have hlone : drain { reader with buffer := [0x05] } = ([], { reader with buffer := [0x05] }) := by
    rw [drain_single rfl]
    rfl
  have hpair : drain { reader with buffer := [0x05, 0x07] } = ([], { reader with discarded := 2 }) := by
    rw [drain_noise rfl (by decide), drain_single rfl]
    rfl
  have hnew : new 8192 = .ok reader := dif_pos (by decide)
  have hbytewise : ∀ result ∈ (pushAll reader [[0x05], [0x07]]).1, result.overflow = false := by
    simp [pushAll, push, reader, hlone, hpair]
  have hwhole : ∀ result ∈ (pushAll reader [[0x05, 0x07]]).1, result.overflow = false := by
    simp [pushAll, push, reader, hpair]
  exact ⟨hnew, (pushAll_chunking.1 8192 reader [] hnew [[0x05], [0x07]] [[0x05, 0x07]] rfl hbytewise hwhole).2.1⟩

end Dnp3LinkFrameReader

end OxScada.Dnp3
