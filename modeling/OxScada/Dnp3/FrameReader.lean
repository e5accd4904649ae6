import OxScada.Dnp3.LinkLayer

/-! The reader that recovers link frames from a TCP byte stream. -/

namespace OxScada.Dnp3
open OxScada.Bytes

def maxLinkFrameBytes : ℕ := frameLength 250

/-- The reader is only ever built with room for one frame of maximum size. -/
structure Dnp3LinkFrameReader where
  maxBufferBytes : ℕ
  buffer : Buffer := []
  discarded : ℕ := 0
  rejectedHeaders : ℕ := 0
  roomy : maxLinkFrameBytes ≤ maxBufferBytes

structure FrameReadResult where
  frames : List Buffer
  overflow : Bool
  deriving DecidableEq, Repr

def startIndex : Buffer → Option ℕ
  | [] => none
  | [_] => none
  | first :: second :: rest =>
    if first = startByte ∧ second = syncByte then some 0 else (startIndex (second :: rest)).map (· + 1)

namespace Dnp3LinkFrameReader

def new (maxBufferBytes : ℕ) : Except String Dnp3LinkFrameReader :=
  if h : maxLinkFrameBytes ≤ maxBufferBytes then .ok { maxBufferBytes, roomy := h }
  else
    .error (s!"DNP3 receive buffer bound {maxBufferBytes} is smaller than one maximum " ++
      s!"link frame ({maxLinkFrameBytes}); it could never accept a full frame")

variable (r : Dnp3LinkFrameReader)

/-- Fewer than two octets: a lone first start octet is kept. -/
def settleShort : Dnp3LinkFrameReader :=
  if r.buffer.length = 1 ∧ r.buffer.head? ≠ some startByte then
    { r with discarded := r.discarded + 1, buffer := [] }
  else r

/-- No start pattern: only a trailing first start octet is kept. -/
def dropNoise : Dnp3LinkFrameReader :=
  let keep := if r.buffer.getLast? = some startByte then 1 else 0
  { r with
    discarded := r.discarded + (r.buffer.length - keep)
    buffer := r.buffer.drop (r.buffer.length - keep) }

def skipTo (start : ℕ) (r : Dnp3LinkFrameReader) : Dnp3LinkFrameReader :=
  { r with discarded := r.discarded + start, buffer := r.buffer.drop start }

def resync : Dnp3LinkFrameReader :=
  { r with
    rejectedHeaders := r.rejectedHeaders + 1
    discarded := r.discarded + 2
    buffer := r.buffer.drop 2 }

def drain (r : Dnp3LinkFrameReader) : List Buffer × Dnp3LinkFrameReader :=
  if r.buffer.length < 2 then ([], r.settleShort)
  else
    match startIndex r.buffer with
    | none => ([], r.dropNoise)
    | some start =>
      let r' := r.skipTo start
      if r'.buffer.length < headerBytes then ([], r')
      else
        match (parseLinkHeader (r'.buffer.take headerBytes)).filter fun header => 5 ≤ header.length with
        -- a start pattern without a header behind it: the search goes on after it
        | none => drain r'.resync
        | some header =>
          let total := frameLength (header.length - 5)
          if r'.buffer.length < total then ([], r')
          else
            let later := drain { r' with buffer := r'.buffer.drop total }
            (r'.buffer.take total :: later.1, later.2)
termination_by r.buffer.length
decreasing_by
  all_goals
    simp only [skipTo, resync, List.length_drop, headerBytes, frameLength] at *
    omega

def push (chunk : Buffer) : FrameReadResult × Dnp3LinkFrameReader :=
  if r.maxBufferBytes < r.buffer.length + chunk.length then (⟨[], true⟩, { r with buffer := [] })
  else
    let drained := drain { r with buffer := r.buffer ++ chunk }
    (⟨drained.1, false⟩, drained.2)

def pushAll (r : Dnp3LinkFrameReader) : List Buffer → List FrameReadResult × Dnp3LinkFrameReader
  | [] => ([], r)
  | chunk :: rest =>
    let first := r.push chunk
    let later := pushAll first.2 rest
    (first.1 :: later.1, later.2)

/-! ### A stream of complete frames -/

def IsFrame (f : Buffer) : Prop :=
  ∃ header, parseLinkHeader (f.take headerBytes) = some header ∧ 5 ≤ header.length ∧
    f.length = frameLength (header.length - 5)

theorem parseLinkHeader_start {buf : Buffer} {header : Dnp3LinkHeader} (h : parseLinkHeader buf = some header) :
    ∃ rest, buf = startByte :: syncByte :: rest := by
  unfold parseLinkHeader at h
  split at h
  · split_ifs at h with hstart hcrc
    simp only [not_or, not_not] at hstart
    obtain ⟨rfl, rfl⟩ := hstart
    exact ⟨_, rfl⟩
  · cases h

variable {f : Buffer} {r : Dnp3LinkFrameReader}

theorem IsFrame.headerBytes_le (hf : IsFrame f) : headerBytes ≤ f.length := by
  obtain ⟨header, -, -, hlen⟩ := hf
  rw [hlen, frameLength]
  omega

theorem IsFrame.start (hf : IsFrame f) : ∃ rest, f = startByte :: syncByte :: rest := by
  obtain ⟨header, hparse, -, -⟩ := hf
  obtain ⟨rest, hrest⟩ := parseLinkHeader_start hparse
  refine ⟨rest ++ f.drop headerBytes, ?_⟩
  rw [← List.cons_append, ← List.cons_append, ← hrest, List.take_append_drop]

theorem startIndex_start (rest : Buffer) : startIndex (startByte :: syncByte :: rest) = some 0 := by
  rw [startIndex, if_pos ⟨rfl, rfl⟩]

theorem skipTo_zero (r : Dnp3LinkFrameReader) : r.skipTo 0 = r := rfl

theorem drain_frame {rest : Buffer} (hf : IsFrame f)
    (hbuf : r.buffer = f ++ rest) :
    drain r = (f :: (drain { r with buffer := rest }).1, (drain { r with buffer := rest }).2) := by
  have hten := hf.headerBytes_le
  obtain ⟨tail, htail⟩ := hf.start
  obtain ⟨header, hparse, hfive, hlen⟩ := hf
  have hlong : f.length ≤ r.buffer.length := by
    rw [hbuf, List.length_append]
    omega
  have hindex : startIndex r.buffer = some 0 := by
    rw [hbuf, htail]
    exact startIndex_start _
  have hhead : (parseLinkHeader (r.buffer.take headerBytes)).filter (fun header => 5 ≤ header.length) =
      some header := by
    rw [hbuf, List.take_append_of_le_length hten, hparse]
    simp [hfive]
  rw [drain, if_neg (by simp only [headerBytes] at hten; omega), hindex]
  dsimp only
  rw [skipTo_zero, if_neg (by omega), hhead]
  dsimp only
  rw [if_neg (by omega), ← hlen, hbuf, List.take_left, List.drop_left]

theorem drain_incomplete (hf : IsFrame f) (hpre : r.buffer <+: f)
    (hshort : r.buffer.length < f.length) : drain r = ([], r) := by
  obtain ⟨tail, htail⟩ := hf.start
  obtain ⟨header, hparse, hfive, hlen⟩ := hf
  rcases hbuf : r.buffer with _ | ⟨first, _ | ⟨second, rest⟩⟩
  · rw [drain, if_pos (by simp [hbuf]), settleShort, if_neg (by simp [hbuf])]
  · -- a lone octet is the first start octet
    rw [hbuf, htail] at hpre
    obtain ⟨rfl, -⟩ := List.cons_prefix_cons.mp hpre
    rw [drain, if_pos (by simp [hbuf]), settleShort, if_neg (by simp [hbuf])]
  · rw [hbuf, htail] at hpre
    obtain ⟨rfl, hpre'⟩ := List.cons_prefix_cons.mp hpre
    obtain ⟨rfl, -⟩ := List.cons_prefix_cons.mp hpre'
    rw [← htail, ← hbuf] at hpre
    have hindex : startIndex r.buffer = some 0 := by
      rw [hbuf]
      exact startIndex_start _
    rw [drain, if_neg (by simp [hbuf]), hindex]
    dsimp only
    rw [skipTo_zero]
    split_ifs with hten
    · rfl
    · have htake : r.buffer.take headerBytes = f.take headerBytes := by
        obtain ⟨more, hmore⟩ := hpre
        rw [← hmore, List.take_append_of_le_length (by omega)]
      rw [htake, hparse, Option.filter_some, if_pos (by simpa using hfive)]
      dsimp only
      rw [if_pos (by omega)]

/-- From a stream of frames, received up to `rest`, the complete ones are handed out and
nothing is discarded. -/
theorem drain_stream {frames : List Buffer} (hframes : ∀ f ∈ frames, IsFrame f)
    {rest : Buffer} (hstream : r.buffer ++ rest = frames.flatten) :
    ∃ done todo b, frames = done ++ todo ∧ drain r = (done, { r with buffer := b }) ∧
      b ++ rest = todo.flatten ∧ (rest = [] → todo = []) := by
  induction frames generalizing r with
  | nil =>
    obtain ⟨hbuf, rfl⟩ := List.append_eq_nil_iff.mp hstream
    refine ⟨[], [], [], rfl, ?_, rfl, fun _ => rfl⟩
    rw [drain, if_pos (by simp [hbuf]), settleShort, if_neg (by simp [hbuf]), ← hbuf]
  | cons f frames ih =>
    have hf := hframes f (List.mem_cons_self ..)
    rw [List.flatten_cons] at hstream
    -- either the buffer ends inside `f`, or `f` is handed out and the rest is a shorter stream
    by_cases hshort : r.buffer.length < f.length
    · have hpre : r.buffer <+: f :=
        List.prefix_of_prefix_length_le ⟨rest, hstream⟩ (List.prefix_append f frames.flatten) hshort.le
      refine ⟨[], f :: frames, r.buffer, rfl, drain_incomplete hf hpre hshort, hstream, ?_⟩
      rintro rfl
      have hlength := congrArg List.length hstream
      simp only [List.append_nil, List.length_append] at hlength
      omega
    · obtain ⟨more, hmore⟩ : f <+: r.buffer :=
        List.prefix_of_prefix_length_le ⟨frames.flatten, hstream.symm⟩ (List.prefix_append r.buffer rest)
          (Nat.le_of_not_lt hshort)
      have hrest : more ++ rest = frames.flatten := by
        rw [← hmore, List.append_assoc] at hstream
        exact List.append_cancel_left hstream
      obtain ⟨done, todo, b, hsplit, hdrain, hleft, hend⟩ :=
        ih (fun g hg => hframes g (List.mem_cons_of_mem f hg)) (r := { r with buffer := more }) hrest
      refine ⟨f :: done, todo, b, by rw [hsplit, List.cons_append], ?_, hleft, hend⟩
      rw [drain_frame hf hmore.symm, hdrain]

theorem pushAll_stream {chunks : List Buffer} {frames : List Buffer} (hframes : ∀ f ∈ frames, IsFrame f)
    (hstream : r.buffer ++ chunks.flatten = frames.flatten)
    (hend : chunks.flatten = [] → frames = [])
    (hroom : ∀ result ∈ (pushAll r chunks).1, result.overflow = false) :
    (pushAll r chunks).1.flatMap (·.frames) = frames ∧ (pushAll r chunks).2 = { r with buffer := [] } := by
  induction chunks generalizing r frames with
  | nil =>
    obtain rfl := hend rfl
    have hbuf : r.buffer = [] := (List.append_eq_nil_iff.mp hstream).1
    rw [← hbuf]
    exact ⟨rfl, rfl⟩
  | cons chunk chunks ih =>
    have hfits : ¬ r.maxBufferBytes < r.buffer.length + chunk.length := by
      intro hover
      have hfirst := hroom (r.push chunk).1 (List.mem_cons_self ..)
      rw [push, if_pos hover] at hfirst
      cases hfirst
    have hpush : r.push chunk = (⟨(drain { r with buffer := r.buffer ++ chunk }).1, false⟩,
        (drain { r with buffer := r.buffer ++ chunk }).2) := by
      rw [push, if_neg hfits]
    have hreceived : (r.buffer ++ chunk) ++ chunks.flatten = frames.flatten := by
      rw [List.append_assoc, ← hstream, List.flatten_cons]
    obtain ⟨done, todo, b, hsplit, hdrain, hleft, hlast⟩ :=
      drain_stream hframes (r := { r with buffer := r.buffer ++ chunk }) hreceived
    rw [hdrain] at hpush
    subst hsplit
    rw [pushAll, hpush] at hroom ⊢
    have hlater := ih (fun f hf => hframes f (List.mem_append_right done hf)) (r := { r with buffer := b })
      hleft hlast (fun result hresult => hroom result (List.mem_cons_of_mem _ hresult))
    refine ⟨?_, hlater.2⟩
    rw [List.flatMap_cons, hlater.1]

end Dnp3LinkFrameReader

end OxScada.Dnp3
