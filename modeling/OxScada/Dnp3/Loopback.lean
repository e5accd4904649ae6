import OxScada.Dnp3.FrameReader
import OxScada.Dnp3.Transport

/-! What the outstation sends arrives: segmentation, framing, the stream reader, block
extraction and reassembly composed. -/

namespace OxScada.Dnp3
open OxScada.Bytes Dnp3LinkFrameReader TransportReassembler

def unconfirmedUserData : ℕ := 0x4

/-- The link frames of one application fragment, and the next transport sequence number. -/
def sendFragment (masterAddress localAddress : ℕ) (transportSeq : ℤ) (appFragment : Buffer) :
    Except String (ℤ × List Buffer) := do
  let segments ← segment appFragment transportSeq defaultMaxSegmentPayload
  let control := (buildResponseControl unconfirmedUserData false false).toNat
  let frames ← segments.mapM fun seg => buildLinkFrame control masterAddress localAddress seg
  return ((transportSeq + segments.length) % 64, frames)

/-! ### One frame -/

section Frame
variable (control destination source : ℕ) {payload : Buffer}

def linkFrame (payload : Buffer) : Buffer :=
  appendCrc (linkHeader (5 + payload.length) control destination source) ++ crcBlocks payload

def frameHeader (payload : Buffer) : Dnp3LinkHeader :=
  headerOf (UInt8.ofNat (5 + payload.length)) (UInt8.ofNat control) (BitVec.ofNat 16 destination)
    (BitVec.ofNat 16 source)

variable {control destination source}

theorem frameHeader_length (hlen : payload.length ≤ 250) :
    (frameHeader control destination source payload).length = 5 + payload.length := by
  show (UInt8.ofNat (5 + payload.length)).toNat = 5 + payload.length
  rw [UInt8.toNat_ofNat']
  omega

theorem headerBlock_length (length control destination source : ℕ) :
    (appendCrc (linkHeader length control destination source)).length = headerBytes := by
  rw [appendCrc_length, linkHeader_length, headerBytes]

theorem isFrame_linkFrame (hlen : payload.length ≤ 250) :
    IsFrame (linkFrame control destination source payload) := by
  refine ⟨frameHeader control destination source payload, ?_, ?_, ?_⟩
  · rw [linkFrame, List.take_append_of_le_length (headerBlock_length ..).ge,
      List.take_of_length_le (headerBlock_length ..).le]
    have hparse := parseLinkHeader_build (5 + payload.length) control destination source []
    rwa [List.append_nil] at hparse
  · rw [frameHeader_length hlen]
    omega
  · rw [frameHeader_length hlen, linkFrame, List.length_append, headerBlock_length, crcBlocks_length,
      frameLength, Nat.add_sub_cancel_left, Nat.add_assoc]

theorem extractPayload_linkFrame (hlen : payload.length ≤ 250) :
    extractPayload (linkFrame control destination source payload) =
      some (frameHeader control destination source payload, payload) := by
  have hparse := parseLinkHeader_build (5 + payload.length) control destination source (crcBlocks payload)
  have hbody : (linkFrame control destination source payload).drop headerBytes = crcBlocks payload := by
    rw [linkFrame, ← headerBlock_length (5 + payload.length) control destination source, List.drop_left]
  have hblocks := extractBlocks_crcBlocks payload []
  rw [List.append_nil] at hblocks
  have hheader : parseLinkHeader (linkFrame control destination source payload) =
      some (frameHeader control destination source payload) := hparse
  rw [extractPayload, hheader]
  dsimp only
  rw [frameHeader_length hlen, if_neg (by omega), hbody, Nat.add_sub_cancel_left, hblocks, Option.map_some]

end Frame

/-! ### All frames of a fragment -/

theorem mapM_eq_pure {m : Type → Type} [Monad m] [LawfulMonad m] {α β : Type} {f : α → m β} {g : α → β}
    {l : List α} (h : ∀ x ∈ l, f x = pure (g x)) : l.mapM f = pure (l.map g) := by
  induction l with
  | nil => rfl
  | cons x l ih =>
    rw [List.mapM_cons, h x (List.mem_cons_self ..), pure_bind,
      ih fun y hy => h y (List.mem_cons_of_mem x hy), pure_bind, List.map_cons]

/-- Every fragment can be sent, and arrives: however the octets of its frames are cut into
chunks that the reader has room for, the reader hands out the frames, all of them yield
their segments, and the reassembler answers the last segment, and only that one, with the
fragment. -/
theorem sendFragment_received (appFragment : Buffer) (transportSeq : ℤ) (masterAddress localAddress : ℕ)
    {maxBufferBytes : ℕ} {reader : Dnp3LinkFrameReader} (hnew : Dnp3LinkFrameReader.new maxBufferBytes = .ok reader)
    (state : Option ReassemblyState) :
    ∃ segments frames, segment appFragment transportSeq defaultMaxSegmentPayload = .ok segments ∧
      sendFragment masterAddress localAddress transportSeq appFragment =
        .ok ((transportSeq + segments.length) % 64, frames) ∧
      ∀ chunks : List Buffer, chunks.flatten = frames.flatten →
        (∀ result ∈ (reader.pushAll chunks).1, result.overflow = false) →
        (reader.pushAll chunks).1.flatMap (·.frames) = frames ∧
        frames.mapM (fun frame => (extractPayload frame).map Prod.snd) = some segments ∧
        (acceptAll state segments).2 =
          List.replicate (segments.length - 1) .pending ++ [{ fragment := some appFragment }] := by
  have hfresh : reader.buffer = [] := by
    unfold Dnp3LinkFrameReader.new at hnew
    split_ifs at hnew
    rw [← Except.ok.inj hnew]
  obtain ⟨segments, hsegment, hsome, hfit, haccept⟩ :=
    segment_spec appFragment transportSeq (show 0 < defaultMaxSegmentPayload by decide)
  have hshort : ∀ seg ∈ segments, seg.length ≤ 250 := fun seg hseg => (hfit seg hseg).2
  set control := (buildResponseControl unconfirmedUserData false false).toNat with hcontrol
  set frame := linkFrame control masterAddress localAddress with hframe
  have hbuild : segments.mapM (fun seg => buildLinkFrame control masterAddress localAddress seg) =
      .ok (segments.map frame) := mapM_eq_pure fun seg hseg => buildLinkFrame_ok (hshort seg hseg)
  have hframes : ∀ f ∈ segments.map frame, IsFrame f := by
    intro f hf
    obtain ⟨seg, hseg, rfl⟩ := List.mem_map.mp hf
    exact isFrame_linkFrame (hshort seg hseg)
  refine ⟨segments, segments.map frame, hsegment, ?_, fun chunks hchunks hroom => ⟨?_, ?_, ?_⟩⟩
  · unfold sendFragment
    rw [hsegment]
    show (segments.mapM (fun seg => buildLinkFrame control masterAddress localAddress seg) >>= fun frames =>
      pure ((transportSeq + segments.length) % 64, frames)) = _
    rw [hbuild]
    rfl
  · have hend : chunks.flatten = [] → segments.map frame = [] := by
      intro hnil
      obtain ⟨seg, hseg⟩ := List.exists_mem_of_ne_nil segments hsome
      have hblank := List.flatten_eq_nil_iff.mp (hchunks.symm.trans hnil) _ (List.mem_map_of_mem hseg)
      have hten := (hframes _ (List.mem_map_of_mem hseg)).headerBytes_le
      rw [hblank] at hten
      exact absurd hten (by decide)
    exact (pushAll_stream hframes (by rw [hfresh, hchunks, List.nil_append]) hend hroom).1
  · rw [List.mapM_map]
    have hextract : segments.mapM (fun seg => (extractPayload (frame seg)).map Prod.snd) =
        pure (segments.map id) := by
      apply mapM_eq_pure
      intro seg hseg
      rw [hframe, extractPayload_linkFrame (hshort seg hseg)]
      rfl
    rw [List.map_id] at hextract
    exact hextract
  · rw [haccept state]

theorem sendFragment_received_confirm :
    ∃ reader segments frames, Dnp3LinkFrameReader.new 8192 = .ok reader ∧
      segment [0xc0, 0x00] 63 defaultMaxSegmentPayload = .ok segments ∧
      sendFragment 1 10 63 [0xc0, 0x00] = .ok ((63 + segments.length) % 64, frames) ∧
      ∀ chunks : List Buffer, chunks.flatten = frames.flatten →
        (∀ result ∈ (reader.pushAll chunks).1, result.overflow = false) →
        (reader.pushAll chunks).1.flatMap (·.frames) = frames ∧
        frames.mapM (fun frame => (extractPayload frame).map Prod.snd) = some segments ∧
        (acceptAll (some ⟨[[0x01]], 7⟩) segments).2 =
          List.replicate (segments.length - 1) .pending ++ [{ fragment := some [0xc0, 0x00] }] := by
  have hnew : Dnp3LinkFrameReader.new 8192 = .ok { maxBufferBytes := 8192, roomy := by decide } := rfl
  obtain ⟨segments, frames, hreceived⟩ :=
    sendFragment_received [0xc0, 0x00] 63 1 10 hnew (some ⟨[[0x01]], 7⟩)
  exact ⟨_, segments, frames, hnew, hreceived⟩

end OxScada.Dnp3
