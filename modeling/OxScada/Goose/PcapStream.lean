import OxScada.Goose.Pcap

/-! The decoder of a capture that arrives in chunks. What the chunks decode to is what the whole file is
parsed as, as long as the bounds of the decoder leave room for a header and for every record. -/

namespace OxScada.Goose
open OxScada.Bytes

structure StreamedPcapPacket extends PcapPacket where
  index : ℕ
  truncated : Bool
  deriving DecidableEq

structure PcapStreamDecoderOptions where
  maxRecordBytes : ℕ := 262144
  maxBufferedBytes : ℕ := 8 * 1024 * 1024

structure PcapStreamDecoder where
  pending : Buffer := []
  header : Option PcapGlobalHeader := none
  packetIndex : ℕ := 0
  totalBytes : ℕ := 0
  failure : Option PcapError := none
  deriving DecidableEq

def PcapPacket.streamed (packet : PcapPacket) (index : ℕ) : StreamedPcapPacket :=
  ⟨packet, index, packet.capturedLength < packet.originalLength⟩

namespace PcapStreamDecoder
variable (options : PcapStreamDecoderOptions)

def create : Except PcapError PcapStreamDecoder :=
  if options.maxRecordBytes = 0 then .error (.malformed s!"maxRecordBytes must be > 0, got {options.maxRecordBytes}")
  else if options.maxBufferedBytes = 0 then .error (.malformed s!"maxBufferedBytes must be > 0, got {options.maxBufferedBytes}")
  else .ok {}

/-- The rounds of the loop of `drain`. What was decoded before an error stays decoded. -/
def drain (d : PcapStreamDecoder) : PcapStreamDecoder × Except PcapError (List StreamedPcapPacket) :=
  match d.header with
  | none =>
    if d.pending.length < pcapGlobalHeaderLength then (d, .ok [])
    else
      match readPcapGlobalHeader (d.pending.take pcapGlobalHeaderLength) with
      | .error e => (d, .error e)
      | .ok header => drain { d with header := some header, pending := d.pending.drop pcapGlobalHeaderLength }
  | some header =>
    if d.pending.length < pcapRecordHeaderLength then (d, .ok [])
    else
      match decodePcapRecordHeader d.pending 0 header d.packetIndex with
      | .error e => (d, .error e)
      | .ok record =>
        if options.maxRecordBytes < record.capturedLength then
          (d, .error (.overflow (s!"packet {d.packetIndex}: incl_len {record.capturedLength} exceeds the " ++
            s!"{options.maxRecordBytes}-byte record limit — the stream is corrupt or the " ++
            "capture tool ignored the configured snapshot length")))
        else if d.pending.length < pcapRecordHeaderLength + record.capturedLength then (d, .ok [])
        else
          let packet : PcapPacket := ⟨record, field d.pending pcapRecordHeaderLength record.capturedLength⟩
          let (after, rest) := drain { d with
            packetIndex := d.packetIndex + 1, pending := d.pending.drop (pcapRecordHeaderLength + record.capturedLength) }
          (after, rest.map (packet.streamed d.packetIndex :: ·))
termination_by d.pending.length
decreasing_by
  · simp only [List.length_drop]
    unfold pcapGlobalHeaderLength at *
    omega
  · simp only [List.length_drop]
    unfold pcapRecordHeaderLength at *
    omega

variable (d : PcapStreamDecoder)

def fail (e : PcapError) : PcapStreamDecoder :=
  if d.failure.isSome then d else { d with failure := some e, pending := [] }

def push (chunk : Buffer) : PcapStreamDecoder × Except PcapError (List StreamedPcapPacket) :=
  match d.failure with
  | some e => (d, .error e)
  | none =>
    match drain options { d with totalBytes := d.totalBytes + chunk.length, pending := d.pending ++ chunk } with
    | (d, .error e) => (d.fail e, .error e)
    | (d, .ok packets) =>
      if options.maxBufferedBytes < d.pending.length then
        let e : PcapError := .overflow (s!"pcap stream buffered {d.pending.length} undecodable bytes, " ++
          s!"over the {options.maxBufferedBytes}-byte limit")
        (d.fail e, .error e)
      else (d, .ok packets)

def finish : PcapStreamDecoder × Except PcapError Unit :=
  match d.failure with
  | some e => (d, .error e)
  | none =>
    if d.header.isNone then
      let e : PcapError := .malformed (if d.totalBytes = 0 then "pcap stream ended without producing any output"
        else s!"pcap stream ended after {d.totalBytes} bytes, before the " ++
          s!"{pcapGlobalHeaderLength}-byte global header was complete")
      (d.fail e, .error e)
    else if 0 < d.pending.length then
      let e : PcapError := .malformed (s!"pcap stream ended mid-record: {d.pending.length} trailing bytes after " ++
        s!"{d.packetIndex} complete packet(s)")
      (d.fail e, .error e)
    else (d, .ok ())

def pushAll (d : PcapStreamDecoder) : List Buffer → PcapStreamDecoder × Except PcapError (List StreamedPcapPacket)
  | [] => (d, .ok [])
  | chunk :: chunks =>
    match d.push options chunk with
    | (d, .error e) => ((pushAll d chunks).1, .error e)
    | (d, .ok packets) =>
      let (after, rest) := pushAll d chunks
      (after, rest.map (packets ++ ·))

/-- What a decoder makes of some chunks and the end: the header and the packets, or the first error. -/
def decodeStream (chunks : List Buffer) : Except PcapError (Option PcapGlobalHeader × List StreamedPcapPacket) :=
  match d.pushAll options chunks with
  | (_, .error e) => .error e
  | (d, .ok packets) => d.finish.2.map fun _ => (d.header, packets)

end PcapStreamDecoder

/-! ### What is left of a file -/

def streamedFrom (index : ℕ) : List PcapPacket → List StreamedPcapPacket
  | [] => []
  | packet :: packets => packet.streamed index :: streamedFrom (index + 1) packets

/-- The packets of some bytes that are whole records, the first of them the one at `index`. -/
def recordsOf (header : PcapGlobalHeader) (index : ℕ) (buf : Buffer) : Option (List StreamedPcapPacket) :=
  if buf = [] then some []
  else if buf.length < pcapRecordHeaderLength then none
  else
    match decodePcapRecordHeader buf 0 header index with
    | .error _ => none
    | .ok record =>
      if buf.length < pcapRecordHeaderLength + record.capturedLength then none
      else
        let packet : PcapPacket := ⟨record, field buf pcapRecordHeaderLength record.capturedLength⟩
        (recordsOf header (index + 1) (buf.drop (pcapRecordHeaderLength + record.capturedLength))).map (packet.streamed index :: ·)
termination_by buf.length
decreasing_by
  simp only [List.length_drop]
  unfold pcapRecordHeaderLength at *
  omega

/-- The header and the packets of a whole file, the first of them at `index`. -/
def fileOf (index : ℕ) (buf : Buffer) : Option (PcapGlobalHeader × List StreamedPcapPacket) :=
  (readPcapGlobalHeader buf).toOption.bind fun header =>
    (recordsOf header index (buf.drop pcapGlobalHeaderLength)).map fun packets => (header, packets)

variable {buf : Buffer} {header : PcapGlobalHeader} {record : PcapRecordHeader} {index offset : ℕ} {options : PcapStreamDecoderOptions}
  {d after : PcapStreamDecoder} {packets : List StreamedPcapPacket}

theorem recordsOf_short (hsome : buf ≠ []) (hshort : buf.length < pcapRecordHeaderLength) : recordsOf header index buf = none := by
  rw [recordsOf, if_neg hsome, if_pos hshort]

theorem recordsOf_error (hlong : pcapRecordHeaderLength ≤ buf.length) {e : PcapError}
    (hrecord : decodePcapRecordHeader buf 0 header index = .error e) : recordsOf header index buf = none := by
  have hsome : buf ≠ [] := List.ne_nil_of_length_pos (lt_of_lt_of_le (by decide) hlong)
  rw [recordsOf, if_neg hsome, if_neg (not_lt.mpr hlong), hrecord]

theorem recordsOf_record (hlong : pcapRecordHeaderLength ≤ buf.length) (hrecord : decodePcapRecordHeader buf 0 header index = .ok record) :
    recordsOf header index buf =
      if buf.length < pcapRecordHeaderLength + record.capturedLength then none
      else (recordsOf header (index + 1) (buf.drop (pcapRecordHeaderLength + record.capturedLength))).map
        (PcapPacket.streamed ⟨record, field buf pcapRecordHeaderLength record.capturedLength⟩ index :: ·) := by
  have hsome : buf ≠ [] := List.ne_nil_of_length_pos (lt_of_lt_of_le (by decide) hlong)
  rw [recordsOf, if_neg hsome, if_neg (not_lt.mpr hlong), hrecord]

theorem parseRecords_toOption (hle : offset ≤ buf.length) :
    (parseRecords buf header offset index).toOption.map (streamedFrom index) = recordsOf header index (buf.drop offset) := by
  induction hrest : buf.length - offset using Nat.strong_induction_on generalizing offset index with
  | _ rest ih =>
    have hlength : (buf.drop offset).length = buf.length - offset := List.length_drop
    rw [parseRecords]
    by_cases hmore : offset < buf.length
    · rw [if_pos hmore]
      by_cases hshort : buf.length < offset + pcapRecordHeaderLength
      · have hsome : buf.drop offset ≠ [] := List.ne_nil_of_length_pos (by omega)
        rw [if_pos hshort, recordsOf_short hsome (by omega)]
        rfl
      · have hlong : pcapRecordHeaderLength ≤ (buf.drop offset).length := by omega
        rw [if_neg hshort]
        have hdrop := decodePcapRecordHeader_drop buf offset header index
        cases hrecord : decodePcapRecordHeader buf offset header index with
        | error e =>
          rw [recordsOf_error hlong (hdrop.trans hrecord)]
          rfl
        | ok record =>
          rw [recordsOf_record hlong (hdrop.trans hrecord), hlength]
          dsimp only
          by_cases htruncated : buf.length < offset + pcapRecordHeaderLength + record.capturedLength
          · rw [if_pos htruncated, if_pos (by omega)]
            rfl
          · rw [if_neg htruncated, if_neg (by omega), List.drop_drop, field_drop]
            have hsmaller : buf.length - (offset + pcapRecordHeaderLength + record.capturedLength) < rest := by
              unfold pcapRecordHeaderLength at *
              omega
            have hnext := @ih _ hsmaller (index + 1) (offset + pcapRecordHeaderLength + record.capturedLength) (not_lt.mp htruncated) rfl
            rw [← Nat.add_assoc, ← hnext]
            cases parseRecords buf header (offset + pcapRecordHeaderLength + record.capturedLength) (index + 1) <;> rfl
    · have hnil : buf.drop offset = [] := List.drop_eq_nil_of_le (not_lt.mp hmore)
      rw [if_neg hmore, hnil, recordsOf, if_pos rfl]
      rfl

theorem parsePcap_toOption (buf : Buffer) :
    (parsePcap buf).toOption.map (fun file => (file.header, streamedFrom 0 file.packets)) = fileOf 0 buf := by
  unfold parsePcap fileOf
  cases hheader : readPcapGlobalHeader buf with
  | error e => rfl
  | ok header =>
    have hlong : pcapGlobalHeaderLength ≤ buf.length := by
      by_contra hshort
      rw [readPcapGlobalHeader, if_pos (not_le.mp hshort)] at hheader
      cases hheader
    have hrecords : (parseRecords buf header pcapGlobalHeaderLength 0).toOption.map (streamedFrom 0) =
        recordsOf header 0 (buf.drop pcapGlobalHeaderLength) := parseRecords_toOption hlong
    show ((parseRecords buf header pcapGlobalHeaderLength 0).map fun packets => (⟨header, packets⟩ : PcapFile)).toOption.map _ =
      (recordsOf header 0 (buf.drop pcapGlobalHeaderLength)).map fun packets => (header, packets)
    rw [← hrecords]
    cases parseRecords buf header pcapGlobalHeaderLength 0 <;> rfl

/-! ### What a decoder has left to do -/

/-- What the bytes that a decoder holds, and those to come, are the rest of. -/
def PcapStreamDecoder.remaining (d : PcapStreamDecoder) (later : Buffer) : Option (PcapGlobalHeader × List StreamedPcapPacket) :=
  match d.header with
  | none => fileOf d.packetIndex (d.pending ++ later)
  | some header => (recordsOf header d.packetIndex (d.pending ++ later)).map fun packets => (header, packets)

/-- The decoder waits for more bytes than it holds, and these are within a header or a record. -/
structure PcapStreamDecoder.Waits (options : PcapStreamDecoderOptions) (d : PcapStreamDecoder) : Prop where
  incomplete : d.pending ≠ [] ∨ d.header = none → d.remaining [] = none
  bounded : d.pending.length < pcapGlobalHeaderLength ∨ d.pending.length < pcapRecordHeaderLength + options.maxRecordBytes

def WithinRecords (options : PcapStreamDecoderOptions) (file : PcapGlobalHeader × List StreamedPcapPacket) : Prop :=
  ∀ packet ∈ file.2, packet.capturedLength ≤ options.maxRecordBytes

theorem fileOf_header (hlong : pcapGlobalHeaderLength ≤ buf.length) (later : Buffer) (index : ℕ) :
    fileOf index (buf ++ later) = (readPcapGlobalHeader (buf.take pcapGlobalHeaderLength)).toOption.bind fun header =>
      (recordsOf header index (buf.drop pcapGlobalHeaderLength ++ later)).map fun packets => (header, packets) := by
  have hwhole : pcapGlobalHeaderLength ≤ (buf ++ later).length := by
    rw [List.length_append]
    omega
  rw [fileOf, ← readPcapGlobalHeader_take hwhole, List.take_append_of_le_length hlong, List.drop_append_of_le_length hlong]

theorem fileOf_short (hshort : buf.length < pcapGlobalHeaderLength) : fileOf index buf = none := by
  rw [fileOf, readPcapGlobalHeader, if_pos hshort]
  rfl

theorem recordsOf_append (hlong : pcapRecordHeaderLength ≤ buf.length) (hrecord : decodePcapRecordHeader buf 0 header index = .ok record)
    (hwhole : pcapRecordHeaderLength + record.capturedLength ≤ buf.length) (later : Buffer) :
    recordsOf header index (buf ++ later) =
      (recordsOf header (index + 1) (buf.drop (pcapRecordHeaderLength + record.capturedLength) ++ later)).map
        (PcapPacket.streamed ⟨record, field buf pcapRecordHeaderLength record.capturedLength⟩ index :: ·) := by
  have hlong' : pcapRecordHeaderLength ≤ (buf ++ later).length := by
    rw [List.length_append]
    omega
  have hsame := decodePcapRecordHeader_append hlong later header index
  rw [recordsOf_record hlong' (hsame.trans hrecord), if_neg (by rw [List.length_append]; omega), field_append hwhole,
    List.drop_append_of_le_length hwhole]

/-- What is made of bytes that `file` is the rest of: packets off the front of it and a decoder that waits for the others,
or an error, and then it is no file within the bound. -/
inductive Drained (options : PcapStreamDecoderOptions) (failure : Option PcapError) (later : Buffer) :
    Option (PcapGlobalHeader × List StreamedPcapPacket) → PcapStreamDecoder × Except PcapError (List StreamedPcapPacket) → Prop
  | waits (last : PcapStreamDecoder) (first : List StreamedPcapPacket) (hfailure : last.failure = failure) (hwaits : last.Waits options) :
      Drained options failure later ((last.remaining later).map fun file => (file.1, first ++ file.2)) (last, .ok first)
  | refused {last : PcapStreamDecoder} {e : PcapError} {file : Option (PcapGlobalHeader × List StreamedPcapPacket)}
      (hnone : ∀ whole, file = some whole → ¬WithinRecords options whole) : Drained options failure later file (last, .error e)

variable {file : Option (PcapGlobalHeader × List StreamedPcapPacket)} {result : PcapStreamDecoder × Except PcapError (List StreamedPcapPacket)}
  {failure : Option PcapError} {later : Buffer}

theorem Drained.same (hfailure : d.failure = failure) (hwaits : d.Waits options) :
    Drained options failure later (d.remaining later) (d, .ok []) := by
  have h : Drained options failure later _ _ := .waits d [] hfailure hwaits
  simpa using h

theorem Drained.prepend (h : Drained options failure later file result) (first : List StreamedPcapPacket) :
    Drained options failure later (file.map fun rest => (rest.1, first ++ rest.2)) (result.1, result.2.map (first ++ ·)) := by
  cases h with
  | waits last more hfailure hwaits =>
    have h : Drained options failure later _ _ := .waits last (first ++ more) hfailure hwaits
    simpa [Except.map, Function.comp_def] using h
  | refused hnone =>
    refine .refused fun whole hwhole hwithin => ?_
    obtain ⟨rest, hrest, rfl⟩ := Option.map_eq_some_iff.mp hwhole
    exact hnone rest hrest fun packet hmem => hwithin packet (List.mem_append_right _ hmem)

/-- A decoder takes the packets off the front of what is left, or what is left is no file within the bound. -/
theorem drain_spec (options : PcapStreamDecoderOptions) (d : PcapStreamDecoder) (later : Buffer) :
    Drained options d.failure later (d.remaining later) (d.drain options) := by
  induction hlength : d.pending.length using Nat.strong_induction_on generalizing d with
  | _ length ih =>
    rw [PcapStreamDecoder.drain]
    cases hheader : d.header with
    | none =>
      dsimp only
      by_cases hshort : d.pending.length < pcapGlobalHeaderLength
      · rw [if_pos hshort]
        refine .same rfl ⟨fun _ => ?_, .inl hshort⟩
        rw [PcapStreamDecoder.remaining, hheader, List.append_nil]
        exact fileOf_short hshort
      · have hlong : pcapGlobalHeaderLength ≤ d.pending.length := not_lt.mp hshort
        have hremaining : d.remaining later = fileOf d.packetIndex (d.pending ++ later) := by
          rw [PcapStreamDecoder.remaining, hheader]
        rw [if_neg hshort, hremaining, fileOf_header hlong]
        cases hglobal : readPcapGlobalHeader (d.pending.take pcapGlobalHeaderLength) with
        | error e => exact .refused fun whole hwhole => by cases hwhole
        | ok header =>
          -- each round takes octets from what is pending, on which the induction is
          have hsmaller : (d.pending.drop pcapGlobalHeaderLength).length < length := by
            rw [List.length_drop, ← hlength]
            unfold pcapGlobalHeaderLength at *
            omega
          exact ih _ hsmaller { d with header := some header, pending := d.pending.drop pcapGlobalHeaderLength } rfl
    | some header =>
      dsimp only
      have hremaining : ∀ later, d.remaining later =
          (recordsOf header d.packetIndex (d.pending ++ later)).map fun packets => (header, packets) := by
        intro later
        rw [PcapStreamDecoder.remaining, hheader]
      by_cases hshort : d.pending.length < pcapRecordHeaderLength
      · rw [if_pos hshort]
        refine .same rfl ⟨fun hsome => ?_, .inl (hshort.trans (by decide))⟩
        have hpending : d.pending ≠ [] := hsome.resolve_right (by simp [hheader])
        rw [hremaining, List.append_nil, recordsOf_short hpending hshort]
        rfl
      · have hlong : pcapRecordHeaderLength ≤ d.pending.length := not_lt.mp hshort
        have hsame := decodePcapRecordHeader_append hlong later header d.packetIndex
        have hlong' : pcapRecordHeaderLength ≤ (d.pending ++ later).length := by
          rw [List.length_append]
          omega
        rw [if_neg hshort]
        cases hrecord : decodePcapRecordHeader d.pending 0 header d.packetIndex with
        | error e =>
          refine .refused fun whole hwhole => ?_
          rw [hremaining, recordsOf_error hlong' (hsame.trans hrecord)] at hwhole
          cases hwhole
        | ok record =>
          dsimp only
          -- a record over the limit is refused before its octets are there
          by_cases hlarge : options.maxRecordBytes < record.capturedLength
          · rw [if_pos hlarge]
            refine .refused fun whole hwhole hwithin => ?_
            rw [hremaining, recordsOf_record hlong' (hsame.trans hrecord)] at hwhole
            split_ifs at hwhole
            · cases hwhole
            · obtain ⟨packets, hpackets, rfl⟩ := Option.map_eq_some_iff.mp hwhole
              obtain ⟨rest, -, rfl⟩ := Option.map_eq_some_iff.mp hpackets
              exact absurd (hwithin _ (List.mem_cons_self ..)) (not_le.mpr hlarge)
          · rw [if_neg hlarge]
            by_cases htruncated : d.pending.length < pcapRecordHeaderLength + record.capturedLength
            · rw [if_pos htruncated]
              refine .same rfl ⟨fun _ => ?_, .inr ?_⟩
              · rw [hremaining, List.append_nil, recordsOf_record hlong hrecord, if_pos htruncated]
                rfl
              · exact htruncated.trans_le (Nat.add_le_add_left (not_lt.mp hlarge) _)
            · have hwhole := not_lt.mp htruncated
              have hsmaller : (d.pending.drop (pcapRecordHeaderLength + record.capturedLength)).length < length := by
                rw [List.length_drop, ← hlength]
                unfold pcapRecordHeaderLength at *
                omega
              have hnext := (ih _ hsmaller ⟨d.pending.drop (pcapRecordHeaderLength + record.capturedLength), some header, d.packetIndex + 1,
                d.totalBytes, d.failure⟩ rfl).prepend
                [PcapPacket.streamed ⟨record, field d.pending pcapRecordHeaderLength record.capturedLength⟩ d.packetIndex]
              rw [if_neg htruncated, hremaining, recordsOf_append hlong hrecord hwhole, Option.map_map]
              simpa [PcapStreamDecoder.remaining, Option.map_map, Function.comp_def, hheader] using hnext

/-! ### Chunks -/

/-- A decoder keeps a header or a record that is not all there. -/
structure PcapStreamDecoderOptions.HasRoom (options : PcapStreamDecoderOptions) : Prop where
  header : pcapGlobalHeaderLength ≤ options.maxBufferedBytes + 1
  record : pcapRecordHeaderLength + options.maxRecordBytes ≤ options.maxBufferedBytes

theorem PcapStreamDecoder.Waits.fits (h : d.Waits options) (hroom : options.HasRoom) : ¬options.maxBufferedBytes < d.pending.length := by
  obtain ⟨hheader, hrecord⟩ := hroom
  rcases h.bounded with hshort | hshort
  · omega
  · omega

theorem remaining_chunk (d : PcapStreamDecoder) (totalBytes : ℕ) (chunk later : Buffer) :
    PcapStreamDecoder.remaining { d with totalBytes, pending := d.pending ++ chunk } later = d.remaining (chunk ++ later) := by
  unfold PcapStreamDecoder.remaining
  rw [List.append_assoc]

theorem push_spec (hroom : options.HasRoom) (hopen : d.failure = none) (chunk later : Buffer) :
    Drained options none later (d.remaining (chunk ++ later)) (d.push options chunk) := by
  have hspec := drain_spec options { d with totalBytes := d.totalBytes + chunk.length, pending := d.pending ++ chunk } later
  rw [remaining_chunk] at hspec
  rw [PcapStreamDecoder.push, hopen]
  rw [hopen] at hspec
  dsimp only at hspec ⊢
  generalize PcapStreamDecoder.drain options _ = drained at hspec ⊢
  generalize d.remaining (chunk ++ later) = file at hspec ⊢
  cases hspec with
  | waits last first hfailure hwaits =>
    dsimp only
    rw [if_neg (hwaits.fits hroom)]
    exact .waits last first hfailure hwaits
  | refused hnone => exact .refused hnone

theorem pushAll_spec (hroom : options.HasRoom) (hopen : d.failure = none) (hwaits : d.Waits options) (chunks : List Buffer) :
    Drained options none [] (d.remaining chunks.flatten) (d.pushAll options chunks) := by
  induction chunks generalizing d with
  | nil => exact .same hopen hwaits
  | cons chunk chunks ih =>
    have hpush := push_spec hroom hopen chunk chunks.flatten
    rw [PcapStreamDecoder.pushAll, List.flatten_cons]
    generalize d.push options chunk = pushed at hpush ⊢
    generalize d.remaining (chunk ++ chunks.flatten) = file at hpush ⊢
    cases hpush with
    | waits last first hopen' hwaits' => exact (ih hopen' hwaits').prepend _
    | refused hnone => exact .refused hnone

/-! ### What a decoder retains -/

theorem drain_failure (options : PcapStreamDecoderOptions) (d : PcapStreamDecoder) : (d.drain options).1.failure = d.failure := by
  fun_induction PcapStreamDecoder.drain options d <;> first | rfl | assumption | simp_all

theorem fail_pending (hopen : d.failure = none) (e : PcapError) : (d.fail e).pending = [] := by
  simp [PcapStreamDecoder.fail, hopen]

theorem push_bounded (hbounded : d.pending.length ≤ options.maxBufferedBytes) (chunk : Buffer) :
    (d.push options chunk).1.pending.length ≤ options.maxBufferedBytes := by
  rw [PcapStreamDecoder.push]
  cases hopen : d.failure with
  | some e => exact hbounded
  | none =>
    dsimp only
    have hfailure := drain_failure options { d with totalBytes := d.totalBytes + chunk.length, pending := d.pending ++ chunk }
    split
    · next last e hdrain =>
      rw [hopen, hdrain] at hfailure
      have hempty := fail_pending hfailure e
      simp [hempty]
    · next last packets hdrain =>
      rw [hopen, hdrain] at hfailure
      split_ifs with hlarge
      · show (last.fail _).pending.length ≤ _
        rw [fail_pending hfailure]
        exact Nat.zero_le _
      · exact not_lt.mp hlarge

theorem pushAll_bounded (hbounded : d.pending.length ≤ options.maxBufferedBytes) (chunks : List Buffer) :
    (d.pushAll options chunks).1.pending.length ≤ options.maxBufferedBytes := by
  induction chunks generalizing d with
  | nil => exact hbounded
  | cons chunk chunks ih =>
    have hpushed := push_bounded hbounded chunk
    rw [PcapStreamDecoder.pushAll]
    cases hpush : d.push options chunk with
    | mk pushed result =>
      rw [hpush] at hpushed
      cases result with
      | error e => exact ih hpushed
      | ok packets => exact ih hpushed

/-! ### Streams -/

theorem create_ok (h : PcapStreamDecoder.create options = .ok d) : d = {} := by
  unfold PcapStreamDecoder.create at h
  split_ifs at h
  exact (Except.ok.inj h).symm

theorem waits_fresh (options : PcapStreamDecoderOptions) : PcapStreamDecoder.Waits options {} :=
  ⟨fun _ => fileOf_short (by decide), .inl (by decide)⟩

theorem finish_spec (hopen : d.failure = none) (hwaits : d.Waits options) :
    (d.finish.2 = .ok () ∧ ∃ header, d.header = some header ∧ d.remaining [] = some (header, [])) ∨
      (∃ e, d.finish.2 = .error e) ∧ d.remaining [] = none := by
  have hincomplete := hwaits.incomplete
  rw [PcapStreamDecoder.finish, hopen]
  dsimp only
  cases hheader : d.header with
  | none => exact .inr ⟨⟨_, rfl⟩, hincomplete (.inr hheader)⟩
  | some header =>
    rw [if_neg (by simp)]
    by_cases hpending : d.pending = []
    · have hleft : d.remaining [] = some (header, []) := by
        rw [PcapStreamDecoder.remaining, hheader, hpending]
        dsimp only
        rw [List.append_nil, recordsOf, if_pos rfl]
        rfl
      refine .inl ⟨?_, header, rfl, hleft⟩
      rw [hpending, if_neg (by simp)]
    · rw [if_pos (List.length_pos_of_ne_nil hpending)]
      exact .inr ⟨⟨_, rfl⟩, hincomplete (.inl hpending)⟩

theorem mem_streamedFrom {index : ℕ} {packets : List PcapPacket} {streamed : StreamedPcapPacket}
    (h : streamed ∈ streamedFrom index packets) : streamed.toPcapPacket ∈ packets := by
  induction packets generalizing index with
  | nil => cases h
  | cons packet packets ih =>
    rcases List.mem_cons.mp h with rfl | hmem
    · exact List.mem_cons_self ..
    · exact List.mem_cons_of_mem _ (ih hmem)

/-- Chunks within the bounds decode to what the whole file is parsed as, and a decoder never retains more than it may. -/
theorem stream_agrees (options : PcapStreamDecoderOptions) (d : PcapStreamDecoder) (chunks : List Buffer)
    (hnew : PcapStreamDecoder.create options = .ok d) (hroom : options.HasRoom)
    (hwithin : ∀ file, parsePcap chunks.flatten = .ok file → ∀ packet ∈ file.packets, packet.capturedLength ≤ options.maxRecordBytes) :
    (d.decodeStream options chunks).toOption =
        (parsePcap chunks.flatten).toOption.map (fun file => (some file.header, streamedFrom 0 file.packets)) ∧
      ∀ pushed, (d.pushAll options pushed).1.pending.length ≤ options.maxBufferedBytes := by
  obtain rfl := create_ok hnew
  refine ⟨?_, pushAll_bounded (Nat.zero_le _)⟩
  have hparse : (parsePcap chunks.flatten).toOption.map (fun file => (some file.header, streamedFrom 0 file.packets)) =
      (fileOf 0 chunks.flatten).map fun file => (some file.1, file.2) := by
    rw [← parsePcap_toOption, Option.map_map]
    rfl
  have hstart : PcapStreamDecoder.remaining {} chunks.flatten = fileOf 0 chunks.flatten := rfl
  have hpush := pushAll_spec hroom (d := {}) rfl (waits_fresh options) chunks
  rw [hparse, PcapStreamDecoder.decodeStream]
  rw [hstart] at hpush
  generalize PcapStreamDecoder.pushAll options {} chunks = pushed at hpush ⊢
  generalize hfile : fileOf 0 chunks.flatten = file at hpush ⊢
  cases hpush with
  | refused hnone =>
    have hnone : file = none := by
      refine Option.eq_none_iff_forall_ne_some.mpr fun left hleft => hnone left hleft fun streamed hmem => ?_
      rw [← hfile, ← parsePcap_toOption] at hleft
      obtain ⟨parsed, hparsed, rfl⟩ := Option.map_eq_some_iff.mp hleft
      cases hresult : parsePcap chunks.flatten with
      | error e' => simp [hresult, Except.toOption] at hparsed
      | ok whole =>
        rw [hresult] at hparsed
        obtain rfl := Option.some.inj hparsed
        exact hwithin whole hresult _ (mem_streamedFrom hmem)
    rw [hnone]
    rfl
  | waits last first hopen hwaits =>
    dsimp only
    obtain ⟨hfinish, header, hheader, hleft⟩ | ⟨⟨e, hfinish⟩, hleft⟩ := finish_spec hopen hwaits
    · rw [hfinish, hheader, hleft]
      simp [Except.map, Except.toOption]
    · rw [hfinish, hleft]
      rfl

def singlePacket : Buffer :=
  [0xd4, 0xc3, 0xb2, 0xa1, 2, 0, 4, 0, 0, 0, 0, 0, 0, 0, 0, 0, 0xff, 0xff, 0, 0, 1, 0, 0, 0] ++
    [7, 0, 0, 0, 0, 0, 0, 0, 2, 0, 0, 0, 2, 0, 0, 0] ++ [0xaa, 0xbb]

theorem singlePacket_within {file : PcapFile} (h : parsePcap singlePacket = .ok file) :
    ∀ packet ∈ file.packets, packet.capturedLength ≤ 2 := by
  have hheader : readPcapGlobalHeader singlePacket = .ok ⟨.little, false, 2, 4, 0, 0, 65535, 1⟩ := by decide +kernel
  rw [parsePcap, hheader] at h
  dsimp only at h
  rw [parseRecords, if_pos (by decide), if_neg (by decide)] at h
  obtain ⟨record, hrecord, hlength⟩ : ∃ record, decodePcapRecordHeader singlePacket pcapGlobalHeaderLength
      ⟨.little, false, 2, 4, 0, 0, 65535, 1⟩ 0 = .ok record ∧ record.capturedLength = 2 := ⟨_, rfl, rfl⟩
  rw [hrecord] at h
  dsimp only at h
  rw [hlength, if_neg (by decide), parseRecords, if_neg (by decide)] at h
  obtain rfl := Except.ok.inj h
  intro packet hmem
  obtain rfl := List.mem_singleton.mp hmem
  exact hlength.le

theorem stream_agrees_cut :
    (PcapStreamDecoder.decodeStream ⟨2, 23⟩ {} [singlePacket.take 30, singlePacket.drop 30]).toOption =
        (parsePcap singlePacket).toOption.map (fun file => (some file.header, streamedFrom 0 file.packets)) ∧
      ∀ pushed, (PcapStreamDecoder.pushAll ⟨2, 23⟩ {} pushed).1.pending.length ≤ 23 :=
  stream_agrees ⟨2, 23⟩ {} [singlePacket.take 30, singlePacket.drop 30] rfl ⟨by decide, by decide⟩ fun _ => singlePacket_within

/-- Bounds that leave room for a record leave none for a global header that comes in two. -/
theorem header_overflows :
    PcapStreamDecoder.create ⟨1, 17⟩ = .ok {} ∧ (parsePcap (singlePacket.take 24)).toOption.map (·.packets) = some [] ∧
      (PcapStreamDecoder.decodeStream ⟨1, 17⟩ {} [singlePacket.take 20, (singlePacket.take 24).drop 20]).toOption = none := by
  have hheader : readPcapGlobalHeader (singlePacket.take 24) = .ok ⟨.little, false, 2, 4, 0, 0, 65535, 1⟩ := by decide +kernel
  refine ⟨rfl, ?_, ?_⟩
  · rw [parsePcap, hheader]
    dsimp only
    rw [parseRecords, if_neg (by decide)]
    rfl
  · rw [PcapStreamDecoder.decodeStream, PcapStreamDecoder.pushAll, PcapStreamDecoder.push, PcapStreamDecoder.drain]
    rfl

end OxScada.Goose
