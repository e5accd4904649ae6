import OxScada.Goose.Pdu
import Mathlib.Logic.Relation

/-! Which buffers the BER decoders get through. Where no header to which they come has a negative length,
every element moves the cursor forward and every nested content is a shorter slice, so a budget of the
buffer's length plus two is enough. -/

namespace OxScada.Goose
open OxScada.Bytes Relation

def NoNegativeLength (buf : Buffer) : Prop := ∀ o < buf.length, negativeLength buf o = false

theorem NoNegativeLength.inside {s buf : Buffer} (h : NoNegativeLength buf) (hs : s <:+: buf) :
    NoNegativeLength s := by
  intro o _
  by_contra hneg
  obtain ⟨o', ho', htrue⟩ := negativeLength_of_infix hs (Bool.eq_true_of_not_eq_false hneg)
  have hfalse := h o' ho'
  rw [htrue] at hfalse
  cases hfalse

/-! ### Elements inside a buffer -/

/-- The octets of the element are a slice of the buffer. -/
def Inside (buf : Buffer) (tlv : BerTlv) : Prop :=
  ∃ header : Buffer, 2 ≤ header.length ∧ header.head? = tlv.tag ∧ header ++ tlv.content <:+: buf

variable {buf content : Buffer} {tlv : BerTlv}

theorem Inside.content_inside (h : Inside buf tlv) : tlv.content <:+: buf := by
  obtain ⟨header, -, -, hslice⟩ := h
  exact (List.suffix_append header _).isInfix.trans hslice

theorem Inside.length_le (h : Inside buf tlv) : tlv.content.length + 2 ≤ buf.length := by
  obtain ⟨header, hlen, -, hslice⟩ := h
  have hle := hslice.length_le
  rw [List.length_append] at hle
  omega

theorem readTlv_tag {o : ℕ} (h : readTlv buf o = .ok tlv) : tlv.tag = buf[o]? := by
  simp only [readTlv, Buffer.at?_natCast] at h
  split_ifs at h
  split at h
  · cases h
  · dsimp only [readContent] at h
    split at h
    · rw [← Except.ok.inj h]
    · split_ifs at h
      rw [← Except.ok.inj h]

theorem readTlv_inside {o : ℕ} (h : negativeLength buf o = false) (ho : o < buf.length) (hread : readTlv buf o = .ok tlv) :
    Inside buf tlv ∧ ∃ next : ℕ, tlv.stop = some (next : ℤ) ∧ o < next := by
  have hsound := (tlvSound_iff ho).mpr h
  rw [hread] at hsound
  obtain ⟨next, hstop, hlt, hle, hhead, hcontent⟩ := hsound
  have hge := headerEnd_ge buf o
  refine ⟨⟨(buf.take (headerEnd buf o)).drop o, ?_, ?_, ?_⟩, next, hstop, hlt⟩
  · rw [List.length_drop, List.length_take]
    omega
  · rw [readTlv_tag hread, List.head?_drop, List.getElem?_take_of_lt (by omega)]
  · have hsplit := List.take_append_drop (headerEnd buf o) (buf.take next)
    rw [List.take_take, min_eq_left hhead] at hsplit
    have hslice : (buf.take (headerEnd buf o)).drop o ++ tlv.content = (buf.take next).drop o := by
      rw [hcontent]
      conv_rhs => rw [← hsplit, List.drop_append_of_le_length (by rw [List.length_take]; omega)]
    rw [hslice]
    exact (List.drop_suffix _ _).isInfix.trans (List.take_prefix _ _).isInfix

theorem readTlv_root_inside (h : negativeLength buf 0 = false) (hread : readTlv buf 0 = .ok tlv) : Inside buf tlv := by
  have hpos : 0 < buf.length := by
    by_contra hnil
    rw [readTlv, if_pos (by omega)] at hread
    cases hread
  exact (readTlv_inside h hpos hread).1

/-! ### Elements to which the decoders come -/

/-- The offsets to which the loop of `readChildren` comes. -/
inductive Walked (content : Buffer) : ℕ → Prop where
  | start : Walked content 0
  | next {o next : ℕ} {tlv : BerTlv} : Walked content o → readTlv content o = .ok tlv →
      tlv.stop = some (next : ℤ) → Walked content next

def Calm (content : Buffer) : Prop := ∀ o < content.length, Walked content o → negativeLength content o = false

/-- Decoding the members of the first element comes to the members of the second. -/
def Comes (parent child : BerTlv) : Prop :=
  (child.tag = some DataTag.array.code ∨ child.tag = some DataTag.struct.code) ∧
  ∃ budget before after values, readChildren budget parent.content = some (.ok (before ++ child :: after)) ∧
    mapOutcome (decodeDataValue budget) before = some (.ok values)

def CalmWithin (tlv : BerTlv) : Prop := ∀ nested, ReflTransGen Comes tlv nested → Calm nested.content

/-- No header to which the decoder of the PDU comes has a negative length. -/
structure CalmPdu (apdu : Buffer) : Prop where
  root : negativeLength apdu 0 = false
  fields {root : BerTlv} : readTlv apdu 0 = .ok root → root.tag = some pduApplicationTag → Calm root.content
  allData {root field : BerTlv} {before after : List BerTlv} {pdu : PartialPdu} {budget : ℕ} :
    readTlv apdu 0 = .ok root → root.tag = some pduApplicationTag →
    readChildren budget root.content = some (.ok (before ++ field :: after)) →
    applyFields budget .initial before = some (.ok pdu) → field.tag = some PduTag.allData.code → CalmWithin field

theorem CalmWithin.child {child : BerTlv} (h : CalmWithin tlv) (hcomes : Comes tlv child) : CalmWithin child :=
  fun nested hnested => h nested (hnested.head hcomes)

/-- The loop of `readChildren`: each round leaves fewer octets, and budgets beyond
the octets left are never used up. -/
theorem readChildrenFrom_spec (h : Calm content) (budget : ℕ) : ∀ o : ℕ, Walked content o →
    (content.length + 1 ≤ budget + o → 0 < budget → readChildrenFrom budget content o ≠ none) ∧
    ∀ children, readChildrenFrom budget content o = some (.ok children) → ∀ tlv ∈ children, Inside content tlv := by
  induction budget with
  | zero => exact fun o _ => ⟨fun _ hpos => absurd hpos (lt_irrefl 0), fun children hread => by cases hread⟩
  | succ budget ih =>
    intro o hwalked
    by_cases ho : o < content.length
    · have hlt : (o : ℤ) < content.length := by exact_mod_cast ho
      rw [readChildrenFrom, if_pos hlt]
      rcases hread : readTlv content o with e | tlv
      · exact ⟨by simp, by simp⟩
      · obtain ⟨hinside, next, hstop, hnext⟩ := readTlv_inside (h o ho hwalked) ho hread
        -- the cursor has moved, which pays for the round
        obtain ⟨hret, hall⟩ := ih next (hwalked.next hread hstop)
        simp only [hstop]
        refine ⟨fun hbudget _ => by simpa using hret (by omega) (by omega), ?_⟩
        intro children hchildren t ht
        obtain ⟨rest, hrest, rfl⟩ := outcome_map_eq_ok hchildren
        rcases List.mem_cons.mp ht with rfl | hmem
        · exact hinside
        · exact hall rest hrest t hmem
    · have hge : ¬ (o : ℤ) < content.length := by exact_mod_cast ho
      rw [readChildrenFrom, if_neg hge]
      exact ⟨by simp, by simp⟩

theorem readChildren_ne_none {budget : ℕ} (h : Calm content) (hbudget : content.length + 1 ≤ budget) :
    readChildren budget content ≠ none :=
  (readChildrenFrom_spec h budget 0 .start).1 (by omega) (by omega)

theorem readChildren_inside {budget : ℕ} {children : List BerTlv} (h : Calm content)
    (hread : readChildren budget content = some (.ok children)) : ∀ tlv ∈ children, Inside content tlv :=
  (readChildrenFrom_spec h budget 0 .start).2 children hread

theorem mapOutcome_ne_none {α β : Type} {f : α → Outcome β} {l : List α}
    (h : ∀ before a after values, l = before ++ a :: after → mapOutcome f before = some (.ok values) → f a ≠ none) :
    mapOutcome f l ≠ none := by
  induction l with
  | nil => simp [mapOutcome]
  | cons a as ih =>
    have ha := h [] a as [] rfl rfl
    rw [mapOutcome]
    rcases hf : f a with _ | (e | b)
    · exact absurd hf ha
    · simp
    · have has : mapOutcome f as ≠ none := by
        apply ih
        intro before c after values hsplit hbefore
        refine h (a :: before) c after (b :: values) (by rw [hsplit, List.cons_append]) ?_
        rw [mapOutcome, hf, hbefore]
        rfl
      simpa using has

theorem decodeDataValue_ne_none (budget : ℕ) : ∀ tlv : BerTlv,
    (tlv.tag = some DataTag.array.code ∨ tlv.tag = some DataTag.struct.code → CalmWithin tlv) →
    tlv.content.length + 2 ≤ budget → decodeDataValue budget tlv ≠ none := by
  induction budget with
  | zero =>
    intro tlv _ hbudget
    omega
  | succ budget ih =>
    intro tlv h hbudget
    rw [decodeDataValue]
    split_ifs with hnested
    · have hcalm := h hnested tlv .refl
      rcases hread : readChildren budget tlv.content with _ | (e | children)
      · exact absurd hread (readChildren_ne_none hcalm (by omega))
      · simp
      · have hmap : mapOutcome (decodeDataValue budget) children ≠ none := by
          apply mapOutcome_ne_none
          rintro before child after values rfl hbefore
          -- a child's content is shorter by its header, so a smaller budget does
          have hlen := (readChildren_inside hcalm hread child (by simp)).length_le
          exact ih child (fun hchild => (h hnested).child ⟨hchild, budget, before, after, values, hread, hbefore⟩) (by omega)
        simpa using hmap
    · simp

theorem applyField_ne_none {pdu : PartialPdu} {budget : ℕ} (h : tlv.tag = some PduTag.allData.code → CalmWithin tlv)
    (hbudget : tlv.content.length + 2 ≤ budget) : applyField budget pdu tlv ≠ none := by
  rw [applyField]
  split_ifs with hallData
  · have hcalm := h hallData tlv .refl
    rcases hread : readChildren budget tlv.content with _ | (e | members)
    · exact absurd hread (readChildren_ne_none hcalm (by omega))
    · simp
    · have hmap : mapOutcome (decodeDataValue budget) members ≠ none := by
        apply mapOutcome_ne_none
        rintro before member after values rfl hbefore
        have hlen := (readChildren_inside hcalm hread member (by simp)).length_le
        exact decodeDataValue_ne_none budget member
          (fun hmember => (h hallData).child ⟨hmember, budget, before, after, values, hread, hbefore⟩) (by omega)
      simpa using hmap
  · simp

theorem applyFields_ne_none {budget : ℕ} {children : List BerTlv} : ∀ pdu,
    (∀ before child after pdu', children = before ++ child :: after → applyFields budget pdu before = some (.ok pdu') →
      applyField budget pdu' child ≠ none) → applyFields budget pdu children ≠ none := by
  induction children with
  | nil => simp [applyFields]
  | cons child children ih =>
    intro pdu h
    rw [applyFields]
    rcases hf : applyField budget pdu child with _ | (e | pdu')
    · exact absurd hf (h [] child children pdu rfl rfl)
    · simp
    · apply ih
      intro before other after pdu'' hsplit hbefore
      refine h (child :: before) other after pdu'' (by rw [hsplit, List.cons_append]) ?_
      rw [applyFields, hf]
      exact hbefore

theorem parseGoosePdu_ne_none {apdu : Buffer} (h : CalmPdu apdu) : parseGoosePdu (apdu.length + 2) apdu ≠ none := by
  rw [parseGoosePdu]
  rcases hroot : readTlv apdu 0 with e | root
  · simp
  · have hlen := (readTlv_root_inside h.root hroot).length_le
    dsimp only
    split_ifs with htag
    · simp
    · have htag' : root.tag = some pduApplicationTag := not_not.mp htag
      have hcalm := h.fields hroot htag'
      rcases hread : readChildren (apdu.length + 2) root.content with _ | (e | children)
      · exact absurd hread (readChildren_ne_none hcalm (by omega))
      · simp
      · have hfields : applyFields (apdu.length + 2) .initial children ≠ none := by
          apply applyFields_ne_none
          rintro before field after pdu rfl hbefore
          have hfield := (readChildren_inside hcalm hread field (by simp)).length_le
          exact applyField_ne_none (h.allData hroot htag' hread hbefore) (by omega)
        dsimp only
        rcases hf : applyFields (apdu.length + 2) PartialPdu.initial children with _ | (e | pdu)
        · exact absurd hf hfields
        · simp
        · simp

/-! ### Buffers without negative lengths -/

theorem NoNegativeLength.calm (h : NoNegativeLength content) : Calm content := fun o ho _ => h o ho

theorem NoNegativeLength.calmWithin (h : NoNegativeLength tlv.content) : CalmWithin tlv := by
  intro nested hnested
  apply NoNegativeLength.calm
  induction hnested with
  | refl => exact h
  | tail _ hcomes ih =>
    obtain ⟨-, budget, before, after, values, hread, -⟩ := hcomes
    exact ih.inside (readChildren_inside ih.calm hread _ (by simp)).content_inside

theorem NoNegativeLength.calmPdu (h : NoNegativeLength buf) : CalmPdu buf := by
  have hroot : negativeLength buf 0 = false := by
    cases buf with
    | nil => rfl
    | cons b bs => exact h 0 (Nat.succ_pos _)
  have hcontent : ∀ {root}, readTlv buf 0 = .ok root → NoNegativeLength root.content := by
    intro root hread
    exact h.inside (readTlv_root_inside hroot hread).content_inside
  refine ⟨hroot, fun hread _ => (hcontent hread).calm, fun hread _ hchildren _ _ => ?_⟩
  apply NoNegativeLength.calmWithin
  exact (hcontent hread).inside (readChildren_inside (hcontent hread).calm hchildren _ (by simp)).content_inside

/-- Everything the decoders owe on `buf`: each read inside it is sound, and every
decoder that is handed `buf` returns. -/
def DecodesSafely (buf : Buffer) : Prop :=
  (∀ o < buf.length, TlvSound buf o (readTlv buf o)) ∧
  Terminates (readChildren · buf) ∧
  (∀ tlv : BerTlv, tlv.content = buf → Terminates (decodeDataValue · tlv)) ∧
  Terminates (parseGoosePdu · buf)

theorem decodesSafely_of_noNegativeLength (h : NoNegativeLength buf) :
    DecodesSafely buf := by
  refine ⟨fun o ho => (tlvSound_iff ho).mpr (h o ho), ?_, ?_, ?_⟩
  · exact ⟨_, readChildren_ne_none h.calm le_rfl⟩
  · rintro tlv rfl
    exact ⟨_, decodeDataValue_ne_none _ tlv (fun _ => h.calmWithin) le_rfl⟩
  · exact ⟨_, parseGoosePdu_ne_none h.calmPdu⟩

/-- A read is sound exactly where no negative length stands, and a buffer is decoded
safely exactly when it holds no negative length at all. -/
theorem berDecoding_iff (buf : Buffer) :
    (∀ o < buf.length, (TlvSound buf o (readTlv buf o) ↔ negativeLength buf o = false)) ∧
    (DecodesSafely buf ↔ ∀ o < buf.length, negativeLength buf o = false) := by
  refine ⟨fun o ho => tlvSound_iff ho, ?_, decodesSafely_of_noNegativeLength⟩
  intro h o ho
  exact (tlvSound_iff ho).mp (h.1 o ho)

/-! ### A length field that never lets go

The six octets of `stuck` read as an element of length `-6` that ends where it began. -/

def stuck : Buffer := [0x80, 0x84, 0xff, 0xff, 0xff, 0xfa]

def stuckTlv : BerTlv := ⟨some 0x80, false, [], some 0⟩

theorem readTlv_stuck : readTlv stuck 0 = .ok stuckTlv := by decide

theorem readChildren_stuck (budget : ℕ) : readChildren budget stuck = none := by
  rw [readChildren]
  induction budget with
  | zero => rfl
  | succ budget ih =>
    have hlt : (0 : ℤ) < stuck.length := by decide
    rw [readChildrenFrom, if_pos hlt, readTlv_stuck]
    simpa only [stuckTlv, Option.map_eq_none_iff] using ih

theorem parseGoosePdu_stuck (budget : ℕ) : parseGoosePdu budget (0x61 :: 0x06 :: stuck) = none := by
  have hroot : readTlv (0x61 :: 0x06 :: stuck) 0 = .ok ⟨some 0x61, true, stuck, some 8⟩ := by
    decide
  rw [parseGoosePdu, hroot]
  simp only [readChildren_stuck]
  rfl

theorem decodeDataValue_stuck (budget : ℕ) :
    decodeDataValue budget ⟨some DataTag.struct.code, true, stuck, some 8⟩ = none := by
  cases budget with
  | zero => rfl
  | succ budget => simp [decodeDataValue, readChildren_stuck]

/-- The element at offset 0 of `stuck` does not move forward, and every decoder that
meets it runs forever. -/
theorem berDecoding_stuck :
    readTlv stuck 0 = .ok stuckTlv ∧ stuckTlv.stop = some 0 ∧ ¬ TlvSound stuck 0 (readTlv stuck 0) ∧
    (∀ budget, readChildren budget stuck = none) ∧
    (∀ budget, decodeDataValue budget ⟨some DataTag.struct.code, true, stuck, some 8⟩ = none) ∧
    (∀ budget, parseGoosePdu budget (0x61 :: 0x06 :: stuck) = none) := by
  refine ⟨readTlv_stuck, rfl, ?_, readChildren_stuck, decodeDataValue_stuck, parseGoosePdu_stuck⟩
  intro h
  have hneg := (tlvSound_iff (by decide)).mp h
  revert hneg
  decide

end OxScada.Goose
