import OxScada.Goose.Subscription

/-! The shape of a dataset. Whether a bit string is read as a quality is told from its octets alone, so a
member that carries the tag of its type is of the wrong shape only when it is a short bit string. -/

namespace OxScada.Goose
open OxScada.Bytes OxScada.Js OxScada.Runs

def MemberType.tags : MemberType → List DataTag
  | .boolean => [.boolean]
  | .int => [.integer]
  | .uint => [.unsigned]
  | .float => [.floatingPoint, .real]
  | .bitstring => [.bitString]
  | .quality => [.bitString]
  | .octetstring => [.octetString]
  | .visiblestring => [.visibleString]
  | .utctime => [.utcTime]
  | .structured => [.array, .struct]

def Carries (member : DatasetMember) (tlv : BerTlv) : Prop := ∃ tag ∈ member.type.tags, tlv.tag = some tag.code

def Decodes (tlv : BerTlv) (value : GooseDataValue) : Prop := ∃ budget, decodeDataValue budget tlv = some (.ok value)

/-! ### The type of a decoded member -/

def DataTag.decodedType (content : Buffer) : DataTag → MemberType
  | .array => .structured
  | .struct => .structured
  | .boolean => .boolean
  | .bitString => if looksLikeQuality content then .quality else .bitstring
  | .integer => .int
  | .unsigned => .uint
  | .floatingPoint => .float
  | .real => .float
  | .octetString => .octetstring
  | .visibleString => .visiblestring
  | .utcTime => .utctime

theorem decodeBitString_type {content : Buffer} {value : GooseDataValue} (h : decodeBitString content = .ok value) :
    value.type = (DataTag.bitString.decodedType content).name := by
  rw [decodeBitString] at h
  rw [DataTag.decodedType]
  split_ifs at h ⊢
  · obtain ⟨_, -, rfl⟩ := map_ok.mp h
    rfl
  · obtain rfl := Except.ok.inj h
    rfl

theorem decodeScalar_type {tlv : BerTlv} {tag : DataTag} (htag : tlv.tag = some tag.code) (harray : tag ≠ .array)
    (hstruct : tag ≠ .struct) {value : GooseDataValue} (h : decodeScalar tlv = .ok value) :
    value.type = (tag.decodedType tlv.content).name := by
  rw [decodeScalar, htag] at h
  cases tag <;> simp [DataTag.code] at h harray hstruct
  case bitString => exact decodeBitString_type h
  case integer | unsigned | floatingPoint | real | utcTime =>
    obtain ⟨_, -, rfl⟩ := map_ok.mp h
    rfl
  all_goals
    subst h
    rfl

theorem Decodes.type_eq {tlv : BerTlv} {value : GooseDataValue} (h : Decodes tlv value) {tag : DataTag}
    (htag : tlv.tag = some tag.code) : value.type = (tag.decodedType tlv.content).name := by
  obtain ⟨budget, hdecode⟩ := h
  cases budget with
  | zero => cases hdecode
  | succ budget =>
    rw [decodeDataValue] at hdecode
    split_ifs at hdecode with hnested
    · -- the members of a structure do not count for its type
      have hmembers : ∃ members, value = .members members := by
        rcases hread : readChildren budget tlv.content with _ | (error | children) <;> rw [hread] at hdecode
        · cases hdecode
        · cases hdecode
        · obtain ⟨members, -, rfl⟩ := outcome_map_eq_ok hdecode
          exact ⟨members, rfl⟩
      obtain ⟨members, rfl⟩ := hmembers
      rw [htag] at hnested
      cases tag <;> first | rfl | simp [DataTag.code] at hnested
    · have harray : tag ≠ .array := by
        rintro rfl
        exact hnested (.inl htag)
      have hstruct : tag ≠ .struct := by
        rintro rfl
        exact hnested (.inr htag)
      exact decodeScalar_type htag harray hstruct (Option.some.inj hdecode)

/-! ### The check of the shape -/

def Fits (member : DatasetMember) (value : GooseDataValue) : Prop :=
  value.type = member.type.name ∨ member.type = .quality ∧ value.type = "bitstring"

def Misread (member : DatasetMember) (tlv : BerTlv) : Prop := member.type = .bitstring ∧ looksLikeQuality tlv.content = true

theorem fits_iff {member : DatasetMember} {tlv : BerTlv} {value : GooseDataValue} (hcarries : Carries member tlv)
    (hdecodes : Decodes tlv value) : Fits member value ↔ ¬Misread member tlv := by
  obtain ⟨tag, hmem, htag⟩ := hcarries
  have htype := hdecodes.type_eq htag
  unfold Fits Misread
  rw [htype]
  cases hmember : member.type <;> simp only [hmember, MemberType.tags, List.mem_cons, List.not_mem_nil, or_false] at hmem
  case bitstring | quality =>
    subst hmem
    rw [DataTag.decodedType]
    split_ifs with hquality <;> simp [hquality, MemberType.name]
  case float | structured => rcases hmem with rfl | rfl <;> simp [DataTag.decodedType]
  all_goals
    subst hmem
    simp [DataTag.decodedType]

theorem forall₂_fits_iff {dataset : List DatasetMember} {tlvs : List BerTlv} {values : List GooseDataValue}
    (hcarries : List.Forall₂ Carries dataset tlvs) (hdecodes : List.Forall₂ Decodes tlvs values) :
    List.Forall₂ Fits dataset values ↔ ∀ entry ∈ dataset.zip tlvs, ¬Misread entry.1 entry.2 := by
  induction hcarries generalizing values with
  | nil =>
    cases hdecodes
    simp
  | cons hcarry _ ih =>
    cases hdecodes with
    | cons hdecode hrest => simp [fits_iff hcarry hdecode, ih hrest]

variable {config : GooseSubscriptionConfig} {values : List GooseDataValue}

theorem checkDatasetShape_eq_none_iff : config.checkDatasetShape values = none ↔ List.Forall₂ Fits config.dataset values := by
  rw [GooseSubscriptionConfig.checkDatasetShape, List.forall₂_iff_get]
  split_ifs with hlength
  · simp [Ne.symm hlength]
  have hlength' : values.length = config.dataset.length := not_not.mp hlength
  rw [List.findSome?_eq_none_iff]
  constructor
  · intro h
    refine ⟨hlength'.symm, fun i hdataset hvalues => ?_⟩
    have hi := h i (List.mem_range.mpr hdataset)
    rw [List.getElem?_eq_getElem hdataset, List.getElem?_eq_getElem hvalues] at hi
    dsimp only at hi
    unfold Fits
    simp only [List.get_eq_getElem]
    split_ifs at hi with hquality hother hother
    · -- a quality may be decoded as a plain bit string
      simp only [Bool.and_eq_true, decide_eq_true_eq, not_and, not_not] at hother
      by_cases hsame : values[i].type = "quality"
      · simp [hsame, hquality, MemberType.name]
      · simp [hquality, hother hsame]
    · exact .inl (not_not.mp hother)
  · intro h i hi
    have hdataset := List.mem_range.mp hi
    have hvalues : i < values.length := by rwa [hlength']
    have hfits := h.2 i hdataset hvalues
    unfold Fits at hfits
    simp only [List.get_eq_getElem] at hfits
    rw [List.getElem?_eq_getElem hdataset, List.getElem?_eq_getElem hvalues]
    dsimp only
    rcases hfits with hsame | ⟨hquality, hbits⟩
    · split_ifs with hquality hother hother
      · simp [hsame, hquality, MemberType.name] at hother
      · rfl
      · exact absurd hsame hother
      · rfl
    · simp [hquality, hbits]

theorem checkNumbers_reason {state : SubscriptionState} {pdu : GoosePdu} {rejection : GooseRejectReason × String}
    (h : state.checkNumbers pdu = .error rejection) : rejection.1 ≠ .datasetShape := by
  unfold SubscriptionState.checkNumbers at h
  split at h
  · cases h
  · split_ifs at h
    · obtain rfl := Except.error.inj h
      simp
    · split at h
      · cases h
      · split_ifs at h
        obtain rfl := Except.error.inj h
        simp

theorem validate_shape {state : SubscriptionState} {frame : GooseFrame} {receiveMs : Float} {detail : String}
    (h : (validate config state frame receiveMs).2 = .ok (.rejected .datasetShape detail)) :
    config.checkDatasetShape frame.pdu.allData = some detail := by
  revert h
  unfold validate
  dsimp only
  cases otherMac config.expectedDestMac frame.destMac with
  | some expected => simp
  | none =>
    cases otherMac config.expectedSrcMac frame.srcMac with
    | some expected => simp
    | none =>
      cases config.expectedConfRev.filter (frame.pdu.confRev ≠ ·) with
      | some expected => split_ifs <;> simp
      | none =>
        cases config.checkDatasetShape frame.pdu.allData with
        | some shapeError => split_ifs <;> simp
        | none =>
          cases hnumbers : state.checkNumbers frame.pdu with
          | error rejection =>
            have hreason := checkNumbers_reason hnumbers
            split_ifs <;> simp [hreason]
          | ok stateChanged =>
            cases config.buildTagUpdates frame receiveMs with
            | error | ok => split_ifs <;> simp [Except.map]

/-- A frame that passes every check that comes before the one of its shape. -/
def plainFrame (config : GooseSubscriptionConfig) (values : List GooseDataValue) : GooseFrame where
  destMac := (config.expectedDestMac.getD []).map Char.toLower
  srcMac := (config.expectedSrcMac.getD []).map Char.toLower
  appId := config.appId
  pdu := ⟨config.gocbRef, 2000, [], [], 0, 1, 0, false, config.expectedConfRev.getD 0, false, values.length, values⟩

theorem otherMac_self (expected : Option Text) : otherMac expected ((expected.getD []).map Char.toLower) = none := by
  cases expected <;> simp [otherMac]

theorem validate_plainFrame {detail : String} (h : config.checkDatasetShape values = some detail) (state : SubscriptionState)
    (receiveMs : Float) : (validate config state (plainFrame config values) receiveMs).2 = .ok (.rejected .datasetShape detail) := by
  have hrev : config.expectedConfRev.filter ((plainFrame config values).pdu.confRev ≠ ·) = none := by
    cases hexpected : config.expectedConfRev <;> simp [plainFrame, hexpected]
  unfold validate
  dsimp only
  rw [hrev]
  simp [plainFrame, otherMac_self, h]

/-- The shape of a dataset whose members carry the tags of their types and are decoded is refused in no
frame, exactly when no member that is a bit string looks like a quality. -/
theorem shape_accepted_iff {tlvs : List BerTlv} (hcarries : List.Forall₂ Carries config.dataset tlvs)
    (hdecodes : List.Forall₂ Decodes tlvs values) :
    (∀ state frame receiveMs, frame.pdu.allData = values → ∀ detail,
      (validate config state frame receiveMs).2 ≠ .ok (.rejected .datasetShape detail)) ↔
    ∀ entry ∈ config.dataset.zip tlvs, entry.1.type = .bitstring → looksLikeQuality entry.2.content = false := by
  have hfits := forall₂_fits_iff hcarries hdecodes
  have hcondition : (∀ entry ∈ config.dataset.zip tlvs, ¬Misread entry.1 entry.2) ↔
      ∀ entry ∈ config.dataset.zip tlvs, entry.1.type = .bitstring → looksLikeQuality entry.2.content = false := by
    simp [Misread]
  rw [← hcondition, ← hfits, ← checkDatasetShape_eq_none_iff]
  constructor
  · intro h
    by_contra hrefused
    obtain ⟨detail, hdetail⟩ := Option.ne_none_iff_exists'.mp hrefused
    exact h {} (plainFrame config values) 0 rfl detail (validate_plainFrame hdetail {} 0)
  · intro hshape state frame receiveMs hvalues detail hrejected
    have hdetail := validate_shape hrejected
    rw [hvalues, hshape] at hdetail
    cases hdetail

def alarmBits : GooseSubscriptionConfig := ⟨['g'], 1, none, none, [⟨['a'], .bitstring⟩, ⟨['q'], .quality⟩], none, .reject⟩

def bits (content : Buffer) : BerTlv := ⟨some DataTag.bitString.code, false, content, none⟩

theorem carries_bits (first second : Buffer) : List.Forall₂ Carries alarmBits.dataset [bits first, bits second] :=
  .cons ⟨.bitString, by decide, rfl⟩ (.cons ⟨.bitString, by decide, rfl⟩ .nil)

def longBits : GooseDataValue := .bitstring ((List.range 24).map (bitAt [1, 2, 3])) 0

def goodQuality : GooseDataValue := .quality ⟨.good, false, false, false, false, false, false, false, false, .process, false, false⟩

def fiveBits : GooseDataValue := .quality ⟨.reserved, true, false, false, false, false, false, false, false, .process, false, false⟩

theorem decodes_good : Decodes (bits [3, 0, 0]) goodQuality := ⟨1, rfl⟩

/-- A bit string of three octets is not misread. -/
theorem shape_accepted_long : ¬∃ detail,
    (validate alarmBits {} (plainFrame alarmBits [longBits, goodQuality]) 0).2 = .ok (.rejected .datasetShape detail) := by
  rintro ⟨detail, hrejected⟩
  have hcarries := carries_bits [0, 1, 2, 3] [3, 0, 0]
  exact (shape_accepted_iff hcarries (.cons ⟨1, rfl⟩ (.cons decodes_good .nil))).mpr (by decide) {} _ 0 rfl detail hrejected

/-- A bit string of five bits is read as a quality, and its frame is refused. -/
theorem short_bits_refused : ∃ tlvs values, List.Forall₂ Carries alarmBits.dataset tlvs ∧ List.Forall₂ Decodes tlvs values ∧
    ∃ detail, (validate alarmBits {} (plainFrame alarmBits values) 0).2 = .ok (.rejected .datasetShape detail) := by
  have hdecodes : Decodes (bits [3, 0xa0]) fiveBits := ⟨1, rfl⟩
  refine ⟨_, [fiveBits, goodQuality], carries_bits _ _, .cons hdecodes (.cons decodes_good .nil), ?_⟩
  have hshape : alarmBits.checkDatasetShape [fiveBits, goodQuality] = some "member 0 (a) expected bitstring, got quality" := by
    decide +kernel
  exact ⟨_, validate_plainFrame hshape {} 0⟩

end OxScada.Goose
