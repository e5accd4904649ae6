import OxScada.Sparkplug.Payload
import OxScada.Order.Pointwise

/-! What comes back of a payload from a codec that returns what it was given, with the integers of 64 bits as
they are or as words. -/

namespace OxScada.Sparkplug.Codec
open OxScada.Bytes OxScada.Js OxScada.Order OxScada.Runs

/-- The value is the integer, as a number, as a bigint or as a canonical text. -/
def CodecValue.Is : CodecValue → ℤ → Prop
  | .number a, n => n.natAbs < 2 ^ 53 ∧ (a == ofInteger n) = true
  | .bigint m, n => m = n
  | .string text, n => isCanonicalInteger text = true ∧ decimalValue text = n
  | _, _ => False

def InBounds (dataType : SparkplugDataType) (n : ℤ) : Prop := (integerBounds dataType).1 ≤ n ∧ n ≤ (integerBounds dataType).2

def Words (n : ℤ) (value : LongLike) : Prop := IsWord value.low n ∧ IsWord value.high (n / 2 ^ 32)

inductive ReturnedInteger : CodecInteger → CodecInteger → Prop where
  | same (value : CodecInteger) : ReturnedInteger value value
  | words {a : Float} {n : ℤ} {value : LongLike} (hn : n.natAbs < 2 ^ 53) (ha : (a == ofInteger n) = true) (hwords : Words n value) :
    ReturnedInteger (.number a) (.long value)

inductive ReturnedValue : Text → CodecValue → CodecValue → Prop where
  | same (type : Text) (value : CodecValue) : ReturnedValue type value value
  | words {type : Text} {dataType : SparkplugDataType} {n : ℤ} {value : LongLike} (htype : type = dataTypeName dataType)
    (hlong : isLongDataType dataType = true) (hwords : Words n value) : ReturnedValue type (.string (integerText n)) (.long value)

def ReturnedProperty (sent got : Text × ProtoPropertyValue) : Prop :=
  got.1 = sent.1 ∧ got.2.type = sent.2.type ∧ ReturnedValue sent.2.type sent.2.value got.2.value

structure ReturnedMetric (sent got : ProtoMetric) : Prop where
  name : got.name = sent.name
  metricAlias : Option.Rel ReturnedInteger sent.metricAlias got.metricAlias
  timestamp : Option.Rel ReturnedInteger sent.timestamp got.timestamp
  type : got.type = sent.type
  value : ReturnedValue sent.type sent.value got.value
  isNull : got.isNull = sent.isNull
  properties : Option.Rel (fun sent got => List.Forall₂ ReturnedProperty sent.entries got.entries) sent.properties got.properties

structure Returned (sent got : ProtoPayload) : Prop where
  timestamp : ReturnedInteger sent.timestamp got.timestamp
  seq : Option.Rel ReturnedInteger sent.seq got.seq
  metrics : Option.Rel (List.Forall₂ ReturnedMetric) sent.metrics got.metrics

variable {n : ℤ} {a : Float} {long : LongLike} {dataType : SparkplugDataType} {value sent got : CodecValue}

/-! ### Words -/

theorem longLikeToBigInt_bits (h : Words n long) :
    longLikeToBigInt long false = n % 2 ^ 64 ∧ longLikeToBigInt long true = if 2 ^ 63 ≤ n % 2 ^ 64 then n % 2 ^ 64 - 2 ^ 64 else n % 2 ^ 64 := by
  have hlow := toUint32_word h.1
  have hhigh := toUint32_word h.2
  have hsmall : toUint32 long.low < 2 ^ 32 := by omega
  have hbits : ((toUint32 long.high <<< 32 ||| toUint32 long.low : ℕ) : ℤ) = n % 2 ^ 64 := by
    rw [← Nat.shiftLeft_add_eq_or_of_lt hsmall, Nat.shiftLeft_eq]
    push_cast
    omega
  unfold longLikeToBigInt
  simp only [hbits, Bool.false_and, Bool.true_and, Bool.false_eq_true, if_false, decide_eq_true_eq, true_and]
  have hsign : 2 ^ 63 ≤ (toUint32 long.high <<< 32 ||| toUint32 long.low) ↔ (2 : ℤ) ^ 63 ≤ n % 2 ^ 64 := by
    rw [← hbits]
    norm_cast
  simp only [hsign]

theorem longLikeToBigInt_unsigned (h : Words n long) (hlow : 0 ≤ n) (hhigh : n < 2 ^ 64) : longLikeToBigInt long false = n := by
  rw [(longLikeToBigInt_bits h).1]
  omega

theorem longLikeToBigInt_signed (h : Words n long) (hlow : -2 ^ 63 ≤ n) (hhigh : n < 2 ^ 63) : longLikeToBigInt long true = n := by
  rw [(longLikeToBigInt_bits h).2]
  split_ifs <;> omega

/-! ### Integers of the payload -/

theorem validateUnsignedSafeInteger_ok {field : Text} {b : Float} (h : validateUnsignedSafeInteger a field = .ok b) :
    b = a ∧ ∃ n : ℤ, 0 ≤ n ∧ n < 2 ^ 53 ∧ Exactly n a.toModel.unpack := by
  unfold validateUnsignedSafeInteger at h
  split_ifs at h with hrefused
  obtain ⟨hsafe, hpositive⟩ := not_or.mp hrefused
  obtain ⟨hsmall, hexact⟩ := isSafeInteger_exactly (Bool.eq_true_of_not_eq_false hsafe)
  have hzero : Exactly 0 (0 : Float).toModel.unpack := exactly_of_beq (by decide) (by decide +kernel)
  rw [lt_iff_exactly hexact hzero] at hpositive
  exact ⟨(Except.ok.inj h).symm, bigInt a, by omega, by omega, hexact⟩

theorem codecIntegerToBigInt_returned (hn : 0 ≤ n) (hsmall : n < 2 ^ 53) (ha : Exactly n a.toModel.unpack) {got : CodecInteger}
    (h : ReturnedInteger (.number a) got) : codecIntegerToBigInt got = .ok n := by
  cases h with
  | same =>
    rw [codecIntegerToBigInt, if_pos (isSafeInteger_of_exactly (by omega) ha), bigInt_exactly ha]
  | @words _ m long hm hb hwords =>
    have hsame : m = n := ((exactly_of_beq hm hb).toInt 0 0).symm.trans (ha.toInt 0 0)
    subst hsame
    rw [codecIntegerToBigInt, longLikeToBigInt_unsigned hwords hn (by omega)]

theorem codecIntegerToUnsignedSafeNumber_returned {field : Text} {b : Float} (h : validateUnsignedSafeInteger a field = .ok b) {got : CodecInteger}
    (hgot : ReturnedInteger (.number b) got) (field' : Text) :
    ∃ c, codecIntegerToUnsignedSafeNumber got field' = .ok c ∧ (c == a) = true ∧ ∃ n, Exactly n a.toModel.unpack ∧ Exactly n c.toModel.unpack := by
  obtain ⟨rfl, n, hn, hsmall, hexact⟩ := validateUnsignedSafeInteger_ok h
  have hback := ofInteger_exactly (n := n) (by omega)
  have hzero : Exactly 0 (0 : Float).toModel.unpack := exactly_of_beq (by decide) (by decide +kernel)
  have hpositive : ¬ ofInteger n < 0 := by
    rw [lt_iff_exactly hback hzero]
    omega
  refine ⟨ofInteger n, ?_, (beq_iff_exactly hback hexact).mpr rfl, n, hexact, hback⟩
  unfold codecIntegerToUnsignedSafeNumber codecIntegerToSafeNumber
  rw [codecIntegerToBigInt_returned hn hsmall hexact hgot]
  simp only [bind, Except.bind]
  rw [if_neg (by omega)]
  simp only [if_neg hpositive]

/-! ### Values -/

theorem exactToCodec_is (h : exactToCodec dataType value = .ok n) : value.Is n := by
  cases value with
  | bigint m => exact Except.ok.inj h
  | number a =>
    rw [exactToCodec] at h
    split_ifs at h with hsafe
    obtain rfl := Except.ok.inj h
    obtain ⟨hsmall, hexact⟩ := isSafeInteger_exactly hsafe
    exact ⟨hsmall, (beq_iff_exactly hexact (ofInteger_exactly hsmall)).mpr rfl⟩
  | string text =>
    rw [exactToCodec] at h
    split_ifs at h with hcanonical
    rw [bigIntFromText, bigIntOfText_canonical hcanonical] at h
    exact ⟨hcanonical, Except.ok.inj h⟩
  | null | boolean | long => cases h

theorem checkBounds_ok {before : Text} {m : ℤ} (h : checkBounds before dataType n = .ok m) : m = n ∧ InBounds dataType n := by
  unfold checkBounds at h
  dsimp only at h
  split_ifs at h with hout
  obtain ⟨hlow, hhigh⟩ := not_or.mp hout
  exact ⟨(Except.ok.inj h).symm, not_lt.mp hlow, not_lt.mp hhigh⟩

theorem checkBounds_inBounds (before : Text) (h : InBounds dataType n) : checkBounds before dataType n = .ok n := by
  unfold checkBounds
  dsimp only
  rw [if_neg (not_or.mpr ⟨not_lt.mpr h.1, not_lt.mpr h.2⟩)]

theorem metricValueToCodec_long (hlong : isLongDataType dataType = true) (h : metricValueToCodec value dataType = .ok sent) :
    (value.isNull = true ∧ sent = .null) ∨ ∃ n, value.Is n ∧ InBounds dataType n ∧ sent = .string (integerText n) := by
  unfold metricValueToCodec at h
  split_ifs at h with hnull
  · exact .inl ⟨hnull, (Except.ok.inj h).symm⟩
  · obtain ⟨n, hexact, hrest⟩ := bind_ok.mp h
    obtain ⟨m, hbounds, hsent⟩ := bind_ok.mp hrest
    obtain ⟨rfl, hin⟩ := checkBounds_ok hbounds
    exact .inr ⟨m, exactToCodec_is hexact, hin, (Except.ok.inj hsent).symm⟩

theorem compactInteger_is (n : ℤ) : (compactInteger n).Is n := by
  unfold compactInteger
  split_ifs with hsafe
  · have hsmall : n.natAbs < 2 ^ 53 := by omega
    have hexact := ofInteger_exactly hsmall
    exact ⟨hsmall, (beq_iff_exactly hexact hexact).mpr rfl⟩
  · rfl

theorem exactFromCodec_words (hlong : isLongDataType dataType = true) (hin : InBounds dataType n) (hwords : Words n long) :
    exactFromCodec dataType (.long long) = .ok n := by
  obtain ⟨hlow, hhigh⟩ := hin
  rw [exactFromCodec]
  congr 1
  by_cases hsigned : dataType = .int64
  · subst hsigned
    have hhigh' : n < 2 ^ 63 := Int.lt_of_le_sub_one hhigh
    exact longLikeToBigInt_signed hwords hlow hhigh'
  · rw [decide_eq_false hsigned]
    have hbounds : (integerBounds dataType).1 = 0 ∧ (integerBounds dataType).2 < 2 ^ 64 := by
      cases dataType <;> simp_all [integerBounds]
    exact longLikeToBigInt_unsigned hwords (hbounds.1 ▸ hlow) (hhigh.trans_lt hbounds.2)

theorem metricValueFromCodec_exact (hnull : got.isNull = false) (hlong : isLongDataType dataType = true) (hin : InBounds dataType n)
    (h : exactFromCodec dataType got = .ok n) : ∃ back, metricValueFromCodec got dataType = .ok back ∧ back.Is n := by
  refine ⟨compactInteger n, ?_, compactInteger_is n⟩
  unfold metricValueFromCodec
  rw [if_neg (by simp [hnull, hlong]), h]
  simp only [bind, Except.bind]
  rw [checkBounds_inBounds _ hin]
  rfl

theorem dataTypeFromName_name (dataType : SparkplugDataType) : dataTypeFromName (dataTypeName dataType) = .ok dataType := by
  cases dataType <;> rfl

/-- What comes back of a value is there, and of an integer type it is the same integer. -/
def Keeps (dataType : SparkplugDataType) (value back : CodecValue) : Prop :=
  isLongDataType dataType = true → (value.isNull = true ∧ back.isNull = true) ∨ ∃ n, value.Is n ∧ back.Is n

theorem returnedValue_exact (hlong : isLongDataType dataType = true) (hin : InBounds dataType n)
    (h : ReturnedValue (dataTypeName dataType) (.string (integerText n)) got) : exactFromCodec dataType got = .ok n ∧ got.isNull = false := by
  generalize hsent : CodecValue.string (integerText n) = sent at h
  generalize htype : dataTypeName dataType = type at h
  cases h with
  | same =>
    subst hsent
    have hcanonical := isCanonicalInteger_integerText n
    refine ⟨?_, rfl⟩
    rw [exactFromCodec, if_pos hcanonical, bigIntFromText, bigIntOfText_canonical hcanonical, decimalValue_integerText]
  | @words _ m long _ _ hwords =>
    have hsame : n = m := by
      rw [← decimalValue_integerText n, ← decimalValue_integerText m, CodecValue.string.inj hsent]
    subst hsame
    exact ⟨exactFromCodec_words hlong hin hwords, rfl⟩

theorem metricValueFromCodec_returned (h : metricValueToCodec value dataType = .ok sent) (hgot : ReturnedValue (dataTypeName dataType) sent got) :
    ∃ back, metricValueFromCodec got dataType = .ok back ∧ Keeps dataType value back := by
  by_cases hlong : isLongDataType dataType = true
  · rcases metricValueToCodec_long hlong h with ⟨hnull, rfl⟩ | ⟨n, hvalue, hin, rfl⟩
    · cases hgot with
      | same => exact ⟨.null, rfl, fun _ => .inl ⟨hnull, rfl⟩⟩
    · obtain ⟨hexact, hnull⟩ := returnedValue_exact hlong hin hgot
      obtain ⟨back, hback, his⟩ := metricValueFromCodec_exact hnull hlong hin hexact
      exact ⟨back, hback, fun _ => .inr ⟨n, hvalue, his⟩⟩
  · have hplain : ∃ back, metricValueFromCodec got dataType = .ok back := by
      unfold metricValueFromCodec
      rw [if_pos (.inr (Bool.eq_false_of_not_eq_true hlong))]
      exact ⟨got, rfl⟩
    obtain ⟨back, hback⟩ := hplain
    exact ⟨back, hback, fun h => absurd h hlong⟩

/-! ### Properties -/

variable {property property' : ProtoPropertyValue}

theorem propertyToProto_ok (h : propertyToProto value = .ok property) :
    ∃ type, inferPropertyType value = .ok type ∧ property.type = dataTypeName type ∧ metricValueToCodec value type = .ok property.value := by
  unfold propertyToProto at h
  obtain ⟨type, htype, hrest⟩ := bind_ok.mp h
  refine ⟨type, htype, ?_⟩
  split_ifs at hrest with hnull
  · obtain rfl := Except.ok.inj hrest
    refine ⟨rfl, ?_⟩
    unfold metricValueToCodec
    rw [if_pos hnull]
  · dsimp only at hrest
    rw [dataTypeFromName_name] at hrest
    obtain ⟨_, hname, hrest⟩ := bind_ok.mp hrest
    obtain rfl := Except.ok.inj hname
    obtain ⟨codec, hcodec, hmade⟩ := bind_ok.mp hrest
    obtain rfl := Except.ok.inj hmade
    exact ⟨rfl, hcodec⟩

def KeepsProperty (value back : CodecValue) : Prop := ∀ type, inferPropertyType value = .ok type → Keeps type value back

theorem propertyFromProto_returned (h : propertyToProto value = .ok property) (htype : property'.type = property.type)
    (hvalue : ReturnedValue property.type property.value property'.value) : ∃ back, propertyFromProto property' = .ok back ∧ KeepsProperty value back := by
  obtain ⟨type, hinferred, hname, hcodec⟩ := propertyToProto_ok h
  rw [hname] at htype hvalue
  obtain ⟨back, hback, hkeeps⟩ := metricValueFromCodec_returned hcodec hvalue
  refine ⟨back, ?_, ?_⟩
  · unfold propertyFromProto
    rw [htype, dataTypeFromName_name]
    exact hback
  · intro type' htype'
    obtain rfl := Except.ok.inj (hinferred.symm.trans htype')
    exact hkeeps

def KeepsProperties (given back : Record CodecValue) : Prop :=
  ∀ entry ∈ given.entries, ∀ type, inferPropertyType entry.2 = .ok type → isLongDataType type = true →
    ∃ value, (entry.1, value) ∈ back.entries ∧ Keeps type entry.2 value

/-- No property of an integer type is the one that sets the prototype. -/
def NoPrototype (given : Record CodecValue) : Prop :=
  ∀ entry ∈ given.entries, entry.1 = protoKey → ∀ type, inferPropertyType entry.2 = .ok type → isLongDataType type = false

theorem properties_returned {given : Record CodecValue} {made got : Record ProtoPropertyValue} (h : given.mapEntries propertyToProto = .ok made)
    (hgot : List.Forall₂ ReturnedProperty made.entries got.entries) :
    ∃ back, got.mapEntries propertyFromProto = .ok back ∧ (KeepsProperties given back ↔ NoPrototype given) := by
  obtain ⟨hall, hmade⟩ := Record.mapEntries_ok h
  have hsteps := forall₂_trans hmade hgot
  have hread : List.Forall₂ (fun entry entry' => entry'.1 = entry.1 ∧ ∃ value, propertyFromProto entry'.2 = .ok value ∧ KeepsProperty entry.2 value)
      (given.entries.filter (·.1 ≠ protoKey)) got.entries := by
    refine hsteps.imp ?_
    rintro entry entry' ⟨sent, ⟨hkey, hsent⟩, hkey', htype, hvalue⟩
    exact ⟨hkey'.trans hkey, propertyFromProto_returned hsent htype hvalue⟩
  have hkeys : ∀ entry' ∈ got.entries, entry'.1 ≠ protoKey := by
    intro entry' hentry'
    obtain ⟨entry, hentry, hkey, -⟩ := forall₂_right hread hentry'
    rw [hkey]
    simpa using (List.mem_filter.mp hentry).2
  obtain ⟨back, hback⟩ : ∃ back, got.mapEntries propertyFromProto = .ok back := by
    refine Record.mapEntries_exists ?_
    intro entry' hentry'
    obtain ⟨entry, -, -, value, hvalue, -⟩ := forall₂_right hread hentry'
    exact ⟨value, hvalue⟩
  refine ⟨back, hback, ?_⟩
  obtain ⟨-, hdecoded⟩ := Record.mapEntries_ok hback
  rw [List.filter_eq_self.mpr (by simpa using hkeys)] at hdecoded
  constructor
  · -- A property under that key went nowhere.
    intro hkeeps entry hentry hkey type htype
    refine Bool.eq_false_of_not_eq_true fun hlong => ?_
    obtain ⟨value, hvalue, -⟩ := hkeeps entry hentry type htype hlong
    obtain ⟨entry', hentry', hkey', -⟩ := forall₂_right hdecoded hvalue
    exact hkeys entry' hentry' (hkey'.symm.trans hkey)
  · intro hno entry hentry type htype hlong
    have hkey : entry.1 ≠ protoKey := by
      intro hkey
      rw [hno entry hentry hkey type htype] at hlong
      cases hlong
    obtain ⟨⟨key, value⟩, hvalue, entry', ⟨hkey', read, hread, hkeeps⟩, hkey'', hread'⟩ :=
      forall₂_left (forall₂_trans hread hdecoded) (List.mem_filter.mpr ⟨hentry, by simpa using hkey⟩)
    obtain rfl := Except.ok.inj (hread.symm.trans hread')
    have hsame : key = entry.1 := hkey''.trans hkey'
    subst hsame
    exact ⟨_, hvalue, hkeeps type htype⟩

/-! ### Metrics -/

def SameNumber (a b : Float) : Prop := (b == a) = true

/-- What comes back of a metric. A flag that is not set is absent. -/
structure Preserved (now : Float) (metric back : SparkplugMetric) : Prop where
  name : back.name = metric.name
  dataType : back.dataType = metric.dataType
  metricAlias : Option.Rel SameNumber metric.metricAlias back.metricAlias
  timestamp : Option.Rel SameNumber (some (metric.timestamp.getD now)) back.timestamp
  isNull : back.isNull = if metric.nullFlag then some true else none
  value : if metric.nullFlag then back.value.isNull = true else Keeps metric.dataType metric.value back.value

def PropertiesPreserved (metric back : SparkplugMetric) : Prop := Option.Rel KeepsProperties metric.properties back.properties

def SparkplugMetric.NoPrototype (metric : SparkplugMetric) : Prop := ∀ given ∈ metric.properties, Codec.NoPrototype given

variable {metric : SparkplugMetric} {proto proto' : ProtoMetric} {now : Float}

theorem mapM_ok {α β ε : Type} {f : α → Except ε β} {o : Option α} {made : Option β} (h : o.mapM f = .ok made) :
    Option.Rel (fun x y => f x = .ok y) o made := by
  cases o with
  | none =>
    obtain rfl := Except.ok.inj h
    exact .none
  | some x =>
    obtain ⟨y, hy, hmade⟩ := bind_ok.mp (show (f x >>= fun y => pure (some y)) = .ok made from h)
    obtain rfl := Except.ok.inj hmade
    exact .some hy

theorem numbers_returned {given : Option Float} {made : Option Float} {got : Option CodecInteger} {field : Text}
    (h : given.mapM (fun given => validateUnsignedSafeInteger given field) = .ok made)
    (hgot : Option.Rel ReturnedInteger (made.map .number) got) (field' : Text) :
    ∃ back, got.mapM (fun given => codecIntegerToUnsignedSafeNumber given field') = .ok back ∧ Option.Rel SameNumber given back := by
  cases mapM_ok h with
  | none =>
    cases hgot
    exact ⟨none, rfl, .none⟩
  | some hvalid =>
    cases hgot with
    | some hgot =>
      obtain ⟨c, hc, hsame, -⟩ := codecIntegerToUnsignedSafeNumber_returned hvalid hgot field'
      refine ⟨some c, ?_, .some hsame⟩
      show (codecIntegerToUnsignedSafeNumber _ field' >>= fun y => pure (some y)) = _
      rw [hc]
      rfl

theorem metricValue_returned (h : metric.codecValue = .ok sent) (hgot : ReturnedValue (dataTypeName metric.dataType) sent got)
    (hnull : proto'.isNull = some metric.nullFlag) (hvalue : proto'.value = got) :
    ∃ back, proto'.metricValue metric.dataType = .ok back ∧ if metric.nullFlag then back.isNull = true else Keeps metric.dataType metric.value back := by
  unfold SparkplugMetric.codecValue at h
  unfold ProtoMetric.metricValue
  rw [hnull, hvalue]
  split_ifs at h with hflag
  · exact ⟨.null, by rw [if_pos (by rw [hflag])], by rw [if_pos hflag]; rfl⟩
  · obtain ⟨back, hback, hkeeps⟩ := metricValueFromCodec_returned h hgot
    refine ⟨back, ?_, by rwa [if_neg hflag]⟩
    rw [if_neg (by simpa using hflag)]
    exact hback

theorem propertiesFromProto_returned {given : Option (Record CodecValue)} {made got : Option (Record ProtoPropertyValue)}
    (h : given.mapM (fun given => given.mapEntries propertyToProto) = .ok made)
    (hgot : Option.Rel (fun sent got => List.Forall₂ ReturnedProperty sent.entries got.entries) made got) :
    ∃ back, got.mapM (fun given => given.mapEntries propertyFromProto) = .ok back ∧
      (Option.Rel KeepsProperties given back ↔ ∀ record ∈ given, Codec.NoPrototype record) := by
  cases mapM_ok h with
  | none =>
    cases hgot
    exact ⟨none, rfl, by simp, fun _ => .none⟩
  | some hmade =>
    cases hgot with
    | some hgot =>
      obtain ⟨back, hback, hiff⟩ := properties_returned hmade hgot
      refine ⟨some back, ?_, ?_⟩
      · show (Record.mapEntries propertyFromProto _ >>= fun y => pure (some y)) = _
        rw [hback]
        rfl
      · rw [Option.rel_some_some, hiff]
        simp

theorem metricFromProto_returned (h : metricToProto now metric = .ok proto) (hgot : ReturnedMetric proto proto') :
    ∃ back, metricFromProto proto' = .ok back ∧ Preserved now metric back ∧ (PropertiesPreserved metric back ↔ metric.NoPrototype) := by
  unfold metricToProto at h
  obtain ⟨timestamp, htimestamp, h₁⟩ := bind_ok.mp h
  obtain ⟨value, hvalue, h₂⟩ := bind_ok.mp h₁
  obtain ⟨metricAlias, halias, h₃⟩ := bind_ok.mp h₂
  obtain ⟨properties, hproperties, h₄⟩ := bind_ok.mp h₃
  obtain rfl := Except.ok.inj h₄
  obtain ⟨back, hback, hkept⟩ := metricValue_returned hvalue hgot.value hgot.isNull rfl
  obtain ⟨aliasBack, haliasBack, hsameAlias⟩ := numbers_returned halias hgot.metricAlias "metric alias".toList
  have htime : (some (metric.timestamp.getD now)).mapM (fun given => validateUnsignedSafeInteger given "metric timestamp".toList) = .ok (some timestamp) := by
    show (validateUnsignedSafeInteger _ _ >>= fun y => pure (some y)) = _
    rw [htimestamp]
    rfl
  obtain ⟨timeBack, htimeBack, hsameTime⟩ := numbers_returned htime hgot.timestamp "metric timestamp".toList
  obtain ⟨propertiesBack, hpropertiesBack, hiff⟩ := propertiesFromProto_returned hproperties hgot.properties
  refine ⟨{
    name := metric.name, dataType := metric.dataType, value := back, metricAlias := aliasBack, timestamp := timeBack,
    isHistorical := if proto'.isHistorical = some true then some true else none, isNull := if metric.nullFlag then some true else none,
    properties := propertiesBack }, ?_, ⟨rfl, rfl, hsameAlias, hsameTime, rfl, hkept⟩, hiff⟩
  have htype : dataTypeFromName proto'.type = .ok metric.dataType := by
    rw [hgot.type]
    exact dataTypeFromName_name metric.dataType
  unfold metricFromProto
  refine bind_ok.mpr ⟨_, htype, ?_⟩
  refine bind_ok.mpr ⟨_, hback, ?_⟩
  refine bind_ok.mpr ⟨_, haliasBack, ?_⟩
  refine bind_ok.mpr ⟨_, htimeBack, ?_⟩
  refine bind_ok.mpr ⟨_, hpropertiesBack, ?_⟩
  rw [hgot.name, hgot.isNull]
  simp [pure, Except.pure]

/-! ### Payloads -/

theorem metricsFromProto_returned {metrics : List SparkplugMetric} {sent got : List ProtoMetric} (h : metrics.mapM (metricToProto now) = .ok sent)
    (hgot : List.Forall₂ ReturnedMetric sent got) :
    ∃ back, got.mapM metricFromProto = .ok back ∧ List.Forall₂ (Preserved now) metrics back ∧
      (List.Forall₂ PropertiesPreserved metrics back ↔ ∀ metric ∈ metrics, metric.NoPrototype) := by
  induction metrics generalizing sent got with
  | nil =>
    obtain rfl := Except.ok.inj h
    cases hgot
    exact ⟨[], rfl, .nil, by simp⟩
  | cons metric rest ih =>
    rw [List.mapM_cons] at h
    obtain ⟨proto, hproto, hrest⟩ := bind_ok.mp h
    obtain ⟨protos, hprotos, hsent⟩ := bind_ok.mp hrest
    obtain rfl := Except.ok.inj hsent
    cases hgot with
    | cons hfirst hlater =>
      obtain ⟨back, hback, hpreserved, hiff⟩ := metricFromProto_returned hproto hfirst
      obtain ⟨backs, hbacks, hallPreserved, hallIff⟩ := ih hprotos hlater
      refine ⟨back :: backs, ?_, .cons hpreserved hallPreserved, ?_⟩
      · rw [List.mapM_cons]
        exact bind_ok.mpr ⟨_, hback, bind_ok.mpr ⟨_, hbacks, rfl⟩⟩
      · rw [List.forall₂_cons, List.forall_mem_cons, hiff, hallIff]

theorem sequence_returned {a seq : Float} {got : CodecInteger} (h : validateSequence a = .ok seq) (hgot : ReturnedInteger (.number seq) got) :
    ∃ back, sequenceFromCodec got = .ok back ∧ SameNumber a back := by
  unfold validateSequence at h
  obtain ⟨b, hvalid, hrest⟩ := bind_ok.mp h
  split_ifs at hrest with hlarge
  obtain rfl := Except.ok.inj hrest
  obtain ⟨back, hback, hsame, n, hn, hn'⟩ := codecIntegerToUnsignedSafeNumber_returned hvalid hgot "payload sequence".toList
  obtain rfl := (validateUnsignedSafeInteger_ok hvalid).1
  have hmax : Exactly 255 (255 : Float).toModel.unpack := exactly_of_beq (by decide) (by decide +kernel)
  refine ⟨back, bind_ok.mpr ⟨back, hback, ?_⟩, hsame⟩
  rw [if_neg]
  rwa [lt_iff_exactly hmax hn', ← lt_iff_exactly hmax hn]

theorem sequences_returned {given made : Option Float} {got : Option CodecInteger} (h : given.mapM validateSequence = .ok made)
    (hgot : Option.Rel ReturnedInteger (made.map .number) got) : ∃ back, got.mapM sequenceFromCodec = .ok back ∧ Option.Rel SameNumber given back := by
  cases mapM_ok h with
  | none =>
    cases hgot
    exact ⟨none, rfl, .none⟩
  | some hvalid =>
    cases hgot with
    | some hgot =>
      obtain ⟨back, hback, hsame⟩ := sequence_returned hvalid hgot
      exact ⟨some back, bind_ok.mpr ⟨back, hback, rfl⟩, .some hsame⟩

/-- What the code keeps of a payload, except for its properties. -/
structure Kept (now : Float) (payload back : SparkplugPayload) : Prop where
  timestamp : SameNumber payload.timestamp back.timestamp
  seq : Option.Rel SameNumber payload.seq back.seq
  metrics : List.Forall₂ (Preserved now) payload.metrics back.metrics

theorem payloadFromProto_kept {payload : SparkplugPayload} {sent got : ProtoPayload} (h : payloadToProto payload now = .ok sent)
    (hgot : Returned sent got) :
    ∃ back, payloadFromProto got = .ok back ∧ Kept now payload back ∧
      (List.Forall₂ PropertiesPreserved payload.metrics back.metrics ↔ ∀ metric ∈ payload.metrics, metric.NoPrototype) := by
  unfold payloadToProto at h
  obtain ⟨timestamp, htimestamp, h₁⟩ := bind_ok.mp h
  obtain ⟨protos, hprotos, h₂⟩ := bind_ok.mp h₁
  obtain ⟨seq, hseq, h₃⟩ := bind_ok.mp h₂
  obtain rfl := Except.ok.inj h₃
  obtain ⟨timeBack, htimeBack, hsameTime, -⟩ := codecIntegerToUnsignedSafeNumber_returned htimestamp hgot.timestamp "payload timestamp".toList
  have hmetrics : List.Forall₂ ReturnedMetric protos (got.metrics.getD []) := by
    have hgiven := hgot.metrics
    generalize got.metrics = metrics at hgiven
    cases hgiven with
    | some hall => exact hall
  obtain ⟨backs, hbacks, hpreserved, hiff⟩ := metricsFromProto_returned hprotos hmetrics
  obtain ⟨seqBack, hseqBack, hsameSeq⟩ := sequences_returned hseq hgot.seq
  refine ⟨⟨timeBack, seqBack, backs, got.body, got.uuid⟩, ?_, ⟨hsameTime, hsameSeq, hpreserved⟩, hiff⟩
  unfold payloadFromProto
  refine bind_ok.mpr ⟨_, htimeBack, ?_⟩
  refine bind_ok.mpr ⟨_, hbacks, ?_⟩
  exact bind_ok.mpr ⟨_, hseqBack, rfl⟩

theorem metricValueFromCodec_words (hlong : isLongDataType dataType = true) (hin : InBounds dataType n) (hwords : Words n long) :
    ∃ back, metricValueFromCodec (.long long) dataType = .ok back ∧ back.Is n :=
  metricValueFromCodec_exact rfl hlong hin (exactFromCodec_words hlong hin hwords)

/-- A payload that was accepted comes back with its numbers, and with its properties exactly when none that is an
integer sets the prototype instead. Words decode to their integer. -/
theorem payloadFromProto_returned (payload : SparkplugPayload) (now : Float) (sent got : ProtoPayload) (h : payloadToProto payload now = .ok sent)
    (hgot : Returned sent got) :
    (∃ back, payloadFromProto got = .ok back ∧ Kept now payload back ∧
      (List.Forall₂ PropertiesPreserved payload.metrics back.metrics ↔ ∀ metric ∈ payload.metrics, metric.NoPrototype)) ∧
    ∀ n long, Words n long →
      (-2 ^ 63 ≤ n → n < 2 ^ 63 → longLikeToBigInt long true = n) ∧ (0 ≤ n → n < 2 ^ 64 → longLikeToBigInt long false = n) ∧
      ∀ dataType, isLongDataType dataType = true → InBounds dataType n →
        ∃ back, metricValueFromCodec (.long long) dataType = .ok back ∧ back.Is n := by
  refine ⟨payloadFromProto_kept h hgot, ?_⟩
  intro n long hwords
  refine ⟨longLikeToBigInt_signed hwords, longLikeToBigInt_unsigned hwords, ?_⟩
  intro dataType hlong hin
  exact metricValueFromCodec_words hlong hin hwords

theorem Returned.refl (sent : ProtoPayload) : Returned sent sent where
  timestamp := .same _
  seq := by
    cases sent.seq with
    | none => exact .none
    | some value => exact .some (.same value)
  metrics := by
    have hproperty : ∀ properties : Option (Record ProtoPropertyValue),
        Option.Rel (fun sent got => List.Forall₂ ReturnedProperty sent.entries got.entries) properties properties := by
      intro properties
      cases properties with
      | none => exact .none
      | some record => exact .some (List.forall₂_same.mpr fun _ _ => ⟨rfl, rfl, .same _ _⟩)
    have hinteger : ∀ value : Option CodecInteger, Option.Rel ReturnedInteger value value := by
      intro value
      cases value with
      | none => exact .none
      | some value => exact .some (.same value)
    cases sent.metrics with
    | none => exact .none
    | some metrics =>
      exact .some (List.forall₂_same.mpr fun metric _ => ⟨rfl, hinteger _, hinteger _, rfl, .same _ _, rfl, hproperty _⟩)

def counterPayload (key : Text) : SparkplugPayload where
  timestamp := 1700000000000
  seq := some 255
  metrics := [{
    name := "count".toList, dataType := .uint64, value := .string "18446744073709551615".toList,
    properties := some ⟨[(key, .bigint (2 ^ 63))], List.nodup_singleton key⟩ }]

theorem ok_of_toBool {α ε : Type} {x : Except ε α} (h : x.toBool = true) : ∃ made, x = .ok made := by
  cases x with
  | error e => cases h
  | ok made => exact ⟨made, rfl⟩

theorem payloadFromProto_returned_counter : ∃ back,
    (∃ sent, payloadToProto (counterPayload "limit".toList) 0 = .ok sent ∧ payloadFromProto sent = .ok back) ∧
      Kept 0 (counterPayload "limit".toList) back ∧ List.Forall₂ PropertiesPreserved (counterPayload "limit".toList).metrics back.metrics := by
  obtain ⟨sent, hsent⟩ := ok_of_toBool (show (payloadToProto (counterPayload "limit".toList) 0).toBool = true by decide +kernel)
  obtain ⟨⟨back, hback, hkept, hiff⟩, -⟩ := payloadFromProto_returned _ _ _ _ hsent (Returned.refl sent)
  refine ⟨back, ⟨sent, hsent, hback⟩, hkept, hiff.mpr ?_⟩
  intro metric hmetric given hgiven entry hentry hkey
  obtain rfl := List.mem_singleton.mp hmetric
  obtain rfl := Option.some.inj hgiven
  obtain rfl := List.mem_singleton.mp hentry
  exact absurd hkey (by decide)

/-- A property of that name sets the prototype of the object that is made for the codec, and is lost. -/
theorem payloadFromProto_loses_property : ∃ sent back, payloadToProto (counterPayload protoKey) 0 = .ok sent ∧
    payloadFromProto sent = .ok back ∧ ¬ List.Forall₂ PropertiesPreserved (counterPayload protoKey).metrics back.metrics := by
  obtain ⟨sent, hsent⟩ := ok_of_toBool (show (payloadToProto (counterPayload protoKey) 0).toBool = true by decide +kernel)
  obtain ⟨back, hback, -, hiff⟩ := payloadFromProto_kept hsent (Returned.refl sent)
  refine ⟨sent, back, hsent, hback, ?_⟩
  rw [hiff]
  intro hno
  have hproperty := hno _ List.mem_cons_self _ rfl (protoKey, .bigint (2 ^ 63)) List.mem_cons_self rfl .uint64 rfl
  cases hproperty

end OxScada.Sparkplug.Codec
