import OxScada.Dnp3.EventEncoding
import OxScada.Js.Integers
import OxScada.Runs.Reachable

/-! A master that reads the event objects by their headers alone. It finds the events that were encoded, each with
its index, its flags and its value, and with its time where the variation has one. -/

namespace OxScada.Dnp3
open OxScada.Bytes OxScada.Js OxScada.Runs

/-! ### The master -/

inductive ValueFormat where
  | flagsOnly | unsigned32 | signed32 | float32
  deriving DecidableEq, Repr

structure EventFormat where
  value : ValueFormat
  time : TimeMode
  deriving DecidableEq, Repr

def eventFormat (group variation : UInt8) : Option EventFormat :=
  match group.toNat, variation.toNat with
  | 2, 1 | 11, 1 => some ⟨.flagsOnly, .none⟩
  | 2, 2 | 11, 2 => some ⟨.flagsOnly, .absolute⟩
  | 2, 3 => some ⟨.flagsOnly, .relative⟩
  | 22, 1 => some ⟨.unsigned32, .none⟩
  | 22, 5 => some ⟨.unsigned32, .absolute⟩
  | 32, 1 | 42, 1 => some ⟨.signed32, .none⟩
  | 32, 3 | 42, 3 => some ⟨.signed32, .absolute⟩
  | 32, 5 | 42, 5 => some ⟨.float32, .none⟩
  | 32, 7 | 42, 7 => some ⟨.float32, .absolute⟩
  | _, _ => none

inductive ReportedValue where
  | integer (n : ℤ)
  | float (value : Float)
  deriving DecidableEq

/-- An event as the master has it. The state of a binary point is in its flags. -/
structure ReportedEvent where
  group : UInt8
  index : ℕ
  flags : UInt8
  value : Option ReportedValue
  time : Option ℤ
  deriving DecidableEq

def ValueFormat.length : ValueFormat → ℕ
  | .flagsOnly => 0
  | .unsigned32 | .signed32 | .float32 => 4

def ValueFormat.read : ValueFormat → Buffer → Option ReportedValue
  | .flagsOnly, _ => none
  | .unsigned32, octets => some (.integer (readUIntLE octets))
  | .signed32, octets => some (.integer (readIntLE octets))
  | .float32, octets => some (.float (readFloatLE octets))

/-- The time of an event. A relative time needs a common time before it. -/
def readTime (cto : Option ℤ) : TimeMode → Buffer → Option (Option ℤ)
  | .none, _ => some none
  | .absolute, octets => some (some (readUIntLE octets))
  | .relative, octets => cto.map fun base => some (base + readUIntLE octets)

def split (n : ℕ) (octets : Buffer) : Option (Buffer × Buffer) :=
  if octets.length < n then none else some (octets.take n, octets.drop n)

def decodeItem (group : UInt8) (format : EventFormat) (width : ℕ) (cto : Option ℤ) (octets : Buffer) : Option (ReportedEvent × Buffer) := do
  let (index, octets) ← split width octets
  let (flags, octets) ← split 1 octets
  let (value, octets) ← split format.value.length octets
  let (time, octets) ← split (timeFieldLength format.time) octets
  let time ← readTime cto format.time time
  return (⟨group, readUIntLE index, flags.headD 0, format.value.read value, time⟩, octets)

def decodeItems (group : UInt8) (format : EventFormat) (width : ℕ) (cto : Option ℤ) : ℕ → Buffer → Option (List ReportedEvent × Buffer)
  | 0, octets => some ([], octets)
  | count + 1, octets => do
    let (event, octets) ← decodeItem group format width cto octets
    let (events, octets) ← decodeItems group format width cto count octets
    return (event :: events, octets)

/-- The octets of an index and of a count, by the qualifier. -/
def indexWidth (qualifier : UInt8) : Option ℕ :=
  if qualifier = 0x17 then some 1
  else if qualifier = 0x28 then some 2
  else none

/-- The objects, with the rounds that are left and the latest common time. -/
def decodeObjects : ℕ → Option ℤ → Buffer → Option (List ReportedEvent)
  | _, _, [] => some []
  | rounds + 1, cto, group :: variation :: qualifier :: octets =>
    if group = 51 ∧ variation = 1 ∧ qualifier = 0x07 then do
      let (count, octets) ← split 1 octets
      let (time, octets) ← split 6 octets
      if count = [1] then decodeObjects rounds (some (readUIntLE time)) octets else none
    else do
      let format ← eventFormat group variation
      let width ← indexWidth qualifier
      let (count, octets) ← split width octets
      let (events, octets) ← decodeItems group format width cto (readUIntLE count) octets
      let later ← decodeObjects rounds cto octets
      return events ++ later
  | _, _, _ => none

def decodeEvents (octets : Buffer) : Option (List ReportedEvent) := decodeObjects octets.length none octets

/-! ### What the master is to find -/

def EventVariationPolicy.hasTime (policy : EventVariationPolicy) : Dnp3PointType → Bool
  | .binaryInput | .binaryOutput => policy.binary ≠ .noTime
  | .counter => policy.counter ≠ .noTime
  | .analogInput | .analogOutput => policy.analog ≠ .noTime

def reportedValue (event : Dnp3Event) (encoding : AnalogEncoding) : Option ReportedValue :=
  match event.pointType, encoding with
  | .binaryInput, _ | .binaryOutput, _ => none
  | .counter, _ => some (.integer (clampInt event.value.toNumber 0 0xffffffff))
  | .analogInput, .int32 | .analogOutput, .int32 => some (.integer (clampInt event.value.toNumber (-2147483648) 2147483647))
  | .analogInput, .float32 | .analogOutput, .float32 => some (.float (readFloatLE (writeFloatLE event.value.toNumber)))

def report (policy : EventVariationPolicy) (encoding : AnalogEncoding) (time : ℤ) (event : Dnp3Event) : ReportedEvent where
  group := eventGroupFor event.pointType
  index := event.index
  flags := event.flags
  value := reportedValue event encoding
  time := if policy.hasTime event.pointType then some time else none

/-! ### Fields -/

variable {d first : EventDescriptor} {format : EventFormat} {cto : Option ℤ} {time base : ℤ} {baseTime : Float} {field tail : Buffer} {n : ℕ}

theorem split_append {front : Buffer} (h : front.length = n) (tail : Buffer) : split n (front ++ tail) = some (front, tail) := by
  rw [split, if_neg (by rw [List.length_append]; omega), List.take_left' h, List.drop_left' h]

theorem clampInt_bounds (value : Float) {low high : ℤ} (h : low ≤ high) : low ≤ clampInt value low high ∧ clampInt value low high ≤ high :=
  ⟨le_max_left _ _, max_le h (min_le_left _ _)⟩

theorem readUIntLE_writeIntLE {width : ℕ} (hlow : 0 ≤ time) (hhigh : time < 256 ^ width) : (readUIntLE (writeIntLE width time) : ℤ) = time := by
  have hpow : (2 : ℤ) ^ (8 * width) = 256 ^ width := by
    rw [pow_mul]
    norm_num
  have hfits : time.toNat < 256 ^ width := by
    zify
    rwa [Int.toNat_of_nonneg hlow]
  rw [writeIntLE, hpow, Int.emod_eq_of_lt hlow hhigh, readUIntLE_writeUIntLE hfits, Int.toNat_of_nonneg hlow]

theorem readIntLE_writeIntLE (hlow : -2147483648 ≤ time) (hhigh : time ≤ 2147483647) : readIntLE (writeIntLE 4 time) = time := by
  have hunsigned : (readUIntLE (writeIntLE 4 time) : ℤ) = time % 2 ^ 32 := by
    have hfits : (time % 2 ^ 32).toNat < 256 ^ 4 := by omega
    rw [writeIntLE, readUIntLE_writeUIntLE hfits, Int.toNat_of_nonneg (by omega)]
  rw [readIntLE, hunsigned, writeIntLE_length]
  split_ifs <;> omega

theorem readTime_timeField (htime : Exactly time d.timestamp.toModel.unpack) (hlow : 0 ≤ time) (hhigh : time < 2 ^ 48)
    (hbase : d.timeMode = .relative → cto = some base ∧ Exactly base baseTime.toModel.unpack ∧ 0 ≤ base ∧ base < 2 ^ 48)
    (h : d.timeField baseTime = some field) : readTime cto d.timeMode field = some (if d.timeMode = .none then none else some time) := by
  unfold EventDescriptor.timeField at h
  cases hmode : d.timeMode with
  | none => rfl
  | absolute =>
    rw [hmode] at h
    obtain rfl := Option.some.inj h
    have hclamp : clampInt d.timestamp 0 0xffffffffffff = time := by
      rw [clampInt_exactly htime, min_eq_right (by omega), max_eq_right hlow]
    have hfield : (readUIntLE (encodeDnp3Time d.timestamp) : ℤ) = time := by
      rw [encodeDnp3Time, hclamp, readUIntLE_writeIntLE hlow (by norm_num; omega)]
    rw [readTime, hfield, if_neg (by decide)]
  | relative =>
    rw [hmode] at h
    obtain ⟨rfl, hexact, hbaseLow, hbaseHigh⟩ := hbase hmode
    have hoffset := sub_exactly htime hexact (by omega)
    have hzero : Exactly 0 (0 : Float).toModel.unpack := exactly_of_beq (by decide) (by decide +kernel)
    have hgreatest : Exactly 0xffff (0xffff : Float).toModel.unpack := exactly_of_beq (by decide) (by decide +kernel)
    dsimp only at h
    split_ifs at h with hwithin
    obtain rfl := Option.some.inj h
    rw [lt_iff_exactly hoffset hzero, lt_iff_exactly hgreatest hoffset, not_or, not_lt, not_lt] at hwithin
    have hclamp : clampInt (d.timestamp - baseTime) 0 0xffff = time - base := by
      rw [clampInt_exactly hoffset, min_eq_right hwithin.2, max_eq_right hwithin.1]
    have hfield : (readUIntLE (writeIntLE 2 (time - base)) : ℤ) = time - base := readUIntLE_writeIntLE hwithin.1 (by omega)
    rw [hclamp, readTime, hfield, if_neg (by decide), Option.map_some, add_sub_cancel]

/-! ### Items -/

/-- The format of the object that an event is encoded as, and what its octets stand for. -/
structure Describes (d : EventDescriptor) (format : EventFormat) (flags : UInt8) (value : Option ReportedValue) : Prop where
  known : eventFormat d.group d.variation = some format
  timed : format.time = d.timeMode
  octets : ∃ octets, d.core = flags :: octets ∧ octets.length = format.value.length ∧ format.value.read octets = value

theorem Describes.group_ne {flags : UInt8} {value : Option ReportedValue} (h : Describes d format flags value) : d.group ≠ 51 := by
  intro hgroup
  have hknown := h.known
  rw [hgroup] at hknown
  cases hknown

theorem describeEvent_describes (event : Dnp3Event) (encoding : AnalogEncoding) (policy : EventVariationPolicy) :
    ∃ format, Describes (describeEvent event encoding policy) format event.flags (reportedValue event encoding) := by
  obtain ⟨hleast, hgreatest⟩ := clampInt_bounds event.value.toNumber (by decide : (0 : ℤ) ≤ 0xffffffff)
  have hcounter : ValueFormat.unsigned32.read (writeIntLE 4 (clampInt event.value.toNumber 0 0xffffffff)) =
      some (.integer (clampInt event.value.toNumber 0 0xffffffff)) := by
    rw [ValueFormat.read, readUIntLE_writeIntLE hleast (by omega)]
  obtain ⟨hleast', hgreatest'⟩ := clampInt_bounds event.value.toNumber (by decide : (-2147483648 : ℤ) ≤ 2147483647)
  have hanalog : ValueFormat.signed32.read (writeIntLE 4 (clampInt event.value.toNumber (-2147483648) 2147483647)) =
      some (.integer (clampInt event.value.toNumber (-2147483648) 2147483647)) := by
    rw [ValueFormat.read, readIntLE_writeIntLE hleast' hgreatest']
  unfold describeEvent reportedValue
  cases event.pointType with
  | binaryInput | binaryOutput => cases policy.binary <;> exact ⟨_, rfl, rfl, ⟨[], rfl, rfl, rfl⟩⟩
  | counter => cases policy.counter <;> exact ⟨_, rfl, rfl, ⟨_, rfl, writeIntLE_length _ _, hcounter⟩⟩
  | analogInput | analogOutput =>
    cases encoding with
    | int32 => cases policy.analog <;> exact ⟨_, rfl, rfl, ⟨_, rfl, writeIntLE_length _ _, hanalog⟩⟩
    | float32 => cases policy.analog <;> exact ⟨_, rfl, rfl, ⟨_, rfl, writeFloatLE_length _, rfl⟩⟩

theorem describeEvent_hasTime (event : Dnp3Event) (encoding : AnalogEncoding) (policy : EventVariationPolicy) :
    (describeEvent event encoding policy).timeMode = .none ↔ policy.hasTime event.pointType = false := by
  unfold describeEvent EventVariationPolicy.hasTime
  cases event.pointType with
  | binaryInput | binaryOutput => cases policy.binary <;> simp [binaryTimeMode]
  | counter => cases policy.counter <;> simp [NumericEventTimeMode.timeMode]
  | analogInput | analogOutput => cases policy.analog <;> simp [NumericEventTimeMode.timeMode]

theorem decodeItem_ok {flags : UInt8} {value : Option ReportedValue} {width : ℕ} {reported : Option ℤ} (h : Describes d format flags value)
    (hindex : d.index < 256 ^ width) (hfield : field.length = timeFieldLength d.timeMode) (hread : readTime cto d.timeMode field = some reported)
    (tail : Buffer) :
    decodeItem d.group format width cto (writeUIntLE width d.index ++ d.core ++ field ++ tail) = some (⟨d.group, d.index, flags, value, reported⟩, tail) := by
  obtain ⟨octets, hcore, hlength, hvalue⟩ := h.octets
  have hsplit : writeUIntLE width d.index ++ d.core ++ field ++ tail = writeUIntLE width d.index ++ ([flags] ++ (octets ++ (field ++ tail))) := by
    rw [hcore]
    simp
  have htime : field.length = timeFieldLength format.time := by rw [h.timed, hfield]
  rw [decodeItem, hsplit, split_append (writeUIntLE_length _ _)]
  simp only [Option.bind_eq_bind, Option.bind_some]
  rw [split_append (by rfl : [flags].length = 1)]
  simp only [Option.bind_some]
  rw [split_append hlength]
  simp only [Option.bind_some]
  rw [split_append htime]
  simp only [Option.bind_some]
  rw [h.timed, hread, hvalue, readUIntLE_writeUIntLE hindex]
  rfl

/-! ### Runs -/

structure EventDescriptor.Shares (d first : EventDescriptor) : Prop where
  group : d.group = first.group
  variation : d.variation = first.variation
  width : d.twoOctet = first.twoOctet
  field : ∃ field, d.timeField first.timestamp = some field

def itemOctets (first d : EventDescriptor) : Buffer :=
  writeUIntLE first.prefixLen d.index ++ d.core ++ (d.timeField first.timestamp).getD []

variable {maxBytes taken count rounds used : ℕ} {ds : List EventDescriptor} {run : EventRun}

structure EventRun.Collects (run : EventRun) (first : EventDescriptor) (ds done : List EventDescriptor) : Prop where
  front : ds = done ++ run.rest
  seqs : run.seqs = done.map (·.seq)
  octets : run.octets = done.flatMap (itemOctets first)
  shares : ∀ d ∈ done, d.Shares first

theorem collectRun_collects (hds : ∀ d ∈ ds, d.index ≤ 0xffff) (hcount : count ≤ first.maxCount)
    (h : collectRun first maxBytes taken count ds = .ok run) : ∃ done, run.Collects first ds done ∧ count + done.length ≤ first.maxCount := by
  induction ds generalizing taken count run with
  | nil =>
    obtain rfl := Except.ok.inj h
    exact ⟨[], ⟨rfl, rfl, rfl, fun d hd => absurd hd List.not_mem_nil⟩, hcount⟩
  | cons d rest ih =>
    have hstop : ∀ {run : EventRun}, (Except.ok ⟨[], [], d :: rest⟩ : Except String EventRun) = .ok run →
        ∃ done, run.Collects first (d :: rest) done ∧ count + done.length ≤ first.maxCount := by
      intro run hrun
      obtain rfl := Except.ok.inj hrun
      exact ⟨[], ⟨rfl, rfl, rfl, fun d hd => absurd hd List.not_mem_nil⟩, hcount⟩
    rw [collectRun] at h
    split_ifs at h with hbreak
    · exact hstop h
    · rw [not_or, not_or, not_or, not_le, not_not, not_not, not_not] at hbreak
      obtain ⟨hroom, hgroup, hvariation, hwidth⟩ := hbreak
      cases hfield : d.timeField first.timestamp with
      | none =>
        rw [hfield] at h
        exact hstop h
      | some field =>
        rw [hfield] at h
        dsimp only at h
        split_ifs at h with hfits
        · exact hstop h
        · have hindex := EventDescriptor.index_lt (hds d List.mem_cons_self) hwidth
          rw [writeChecked_ok hindex] at h
          obtain ⟨later, hlater, rfl⟩ := map_ok.mp h
          obtain ⟨done, hlaterDone, hlaterCount⟩ := ih (fun d' hd' => hds d' (List.mem_cons_of_mem d hd')) hroom hlater
          refine ⟨d :: done, ⟨?_, ?_, ?_, fun d' hd' => ?_⟩, ?_⟩
          · rw [hlaterDone.front]
            rfl
          · rw [List.map_cons, ← hlaterDone.seqs]
          · rw [List.flatMap_cons, ← hlaterDone.octets, itemOctets, hfield, Option.getD_some]
          · rcases List.mem_cons.mp hd' with rfl | hdone
            · exact ⟨hgroup, hvariation, hwidth, field, hfield⟩
            · exact hlaterDone.shares d' hdone
          · rw [List.length_cons]
            omega

/-! ### Events -/

def encodingOf (m : Dnp3PointMap) (event : Dnp3Event) : AnalogEncoding :=
  ((m.getPoint event.pointType event.index).bind (·.encoding)).getD .float32

variable {m : Dnp3PointMap} {policy : EventVariationPolicy} {events : List Dnp3Event} {times : Dnp3Event → ℤ}

def descriptorOf (m : Dnp3PointMap) (policy : EventVariationPolicy) (event : Dnp3Event) : EventDescriptor :=
  describeEvent event (encodingOf m event) policy

def reportOf (m : Dnp3PointMap) (policy : EventVariationPolicy) (times : Dnp3Event → ℤ) (event : Dnp3Event) : ReportedEvent :=
  report policy (encodingOf m event) (times event) event

structure Dnp3Event.Timed (event : Dnp3Event) (time : ℤ) : Prop where
  low : 0 ≤ time
  high : time < 2 ^ 48
  exactly : Exactly time event.timestamp.toModel.unpack

theorem descriptorOf_timestamp (m : Dnp3PointMap) (policy : EventVariationPolicy) (event : Dnp3Event) :
    (descriptorOf m policy event).timestamp = event.timestamp := by
  unfold descriptorOf describeEvent
  dsimp only
  split <;> rfl

theorem descriptorOf_group (m : Dnp3PointMap) (policy : EventVariationPolicy) (event : Dnp3Event) :
    (descriptorOf m policy event).group = eventGroupFor event.pointType := by
  unfold descriptorOf describeEvent
  dsimp only
  split <;> rfl

variable {event head : Dnp3Event}

theorem describes_shares (hshares : (descriptorOf m policy event).Shares (descriptorOf m policy head))
    (hformat : eventFormat (descriptorOf m policy head).group (descriptorOf m policy head).variation = some format) :
    Describes (descriptorOf m policy event) format event.flags (reportedValue event (encodingOf m event)) := by
  obtain ⟨format', hdescribes⟩ := describeEvent_describes event (encodingOf m event) policy
  have hknown := hdescribes.known
  rw [← hshares.group, ← hshares.variation] at hformat
  obtain rfl := Option.some.inj (hformat.symm.trans hknown)
  exact hdescribes

theorem shares_self (d : EventDescriptor) : d.Shares d := ⟨rfl, rfl, rfl, d.timeField_self⟩

theorem decodeItem_event (htimed : event.Timed (times event)) (hhead : head.Timed (times head)) (hindex : event.index ≤ 0xffff)
    (hshares : (descriptorOf m policy event).Shares (descriptorOf m policy head))
    (hformat : eventFormat (descriptorOf m policy head).group (descriptorOf m policy head).variation = some format)
    (hcto : (descriptorOf m policy head).timeMode = .relative → cto = some (times head)) (tail : Buffer) :
    decodeItem (descriptorOf m policy head).group format (descriptorOf m policy head).prefixLen cto
      (itemOctets (descriptorOf m policy head) (descriptorOf m policy event) ++ tail) = some (reportOf m policy times event, tail) := by
  have hdescribes := describes_shares hshares hformat
  have hmode : (descriptorOf m policy event).timeMode = (descriptorOf m policy head).timeMode :=
    hdescribes.timed.symm.trans (describes_shares (shares_self _) hformat).timed
  obtain ⟨field, hfield⟩ := hshares.field
  have hexact : Exactly (times event) (descriptorOf m policy event).timestamp.toModel.unpack := by
    rw [descriptorOf_timestamp]
    exact htimed.exactly
  have hheadExact : Exactly (times head) (descriptorOf m policy head).timestamp.toModel.unpack := by
    rw [descriptorOf_timestamp]
    exact hhead.exactly
  have hread := readTime_timeField hexact htimed.low htimed.high
    (fun hrelative => ⟨hcto (hmode.symm.trans hrelative), hheadExact, hhead.low, hhead.high⟩) hfield
  have hitem : (descriptorOf m policy event).index = event.index := (describeEvent_seq event (encodingOf m event) policy).2
  have hwidth : (descriptorOf m policy event).index < 256 ^ (descriptorOf m policy head).prefixLen :=
    EventDescriptor.index_lt (hitem.trans_le hindex) hshares.width
  have htime : (if (descriptorOf m policy event).timeMode = .none then none else some (times event)) =
      if policy.hasTime event.pointType then some (times event) else none := by
    by_cases hnone : (descriptorOf m policy event).timeMode = .none
    · rw [if_pos hnone, (describeEvent_hasTime event (encodingOf m event) policy).mp hnone]
      rfl
    · have htrue : policy.hasTime event.pointType = true :=
        Bool.eq_true_of_not_eq_false fun hfalse => hnone ((describeEvent_hasTime event (encodingOf m event) policy).mpr hfalse)
      rw [if_neg hnone, htrue]
      rfl
  rw [itemOctets, hfield, Option.getD_some, ← hshares.group, decodeItem_ok hdescribes hwidth (EventDescriptor.timeField_length hfield) hread tail,
    htime, descriptorOf_group, hitem]
  rfl

theorem decodeItems_events (htimed : ∀ event ∈ events, event.Timed (times event)) (hhead : head.Timed (times head))
    (hindex : ∀ event ∈ events, event.index ≤ 0xffff)
    (hshares : ∀ event ∈ events, (descriptorOf m policy event).Shares (descriptorOf m policy head))
    (hformat : eventFormat (descriptorOf m policy head).group (descriptorOf m policy head).variation = some format)
    (hcto : (descriptorOf m policy head).timeMode = .relative → cto = some (times head)) (tail : Buffer) :
    decodeItems (descriptorOf m policy head).group format (descriptorOf m policy head).prefixLen cto events.length
      ((events.map (descriptorOf m policy)).flatMap (itemOctets (descriptorOf m policy head)) ++ tail) =
      some (events.map (reportOf m policy times), tail) := by
  induction events with
  | nil => rfl
  | cons event rest ih =>
    have hrest := ih (fun e he => htimed e (List.mem_cons_of_mem _ he)) (fun e he => hindex e (List.mem_cons_of_mem _ he))
      (fun e he => hshares e (List.mem_cons_of_mem _ he))
    have hitem := decodeItem_event (htimed event List.mem_cons_self) hhead (hindex event List.mem_cons_self)
      (hshares event List.mem_cons_self) hformat hcto
      ((rest.map (descriptorOf m policy)).flatMap (itemOctets (descriptorOf m policy head)) ++ tail)
    rw [List.map_cons, List.flatMap_cons, List.append_assoc, List.length_cons, decodeItems, hitem]
    simp only [Option.bind_eq_bind, Option.bind_some]
    rw [hrest]
    rfl

/-! ### Objects -/

def objectOctets (first : EventDescriptor) (run : EventRun) : Buffer :=
  [first.group, first.variation, if first.twoOctet then 0x28 else 0x17] ++ writeUIntLE first.prefixLen run.seqs.length ++ run.octets

theorem indexWidth_qualifier (first : EventDescriptor) : indexWidth (if first.twoOctet then 0x28 else 0x17) = some first.prefixLen := by
  unfold EventDescriptor.prefixLen
  by_cases htwo : first.twoOctet = true
  · rw [if_pos htwo, if_pos htwo]
    rfl
  · rw [if_neg htwo, if_neg htwo]
    rfl

theorem maxCount_lt (first : EventDescriptor) : first.maxCount < 256 ^ first.prefixLen := by
  unfold EventDescriptor.maxCount EventDescriptor.prefixLen
  split_ifs <;> decide

theorem decodeObjects_cto (hhead : head.Timed (times head)) (rounds : ℕ) (tail : Buffer) :
    decodeObjects (rounds + 1) cto (buildCtoObject head.timestamp ++ tail) = decodeObjects rounds (some (times head)) tail := by
  have hclamp : clampInt head.timestamp 0 0xffffffffffff = times head := by
    have hhigh := hhead.high
    rw [clampInt_exactly hhead.exactly, min_eq_right (by omega), max_eq_right hhead.low]
  have hread : (readUIntLE (writeIntLE 6 (times head)) : ℤ) = times head := readUIntLE_writeIntLE hhead.low (by have := hhead.high; norm_num; omega)
  have hsplit : buildCtoObject head.timestamp ++ tail = 51 :: 1 :: 0x07 :: ([1] ++ (writeIntLE 6 (times head) ++ tail)) := by
    rw [buildCtoObject, encodeDnp3Time, hclamp]
    rfl
  rw [hsplit, decodeObjects, if_pos (by decide), split_append (by rfl : [(1 : UInt8)].length = 1)]
  simp only [Option.bind_eq_bind, Option.bind_some]
  rw [split_append (writeIntLE_length _ _)]
  simp only [Option.bind_some, if_true, hread]

theorem decodeObjects_object {done : List Dnp3Event} (htimed : ∀ event ∈ done, event.Timed (times event)) (hhead : head.Timed (times head))
    (hindex : ∀ event ∈ done, event.index ≤ 0xffff) (hcollects : run.Collects (descriptorOf m policy head) ds (done.map (descriptorOf m policy)))
    (hcount : done.length ≤ (descriptorOf m policy head).maxCount)
    (hcto : (descriptorOf m policy head).timeMode = .relative → cto = some (times head)) (rounds : ℕ) (tail : Buffer) :
    decodeObjects (rounds + 1) cto (objectOctets (descriptorOf m policy head) run ++ tail) =
      (decodeObjects rounds cto tail).map (done.map (reportOf m policy times) ++ ·) := by
  obtain ⟨format, hdescribes⟩ := describeEvent_describes head (encodingOf m head) policy
  have hlength : run.seqs.length = done.length := by rw [hcollects.seqs, List.length_map, List.length_map]
  have hshares : ∀ event ∈ done, (descriptorOf m policy event).Shares (descriptorOf m policy head) := fun event hevent =>
    hcollects.shares _ (List.mem_map_of_mem hevent)
  have hitems := decodeItems_events htimed hhead hindex hshares hdescribes.known hcto tail
  have hno : ¬((descriptorOf m policy head).group = 51 ∧ (descriptorOf m policy head).variation = 1 ∧
      (if (descriptorOf m policy head).twoOctet then (0x28 : UInt8) else 0x17) = 0x07) := fun h => hdescribes.group_ne h.1
  have hread : readUIntLE (writeUIntLE (descriptorOf m policy head).prefixLen done.length) = done.length :=
    readUIntLE_writeUIntLE (hcount.trans_lt (maxCount_lt _))
  have hsplit : objectOctets (descriptorOf m policy head) run ++ tail =
      (descriptorOf m policy head).group :: (descriptorOf m policy head).variation ::
        (if (descriptorOf m policy head).twoOctet then (0x28 : UInt8) else 0x17) ::
          (writeUIntLE (descriptorOf m policy head).prefixLen done.length ++
            ((done.map (descriptorOf m policy)).flatMap (itemOctets (descriptorOf m policy head)) ++ tail)) := by
    rw [objectOctets, hlength, hcollects.octets]
    simp
  have hknown : eventFormat (descriptorOf m policy head).group (descriptorOf m policy head).variation = some format := hdescribes.known
  rw [hsplit, decodeObjects, if_neg hno, hknown, indexWidth_qualifier]
  simp only [Option.bind_eq_bind, Option.bind_some]
  rw [split_append (writeUIntLE_length _ _)]
  simp only [Option.bind_some]
  rw [hread, hitems]
  simp only [Option.bind_some]
  cases decodeObjects rounds cto tail <;> rfl

/-- Events from the front are encoded, and the master finds them, however many rounds more it has. -/
def Decodes (m : Dnp3PointMap) (policy : EventVariationPolicy) (times : Dnp3Event → ℤ) (events : List Dnp3Event) (encoded : Buffer × List ℕ) : Prop :=
  ∃ done rest, events = done ++ rest ∧ encoded.2 = done.map (·.seq) ∧
    ∀ fuel cto, encoded.1.length ≤ fuel → decodeObjects fuel cto encoded.1 = some (done.map (reportOf m policy times))

theorem decodes_nothing {encoded : Buffer × List ℕ} (h : (Except.ok ([], []) : Except String (Buffer × List ℕ)) = .ok encoded) :
    Decodes m policy times events encoded := by
  obtain rfl := Except.ok.inj h
  refine ⟨[], events, rfl, rfl, fun fuel cto _ => ?_⟩
  rw [decodeObjects]
  rfl

theorem encodeRuns_decodes {encoded : Buffer × List ℕ} (htimed : ∀ event ∈ events, event.Timed (times event))
    (hindex : ∀ event ∈ events, event.index ≤ 0xffff)
    (h : encodeRuns maxBytes rounds used (events.map (descriptorOf m policy)) = .ok encoded) : Decodes m policy times events encoded := by
  induction rounds generalizing events used encoded with
  | zero => exact decodes_nothing h
  | succ rounds ih =>
    cases events with
    | nil => exact decodes_nothing h
    | cons head later =>
      rw [List.map_cons] at h
      by_cases hroom : used + (descriptorOf m policy head).cto.length + (descriptorOf m policy head).headerLen + (descriptorOf m policy head).itemLen ≤ maxBytes
      · have hds : ∀ d ∈ (head :: later).map (descriptorOf m policy), d.index ≤ 0xffff := by
          intro d hd
          obtain ⟨event, hevent, rfl⟩ := List.mem_map.mp hd
          exact (describeEvent_seq event (encodingOf m event) policy).2.trans_le (hindex event hevent)
        rw [List.map_cons] at hds
        obtain ⟨run, hrun, -⟩ := collectRun_ok (descriptorOf m policy head) hds
          (used + (descriptorOf m policy head).cto.length + (descriptorOf m policy head).headerLen) 0
        obtain ⟨done, hcollects, hcount⟩ := collectRun_collects hds (Nat.zero_le _) hrun
        rw [encodeRuns_run hroom hrun] at h
        split_ifs at h with hempty
        · exact decodes_nothing h
        -- the objects of the first run stand before those that the later rounds encode
        · obtain ⟨front, back, hevents, rfl, hback⟩ := List.map_eq_append_iff.mp (List.map_cons.trans hcollects.front)
          rw [← hback] at h
          cases hlater : encodeRuns maxBytes rounds
              (used + (descriptorOf m policy head).cto.length + (descriptorOf m policy head).headerLen + run.octets.length)
              (back.map (descriptorOf m policy)) with
          | error e =>
            rw [hlater] at h
            cases h
          | ok encodedLater =>
            rw [hlater] at h
            obtain rfl := Except.ok.inj h
            show Decodes m policy times (head :: later) (runOctets (descriptorOf m policy head) run ++ encodedLater.1, run.seqs ++ encodedLater.2)
            have hback' : ∀ event ∈ back, event ∈ head :: later := fun event hevent => by
              rw [hevents]
              exact List.mem_append_right front hevent
            have hfront : ∀ event ∈ front, event ∈ head :: later := fun event hevent => by
              rw [hevents]
              exact List.mem_append_left back hevent
            obtain ⟨done, rest, rfl, hseqs, hdecoded⟩ :=
              ih (fun event hevent => htimed event (hback' event hevent)) (fun event hevent => hindex event (hback' event hevent)) hlater
            refine ⟨front ++ done, rest, ?_, ?_, fun fuel cto hfuel => ?_⟩
            · rw [hevents, List.append_assoc]
            · show run.seqs ++ encodedLater.2 = _
              rw [hseqs, hcollects.seqs, List.map_append, List.map_map]
              congr 1
              exact List.map_congr_left fun event _ => (describeEvent_seq event (encodingOf m event) policy).1
            · have hhead : head.Timed (times head) := htimed head List.mem_cons_self
              have hfrontTimed := fun event hevent => htimed event (hfront event hevent)
              have hfrontIndex := fun event hevent => hindex event (hfront event hevent)
              rw [Nat.zero_add, List.length_map] at hcount
              have hoctets : runOctets (descriptorOf m policy head) run ++ encodedLater.1 =
                  (descriptorOf m policy head).cto ++ (objectOctets (descriptorOf m policy head) run ++ encodedLater.1) := by
                rw [runOctets, objectOctets]
                simp
              have hheader : 3 ≤ (objectOctets (descriptorOf m policy head) run).length := by
                rw [objectOctets, List.append_assoc, List.length_append]
                exact Nat.le_add_right 3 _
              dsimp only at hfuel ⊢
              rw [hoctets] at hfuel ⊢
              rw [List.length_append, List.length_append] at hfuel
              rw [List.map_append]
              -- the common time is an object of its own and takes a round of the decoder
              by_cases hrelative : (descriptorOf m policy head).timeMode = .relative
              · have hctoOctets : (descriptorOf m policy head).cto = buildCtoObject head.timestamp := by
                  rw [EventDescriptor.cto, if_pos hrelative, descriptorOf_timestamp]
                have hctoLength : (buildCtoObject head.timestamp).length = 10 := by
                  rw [buildCtoObject, encodeDnp3Time, List.length_append, writeIntLE_length]
                  rfl
                rw [hctoOctets, hctoLength] at hfuel
                obtain ⟨fuel, rfl⟩ : ∃ left, fuel = left + 1 + 1 := ⟨fuel - 2, by omega⟩
                rw [hctoOctets, decodeObjects_cto hhead,
                  decodeObjects_object hfrontTimed hhead hfrontIndex hcollects hcount (fun _ => rfl), hdecoded fuel _ (by omega)]
                rfl
              · have hctoOctets : (descriptorOf m policy head).cto = [] := by
                  rw [EventDescriptor.cto, if_neg hrelative]
                obtain ⟨fuel, rfl⟩ : ∃ left, fuel = left + 1 := ⟨fuel - 1, by omega⟩
                rw [hctoOctets, List.nil_append,
                  decodeObjects_object hfrontTimed hhead hfrontIndex hcollects hcount (fun h => absurd h hrelative), hdecoded fuel _ (by omega)]
                rfl
      · rw [encodeRuns, if_pos (not_le.mp hroom)] at h
        exact decodes_nothing h

/-- The objects are no longer than there is room for, and a master that follows their headers has the events from the
front: where each is, its flags, its value, and its time if its variation has one. -/
theorem events_decodable (policy : EventVariationPolicy) (maxBytes : ℕ) (hmapped : ∀ event ∈ events, event.Mapped m)
    (htimes : ∀ event ∈ events, 0 ≤ times event ∧ times event < 2 ^ 48 ∧ (event.timestamp == ofInteger (times event)) = true) :
    ∃ encoded done rest, buildEventObjects m policy maxBytes events = .ok encoded ∧ encoded.bytes.length ≤ maxBytes ∧
      events = done ++ rest ∧ encoded.encodedSeqs = done.map (·.seq) ∧
      decodeEvents encoded.bytes = some (done.map (reportOf m policy times)) := by
  have htimed : ∀ event ∈ events, event.Timed (times event) := by
    intro event hevent
    obtain ⟨hlow, hhigh, heq⟩ := htimes event hevent
    exact ⟨hlow, hhigh, exactly_of_beq (by omega) heq⟩
  obtain ⟨encoded, hencoded, hlength, -⟩ := buildEventObjects_ok policy maxBytes hmapped
  have hruns := hencoded
  have hdescribed : describeEvents m policy events = events.map (descriptorOf m policy) := describeEvents_mapped policy hmapped
  rw [buildEventObjects, hdescribed] at hruns
  obtain ⟨result, hresult, rfl⟩ := map_ok.mp hruns
  obtain ⟨done, rest, hevents, hseqs, hdecoded⟩ := encodeRuns_decodes htimed (fun event hevent => (hmapped event hevent).index) hresult
  exact ⟨_, done, rest, hencoded, hlength, hevents, hseqs, hdecoded _ none le_rfl⟩

def feeder : Dnp3PointMap where
  points := [⟨⟨"breaker", .binaryInput, 7, some .class1, none, none⟩, ⟨.boolean false, .bad, 0⟩⟩,
    ⟨⟨"level", .analogInput, 300, some .class2, some .float32, none⟩, ⟨.number 0, .bad, 0⟩⟩]

def breakerAt (timestamp : Float) : Dnp3Event := ⟨1, .binaryInput, 7, .class1, .boolean true, 0x81, timestamp⟩

def levelOf (value : Float) : Dnp3Event := ⟨2, .analogInput, 300, .class2, .number value, 0x01, 5⟩

/-- Two relative times after a common one. -/
theorem feeder_decodable :
    ∃ encoded done rest, buildEventObjects feeder { binary := .relativeTime } 40 [breakerAt 5, breakerAt 9, levelOf 2.5] = .ok encoded ∧
      encoded.bytes.length ≤ 40 ∧ [breakerAt 5, breakerAt 9, levelOf 2.5] = done ++ rest ∧ encoded.encodedSeqs = done.map (·.seq) ∧
      decodeEvents encoded.bytes =
        some (done.map (reportOf feeder { binary := .relativeTime } fun event => if event = breakerAt 9 then 9 else 5)) := by
  refine events_decodable { binary := .relativeTime } 40 (fun event hevent => ?_) (fun event hevent => ?_)
  · simp only [List.mem_cons, List.not_mem_nil, or_false] at hevent
    rcases hevent with rfl | rfl | rfl <;> exact ⟨by decide, by decide⟩
  · simp only [List.mem_cons, List.not_mem_nil, or_false] at hevent
    rcases hevent with rfl | rfl | rfl <;> decide +kernel

theorem encoded_eq {result : Except String EventEncodeResult} {bytes : Buffer} {seqs : List ℕ}
    (h : result.map (fun encoded => (encoded.bytes, encoded.encodedSeqs)) = .ok (bytes, seqs)) :
    ∃ encoded, result = .ok encoded ∧ encoded.bytes = bytes ∧ encoded.encodedSeqs = seqs := by
  cases result with
  | error e => cases h
  | ok encoded =>
    obtain ⟨hbytes, hseqs⟩ := Prod.mk.inj (Except.ok.inj h)
    exact ⟨encoded, rfl, hbytes, hseqs⟩

/-- Not every master finds the times and the values: an event without a time is encoded as the same octets at any time, and two
numbers may have one binary32 value. -/
theorem times_and_values_lost :
    (¬∃ decode : Buffer → List ℤ, ∀ m policy maxBytes events times, (∀ event ∈ events, Dnp3Event.Mapped m event) →
      (∀ event ∈ events, 0 ≤ times event ∧ times event < 2 ^ 48 ∧ (event.timestamp == ofInteger (times event)) = true) →
      ∀ encoded, buildEventObjects m policy maxBytes events = .ok encoded →
        decode encoded.bytes = (events.take encoded.encodedSeqs.length).map times) ∧
      ¬∃ decode : Buffer → List ℤ, ∀ m policy maxBytes events,
        (∀ event ∈ events, Dnp3Event.Mapped m event ∧ event.pointType = .analogInput) →
        ∀ encoded, buildEventObjects m policy maxBytes events = .ok encoded →
          decode encoded.bytes =
            (events.take encoded.encodedSeqs.length).map fun event => clampInt event.value.toNumber (-2147483648) 2147483647 := by
  refine ⟨?_, ?_⟩
  · rintro ⟨decode, h⟩
    have hmapped : ∀ timestamp, ∀ event ∈ [breakerAt timestamp], Dnp3Event.Mapped feeder event := by
      intro timestamp event hevent
      rw [List.mem_singleton.mp hevent]
      exact ⟨rfl, (by decide : 7 ≤ 0xffff)⟩
    obtain ⟨first, hfirst, hfirstBytes, hfirstSeqs⟩ := encoded_eq (by decide +kernel :
      (buildEventObjects feeder { binary := .noTime } 20 [breakerAt 5]).map (fun encoded => (encoded.bytes, encoded.encodedSeqs)) =
        .ok ([2, 1, 0x17, 1, 7, 0x81], [1]))
    obtain ⟨second, hsecond, hsecondBytes, hsecondSeqs⟩ := encoded_eq (by decide +kernel :
      (buildEventObjects feeder { binary := .noTime } 20 [breakerAt 9]).map (fun encoded => (encoded.bytes, encoded.encodedSeqs)) =
        .ok ([2, 1, 0x17, 1, 7, 0x81], [1]))
    have hfive := h feeder { binary := .noTime } 20 [breakerAt 5] (fun _ => 5) (hmapped 5) (by decide +kernel) first hfirst
    have hnine := h feeder { binary := .noTime } 20 [breakerAt 9] (fun _ => 9) (hmapped 9) (by decide +kernel) second hsecond
    rw [hfirstBytes, hfirstSeqs] at hfive
    rw [hsecondBytes, hsecondSeqs] at hnine
    exact absurd (hfive.symm.trans hnine) (by decide)
  · rintro ⟨decode, h⟩
    have hmapped : ∀ value, ∀ event ∈ [levelOf value], Dnp3Event.Mapped feeder event ∧ event.pointType = .analogInput := by
      intro value event hevent
      rw [List.mem_singleton.mp hevent]
      exact ⟨⟨rfl, (by decide : 300 ≤ 0xffff)⟩, rfl⟩
    obtain ⟨first, hfirst, hfirstBytes, hfirstSeqs⟩ := encoded_eq (by decide +kernel :
      (buildEventObjects feeder { analog := .noTime } 20 [levelOf 16777216]).map (fun encoded => (encoded.bytes, encoded.encodedSeqs)) =
        .ok ([32, 5, 0x28, 1, 0, 44, 1, 1, 0, 0, 128, 75], [2]))
    obtain ⟨second, hsecond, hsecondBytes, hsecondSeqs⟩ := encoded_eq (by decide +kernel :
      (buildEventObjects feeder { analog := .noTime } 20 [levelOf 16777217]).map (fun encoded => (encoded.bytes, encoded.encodedSeqs)) =
        .ok ([32, 5, 0x28, 1, 0, 44, 1, 1, 0, 0, 128, 75], [2]))
    have hless := h feeder { analog := .noTime } 20 [levelOf 16777216] (hmapped _) first hfirst
    have hmore := h feeder { analog := .noTime } 20 [levelOf 16777217] (hmapped _) second hsecond
    rw [hfirstBytes, hfirstSeqs] at hless
    rw [hsecondBytes, hsecondSeqs] at hmore
    exact absurd (hless.symm.trans hmore) (by decide +kernel)

end OxScada.Dnp3
