import OxScada.Js.Number

/-! The application layer: function codes and object groups, the request parser, and the
header of a response. -/

namespace OxScada.Dnp3
open OxScada.Bytes OxScada.Js

namespace FunctionCode

def confirm : UInt8 := 0x00
def read : UInt8 := 0x01
def write : UInt8 := 0x02
def select : UInt8 := 0x03
def operate : UInt8 := 0x04
def directOperate : UInt8 := 0x05
def directOperateNr : UInt8 := 0x06
def coldRestart : UInt8 := 0x0d
def warmRestart : UInt8 := 0x0e
def enableUnsolicited : UInt8 := 0x14
def disableUnsolicited : UInt8 := 0x15
def authRequest : UInt8 := 0x20
def authRequestNoAck : UInt8 := 0x21
def response : UInt8 := 0x81
def unsolicitedResponse : UInt8 := 0x82
def authResponse : UInt8 := 0x83

end FunctionCode

namespace Group

def binaryInputStatic : UInt8 := 1
def binaryInputEvent : UInt8 := 2
def binaryOutputStatic : UInt8 := 10
def binaryOutputEvent : UInt8 := 11
def binaryOutputCommand : UInt8 := 12
def counterStatic : UInt8 := 20
def counterEvent : UInt8 := 22
def analogInputStatic : UInt8 := 30
def analogInputEvent : UInt8 := 32
def analogOutputStatus : UInt8 := 40
def analogOutputCommand : UInt8 := 41
def analogOutputEvent : UInt8 := 42
def timeAndDateCto : UInt8 := 51
def classData : UInt8 := 60
def internalIndications : UInt8 := 80
def secureAuth : UInt8 := 120

end Group

/-- The internal indications of a response, IIN1 in the low octet. -/
abbrev Iin := BitVec 16

namespace Iin

def class1Events : Iin := 0x0002
def class2Events : Iin := 0x0004
def class3Events : Iin := 0x0008
def needTime : Iin := 0x0010
def deviceRestart : Iin := 0x0080
def noFuncCodeSupport : Iin := 0x0100
def objectUnknown : Iin := 0x0200
def parameterError : Iin := 0x0400
def eventBufferOverflow : Iin := 0x0800
def alreadyExecuting : Iin := 0x1000

end Iin

/-! ### Command objects -/

def crobObjectSize : ℕ := 11

def analogOutputObjectSize (variation : UInt8) : Option ℕ :=
  if variation = 1 then some 5
  else if variation = 2 then some 3
  else if variation = 3 then some 5
  else if variation = 4 then some 9
  else none

def commandObjectSize (group variation : UInt8) : Option ℕ :=
  if group = Group.binaryOutputCommand ∧ variation = 1 then some crobObjectSize
  else if group = Group.analogOutputCommand then analogOutputObjectSize variation
  else none

theorem commandObjectSize_pos {group variation : UInt8} {size : ℕ} (h : commandObjectSize group variation = some size) :
    0 < size := by
  unfold commandObjectSize analogOutputObjectSize at h
  split_ifs at h
  all_goals
    obtain rfl := Option.some.inj h
    decide

/-! ### Requests -/

structure ParsedPrefixedObject where
  index : ℕ
  data : Buffer
  deriving DecidableEq, Repr

/-- An object header. The optional fields are the ones the parser has got to. -/
structure ParsedObjectHeader where
  group : UInt8
  variation : UInt8
  qualifier : UInt8
  range : Option (ℕ × ℕ) := none
  count : Option ℕ := none
  items : Option (List ParsedPrefixedObject) := none
  data : Option Buffer := none
  freeFormat : Option (List Buffer) := none
  deriving DecidableEq, Repr

structure ParsedRequest where
  appControl : UInt8
  fir : Bool
  fin : Bool
  con : Bool
  uns : Bool
  seq : ℕ
  func : UInt8
  objects : List ParsedObjectHeader
  objectsComplete : Bool
  rawObjects : Buffer
  raw : Buffer
  deriving DecidableEq, Repr

/-- The bodies behind a qualifier 0x5B, each with its own length. -/
def readBodies : ℕ → Buffer → Option (List Buffer × Buffer)
  | 0, rest => some ([], rest)
  | n + 1, low :: high :: rest =>
    let length := readUIntLE [low, high]
    if rest.length < length then none
    else (readBodies n (rest.drop length)).map fun later => (rest.take length :: later.1, later.2)
  | _ + 1, _ => none

def readItems (prefixLen objectSize : ℕ) : ℕ → Buffer → Option (List ParsedPrefixedObject × Buffer)
  | 0, rest => some ([], rest)
  | n + 1, rest =>
    if rest.length < prefixLen + objectSize then none
    else
      let item := ⟨readUIntLE (rest.take prefixLen), (rest.drop prefixLen).take objectSize⟩
      (readItems prefixLen objectSize n (rest.drop (prefixLen + objectSize))).map fun later =>
        (item :: later.1, later.2)

/-- The range field of a header, the count it implies, and the octets after it. -/
structure RangeField where
  range : Option (ℕ × ℕ)
  count : Option ℤ
  rest : Buffer

def readRange (rangeCode : UInt8) (body : Buffer) : Option RangeField :=
  if rangeCode = 0x00 then
    match body with
    | start :: stop :: rest => some ⟨some (start.toNat, stop.toNat), some ((stop.toNat : ℤ) - start.toNat + 1), rest⟩
    | _ => none
  else if rangeCode = 0x01 then
    match body with
    | start0 :: start1 :: stop0 :: stop1 :: rest =>
      let start := readUIntLE [start0, start1]
      let stop := readUIntLE [stop0, stop1]
      some ⟨some (start, stop), some ((stop : ℤ) - start + 1), rest⟩
    | _ => none
  else if rangeCode = 0x06 then some ⟨none, none, body⟩
  else if rangeCode = 0x07 then
    match body with
    | count :: rest => some ⟨none, some count.toNat, rest⟩
    | _ => none
  else if rangeCode = 0x08 then
    match body with
    | low :: high :: rest => some ⟨none, some (readUIntLE [low, high]), rest⟩
    | _ => none
  else none

/-- The data behind a header whose range field has been read. Without a rest the scan ends. -/
def scanData (header : ParsedObjectHeader) (rest : Buffer) : ParsedObjectHeader × Option Buffer :=
  let prefixCode := header.qualifier >>> 4
  if prefixCode = 1 ∨ prefixCode = 2 then
    match commandObjectSize header.group header.variation, header.count with
    | some objectSize, some count =>
      match readItems prefixCode.toNat objectSize count rest with
      | some (items, rest) => ({ header with items := some items }, some rest)
      | none => (header, none)
    | _, _ => (header, none)
  else if prefixCode = 0 ∧ header.group = Group.internalIndications ∧ header.variation = 1 ∧ header.count.isSome then
    let byteLength := (header.count.getD 0 + 7) / 8
    if rest.length < byteLength then (header, none)
    else ({ header with data := some (rest.take byteLength) }, some (rest.drop byteLength))
  else if prefixCode ≠ 0 then (header, none)
  else (header, some rest)

/-- One round of the scan, after the three octets of the header. -/
def scanHeader (header : ParsedObjectHeader) (body : Buffer) : ParsedObjectHeader × Option Buffer :=
  if header.qualifier = 0x5b then
    match body with
    | [] => (header, none)
    | count :: rest =>
      let header := { header with count := some count.toNat }
      match readBodies count.toNat rest with
      | some (bodies, rest) => ({ header with freeFormat := some bodies }, some rest)
      | none => (header, none)
  else
    match readRange (header.qualifier &&& 0x0f) body with
    | none => (header, none)
    | some field =>
      let header := { header with range := field.range }
      match field.count with
      | none => scanData header field.rest
      | some (.ofNat count) => scanData { header with count := some count } field.rest
      | some (.negSucc _) => (header, none)

/-- The scan of the object headers, with the rounds that are left: the headers, and whether
every octet was consumed. -/
def scanObjects : ℕ → Buffer → List ParsedObjectHeader × Bool
  | rounds + 1, group :: variation :: qualifier :: body =>
    let scanned := scanHeader { group, variation, qualifier } body
    match scanned.2 with
    | none => ([scanned.1], false)
    | some rest =>
      let later := scanObjects rounds rest
      (scanned.1 :: later.1, later.2)
  | _, rest => ([], rest.isEmpty)

def parseRequest : Buffer → Except String ParsedRequest
  | appControl :: func :: body =>
    let scanned := scanObjects body.length body
    .ok {
      appControl := appControl
      fir := appControl &&& 0x80 ≠ 0
      fin := appControl &&& 0x40 ≠ 0
      con := appControl &&& 0x20 ≠ 0
      uns := appControl &&& 0x10 ≠ 0
      seq := (appControl &&& 0x0f).toNat
      func := func
      objects := scanned.1
      objectsComplete := scanned.2
      rawObjects := body
      raw := appControl :: func :: body }
  | _ => .error "DNP3 application fragment too short"

/-! ### Responses -/

structure ResponseHeader where
  seq : ℕ
  fir : Bool := true
  fin : Bool := true
  con : Bool := false
  unsolicited : Bool := false
  functionCode : Option UInt8 := none
  iin : Iin

variable (opts : ResponseHeader)

def ResponseHeader.appControl : UInt8 :=
  (UInt8.ofNat opts.seq &&& 0x0f) ||| (if opts.fir then 0x80 else 0) ||| (if opts.fin then 0x40 else 0) |||
    (if opts.con then 0x20 else 0) ||| (if opts.unsolicited then 0x10 else 0)

def buildResponseHeader : Buffer :=
  [opts.appControl, opts.functionCode.getD
    (if opts.unsolicited then FunctionCode.unsolicitedResponse else FunctionCode.response)] ++
    writeUIntLE 2 opts.iin.toNat

def buildFreeFormat16Object (group variation : UInt8) (body : Buffer) : Except String Buffer :=
  if 0xffff < body.length then .error s!"DNP3 free-format object exceeds 65535 octets: {body.length}"
  else .ok ([group, variation, 0x5b, 1] ++ writeUIntLE 2 body.length ++ body)

structure IinOptions where
  deviceRestart : Bool := false
  needTime : Bool := false
  class1Events : Bool := false
  class2Events : Bool := false
  class3Events : Bool := false
  eventBufferOverflow : Bool := false
  noFuncSupport : Bool := false
  objectUnknown : Bool := false
  parameterError : Bool := false
  alreadyExecuting : Bool := false

def buildIin (opts : IinOptions) : Iin :=
  (if opts.class1Events then Iin.class1Events else 0) ||| (if opts.class2Events then Iin.class2Events else 0) |||
    (if opts.class3Events then Iin.class3Events else 0) ||| (if opts.needTime then Iin.needTime else 0) |||
    (if opts.deviceRestart then Iin.deviceRestart else 0) |||
    (if opts.eventBufferOverflow then Iin.eventBufferOverflow else 0) |||
    (if opts.noFuncSupport then Iin.noFuncCodeSupport else 0) |||
    (if opts.objectUnknown then Iin.objectUnknown else 0) |||
    (if opts.parameterError then Iin.parameterError else 0) |||
    (if opts.alreadyExecuting then Iin.alreadyExecuting else 0)

structure ClassTargets where
  class0 : Bool
  class1 : Bool
  class2 : Bool
  class3 : Bool
  deriving DecidableEq, Repr

def classReadTargets (req : ParsedRequest) : ClassTargets :=
  let asks (variation : UInt8) : Bool :=
    req.func == FunctionCode.read &&
      req.objects.any fun object => object.group == Group.classData && object.variation == variation
  ⟨asks 1, asks 2, asks 3, asks 4⟩

theorem buildResponseHeader_length : (buildResponseHeader opts).length = 4 := by
  rw [buildResponseHeader, List.length_append, writeUIntLE_length]
  rfl

theorem ofNat_and_mask (n : ℕ) : UInt8.ofNat n &&& 0x0f = UInt8.ofNat (n % 16) := by
  apply UInt8.toNat_inj.mp
  rw [UInt8.toNat_and, UInt8.toNat_ofNat', UInt8.toNat_ofNat']
  rw [show UInt8.toNat 0x0f = 2 ^ 4 - 1 from rfl, Nat.and_two_pow_sub_one_eq_mod]
  omega

theorem ResponseHeader.appControl_bits :
    (opts.appControl &&& 0x80 ≠ 0 ↔ opts.fir = true) ∧ (opts.appControl &&& 0x40 ≠ 0 ↔ opts.fin = true) ∧
      (opts.appControl &&& 0x20 ≠ 0 ↔ opts.con = true) ∧ (opts.appControl &&& 0x10 ≠ 0 ↔ opts.unsolicited = true) ∧
      (opts.appControl &&& 0x0f).toNat = opts.seq % 16 := by
  have hall : ∀ (seq : Fin 16) (fir fin con unsolicited : Bool),
      let octet := UInt8.ofNat seq ||| (if fir then 0x80 else 0) ||| (if fin then 0x40 else 0) |||
        (if con then 0x20 else 0) ||| (if unsolicited then 0x10 else 0)
      (octet &&& 0x80 ≠ 0 ↔ fir = true) ∧ (octet &&& 0x40 ≠ 0 ↔ fin = true) ∧ (octet &&& 0x20 ≠ 0 ↔ con = true) ∧
        (octet &&& 0x10 ≠ 0 ↔ unsolicited = true) ∧ (octet &&& 0x0f).toNat = seq := by
    decide +kernel
  rw [appControl, ofNat_and_mask]
  exact hall ⟨opts.seq % 16, Nat.mod_lt _ (by decide)⟩ opts.fir opts.fin opts.con opts.unsolicited

/-! ### What the parser gives to a control -/

/-- The items of a header are as long as its command objects, and their indices fit in two octets. -/
structure ParsedObjectHeader.Sized (header : ParsedObjectHeader) : Prop where
  item : ∀ items ∈ header.items, ∀ item ∈ items,
    commandObjectSize header.group header.variation = some item.data.length ∧ item.index < 65536

theorem readUIntLE_lt (octets : Buffer) : readUIntLE octets < 256 ^ octets.length := by
  induction octets with
  | nil => decide
  | cons octet rest ih =>
    have hoctet := octet.toNat_lt
    rw [readUIntLE, List.length_cons, pow_succ]
    omega

theorem readItems_sized {prefixLen objectSize n : ℕ} {rest rest' : Buffer} {items : List ParsedPrefixedObject}
    (h : readItems prefixLen objectSize n rest = some (items, rest')) :
    ∀ item ∈ items, item.data.length = objectSize ∧ item.index < 256 ^ prefixLen := by
  induction n generalizing rest items with
  | zero =>
    obtain ⟨rfl, -⟩ := Prod.mk.inj (Option.some.inj h)
    simp
  | succ n ih =>
    rw [readItems] at h
    split_ifs at h with hshort
    obtain ⟨⟨later, last⟩, hlater, hpair⟩ := Option.map_eq_some_iff.mp h
    obtain ⟨rfl, rfl⟩ := Prod.mk.inj hpair
    intro item hitem
    rcases List.mem_cons.mp hitem with rfl | hitem
    · have htake : (rest.take prefixLen).length = prefixLen := by
        rw [List.length_take]
        omega
      have hindex := readUIntLE_lt (rest.take prefixLen)
      rw [htake] at hindex
      refine ⟨?_, hindex⟩
      rw [List.length_take, List.length_drop]
      omega
    · exact ih hlater item hitem

theorem scanData_sized {header : ParsedObjectHeader} (hnone : header.items = none) (rest : Buffer) :
    (scanData header rest).1.Sized := by
  have hkeep : header.Sized := ⟨by rw [hnone]; simp⟩
  unfold scanData
  dsimp only
  split_ifs with hprefix
  · split
    · rename_i objectSize count hsize hcount
      split
      · rename_i items rest' hitems
        constructor
        intro items' hsome item hitem
        obtain rfl := Option.some.inj hsome
        obtain ⟨hlength, hindex⟩ := readItems_sized hitems item hitem
        have htwo : 256 ^ (header.qualifier >>> 4).toNat ≤ 65536 := by
          rcases hprefix with h | h <;> rw [h] <;> decide
        exact ⟨by rw [hlength, ← hsize], hindex.trans_le htwo⟩
      · exact hkeep
    · exact hkeep
  · exact hkeep
  · exact ⟨hkeep.item⟩
  · exact hkeep
  · exact hkeep

theorem scanHeader_sized {header : ParsedObjectHeader} (hnone : header.items = none) (body : Buffer) :
    (scanHeader header body).1.Sized := by
  have hkeep : ∀ header' : ParsedObjectHeader, header'.items = none → header'.Sized :=
    fun header' h => ⟨by rw [h]; simp⟩
  unfold scanHeader
  split_ifs
  · split
    · exact hkeep _ hnone
    · dsimp only
      split
      · exact hkeep _ hnone
      · exact hkeep _ hnone
  · split
    · exact hkeep _ hnone
    · dsimp only
      split
      · apply scanData_sized
        exact hnone
      · apply scanData_sized
        exact hnone
      · exact hkeep _ hnone

theorem scanObjects_forall {P : ParsedObjectHeader → Prop}
    (h : ∀ (header : ParsedObjectHeader) (body : Buffer), header.items = none → P (scanHeader header body).1) (rounds : ℕ) (body : Buffer) :
    ∀ header ∈ (scanObjects rounds body).1, P header := by
  induction rounds generalizing body with
  | zero => simp [scanObjects]
  | succ rounds ih =>
    rcases body with _ | ⟨group, _ | ⟨variation, _ | ⟨qualifier, body⟩⟩⟩
    · simp [scanObjects]
    · simp [scanObjects]
    · simp [scanObjects]
    · have hfirst := h { group, variation, qualifier } body rfl
      rw [scanObjects]
      dsimp only
      split
      · intro header hheader
        rw [List.mem_singleton.mp hheader]
        exact hfirst
      · rename_i rest hrest
        intro header hheader
        rcases List.mem_cons.mp hheader with rfl | hheader
        · exact hfirst
        · exact ih rest header hheader

theorem parseRequest_sized {fragment : Buffer} {req : ParsedRequest} (h : parseRequest fragment = .ok req) :
    ∀ header ∈ req.objects, header.Sized := by
  rcases fragment with _ | ⟨appControl, _ | ⟨func, body⟩⟩
  · cases h
  · cases h
  · obtain rfl := Except.ok.inj h
    exact scanObjects_forall (fun header body hnone => scanHeader_sized hnone body) _ _

end OxScada.Dnp3
