import OxScada.Modbus.ReadAfterWrite

/-! The responses to requests over a tag store that may answer or refuse each of its reads and writes.
Whatever it does, a request is answered by one frame of the right size. -/

namespace OxScada.Modbus
open OxScada.Bytes OxScada.Js

/-- The tag store behind its port, as one request finds it: what the read or the write of a round of a
loop comes to. A rejection is a `DataModelError` of a kind, or another error. -/
structure TagStorePort where
  read : ℕ → Text → Except ModelError (Option TagValue)
  write : ℕ → Text × TagValue → Except ModelError Unit

def TagStore.port (store : TagStore) : TagStorePort where
  read := fun _ tagId =>
    match store.read tagId with
    | none => .error none
    | some value => .ok value
  write := fun _ _ => .ok ()

namespace TagStorePort
variable (port : TagStorePort) (map : RegisterMap)
variable (area : RegisterArea)

def readBit (address i : ℕ) : Except ModelError Bool :=
  match map.entryStartingAt area (address + i) with
  | none => .error none
  | some entry => (port.read i entry.tagId).map toBool

def readBitArea (address quantity : ℕ) : Except ModelError (List Bool) :=
  if map.rangeIsFullyMapped area address quantity then (List.range quantity).mapM fun i => port.readBit map area address i
  else .error (some .illegalDataAddress)

/-- The words of an entry, from the cache or from the store. -/
def resolveEntryWords (entry : RegisterMapEntry) (i : ℕ) (wordCache : ℕ → Option (List ℕ)) : Except ModelError (List ℕ) :=
  match wordCache entry.address with
  | some words => .ok words
  | none =>
    match port.read i entry.tagId with
    | .error kind => .error kind
    | .ok raw =>
      match encodeValueToRegisters entry (toNumber raw) with
      | none => .error none
      | some words => .ok words

/-- The loop over the registers that are left, from the one at `i` on. -/
def readRegisters (area : RegisterArea) (address i : ℕ) (wordCache : ℕ → Option (List ℕ)) : ℕ → Except ModelError (List ℕ)
  | 0 => .ok []
  | left + 1 =>
    match map.entryOccupying area (address + i) with
    | none => .error none
    | some entry =>
      match port.resolveEntryWords entry i wordCache with
      | .error kind => .error kind
      | .ok words =>
        (readRegisters area address (i + 1) (Function.update wordCache entry.address (some words)) left).map
          (words.getD (address + i - entry.address) 0 :: ·)

def readRegisterArea (address quantity : ℕ) : Except ModelError (List ℕ) :=
  if map.rangeIsFullyMapped area address quantity then port.readRegisters map area address 0 (fun _ => none) quantity
  else .error (some .illegalDataAddress)

def commit : ℕ → List (Text × TagValue) → Except ModelError Unit
  | _, [] => .ok ()
  | i, item :: rest =>
    match port.write i item with
    | .error kind => .error kind
    | .ok () => commit (i + 1) rest

def writeCoils (address : ℕ) (values : List Bool) : Except ModelError Unit :=
  if map.rangeIsFullyMapped .coil address values.length then TagStoreDataModel.planCoils map address values >>= port.commit 0
  else .error (some .illegalDataAddress)

def writeHoldingRegisters (address : ℕ) (values : List ℕ) : Except ModelError Unit :=
  if map.rangeIsFullyMapped .holdingRegister address values.length then
    TagStoreDataModel.planRegisters map values.length address values >>= port.commit 0
  else .error (some .illegalDataAddress)

def answerWrite : Except ModelError Unit → ModelAnswer
  | .ok () => .written
  | .error kind => .fails kind

def answer : ModelCall → ModelAnswer
  | .readCoils address quantity => TagStoreDataModel.answerBits (port.readBitArea map .coil address quantity)
  | .readDiscreteInputs address quantity => TagStoreDataModel.answerBits (port.readBitArea map .discreteInput address quantity)
  | .readHoldingRegisters address quantity => TagStoreDataModel.answerRegisters (port.readRegisterArea map .holdingRegister address quantity)
  | .readInputRegisters address quantity => TagStoreDataModel.answerRegisters (port.readRegisterArea map .inputRegister address quantity)
  | .writeCoils address values => answerWrite (port.writeCoils map address values)
  | .writeHoldingRegisters address values => answerWrite (port.writeHoldingRegisters map address values)

def processRequest (request : ModbusRequest) : Buffer :=
  match dispatch request.functionCode request.data with
  | .settled result => encodeResult request result
  | .asks call resume => encodeResult request (resume (port.answer map call))

end TagStorePort

open TagStorePort

/-! ### A store in memory -/

variable {map : RegisterMap} {store : TagStore} {port : TagStorePort} {area : RegisterArea} {address i left quantity : ℕ}

theorem readBit_port : store.port.readBit map area address i = TagStoreDataModel.readBit map store area (address + i) := by
  unfold TagStorePort.readBit TagStoreDataModel.readBit TagStore.port
  cases map.entryStartingAt area (address + i) with
  | none => rfl
  | some entry =>
    dsimp only
    cases store.read entry.tagId <;> rfl

/-- The words in the cache are those that the store has for the entries at their addresses. -/
def Cached (map : RegisterMap) (store : TagStore) (area : RegisterArea) (wordCache : ℕ → Option (List ℕ)) : Prop :=
  ∀ a entry words, map.byOccupied (area, a) = some entry → wordCache entry.address = some words →
    TagStoreDataModel.resolveEntryWords store entry = .ok words

variable {wordCache : ℕ → Option (List ℕ)} {request : ModbusRequest}

theorem resolve_port {entry : RegisterMapEntry} (hcached : Cached map store area wordCache)
    (hentry : map.byOccupied (area, address + i) = some entry) :
    store.port.resolveEntryWords entry i wordCache = TagStoreDataModel.resolveEntryWords store entry := by
  unfold TagStorePort.resolveEntryWords
  cases hwords : wordCache entry.address with
  | some words => exact (hcached _ entry words hentry hwords).symm
  | none =>
    unfold TagStoreDataModel.resolveEntryWords TagStore.port
    dsimp only
    cases store.read entry.tagId <;> rfl

theorem Cached.update (hmap : Indexed map.byStart map.byOccupied map.entries) {entry : RegisterMapEntry} {words : List ℕ}
    (hcached : Cached map store area wordCache) {a : ℕ} (hentry : map.byOccupied (area, a) = some entry)
    (hwords : TagStoreDataModel.resolveEntryWords store entry = .ok words) :
    Cached map store area (Function.update wordCache entry.address (some words)) := by
  intro b other others hother hcache
  by_cases hsame : other.address = entry.address
  · -- Two entries of an area at one address are one entry.
    obtain ⟨hmem, harea, -, -⟩ := (hmap.occupied _ _ _).mp hentry
    obtain ⟨hmem', harea', -, -⟩ := (hmap.occupied _ _ _).mp hother
    have hstart := (hmap.starts area entry.address entry).mpr ⟨hmem, harea, rfl⟩
    have hstart' := (hmap.starts area entry.address other).mpr ⟨hmem', harea', hsame⟩
    rw [hstart] at hstart'
    obtain rfl := Option.some.inj hstart'
    rw [Function.update_self] at hcache
    rw [← Option.some.inj hcache, hwords]
  · rw [Function.update_of_ne hsame] at hcache
    exact hcached b other others hother hcache

theorem readRegisters_port (hmap : Indexed map.byStart map.byOccupied map.entries)
    (hcached : Cached map store area wordCache) :
    store.port.readRegisters map area address i wordCache left =
      (List.range' i left).mapM fun k => TagStoreDataModel.readRegister map store area (address + k) := by
  induction left generalizing i wordCache with
  | zero => rfl
  | succ left ih =>
    rw [TagStorePort.readRegisters, List.range'_succ, List.mapM_cons]
    cases hentry : map.entryOccupying area (address + i) with
    | none =>
      have hread : TagStoreDataModel.readRegister map store area (address + i) = .error none := by
        rw [TagStoreDataModel.readRegister, hentry]
      rw [hread]
      rfl
    | some entry =>
      have hread : TagStoreDataModel.readRegister map store area (address + i) =
          (TagStoreDataModel.resolveEntryWords store entry).map fun words => words.getD (address + i - entry.address) 0 := by
        rw [TagStoreDataModel.readRegister, hentry]
      dsimp only
      rw [hread, resolve_port hcached hentry]
      cases hwords : TagStoreDataModel.resolveEntryWords store entry with
      | error kind => rfl
      | ok words =>
        dsimp only
        rw [ih (hcached.update hmap hentry hwords)]
        cases (List.range' (i + 1) left).mapM fun k => TagStoreDataModel.readRegister map store area (address + k) <;> rfl

theorem commit_port (k : ℕ) (plan : List (Text × TagValue)) : store.port.commit k plan = .ok () := by
  induction plan generalizing k with
  | nil => rfl
  | cons item rest ih => exact ih (k + 1)

theorem answerWrite_port (mapped : Bool) (planned : Except ModelError (List (Text × TagValue))) :
    answerWrite (if mapped then planned >>= store.port.commit 0 else .error (some .illegalDataAddress)) =
      (TagStoreDataModel.answerWrite store
        (if mapped then planned.map (·.foldl TagStore.write store) else .error (some .illegalDataAddress))).1 := by
  split_ifs
  · cases planned with
    | error kind => rfl
    | ok plan => exact congrArg answerWrite (commit_port 0 plan)
  · rfl

theorem answer_port (hmap : Indexed map.byStart map.byOccupied map.entries) (call : ModelCall) :
    store.port.answer map call = (TagStoreDataModel.answer map store call).1 := by
  have hbits : ∀ area address quantity, store.port.readBitArea map area address quantity =
      TagStoreDataModel.readBitArea map store area address quantity := by
    intro area address quantity
    unfold TagStorePort.readBitArea TagStoreDataModel.readBitArea
    simp only [readBit_port]
  have hregisters : ∀ area address quantity, store.port.readRegisterArea map area address quantity =
      TagStoreDataModel.readRegisterArea map store area address quantity := by
    intro area address quantity
    have hempty : Cached map store area fun _ => none := by
      intro a entry words _ hnone
      cases hnone
    unfold TagStorePort.readRegisterArea TagStoreDataModel.readRegisterArea
    rw [readRegisters_port hmap hempty, List.range_eq_range']
  cases call with
  | readCoils | readDiscreteInputs => exact congrArg TagStoreDataModel.answerBits (hbits _ _ _)
  | readHoldingRegisters | readInputRegisters => exact congrArg TagStoreDataModel.answerRegisters (hregisters _ _ _)
  | writeCoils | writeHoldingRegisters => exact answerWrite_port _ _

/-- The words kept during a request change no response: it is that of a server that reads the store for each register. -/
theorem response_uncached {raw : Untrusted} (hmap : RegisterMap.fromConfig raw = .ok map) (store : TagStore) (request : ModbusRequest) :
    store.port.processRequest map request = encodeResult request (TagStoreDataModel.processRequest map store request).1 := by
  unfold TagStorePort.processRequest TagStoreDataModel.processRequest
  cases dispatch request.functionCode request.data with
  | settled result => rfl
  | asks call resume => simp only [answer_port (fromConfig_ok hmap)]

theorem response_uncached_drive : ∃ map, RegisterMap.fromConfig drive = .ok map ∧
    (TagStore.port ⟨fun _ => none, fun _ => false⟩).processRequest map getSpeed =
      encodeResult getSpeed (TagStoreDataModel.processRequest map ⟨fun _ => none, fun _ => false⟩ getSpeed).1 :=
  ⟨_, rfl, response_uncached (show RegisterMap.fromConfig drive = .ok _ from rfl) ⟨fun _ => none, fun _ => false⟩ getSpeed⟩

/-! ### Answers of the right size -/

def ModelCall.Fits : ModelCall → ModelAnswer → Prop
  | _, .fails _ => True
  | .readCoils _ quantity, .bits values => values.length = quantity
  | .readDiscreteInputs _ quantity, .bits values => values.length = quantity
  | .readHoldingRegisters _ quantity, .registers values => values.length = quantity
  | .readInputRegisters _ quantity, .registers values => values.length = quantity
  | .writeCoils _ _, .written => True
  | .writeHoldingRegisters _ _, .written => True
  | _, _ => False

theorem mapM_length {ε α β : Type} {f : α → Except ε β} {items : List α} {values : List β} (h : items.mapM f = .ok values) :
    values.length = items.length := by
  induction items generalizing values with
  | nil =>
    obtain rfl := Except.ok.inj h
    rfl
  | cons item rest ih =>
    rw [List.mapM_cons] at h
    obtain ⟨value, -, h⟩ := Runs.bind_ok.mp h
    obtain ⟨later, hlater, h⟩ := Runs.bind_ok.mp h
    obtain rfl := Except.ok.inj h
    rw [List.length_cons, List.length_cons, ih hlater]

theorem length_readRegisters {words : List ℕ}
    (h : port.readRegisters map area address i wordCache left = .ok words) : words.length = left := by
  induction left generalizing i wordCache words with
  | zero =>
    obtain rfl := Except.ok.inj h
    rfl
  | succ left ih =>
    rw [TagStorePort.readRegisters] at h
    cases hentry : map.entryOccupying area (address + i) with
    | none =>
      rw [hentry] at h
      cases h
    | some entry =>
      rw [hentry] at h
      dsimp only at h
      cases hwords : port.resolveEntryWords entry i wordCache with
      | error kind =>
        rw [hwords] at h
        cases h
      | ok own =>
        rw [hwords] at h
        dsimp only at h
        cases hlater : port.readRegisters map area address (i + 1) (Function.update wordCache entry.address (some own)) left with
        | error kind =>
          rw [hlater] at h
          cases h
        | ok later =>
          rw [hlater] at h
          obtain rfl := Except.ok.inj h
          rw [List.length_cons, ih hlater]

theorem answer_fits (port : TagStorePort) (map : RegisterMap) (call : ModelCall) : call.Fits (port.answer map call) := by
  have hbits : ∀ area address quantity values, port.readBitArea map area address quantity = .ok values → values.length = quantity := by
    intro area address quantity values h
    unfold TagStorePort.readBitArea at h
    split_ifs at h
    rw [mapM_length h, List.length_range]
  have hregisters : ∀ area address quantity words, port.readRegisterArea map area address quantity = .ok words → words.length = quantity := by
    intro area address quantity words h
    unfold TagStorePort.readRegisterArea at h
    split_ifs at h
    exact length_readRegisters h
  have hwritten : ∀ result : Except ModelError Unit, answerWrite result = .written ∨ ∃ kind, answerWrite result = .fails kind := by
    intro result
    cases result with
    | error kind => exact .inr ⟨kind, rfl⟩
    | ok _ => exact .inl rfl
  cases call with
  | readCoils address quantity =>
    rw [answer]
    cases hread : port.readBitArea map .coil address quantity with
    | error kind => trivial
    | ok values => exact hbits _ _ _ _ hread
  | readDiscreteInputs address quantity =>
    rw [answer]
    cases hread : port.readBitArea map .discreteInput address quantity with
    | error kind => trivial
    | ok values => exact hbits _ _ _ _ hread
  | readHoldingRegisters address quantity =>
    rw [answer]
    cases hread : port.readRegisterArea map .holdingRegister address quantity with
    | error kind => trivial
    | ok words => exact (List.length_map _).trans (hregisters _ _ _ _ hread)
  | readInputRegisters address quantity =>
    rw [answer]
    cases hread : port.readRegisterArea map .inputRegister address quantity with
    | error kind => trivial
    | ok words => exact (List.length_map _).trans (hregisters _ _ _ _ hread)
  | writeCoils address values =>
    rw [answer]
    obtain hanswer | ⟨kind, hanswer⟩ := hwritten (port.writeCoils map address values) <;> rw [hanswer] <;> trivial
  | writeHoldingRegisters address values =>
    rw [answer]
    obtain hanswer | ⟨kind, hanswer⟩ := hwritten (port.writeHoldingRegisters map address values) <;> rw [hanswer] <;> trivial

/-! ### Frames -/

/-- The body of a response: the count and the values of a read, or the address and the quantity (the
value, for one coil or register) of a write. -/
def ModbusRequest.AnsweredBy (request : ModbusRequest) (body : Buffer) : Prop :=
  let quantity := readUInt16BE request.data 2
  (request.functionCode ∈ [FunctionCode.readCoils, FunctionCode.readDiscreteInputs] ∧
      ∃ octets : Buffer, body = UInt8.ofNat octets.length :: octets ∧ octets.length < 256 ∧ octets.length = (quantity + 7) / 8) ∨
    (request.functionCode ∈ [FunctionCode.readHoldingRegisters, FunctionCode.readInputRegisters] ∧
      ∃ octets : Buffer, body = UInt8.ofNat octets.length :: octets ∧ octets.length < 256 ∧ octets.length = 2 * quantity) ∨
    request.functionCode ∈ writeFunctionCodes ∧ 4 ≤ request.data.length ∧ body = request.data.take 4

/-- A frame that is an answer to the request, or an exception. -/
structure ModbusRequest.Answer (request : ModbusRequest) (response : Buffer) : Prop where
  transactionId : readUInt16BE response 0 = request.header.transactionId
  protocolId : readUInt16BE response 2 = modbusProtocolId
  length : readUInt16BE response 4 = 1 + (response.drop mbapHeaderLength).length
  unitId : readUInt8 response 6 = request.header.unitId
  pdu : (∃ body, response.drop mbapHeaderLength = UInt8.ofNat request.functionCode :: body ∧ request.AnsweredBy body) ∨
    ∃ code : ExceptionCode, response.drop mbapHeaderLength = [UInt8.ofNat request.functionCode ||| exceptionFlag, code.toByte]

theorem uint16BE_readUInt16BE {data : Buffer} (h : i + 2 ≤ data.length) : uint16BE (readUInt16BE data i) = (data.drop i).take 2 := by
  have hdrop : data.drop i = data[i] :: data[i + 1] :: data.drop (i + 2) := by
    rw [List.drop_eq_getElem_cons (by omega), List.drop_eq_getElem_cons (by omega)]
  have hhigh : data.getD i 0 = data[i] := by simp [List.getD, List.getElem?_eq_getElem (show i < data.length by omega)]
  have hlow : data.getD (i + 1) 0 = data[i + 1] := by simp [List.getD, List.getElem?_eq_getElem (show i + 1 < data.length by omega)]
  have hlt := (data[i + 1]).toNat_lt
  have hdiv : (data[i].toNat * 256 + data[i + 1].toNat) / 256 = data[i].toNat := by omega
  have hmod : UInt8.ofNat (data[i].toNat * 256 + data[i + 1].toNat) = data[i + 1] := by
    apply UInt8.toNat_inj.mp
    rw [UInt8.toNat_ofNat']
    omega
  rw [hdrop, uint16BE, readUInt16BE, hhigh, hlow, hdiv, hmod, UInt8.ofNat_toNat]
  rfl

theorem echoed_take {data : Buffer} (h : 4 ≤ data.length) : uint16BE (readUInt16BE data 0) ++ uint16BE (readUInt16BE data 2) = data.take 4 := by
  rw [uint16BE_readUInt16BE (by omega), uint16BE_readUInt16BE (by omega), List.drop_zero]
  exact (List.take_add).symm

/-! ### What a handler comes to with an answer that fits -/

variable {data body : Buffer} {maxQuantity : ℕ} {read : ℕ → ℕ → ModelCall} {call : ModelCall}
  {resume : ModelAnswer → Except ExceptionCode Buffer} {code : ExceptionCode} {modelAnswer : ModelAnswer}

theorem counted_body {packed : Buffer} (h : counted packed = .ok body) : body = UInt8.ofNat packed.length :: packed ∧ packed.length < 256 := by
  unfold counted at h
  split_ifs at h with hlong
  exact ⟨(Except.ok.inj h).symm, by omega⟩

theorem echo_body {echoed : Buffer} (h : echo echoed modelAnswer = .ok body) : body = echoed := by
  unfold echo at h
  split at h
  · exact (Except.ok.inj h).symm
  · cases h
  · cases h

/-- What a handler does for a request whose answers are these. -/
def Dispatched.Answers (dispatched : Dispatched) (Body : Buffer → Prop) : Prop :=
  (∃ code, dispatched = .settled (.error code)) ∨
    ∃ call resume, dispatched = .asks call resume ∧ ∀ modelAnswer body, call.Fits modelAnswer → resume modelAnswer = .ok body → Body body

theorem Dispatched.Answers.mono {dispatched : Dispatched} {Body Body' : Buffer → Prop} (h : dispatched.Answers Body)
    (hbody : ∀ body, Body body → Body' body) : dispatched.Answers Body' := by
  obtain hsettled | ⟨call, resume, hasks, hresume⟩ := h
  · exact .inl hsettled
  · exact .inr ⟨call, resume, hasks, fun modelAnswer body hfits hok => hbody body (hresume modelAnswer body hfits hok)⟩

def Counted (size : ℕ) (body : Buffer) : Prop :=
  ∃ octets : Buffer, body = UInt8.ofNat octets.length :: octets ∧ octets.length < 256 ∧ octets.length = size

theorem readBits_answers (hread : ∀ address quantity values, (read address quantity).Fits (.bits values) → values.length = quantity) :
    (readBits data maxQuantity read).Answers (Counted ((readUInt16BE data 2 + 7) / 8)) := by
  unfold readBits
  dsimp only
  split_ifs
  · exact .inl ⟨_, rfl⟩
  · exact .inl ⟨_, rfl⟩
  · refine .inr ⟨_, _, rfl, fun modelAnswer body hfits hok => ?_⟩
    split at hok
    · rename_i bits
      obtain ⟨hbody, hlt⟩ := counted_body hok
      exact ⟨packBits bits, hbody, hlt, by rw [length_packBits, hread _ _ _ hfits]⟩
    · cases hok
    · cases hok

theorem readRegisters_answers (hread : ∀ address quantity values, (read address quantity).Fits (.registers values) → values.length = quantity) :
    (readRegisters data read).Answers (Counted (2 * readUInt16BE data 2)) := by
  unfold readRegisters
  dsimp only
  split_ifs
  · exact .inl ⟨_, rfl⟩
  · exact .inl ⟨_, rfl⟩
  · refine .inr ⟨_, _, rfl, fun modelAnswer body hfits hok => ?_⟩
    split at hok
    · rename_i registers
      obtain ⟨hbody, hlt⟩ := counted_body hok
      exact ⟨packRegisters registers, hbody, hlt, by rw [length_packRegisters, hread _ _ _ hfits]⟩
    · cases hok
    · cases hok

/-- The address and what follows it, as the request has them. -/
def Echoed (data body : Buffer) : Prop := 4 ≤ data.length ∧ body = data.take 4

theorem writeSingleCoil_answers : (writeSingleCoil data).Answers (Echoed data) := by
  unfold writeSingleCoil
  dsimp only
  split_ifs with hshort
  · exact .inl ⟨_, rfl⟩
  · exact .inl ⟨_, rfl⟩
  · exact .inr ⟨_, _, rfl, fun modelAnswer body _ hok => ⟨by omega, echo_body hok⟩⟩

theorem writeSingleRegister_answers : (writeSingleRegister data).Answers (Echoed data) := by
  unfold writeSingleRegister
  split_ifs with hshort
  · exact .inl ⟨_, rfl⟩
  · exact .inr ⟨_, _, rfl, fun modelAnswer body _ hok => ⟨by omega, echo_body hok⟩⟩

theorem writeMultipleCoils_answers : (writeMultipleCoils data).Answers (Echoed data) := by
  unfold writeMultipleCoils
  dsimp only
  split_ifs with hshort
  · exact .inl ⟨_, rfl⟩
  · exact .inl ⟨_, rfl⟩
  · exact .inl ⟨_, rfl⟩
  · have hlong : 4 ≤ data.length := by omega
    exact .inr ⟨_, _, rfl, fun modelAnswer body _ hok => ⟨hlong, (echo_body hok).trans (echoed_take hlong)⟩⟩

theorem writeMultipleRegisters_answers : (writeMultipleRegisters data).Answers (Echoed data) := by
  unfold writeMultipleRegisters
  dsimp only
  split_ifs with hshort
  · exact .inl ⟨_, rfl⟩
  · exact .inl ⟨_, rfl⟩
  · exact .inl ⟨_, rfl⟩
  · have hlong : 4 ≤ data.length := by omega
    exact .inr ⟨_, _, rfl, fun modelAnswer body _ hok => ⟨hlong, (echo_body hok).trans (echoed_take hlong)⟩⟩

theorem dispatch_answers (request : ModbusRequest) : (dispatch request.functionCode request.data).Answers request.AnsweredBy := by
  have hwrite : ∀ {body}, request.functionCode ∈ writeFunctionCodes → Echoed request.data body → request.AnsweredBy body :=
    fun hcode hechoed => .inr (.inr ⟨hcode, hechoed⟩)
  unfold dispatch
  split_ifs with hcoils hinputs hholding hregisters hcoil hregister hmany hwords
  · have hfits : ∀ address quantity values, (ModelCall.readCoils address quantity).Fits (.bits values) → values.length = quantity :=
      fun _ _ _ hlength => hlength
    exact (readBits_answers hfits).mono fun body hbody => .inl ⟨by simp [hcoils], hbody⟩
  · have hfits : ∀ address quantity values, (ModelCall.readDiscreteInputs address quantity).Fits (.bits values) → values.length = quantity :=
      fun _ _ _ hlength => hlength
    exact (readBits_answers hfits).mono fun body hbody => .inl ⟨by simp [hinputs], hbody⟩
  · have hfits : ∀ address quantity values, (ModelCall.readHoldingRegisters address quantity).Fits (.registers values) → values.length = quantity :=
      fun _ _ _ hlength => hlength
    exact (readRegisters_answers hfits).mono fun body hbody => .inr (.inl ⟨by simp [hholding], hbody⟩)
  · have hfits : ∀ address quantity values, (ModelCall.readInputRegisters address quantity).Fits (.registers values) → values.length = quantity :=
      fun _ _ _ hlength => hlength
    exact (readRegisters_answers hfits).mono fun body hbody => .inr (.inl ⟨by simp [hregisters], hbody⟩)
  · exact writeSingleCoil_answers.mono fun body => hwrite (by simp [writeFunctionCodes, hcoil])
  · exact writeSingleRegister_answers.mono fun body => hwrite (by simp [writeFunctionCodes, hregister])
  · exact writeMultipleCoils_answers.mono fun body => hwrite (by simp [writeFunctionCodes, hmany])
  · exact writeMultipleRegisters_answers.mono fun body => hwrite (by simp [writeFunctionCodes, hwords])
  · exact .inl ⟨_, rfl⟩

theorem ModbusRequest.AnsweredBy.length_le (h : request.AnsweredBy body) : body.length ≤ 256 := by
  obtain ⟨-, octets, rfl, hlt, -⟩ | ⟨-, octets, rfl, hlt, -⟩ | ⟨-, -, rfl⟩ := h
  · rw [List.length_cons]
    omega
  · rw [List.length_cons]
    omega
  · rw [List.length_take]
    omega

/-! ### Every request is answered -/

structure MbapHeader.Decoded (header : MbapHeader) : Prop where
  transactionId : header.transactionId < 2 ^ 16
  protocolId : header.protocolId = modbusProtocolId
  unitId : header.unitId < 2 ^ 8

theorem decodeRequest_decoded {buf : Buffer} {n : ℕ} (h : decodeRequest buf = .ok (some (request, n))) :
    request.header.Decoded := by
  obtain ⟨hprotocol, -, -, -, rfl⟩ := decodeRequest_some.mp h
  exact ⟨readUInt16BE_lt buf 0, hprotocol, (buf.getD 6 0).toNat_lt⟩

/-- A header in front of a protocol data unit that has a length of 16 bits is read as it was written. -/
theorem encodeMbapHeader_read {header : MbapHeader} (hheader : header.Decoded) {pdu : Buffer} (hpdu : pdu.length < 2 ^ 15) :
    let response := encodeMbapHeader header pdu.length ++ pdu
    readUInt16BE response 0 = header.transactionId ∧ readUInt16BE response 2 = modbusProtocolId ∧
      readUInt16BE response 4 = 1 + pdu.length ∧ readUInt8 response 6 = header.unitId ∧ response.drop mbapHeaderLength = pdu := by
  have htransaction := hheader.transactionId
  have hunit := hheader.unitId
  have hprotocol := hheader.protocolId
  refine ⟨?_, ?_, ?_, ?_, rfl⟩
  · simp [encodeMbapHeader, uint16BE, readUInt16BE]
    omega
  · simp [encodeMbapHeader, uint16BE, readUInt16BE, hprotocol, modbusProtocolId]
  · simp [encodeMbapHeader, uint16BE, readUInt16BE]
    omega
  · simp [encodeMbapHeader, uint16BE, readUInt8]
    omega

theorem answer_of_pdu (hheader : request.header.Decoded) {pdu : Buffer} (hpdu : pdu.length < 2 ^ 15)
    (h : (∃ body, pdu = UInt8.ofNat request.functionCode :: body ∧ request.AnsweredBy body) ∨
      ∃ code : ExceptionCode, pdu = [UInt8.ofNat request.functionCode ||| exceptionFlag, code.toByte]) :
    request.Answer (encodeMbapHeader request.header pdu.length ++ pdu) := by
  obtain ⟨htransaction, hprotocol, hlength, hunit, hdrop⟩ := encodeMbapHeader_read hheader hpdu
  refine ⟨htransaction, hprotocol, ?_, hunit, ?_⟩
  · rw [hdrop]
    exact hlength
  · rw [hdrop]
    exact h

theorem encodeResult_answer (hheader : request.header.Decoded) {result : Except ExceptionCode Buffer}
    (h : ∀ body, result = .ok body → request.AnsweredBy body) : request.Answer (encodeResult request result) := by
  cases result with
  | error code => exact answer_of_pdu hheader (by simp) (.inr ⟨code, rfl⟩)
  | ok body =>
    have hbody := h body rfl
    have hshort := hbody.length_le
    have hlength : (UInt8.ofNat request.functionCode :: body).length = 1 + body.length := by
      rw [List.length_cons, add_comm]
    have hanswer := answer_of_pdu hheader (by rw [hlength]; omega) (.inl ⟨body, rfl, hbody⟩)
    rw [hlength] at hanswer
    exact hanswer

/-- A request that was decoded is answered by one frame with its ids and its length, whatever the map is
and whatever the tag store does. -/
theorem processRequest_answer {buf : Buffer} {request : ModbusRequest} {n : ℕ} (h : decodeRequest buf = .ok (some (request, n)))
    (map : RegisterMap) (port : TagStorePort) : request.Answer (port.processRequest map request) := by
  have hheader := decodeRequest_decoded h
  unfold TagStorePort.processRequest
  obtain ⟨code, hsettled⟩ | ⟨call, resume, hasks, hbody⟩ := dispatch_answers request
  · rw [hsettled]
    exact encodeResult_answer hheader fun body hok => by cases hok
  · rw [hasks]
    exact encodeResult_answer hheader fun body hok => hbody _ body (answer_fits port map call) hok

def brokenPort : TagStorePort where
  read := fun _ _ => .error (some .serverFailure)
  write := fun i _ => if i = 2 then .error none else .ok ()

def readOne : ModbusRequest := ⟨⟨7, 0, 6, 1⟩, 3, [0, 0, 0, 1]⟩

/-- The read of the speed is rejected, and the exception is that of a server failure. -/
theorem drive_readOne_answered : ∃ map, RegisterMap.fromConfig drive = .ok map ∧
    brokenPort.processRequest map readOne = [0, 7, 0, 0, 0, 3, 1, 0x83, 4] ∧ readOne.Answer (brokenPort.processRequest map readOne) := by
  have hread : decodeRequest [0, 7, 0, 0, 0, 6, 1, 3, 0, 0, 0, 1] = .ok (some (readOne, 12)) := by decide
  exact ⟨_, rfl, by decide +kernel, processRequest_answer hread _ brokenPort⟩

end OxScada.Modbus
