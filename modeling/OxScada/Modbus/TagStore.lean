import OxScada.Modbus.RegisterMap
import OxScada.Modbus.Server

/-! The data model that binds a register map to the tag store. A write is planned as a whole before the
first value is stored. -/

namespace OxScada.Modbus
open OxScada.Bytes

inductive TagValue where
  | number (value : Float)
  | bool (value : Bool)
  deriving DecidableEq

/-- The tags and their values, and the tags whose reads fail. Writes never do. -/
structure TagStore where
  values : Text → Option TagValue
  unreadable : Text → Bool := fun _ => false

namespace TagStore

def read (store : TagStore) (tagId : Text) : Option (Option TagValue) := if store.unreadable tagId then none else some (store.values tagId)

def write (store : TagStore) (item : Text × TagValue) : TagStore := { store with values := Function.update store.values item.1 (some item.2) }

end TagStore

def toBool : Option TagValue → Bool
  | some (.bool value) => value
  | some (.number value) => value != 0
  | none => false

def toNumber : Option TagValue → Float
  | some (.number value) => value
  | some (.bool value) => if value then 1 else 0
  | none => 0

/-- What a method of the data model throws: a `DataModelError` of a kind, or another error. -/
abbrev ModelError := Option DataModelErrorKind

namespace TagStoreDataModel
variable (map : RegisterMap) (store : TagStore)
variable (area : RegisterArea)

def readBit (address : ℕ) : Except ModelError Bool :=
  match map.entryStartingAt area address with
  | none => .error none
  | some entry =>
    match store.read entry.tagId with
    | none => .error none
    | some value => .ok (toBool value)

def readBitArea (address quantity : ℕ) : Except ModelError (List Bool) :=
  if map.rangeIsFullyMapped area address quantity then (List.range quantity).mapM fun i => readBit map store area (address + i)
  else .error (some .illegalDataAddress)

/-- The words of an entry. They are the same each time that a request reads them. -/
def resolveEntryWords (entry : RegisterMapEntry) : Except ModelError (List ℕ) :=
  match store.read entry.tagId with
  | none => .error none
  | some raw =>
    match encodeValueToRegisters entry (toNumber raw) with
    | none => .error none
    | some words => .ok words

def readRegister (address : ℕ) : Except ModelError ℕ :=
  match map.entryOccupying area address with
  | none => .error none
  | some entry => (resolveEntryWords store entry).map fun words => words.getD (address - entry.address) 0

def readRegisterArea (address quantity : ℕ) : Except ModelError (List ℕ) :=
  if map.rangeIsFullyMapped area address quantity then (List.range quantity).mapM fun i => readRegister map store area (address + i)
  else .error (some .illegalDataAddress)

def planCoils (address : ℕ) : List Bool → Except ModelError (List (Text × TagValue))
  | [] => .ok []
  | value :: rest =>
    match map.entryStartingAt .coil address with
    | none => .error none
    | some entry =>
      if entry.writable then (planCoils (address + 1) rest).map ((entry.tagId, .bool value) :: ·) else .error (some .illegalDataValue)

/-- The planning loop of `writeHoldingRegisters`, from `address` on. A round takes a word or more. -/
def planRegisters : ℕ → ℕ → List ℕ → Except ModelError (List (Text × TagValue))
  | _, _, [] => .ok []
  | 0, _, _ => .ok []
  | rounds + 1, address, values =>
    match map.entryOccupying .holdingRegister address with
    | none => .error none
    | some entry =>
      let width := registerWidth entry.dataType
      if address ≠ entry.address then .error (some .illegalDataValue)
      else if values.length < width then .error (some .illegalDataValue)
      else if ¬entry.writable then .error (some .illegalDataValue)
      else
        match decodeRegistersToValue entry (values.take width) with
        | none => .error none
        | some value => (planRegisters rounds (address + width) (values.drop width)).map ((entry.tagId, .number value) :: ·)

def writeCoils (address : ℕ) (values : List Bool) : Except ModelError TagStore :=
  if map.rangeIsFullyMapped .coil address values.length then (planCoils map address values).map (·.foldl TagStore.write store)
  else .error (some .illegalDataAddress)

def writeHoldingRegisters (address : ℕ) (values : List ℕ) : Except ModelError TagStore :=
  if map.rangeIsFullyMapped .holdingRegister address values.length then
    (planRegisters map values.length address values).map (·.foldl TagStore.write store)
  else .error (some .illegalDataAddress)

def answerBits : Except ModelError (List Bool) → ModelAnswer
  | .ok bits => .bits bits
  | .error kind => .fails kind

def answerRegisters : Except ModelError (List ℕ) → ModelAnswer
  | .ok registers => .registers (registers.map Int.ofNat)
  | .error kind => .fails kind

def answerWrite : Except ModelError TagStore → ModelAnswer × TagStore
  | .ok after => (.written, after)
  | .error kind => (.fails kind, store)

/-- What a call of the data model comes to, and the store that it leaves. -/
def answer : ModelCall → ModelAnswer × TagStore
  | .readCoils address quantity => (answerBits (readBitArea map store .coil address quantity), store)
  | .readDiscreteInputs address quantity => (answerBits (readBitArea map store .discreteInput address quantity), store)
  | .readHoldingRegisters address quantity => (answerRegisters (readRegisterArea map store .holdingRegister address quantity), store)
  | .readInputRegisters address quantity => (answerRegisters (readRegisterArea map store .inputRegister address quantity), store)
  | .writeCoils address values => answerWrite store (writeCoils map store address values)
  | .writeHoldingRegisters address values => answerWrite store (writeHoldingRegisters map store address values)

/-- `processRequest` over a tag store: the result that is encoded as the response, and the store that it leaves. -/
def processRequest (request : ModbusRequest) : Except ExceptionCode Buffer × TagStore :=
  match dispatch request.functionCode request.data with
  | .settled result => (result, store)
  | .asks call resume => (resume (answer map store call).1, (answer map store call).2)

def serve (config : ModbusServerConfig) (request : ModbusRequest) : Except ExceptionCode Buffer × TagStore :=
  if Connection.writeRefused config request then (.error .illegalFunction, store) else processRequest map store request

end TagStoreDataModel

open TagStoreDataModel

end OxScada.Modbus
