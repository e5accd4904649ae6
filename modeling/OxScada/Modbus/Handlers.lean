import OxScada.Modbus.Codec

/-! The handlers of the function codes. A request asks the data model for at most one thing, and
every failure is an exception response. -/

namespace OxScada.Modbus
open OxScada.Bytes

inductive DataModelErrorKind where
  | illegalDataAddress | illegalDataValue | serverFailure
  deriving DecidableEq

inductive ModelCall where
  | readCoils (address quantity : ℕ)
  | readDiscreteInputs (address quantity : ℕ)
  | readHoldingRegisters (address quantity : ℕ)
  | readInputRegisters (address quantity : ℕ)
  | writeCoils (address : ℕ) (values : List Bool)
  | writeHoldingRegisters (address : ℕ) (values : List ℕ)
  deriving DecidableEq

/-- What a call comes to. An error without a kind is not a `DataModelError`. -/
inductive ModelAnswer where
  | bits (values : List Bool)
  | registers (values : List ℤ)
  | written
  | fails (kind : Option DataModelErrorKind)
  deriving DecidableEq

def ModelCall.promises : ModelCall → ModelAnswer → Bool
  | _, .fails _ => true
  | .readCoils _ _, .bits _ => true
  | .readDiscreteInputs _ _, .bits _ => true
  | .readHoldingRegisters _ _, .registers _ => true
  | .readInputRegisters _ _, .registers _ => true
  | .writeCoils _ _, .written => true
  | .writeHoldingRegisters _ _, .written => true
  | _, _ => false

def toExceptionCode : Option DataModelErrorKind → ExceptionCode
  | some .illegalDataAddress => .illegalDataAddress
  | some .illegalDataValue => .illegalDataValue
  | some .serverFailure => .serverDeviceFailure
  | none => .serverDeviceFailure

/-- The response of a handler, or the call that it awaits and what it does with the answer. -/
inductive Dispatched where
  | settled (result : Except ExceptionCode Buffer)
  | asks (call : ModelCall) (resume : ModelAnswer → Except ExceptionCode Buffer)

def counted (packed : Buffer) : Except ExceptionCode Buffer :=
  if 255 < packed.length then .error .serverDeviceFailure else .ok (UInt8.ofNat packed.length :: packed)

variable (data : Buffer)

def readBits (maxQuantity : ℕ) (read : ℕ → ℕ → ModelCall) : Dispatched :=
  if data.length < 4 then .settled (.error .illegalDataValue)
  else
    let address := readUInt16BE data 0
    let quantity := readUInt16BE data 2
    if quantity < 1 ∨ maxQuantity < quantity then .settled (.error .illegalDataValue)
    else .asks (read address quantity) fun answer =>
      match answer with
      | .bits bits => counted (packBits bits)
      | .fails kind => .error (toExceptionCode kind)
      | _ => .error .serverDeviceFailure

def readRegisters (read : ℕ → ℕ → ModelCall) : Dispatched :=
  if data.length < 4 then .settled (.error .illegalDataValue)
  else
    let address := readUInt16BE data 0
    let quantity := readUInt16BE data 2
    if quantity < 1 ∨ maxReadRegisters < quantity then .settled (.error .illegalDataValue)
    else .asks (read address quantity) fun answer =>
      match answer with
      | .registers registers => counted (packRegisters registers)
      | .fails kind => .error (toExceptionCode kind)
      | _ => .error .serverDeviceFailure

def echo (body : Buffer) : ModelAnswer → Except ExceptionCode Buffer
  | .written => .ok body
  | .fails kind => .error (toExceptionCode kind)
  | _ => .error .serverDeviceFailure

def coilOn : ℕ := 0xff00
def coilOff : ℕ := 0x0000

def writeSingleCoil : Dispatched :=
  if data.length < 4 then .settled (.error .illegalDataValue)
  else
    let address := readUInt16BE data 0
    let raw := readUInt16BE data 2
    if raw ≠ coilOn ∧ raw ≠ coilOff then .settled (.error .illegalDataValue)
    else .asks (.writeCoils address [raw = coilOn]) (echo (data.take 4))

def writeSingleRegister : Dispatched :=
  if data.length < 4 then .settled (.error .illegalDataValue)
  else .asks (.writeHoldingRegisters (readUInt16BE data 0) [readUInt16BE data 2]) (echo (data.take 4))

def writeMultipleCoils : Dispatched :=
  if data.length < 5 then .settled (.error .illegalDataValue)
  else
    let address := readUInt16BE data 0
    let quantity := readUInt16BE data 2
    let byteCount := readUInt8 data 4
    if quantity < 1 ∨ maxWriteCoils < quantity then .settled (.error .illegalDataValue)
    else if byteCount ≠ (quantity + 7) / 8 ∨ data.length < 5 + byteCount then .settled (.error .illegalDataValue)
    else .asks (.writeCoils address (unpackBits ((data.take (5 + byteCount)).drop 5) quantity))
      (echo (uint16BE address ++ uint16BE quantity))

def writeMultipleRegisters : Dispatched :=
  if data.length < 5 then .settled (.error .illegalDataValue)
  else
    let address := readUInt16BE data 0
    let quantity := readUInt16BE data 2
    let byteCount := readUInt8 data 4
    if quantity < 1 ∨ maxWriteRegisters < quantity then .settled (.error .illegalDataValue)
    else if byteCount ≠ quantity * 2 ∨ data.length < 5 + byteCount then .settled (.error .illegalDataValue)
    else .asks (.writeHoldingRegisters address (unpackRegisters ((data.take (5 + byteCount)).drop 5) quantity))
      (echo (uint16BE address ++ uint16BE quantity))

def dispatch (functionCode : ℕ) (data : Buffer) : Dispatched :=
  if functionCode = FunctionCode.readCoils then readBits data maxReadBits .readCoils
  else if functionCode = FunctionCode.readDiscreteInputs then readBits data maxReadBits .readDiscreteInputs
  else if functionCode = FunctionCode.readHoldingRegisters then readRegisters data .readHoldingRegisters
  else if functionCode = FunctionCode.readInputRegisters then readRegisters data .readInputRegisters
  else if functionCode = FunctionCode.writeSingleCoil then writeSingleCoil data
  else if functionCode = FunctionCode.writeSingleRegister then writeSingleRegister data
  else if functionCode = FunctionCode.writeMultipleCoils then writeMultipleCoils data
  else if functionCode = FunctionCode.writeMultipleRegisters then writeMultipleRegisters data
  else .settled (.error .illegalFunction)

/-- The frame that `processRequest` makes of what the handler came to. -/
def encodeResult (request : ModbusRequest) : Except ExceptionCode Buffer → Buffer
  | .ok responsePdu => encodeResponse request.header request.functionCode responsePdu
  | .error code => encodeExceptionResponse request.header request.functionCode code

/-- `processRequest` with the answers of the data model that it takes, and the response. -/
inductive ProcessRequest (request : ModbusRequest) : List ModelAnswer → Buffer → Prop
  | settled {result : Except ExceptionCode Buffer} (h : dispatch request.functionCode request.data = .settled result) :
      ProcessRequest request [] (encodeResult request result)
  | asked {call : ModelCall} {resume : ModelAnswer → Except ExceptionCode Buffer} {answer : ModelAnswer}
      (h : dispatch request.functionCode request.data = .asks call resume) (hanswer : call.promises answer = true) :
      ProcessRequest request [answer] (encodeResult request (resume answer))

end OxScada.Modbus
