import OxScada.Sparkplug.Lifecycle
import OxScada.Js.BigInt
import OxScada.Js.Record

/-! The metrics of a Sparkplug payload on their way to the protobuf codec and back. An integer goes out as a
decimal text and may come back as two words of 32 bits. -/

namespace OxScada.Sparkplug.Codec
open OxScada.Bytes OxScada.Js

structure LongLike where
  low : Float
  high : Float

/-- The value of a metric, or the words that the codec gives for one. -/
inductive CodecValue where
  | null
  | number (value : Float)
  | bigint (value : ℤ)
  | boolean (value : Bool)
  | string (value : Text)
  | long (value : LongLike)

def CodecValue.isNull : CodecValue → Bool
  | .null => true
  | _ => false

inductive CodecInteger where
  | number (value : Float)
  | string (value : Text)
  | long (value : LongLike)

inductive PayloadError where
  | error (message : Text)
  | rangeError (message : Text)
  | typeError (message : Text)
  | syntaxError (text : Text)
  -- The message quotes the number.
  | unsafeInteger (value : Float)

structure SparkplugMetric where
  name : Text
  metricAlias : Option Float := none
  dataType : SparkplugDataType
  value : CodecValue
  timestamp : Option Float := none
  isHistorical : Option Bool := none
  isNull : Option Bool := none
  properties : Option (Record CodecValue) := none

structure SparkplugPayload where
  timestamp : Float
  seq : Option Float := none
  metrics : List SparkplugMetric
  body : Option Buffer := none
  uuid : Option Text := none

structure ProtoPropertyValue where
  type : Text
  value : CodecValue

structure ProtoMetric where
  name : Option Text
  metricAlias : Option CodecInteger := none
  timestamp : Option CodecInteger
  type : Text
  value : CodecValue
  isHistorical : Option Bool := none
  isNull : Option Bool
  properties : Option (Record ProtoPropertyValue) := none

structure ProtoPayload where
  timestamp : CodecInteger
  seq : Option CodecInteger := none
  uuid : Option Text := none
  body : Option Buffer := none
  metrics : Option (List ProtoMetric)

def dataTypeName : SparkplugDataType → Text
  | .int8 => "Int8".toList
  | .int16 => "Int16".toList
  | .int32 => "Int32".toList
  | .int64 => "Int64".toList
  | .uint8 => "UInt8".toList
  | .uint16 => "UInt16".toList
  | .uint32 => "UInt32".toList
  | .uint64 => "UInt64".toList
  | .float => "Float".toList
  | .double => "Double".toList
  | .boolean => "Boolean".toList
  | .string => "String".toList
  | .dateTime => "DateTime".toList
  | .text => "Text".toList
  | .uuid => "UUID".toList

def dataTypes : List SparkplugDataType :=
  [.int8, .int16, .int32, .int64, .uint8, .uint16, .uint32, .uint64, .float, .double, .boolean, .string, .dateTime, .text, .uuid]

/-- The names of members of `Object.prototype`, which the lookup of the source finds as well, are refused here. -/
def dataTypeFromName (name : Text) : Except PayloadError SparkplugDataType :=
  match dataTypes.find? fun dataType => dataTypeName dataType = name with
  | none => .error (.error ("Unknown Sparkplug data type name: ".toList ++ name))
  | some dataType => .ok dataType

def validateUnsignedSafeInteger (value : Float) (field : Text) : Except PayloadError Float :=
  if isSafeInteger value = false ∨ value < 0 then .error (.rangeError (field ++ " must be a non-negative safe integer".toList))
  else .ok value

def sequenceError (seq : Float) : PayloadError :=
  .rangeError ("payload sequence ".toList ++ integerText (bigInt seq) ++ " is outside 0..255".toList)

def validateSequence (value : Float) : Except PayloadError Float := do
  let seq ← validateUnsignedSafeInteger value "payload sequence".toList
  if 255 < seq then .error (sequenceError seq) else .ok seq

variable (dataType : SparkplugDataType)

def isLongDataType : Bool :=
  dataType = .int64 || dataType = .uint32 || dataType = .uint64 || dataType = .dateTime

def integerBounds : SparkplugDataType → ℤ × ℤ
  | .int64 => (-2 ^ 63, 2 ^ 63 - 1)
  | .uint32 => (0, 2 ^ 32 - 1)
  | _ => (0, 2 ^ 64 - 1)

def checkBounds (before : Text) (dataType : SparkplugDataType) (exact : ℤ) : Except PayloadError ℤ :=
  let (low, high) := integerBounds dataType
  if exact < low ∨ high < exact then
    .error (.rangeError (before ++ dataTypeName dataType ++ " value ".toList ++ integerText exact ++ " is outside ".toList ++
      integerText low ++ "..".toList ++ integerText high))
  else .ok exact

def bigIntFromText (text : Text) : Except PayloadError ℤ :=
  match bigIntOfText text with
  | none => .error (.syntaxError text)
  | some exact => .ok exact

def exactToCodec : CodecValue → Except PayloadError ℤ
  | .bigint value => .ok value
  | .number value =>
    if isSafeInteger value then .ok (bigInt value)
    else .error (.rangeError (dataTypeName dataType ++ (" values supplied as number must be safe integers; ".toList ++
      "use an integer string or bigint for exact 64-bit values".toList)))
  | .string value =>
    if isCanonicalInteger value then bigIntFromText value
    else .error (.typeError (dataTypeName dataType ++ " string values must be canonical base-10 integers".toList))
  | _ => .error (.typeError (dataTypeName dataType ++ " metrics require an integer number, string, or bigint".toList))

def metricValueToCodec (value : CodecValue) (dataType : SparkplugDataType) : Except PayloadError CodecValue :=
  if value.isNull then .ok .null
  else if isLongDataType dataType then do
    let exact ← exactToCodec dataType value
    let exact ← checkBounds [] dataType exact
    return .string (integerText exact)
  else
    match value with
    | .bigint _ => .error (.typeError (dataTypeName dataType ++ " metrics do not accept bigint values".toList))
    | value => .ok value

/-- The words are put together, and the highest bit of a signed integer counts negative. -/
def longLikeToBigInt (value : LongLike) (signed : Bool) : ℤ :=
  let bits := (toUint32 value.high <<< 32) ||| toUint32 value.low
  if signed && 2 ^ 63 ≤ bits then bits - 2 ^ 64 else bits

def compactInteger (value : ℤ) : CodecValue :=
  if -(2 ^ 53 - 1) ≤ value ∧ value ≤ 2 ^ 53 - 1 then .number (ofInteger value) else .bigint value

def exactFromCodec : CodecValue → Except PayloadError ℤ
  | .number value =>
    if isSafeInteger value then .ok (bigInt value)
    else .error (.rangeError ("Decoded ".toList ++ dataTypeName dataType ++ " number is not a safe integer".toList))
  | .bigint value => .ok value
  | .string value =>
    if isCanonicalInteger value then bigIntFromText value
    else .error (.typeError ("Decoded ".toList ++ dataTypeName dataType ++ " string is not a canonical integer".toList))
  | .long value => .ok (longLikeToBigInt value (dataType = .int64))
  | _ => .error (.typeError ("Decoded ".toList ++ dataTypeName dataType ++ " metric has a non-integer value".toList))

def metricValueFromCodec (value : CodecValue) (dataType : SparkplugDataType) : Except PayloadError CodecValue :=
  if value.isNull ∨ isLongDataType dataType = false then .ok value
  else do
    let exact ← exactFromCodec dataType value
    let exact ← checkBounds "Decoded ".toList dataType exact
    return compactInteger exact

def codecIntegerToBigInt : CodecInteger → Except PayloadError ℤ
  | .number value => if isSafeInteger value then .ok (bigInt value) else .error (.unsafeInteger value)
  | .string value => bigIntFromText value
  | .long value => .ok (longLikeToBigInt value false)

def codecIntegerToSafeNumber (value : CodecInteger) (field : Text) : Except PayloadError Float := do
  let exact ← codecIntegerToBigInt value
  if exact < -(2 ^ 53 - 1) ∨ 2 ^ 53 - 1 < exact then
    .error (.rangeError (field ++ [' '] ++ integerText exact ++ " exceeds JavaScript's safe integer range".toList))
  else .ok (ofInteger exact)

def codecIntegerToUnsignedSafeNumber (value : CodecInteger) (field : Text) : Except PayloadError Float := do
  let decoded ← codecIntegerToSafeNumber value field
  if decoded < 0 then .error (.rangeError (field ++ [' '] ++ integerText (bigInt decoded) ++ " must be non-negative".toList))
  else .ok decoded

def inferPropertyType : CodecValue → Except PayloadError SparkplugDataType
  | .null => .ok .string
  | .boolean _ => .ok .boolean
  | .bigint value =>
    if -2 ^ 63 ≤ value ∧ value ≤ 2 ^ 63 - 1 then .ok .int64
    else if 0 ≤ value ∧ value ≤ 2 ^ 64 - 1 then .ok .uint64
    else .error (.rangeError ("property integer ".toList ++ integerText value ++ " is outside Int64/UInt64 range".toList))
  | .number value =>
    if isInteger value = false then .ok .double
    else if isSafeInteger value = false then .error (.rangeError "property integer must be safely representable".toList)
    else if -2 ^ 31 ≤ bigInt value ∧ bigInt value ≤ 2 ^ 31 - 1 then .ok .int32
    else if 0 ≤ bigInt value ∧ bigInt value ≤ 2 ^ 32 - 1 then .ok .uint32
    else .ok .int64
  | _ => .ok .string

def propertyToProto (value : CodecValue) : Except PayloadError ProtoPropertyValue := do
  let type := dataTypeName (← inferPropertyType value)
  if value.isNull then return ⟨type, .null⟩
  else return ⟨type, ← metricValueToCodec value (← dataTypeFromName type)⟩

def propertyFromProto (property : ProtoPropertyValue) : Except PayloadError CodecValue := do
  metricValueFromCodec property.value (← dataTypeFromName property.type)

/-- The flag of a metric without a value, which is derived where it is not given. -/
def SparkplugMetric.nullFlag (metric : SparkplugMetric) : Bool :=
  metric.isNull.getD metric.value.isNull

def SparkplugMetric.codecValue (metric : SparkplugMetric) : Except PayloadError CodecValue :=
  if metric.nullFlag then .ok .null else metricValueToCodec metric.value metric.dataType

def metricToProto (now : Float) (metric : SparkplugMetric) : Except PayloadError ProtoMetric := do
  let timestamp ← validateUnsignedSafeInteger (metric.timestamp.getD now) "metric timestamp".toList
  let value ← metric.codecValue
  let metricAlias ← metric.metricAlias.mapM fun given => validateUnsignedSafeInteger given "metric alias".toList
  let properties ← metric.properties.mapM fun given => given.mapEntries propertyToProto
  return {
    name := some metric.name, type := dataTypeName metric.dataType, timestamp := some (.number timestamp), value, isNull := some metric.nullFlag,
    metricAlias := metricAlias.map .number, isHistorical := if metric.isHistorical = some true then some true else none, properties }

def ProtoMetric.metricValue (proto : ProtoMetric) (dataType : SparkplugDataType) : Except PayloadError CodecValue :=
  if proto.isNull = some true then .ok .null else metricValueFromCodec proto.value dataType

def metricFromProto (proto : ProtoMetric) : Except PayloadError SparkplugMetric := do
  let dataType ← dataTypeFromName proto.type
  let value ← proto.metricValue dataType
  let metricAlias ← proto.metricAlias.mapM fun given => codecIntegerToUnsignedSafeNumber given "metric alias".toList
  let timestamp ← proto.timestamp.mapM fun given => codecIntegerToUnsignedSafeNumber given "metric timestamp".toList
  let properties ← proto.properties.mapM fun given => given.mapEntries propertyFromProto
  return {
    name := proto.name.getD [], dataType, value, metricAlias, timestamp,
    isHistorical := if proto.isHistorical = some true then some true else none,
    isNull := if proto.isNull = some true then some true else none, properties }

def payloadToProto (payload : SparkplugPayload) (now : Float) : Except PayloadError ProtoPayload := do
  let timestamp ← validateUnsignedSafeInteger payload.timestamp "payload timestamp".toList
  let metrics ← payload.metrics.mapM (metricToProto now)
  let seq ← payload.seq.mapM validateSequence
  return { timestamp := .number timestamp, metrics := some metrics, seq := seq.map .number, uuid := payload.uuid, body := payload.body }

def sequenceFromCodec (value : CodecInteger) : Except PayloadError Float := do
  let seq ← codecIntegerToUnsignedSafeNumber value "payload sequence".toList
  if 255 < seq then .error (sequenceError seq) else .ok seq

def payloadFromProto (proto : ProtoPayload) : Except PayloadError SparkplugPayload := do
  let timestamp ← codecIntegerToUnsignedSafeNumber proto.timestamp "payload timestamp".toList
  let metrics ← (proto.metrics.getD []).mapM metricFromProto
  let seq ← proto.seq.mapM sequenceFromCodec
  return { timestamp, metrics, seq, uuid := proto.uuid, body := proto.body }

end OxScada.Sparkplug.Codec
