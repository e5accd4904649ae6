import OxScada.Js.Schema

/-! Blueprints as they are authored: a graph of operations over tags that are known by their names. -/

namespace OxScada.Blueprint
open OxScada.Bytes OxScada.Js

inductive TagDirection where
  | input | output | internal
  deriving DecidableEq

inductive TagDataType where
  | bool | int | float
  deriving DecidableEq

structure TagDescriptor where
  name : Text
  direction : TagDirection
  dataType : TagDataType
  initial : Option Float := none
  deriving DecidableEq

inductive BlueprintOp where
  | and | or | not | xor
  | gt | gte | lt | lte | eq | neq
  | add | sub | mul | div | min | max
  | select | move | const
  | latch | ton
  deriving DecidableEq

inductive BlueprintOperand where
  | tag (tag : Text)
  | const (value : Float)
  deriving DecidableEq

structure BlueprintNode where
  id : Text
  op : BlueprintOp
  inputs : List BlueprintOperand
  output : Text
  param : Option Float := none
  deriving DecidableEq

structure BlueprintDefinition where
  id : Text
  name : Text
  tags : List TagDescriptor
  nodes : List BlueprintNode
  /-- A natural number, as `parseBlueprintDefinition` checks; a definition that was not parsed may have any number. -/
  scanPeriodMs : Option ℕ := none
  deriving DecidableEq

def operandStride : ℕ := 3

def BlueprintOp.all : List BlueprintOp :=
  [.and, .or, .not, .xor, .gt, .gte, .lt, .lte, .eq, .neq, .add, .sub, .mul, .div, .min, .max, .select, .move, .const, .latch, .ton]

def BlueprintOp.text : BlueprintOp → Text
  | .and => "AND".toList
  | .or => "OR".toList
  | .not => "NOT".toList
  | .xor => "XOR".toList
  | .gt => "GT".toList
  | .gte => "GTE".toList
  | .lt => "LT".toList
  | .lte => "LTE".toList
  | .eq => "EQ".toList
  | .neq => "NEQ".toList
  | .add => "ADD".toList
  | .sub => "SUB".toList
  | .mul => "MUL".toList
  | .div => "DIV".toList
  | .min => "MIN".toList
  | .max => "MAX".toList
  | .select => "SELECT".toList
  | .move => "MOVE".toList
  | .const => "CONST".toList
  | .latch => "LATCH".toList
  | .ton => "TON".toList

def TagDirection.text : TagDirection → Text
  | .input => "input".toList
  | .output => "output".toList
  | .internal => "internal".toList

def TagDataType.text : TagDataType → Text
  | .bool => "bool".toList
  | .int => "int".toList
  | .float => "float".toList

/-! ### Definitions that are read from outside -/

open Schema

def blueprintOperandSchema : Schema BlueprintOperand := fun value =>
  (do
    let fields ← strict ["tag".toList] value
    let tag ← required fields "tag".toList nonempty
    return .tag tag) <|>
  (do
    let fields ← strict ["const".toList] value
    let const ← required fields "const".toList finite
    return .const const)

def tagDescriptorSchema : Schema TagDescriptor := fun value => do
  let fields ← strict ["name".toList, "direction".toList, "dataType".toList, "initial".toList] value
  let name ← required fields "name".toList nonempty
  let direction ← required fields "direction".toList (enum [.input, .output, .internal] TagDirection.text)
  let dataType ← required fields "dataType".toList (enum [.bool, .int, .float] TagDataType.text)
  let initial ← optional fields "initial".toList finite
  return { name, direction, dataType, initial }

def blueprintNodeSchema : Schema BlueprintNode := fun value => do
  let fields ← strict ["id".toList, "op".toList, "inputs".toList, "output".toList, "param".toList] value
  let id ← required fields "id".toList nonempty
  let op ← required fields "op".toList (enum BlueprintOp.all BlueprintOp.text)
  let inputs ← required fields "inputs".toList (arrayOf blueprintOperandSchema)
  if operandStride < inputs.length then none
  else do
    let output ← required fields "output".toList nonempty
    let param ← optional fields "param".toList finite
    return { id, op, inputs, output, param }

def blueprintDefinitionSchema : Schema BlueprintDefinition := fun value => do
  let fields ← strict ["id".toList, "name".toList, "tags".toList, "nodes".toList, "scanPeriodMs".toList] value
  let id ← required fields "id".toList nonempty
  let name ← required fields "name".toList nonempty
  let tags ← required fields "tags".toList (arrayOf tagDescriptorSchema)
  let nodes ← required fields "nodes".toList (arrayOf blueprintNodeSchema)
  let scanPeriodMs ← optional fields "scanPeriodMs".toList (intBetween 1 3600000)
  if tags = [] ∨ nodes = [] then none
  else return { id, name, tags, nodes, scanPeriodMs }

structure BlueprintDefinitionLimits where
  maxTags : ℕ
  maxNodes : ℕ

inductive BlueprintDefinitionError where
  | schema
  | tags (declared maximum : ℕ)
  | nodes (declared maximum : ℕ)
  deriving DecidableEq

def BlueprintDefinitionError.message : BlueprintDefinitionError → String
  | .schema => "schema validation failed — "
  | .tags declared maximum => s!"blueprint declares {declared} tags, exceeding the configured maximum of {maximum}"
  | .nodes declared maximum => s!"blueprint declares {declared} nodes, exceeding the configured maximum of {maximum}"

def parseBlueprintDefinition (value : Untrusted) (limits : BlueprintDefinitionLimits) : Except BlueprintDefinitionError BlueprintDefinition :=
  match blueprintDefinitionSchema value with
  | none => .error .schema
  | some definition =>
    if limits.maxTags < definition.tags.length then .error (.tags definition.tags.length limits.maxTags)
    else if limits.maxNodes < definition.nodes.length then .error (.nodes definition.nodes.length limits.maxNodes)
    else .ok definition

end OxScada.Blueprint
