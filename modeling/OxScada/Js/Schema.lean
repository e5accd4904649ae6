import OxScada.Js.Number
import OxScada.Js.Text

/-! Values that were read from outside, and the schemas that they are held against. A schema says
whether a value passes and what it is then taken for. The issues of a value that does not are left out. -/

namespace OxScada.Js
open OxScada.Bytes

inductive Untrusted where
  | null
  | bool (value : Bool)
  | number (value : Float)
  | string (value : Text)
  | array (items : List Untrusted)
  /-- The fields that are there, each once. -/
  | object (fields : List (Text × Untrusted))

abbrev Schema (α : Type) := Untrusted → Option α

namespace Schema

def nonempty : Schema Text
  | .string value => if value = [] then none else some value
  | _ => none

def finite : Schema Float
  | .number value => if value.isFinite then some value else none
  | _ => none

def number : Schema Float
  | .number value => if value.isNaN then none else some value
  | _ => none

def boolean : Schema Bool
  | .bool value => some value
  | _ => none

def intBetween (low high : ℕ) : Schema ℕ
  | .number value =>
    let n := clampInt value low high
    if Float.ofInt n == value then some n.toNat else none
  | _ => none

def enum {α : Type} (values : List α) (text : α → Text) : Schema α
  | .string value => values.find? (text · = value)
  | _ => none

def arrayOf {α : Type} (item : Schema α) : Schema (List α)
  | .array items => items.mapM item
  | _ => none

def strict (names : List Text) : Schema (List (Text × Untrusted))
  | .object fields => if ∀ field ∈ fields, field.1 ∈ names then some fields else none
  | _ => none

def object : Schema (List (Text × Untrusted))
  | .object fields => some fields
  | _ => none

def field? (fields : List (Text × Untrusted)) (name : Text) : Option Untrusted := (fields.find? (·.1 = name)).map (·.2)

def required {α : Type} (fields : List (Text × Untrusted)) (name : Text) (schema : Schema α) : Option α := (field? fields name).bind schema

def optional {α : Type} (fields : List (Text × Untrusted)) (name : Text) (schema : Schema α) : Option (Option α) :=
  match field? fields name with
  | none => some none
  | some value => (schema value).map some

end Schema

end OxScada.Js
