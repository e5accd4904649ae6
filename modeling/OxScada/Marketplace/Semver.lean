import OxScada.Js.Integers
import OxScada.Peers.Allowlist

/-! Versions of plugins. A component is a number, so one with hundreds of digits is infinite. -/

namespace OxScada.Marketplace
open OxScada.Bytes OxScada.Js OxScada.Peers Float.Model

structure SemVer where
  major : Float
  minor : Float
  patch : Float

def component (digits : Text) : Option Float :=
  if digits ≠ [] ∧ digits.all Char.isDigit then some (ofInteger (Nat.ofDigitChars 10 digits 0)) else none

def parseSemver (version : Text) : Option SemVer :=
  let numbers := match trim version with
    | 'v' :: rest => rest
    | text => text
  match numbers.splitOn '.' with
  | [major, minor, patch] => do
    let major ← component major
    let minor ← component minor
    let patch ← component patch
    return { major, minor, patch }
  | _ => none

def SemVer.compare (a b : SemVer) : Float := orElse (a.major - b.major) (orElse (a.minor - b.minor) (a.patch - b.patch))

/-- Negative where `a` is before `b`. Nothing where it throws. -/
def compareSemver (a b : Text) : Option Float := do
  let a ← parseSemver a
  let b ← parseSemver b
  return a.compare b

def satisfiesRange (version range : Text) : Bool :=
  let trimmed := trim range
  if trimmed = ['*'] ∨ trimmed = [] then (parseSemver version).isSome
  else
    match parseSemver version with
    | none => false
    | some v =>
      match trimmed with
      | '^' :: rest =>
        match parseSemver rest with
        | none => false
        | some base =>
          if 0 < base.major then v.major == base.major && 0 ≤ v.compare base
          else v.major == 0 && v.minor == base.minor && 0 ≤ v.compare base
      | '~' :: rest =>
        match parseSemver rest with
        | none => false
        | some base => v.major == base.major && v.minor == base.minor && 0 ≤ v.compare base
      | exact =>
        match parseSemver exact with
        | none => false
        | some base => v.compare base == 0

theorem pos_of_order {order : Float} (hneg : ¬ order < 0) (hzero : (order == 0) = false) (hnumber : order.isNaN = false) : 0 < order := by
  have hunpack : (0 : Float).toModel.unpack = .zero .positive := rfl
  have hlt : order < 0 ↔ order.toModel.unpack.lt (.zero .positive) = true := hunpack ▸ decide_eq_true_iff
  have hbeq : (order == 0) = order.toModel.unpack.beq (.zero .positive) := rfl
  have hpos : 0 < order ↔ UnpackedFloat.lt (.zero .positive) order.toModel.unpack = true := hunpack ▸ decide_eq_true_iff
  have hnan : order.isNaN = order.toModel.unpack.isNaN := rfl
  rw [hlt] at hneg
  rw [hbeq] at hzero
  rw [hnan] at hnumber
  rw [hpos]
  cases hvalue : order.toModel.unpack with
  | notANumber =>
    rw [hvalue] at hnumber
    cases hnumber
  | zero sign =>
    rw [hvalue] at hzero
    cases hzero
  | infinity sign =>
    rw [hvalue] at hneg
    cases sign with
    | positive => rfl
    | negative => exact absurd rfl hneg
  | finite sign mantissa exponent hmantissa =>
    rw [hvalue] at hneg
    cases sign with
    | positive => rfl
    | negative => exact absurd rfl hneg

end OxScada.Marketplace
