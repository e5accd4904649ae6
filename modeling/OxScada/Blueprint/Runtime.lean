import OxScada.Blueprint.Compiler

/-! The runtime of compiled blueprints. A scan runs the instructions one after the other over a buffer
with the values of the tags and a buffer with the states of the stateful operations. -/

namespace OxScada.Blueprint
open OxScada.Bytes

structure OperandSlot where
  index : ℤ
  const : Float
  deriving DecidableEq

structure Logic where
  op : BlueprintOp
  dest : ℤ
  immediate : Float
  a : OperandSlot
  b : OperandSlot
  c : OperandSlot
  deriving DecidableEq

structure Instruction extends Logic where
  stateIndex : ℤ
  deriving DecidableEq

namespace CompiledBlueprint

def operandSlot (program : CompiledBlueprint) (place : ℕ) : Option OperandSlot := do
  let index ← program.operandTagIndices[place]?
  let const ← program.operandConsts[place]?
  return ⟨index, const⟩

/-- What the arrays hold for an instruction. `none` is an access outside of one of them. -/
def instruction (program : CompiledBlueprint) (i : ℕ) : Option Instruction := do
  let base := i * operandStride
  let a ← program.operandSlot base
  let b ← program.operandSlot (base + 1)
  let c ← program.operandSlot (base + 2)
  let dest ← program.destIndices[i]?
  let op ← program.opcodes[i]?
  let immediate ← program.immediates[i]?
  let stateIndex ← program.stateIndices[i]?
  return { op, dest, immediate, a, b, c, stateIndex }

end CompiledBlueprint

/-! ### Operations -/

def bit (b : Bool) : Float := if b then 1 else 0

/-- What an operation puts out, and the state that it leaves. -/
def operate (dt : Float) (op : BlueprintOp) (a b c immediate state : Float) : Float × Float :=
  match op with
  | .and => (bit (a != 0 && b != 0), state)
  | .or => (bit (a != 0 || b != 0), state)
  | .not => (bit !(a != 0), state)
  | .xor => (bit ((a != 0) != (b != 0)), state)
  | .gt => (bit (b < a), state)
  | .gte => (bit (b ≤ a), state)
  | .lt => (bit (a < b), state)
  | .lte => (bit (a ≤ b), state)
  | .eq => (bit (a == b), state)
  | .neq => (bit (a != b), state)
  | .add => (a + b, state)
  | .sub => (a - b, state)
  | .mul => (a * b, state)
  | .div => (if b != 0 then a / b else 0, state)
  | .min => (if a < b then a else b, state)
  | .max => (if b < a then a else b, state)
  | .select => (if a != 0 then b else c, state)
  | .move => (a, state)
  | .const => (immediate, state)
  | .latch =>
    let q := if b != 0 then 0 else state
    let q := if a != 0 then 1 else q
    (q, q)
  | .ton =>
    if a != 0 then
      let elapsed := state + dt
      if immediate ≤ elapsed then (1, immediate) else (0, elapsed)
    else (0, 0)

/-! ### Buffers -/

def readSlot (buffer : List Float) (index : ℤ) : Option Float := if index < 0 then none else buffer[index.toNat]?

def writeSlot (buffer : List Float) (index : ℤ) (value : Float) : Option (List Float) :=
  if 0 ≤ index ∧ index.toNat < buffer.length then some (buffer.set index.toNat value) else none

def OperandSlot.value (tags : List Float) (slot : OperandSlot) : Option Float :=
  if 0 ≤ slot.index then readSlot tags slot.index else some slot.const

structure BlueprintRuntime where
  tagBuffer : List Float
  stateBuffer : List Float
  tickNumber : ℕ
  deriving DecidableEq

inductive RangeError where
  | inputs (expected got : ℕ)
  | tag (name : Text)
  deriving DecidableEq

def RangeError.message : RangeError → String
  | inputs expected got => s!"expected {expected} input values, got {got}"
  | tag name => s!"unknown tag \"{String.ofList name}\""

namespace BlueprintRuntime
variable (program : CompiledBlueprint)

def load : BlueprintRuntime := ⟨program.initialValues, List.replicate program.stateCount 0, 0⟩

def perform (dt : Float) (i : Instruction) (r : BlueprintRuntime) : Option BlueprintRuntime := do
  let a ← i.a.value r.tagBuffer
  let b ← i.b.value r.tagBuffer
  let c ← i.c.value r.tagBuffer
  if i.op.isStateful then
    let state ← readSlot r.stateBuffer i.stateIndex
    let (out, state) := operate dt i.op a b c i.immediate state
    let stateBuffer ← writeSlot r.stateBuffer i.stateIndex state
    let tagBuffer ← writeSlot r.tagBuffer i.dest out
    return { r with tagBuffer, stateBuffer }
  else
    let (out, _) := operate dt i.op a b c i.immediate 0
    let tagBuffer ← writeSlot r.tagBuffer i.dest out
    return { r with tagBuffer }

def scanPeriodSeconds : Float := Float.ofNat program.scanPeriodMs / 1000

variable (r : BlueprintRuntime)

def tickFast : Option BlueprintRuntime :=
  ((List.range program.instructionCount).foldlM (fun r i => (program.instruction i).bind (perform (scanPeriodSeconds program) · r)) r).map
    fun r => { r with tickNumber := r.tickNumber + 1 }

def writeInputs (values : List Float) : Except RangeError BlueprintRuntime :=
  if values.length ≠ program.inputSlots.length then .error (.inputs program.inputSlots.length values.length)
  else .ok { r with tagBuffer := (program.inputSlots.zip values).foldl (fun tags input => tags.set input.1 input.2) r.tagBuffer }

def get (name : Text) : Except RangeError Float :=
  match program.tagIndex name with
  | none => .error (.tag name)
  | some slot => .ok ((r.tagBuffer[slot]?).getD 0)

def set (name : Text) (value : Float) : Except RangeError BlueprintRuntime :=
  match program.tagIndex name with
  | none => .error (.tag name)
  | some slot => .ok { r with tagBuffer := r.tagBuffer.set slot value }

def reset : BlueprintRuntime := load program

inductive Act where
  | writeInputs (values : List Float)
  | set (name : Text) (value : Float)
  | tick
  | reset

def act : Act → Option BlueprintRuntime
  | .writeInputs values => some ((r.writeInputs program values).toOption.getD r)
  | .set name value => some ((r.set program name value).toOption.getD r)
  | .tick => r.tickFast program
  | .reset => some (reset program)

def runFrom (acts : List Act) : Option BlueprintRuntime := acts.foldlM (act program) r

/-- The state of a runtime that was loaded, after some calls. -/
def run (acts : List Act) : Option BlueprintRuntime := runFrom program (load program) acts

end BlueprintRuntime

end OxScada.Blueprint
