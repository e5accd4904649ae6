import OxScada.Dnp3.AppLayer

/-! The point map: the tags an outstation exposes, their current samples, and the static
objects a Class 0 poll reports them with. -/

namespace OxScada.Dnp3
open OxScada.Bytes OxScada.Js

inductive PointQuality where
  | good | bad | uncertain
  deriving DecidableEq, Repr

inductive Dnp3PointType where
  | binaryInput | analogInput | counter | binaryOutput | analogOutput
  deriving DecidableEq, Repr

inductive AnalogEncoding where
  | int32 | float32
  deriving DecidableEq, Repr

inductive EventClass where
  | class1 | class2 | class3
  deriving DecidableEq, Repr

/-- A mapped point. Class 0 and no class at all are both `none`. -/
structure Dnp3PointDef where
  tagId : String
  type : Dnp3PointType
  index : ℕ
  eventClass : Option EventClass := none
  encoding : Option AnalogEncoding := none
  scale : Option Float := none
  deriving DecidableEq

inductive PointValue where
  | number (value : Float)
  | boolean (value : Bool)
  deriving DecidableEq

structure PointSample where
  value : PointValue
  quality : PointQuality
  timestamp : Float
  deriving DecidableEq

structure ResolvedPoint where
  pointDef : Dnp3PointDef
  sample : PointSample

/-! ### Values and flags -/

namespace PointValue

def toNumber : PointValue → Float
  | number value => value
  | boolean value => if value then 1 else 0

def toBoolean : PointValue → Bool
  | number value => !(value.isNaN || value == 0)
  | boolean value => value

end PointValue

structure FlagOptions where
  online : Bool := true
  restart : Bool := false
  commLost : Bool := false
  remoteForced : Bool := false
  localForced : Bool := false
  overRange : Bool := false
  referenceErr : Bool := false
  state : Bool := false
  rollover : Bool := false

def buildAnalogFlags (opts : FlagOptions) : UInt8 :=
  (if opts.online then 0x01 else 0) ||| (if opts.restart then 0x02 else 0) ||| (if opts.commLost then 0x04 else 0) |||
    (if opts.remoteForced then 0x08 else 0) ||| (if opts.localForced then 0x10 else 0) |||
    (if opts.overRange || opts.rollover then 0x20 else 0) ||| (if opts.referenceErr then 0x40 else 0)

def buildBinaryFlags (opts : FlagOptions) : UInt8 :=
  (buildAnalogFlags opts &&& 0x7f) ||| (if opts.state then 0x80 else 0)

def qualityToFlags (quality : PointQuality) (state : Bool) : FlagOptions :=
  match quality with
  | .good => { online := true, state := state }
  | .uncertain => { online := true, localForced := true, state := state }
  | .bad => { online := false, commLost := true, state := state }

def Dnp3PointType.isBinary (type : Dnp3PointType) : Bool := type = .binaryInput ∨ type = .binaryOutput

def deriveFlags (point : ResolvedPoint) : UInt8 :=
  if point.pointDef.type.isBinary then
    buildBinaryFlags (qualityToFlags point.sample.quality point.sample.value.toBoolean)
  else buildAnalogFlags (qualityToFlags point.sample.quality false)

def encodeDnp3Time (epochMs : Float) : Buffer := writeIntLE 6 (clampInt epochMs 0 0xffffffffffff)

def encodeAnalog32WithFlag (value : Float) (flags : UInt8) : Buffer :=
  flags :: writeIntLE 4 (clampInt value (-2147483648) 2147483647)

def encodeAnalogFloatWithFlag (value : Float) (flags : UInt8) : Buffer := flags :: writeFloatLE value

def encodeCounter32WithFlag (value : Float) (flags : UInt8) : Buffer :=
  flags :: writeIntLE 4 (clampInt value 0 0xffffffff)

/-! ### The map -/

abbrev PointKey := Dnp3PointType × ℕ

variable (d : Dnp3PointDef)

def Dnp3PointDef.key : PointKey := (d.type, d.index)

/-- The points in the order they were added. Every point has a sample, and no two points
share a type and an index. -/
structure Dnp3PointMap where
  points : List ResolvedPoint := []
  distinct : (points.map (·.pointDef.key)).Nodup := by decide

def normalise (sample : PointSample) : PointSample :=
  if d.type.isBinary then
    match sample.value with
    | .boolean value => { sample with value := .boolean value }
    | .number value => { sample with value := .boolean (value != 0) }
  else
    let number := sample.value.toNumber
    { sample with value := .number ((if number.isFinite then number else 0) * d.scale.getD 1) }

namespace Dnp3PointMap
variable (m : Dnp3PointMap)

def lookup (key : PointKey) : Option ResolvedPoint :=
  m.points.find? fun point => point.pointDef.key = key

variable (type : Dnp3PointType)

def getPoint (index : ℕ) : Option Dnp3PointDef :=
  (m.lookup (type, index)).map (·.pointDef)

def resolve (index : ℕ) : Option ResolvedPoint := m.lookup (type, index)

def pointsOfType : List Dnp3PointDef :=
  ((m.points.map (·.pointDef)).filter (·.type = type)).insertionSort fun a b => a.index ≤ b.index

def updated (tagId : String) (sample : PointSample) (point : ResolvedPoint) : ResolvedPoint :=
  if point.pointDef.tagId = tagId then { point with sample := normalise point.pointDef sample } else point

theorem updated_pointDef (tagId : String) (sample : PointSample) (point : ResolvedPoint) :
    (updated tagId sample point).pointDef = point.pointDef := by
  rw [updated]
  split_ifs <;> rfl

/-- The map after a sample for a tag, and the points it feeds. -/
def applyTagUpdate (tagId : String) (sample : PointSample) : List PointKey × Dnp3PointMap :=
  ((m.points.filter (·.pointDef.tagId = tagId)).map (·.pointDef.key),
    { points := m.points.map (updated tagId sample)
      distinct := by
        rw [List.map_map]
        simp only [Function.comp_def, updated_pointDef]
        exact m.distinct })

theorem lookup_key {m : Dnp3PointMap} {key : PointKey} {point : ResolvedPoint} (h : m.lookup key = some point) :
    point ∈ m.points ∧ point.pointDef.key = key :=
  ⟨List.mem_of_find?_eq_some h, by simpa using List.find?_some h⟩

end Dnp3PointMap

/-! ### Static objects -/

structure PointGroupVariation where
  group : UInt8
  variation : UInt8
  deriving DecidableEq, Repr

def defaultGroupVariation : PointGroupVariation :=
  match d.type with
  | .binaryInput => ⟨Group.binaryInputStatic, 2⟩
  | .binaryOutput => ⟨Group.binaryOutputStatic, 2⟩
  | .counter => ⟨Group.counterStatic, 1⟩
  | .analogInput => ⟨Group.analogInputStatic, if d.encoding = some .int32 then 1 else 5⟩
  | .analogOutput => ⟨Group.analogOutputStatus, if d.encoding = some .int32 then 1 else 3⟩

def serializeStaticPoint (point : ResolvedPoint) : PointGroupVariation × Buffer :=
  let flags := deriveFlags point
  let value := point.sample.value.toNumber
  (defaultGroupVariation point.pointDef,
    match point.pointDef.type with
    | .binaryInput | .binaryOutput => [flags]
    | .counter => encodeCounter32WithFlag value flags
    | .analogInput | .analogOutput =>
      if point.pointDef.encoding = some .int32 then encodeAnalog32WithFlag value flags
      else encodeAnalogFloatWithFlag value flags)

structure StaticRun where
  gv : PointGroupVariation
  wide : Bool
  start : ℕ
  stop : ℕ
  data : Buffer

def buildObjectHeaderRange8 (gv : PointGroupVariation) (start stop : ℕ) (data : Buffer) : Buffer :=
  [gv.group, gv.variation, 0x00, UInt8.ofNat start, UInt8.ofNat stop] ++ data

def buildObjectHeaderRange16 (gv : PointGroupVariation) (start stop : ℕ) (data : Buffer) : Buffer :=
  [gv.group, gv.variation, 0x01] ++ writeUIntLE 2 start ++ writeUIntLE 2 stop ++ data

def encodeStaticRun (run : StaticRun) : Buffer :=
  if run.wide then buildObjectHeaderRange16 run.gv run.start run.stop run.data
  else buildObjectHeaderRange8 run.gv run.start run.stop run.data

def StaticRun.headerLen (run : StaticRun) : ℕ := if run.wide then 7 else 5

def staticBlocks (m : Dnp3PointMap) (maxBlockBytes : ℕ) : Option StaticRun → List Dnp3PointDef → List Buffer
  | none, [] => []
  | some run, [] => [encodeStaticRun run]
  | current, d :: rest =>
    match m.resolve d.type d.index with
    | none => staticBlocks m maxBlockBytes current rest
    | some resolved =>
      let ser := serializeStaticPoint resolved
      let wide := decide (0xff < d.index)
      let fresh : StaticRun := ⟨ser.1, wide, d.index, d.index, ser.2⟩
      match current with
      | none => staticBlocks m maxBlockBytes (some fresh) rest
      | some run =>
        if d.index = run.stop + 1 ∧ wide = run.wide ∧ ser.1 = run.gv ∧
            run.headerLen + run.data.length + ser.2.length ≤ maxBlockBytes then
          staticBlocks m maxBlockBytes (some { run with data := run.data ++ ser.2, stop := d.index }) rest
        else encodeStaticRun run :: staticBlocks m maxBlockBytes (some fresh) rest

def staticReadOrder : List Dnp3PointType := [.binaryInput, .binaryOutput, .counter, .analogInput, .analogOutput]

def buildClass0Blocks (m : Dnp3PointMap) (maxBlockBytes : ℕ) : List Buffer :=
  staticReadOrder.flatMap fun type => staticBlocks m maxBlockBytes none (m.pointsOfType type)

theorem serializeStaticPoint_length (point : ResolvedPoint) : (serializeStaticPoint point).2.length ≤ 5 := by
  unfold serializeStaticPoint
  dsimp only
  split
  · simp
  · simp
  · rw [encodeCounter32WithFlag, List.length_cons, writeIntLE_length]
  · split_ifs
    · rw [encodeAnalog32WithFlag, List.length_cons, writeIntLE_length]
    · rw [encodeAnalogFloatWithFlag, List.length_cons, writeFloatLE_length]
  · split_ifs
    · rw [encodeAnalog32WithFlag, List.length_cons, writeIntLE_length]
    · rw [encodeAnalogFloatWithFlag, List.length_cons, writeFloatLE_length]

theorem encodeStaticRun_length (run : StaticRun) :
    (encodeStaticRun run).length = run.headerLen + run.data.length := by
  unfold encodeStaticRun StaticRun.headerLen
  split_ifs
  · simp [buildObjectHeaderRange16, writeUIntLE_length]
    omega
  · simp [buildObjectHeaderRange8]
    omega

theorem headerLen_le (run : StaticRun) : 5 ≤ run.headerLen ∧ run.headerLen ≤ 7 := by
  unfold StaticRun.headerLen
  split_ifs <;> omega

namespace Dnp3PointMap

/-- A block has room for any one point under a header of its own. -/
def HasRoom (m : Dnp3PointMap) (maxBlockBytes : ℕ) : Prop :=
  ∀ point ∈ m.points, (if 0xff < point.pointDef.index then 7 else 5) + (serializeStaticPoint point).2.length ≤ maxBlockBytes

instance (m : Dnp3PointMap) (maxBlockBytes : ℕ) : Decidable (m.HasRoom maxBlockBytes) :=
  inferInstanceAs (Decidable (∀ point ∈ m.points, _))

theorem hasRoom {maxBlockBytes : ℕ} (hmax : 12 ≤ maxBlockBytes) (m : Dnp3PointMap) : m.HasRoom maxBlockBytes := by
  intro point _
  have hdata := serializeStaticPoint_length point
  split_ifs <;> omega

end Dnp3PointMap

theorem staticBlocks_mem {m : Dnp3PointMap} {maxBlockBytes : ℕ} (hroom : m.HasRoom maxBlockBytes)
    {current : Option StaticRun} (hcurrent : ∀ run ∈ current, run.headerLen + run.data.length ≤ maxBlockBytes)
    {points : List Dnp3PointDef} {block : Buffer} (hblock : block ∈ staticBlocks m maxBlockBytes current points) :
    ∃ run, block = encodeStaticRun run ∧ run.headerLen + run.data.length ≤ maxBlockBytes := by
  induction points generalizing current with
  | nil =>
    cases current with
    | none => cases hblock
    | some run => exact ⟨run, List.mem_singleton.mp hblock, hcurrent run rfl⟩
  | cons d rest ih =>
    rw [staticBlocks] at hblock
    rcases hresolve : m.resolve d.type d.index with _ | resolved
    · rw [hresolve] at hblock
      exact ih hcurrent hblock
    · rw [hresolve] at hblock
      dsimp only at hblock
      -- a run that starts with this point has a header and the octets of the point
      have hfresh : ∀ run ∈ some (StaticRun.mk (serializeStaticPoint resolved).1 (decide (0xff < d.index)) d.index
          d.index (serializeStaticPoint resolved).2), run.headerLen + run.data.length ≤ maxBlockBytes := by
        intro run hrun
        obtain ⟨hresolved, hkey⟩ := Dnp3PointMap.lookup_key hresolve
        have hown := hroom resolved hresolved
        rw [show resolved.pointDef.index = d.index from congrArg Prod.snd hkey] at hown
        obtain rfl := Option.some.inj hrun
        simpa [StaticRun.headerLen] using hown
      cases current with
      | none => exact ih hfresh hblock
      | some run =>
        dsimp only at hblock
        split_ifs at hblock with hcontinues
        · refine ih (fun run' hrun' => ?_) hblock
          obtain rfl := Option.some.inj hrun'
          rw [List.length_append, ← Nat.add_assoc]
          exact hcontinues.2.2.2
        · rcases List.mem_cons.mp hblock with rfl | hblock
          · exact ⟨run, rfl, hcurrent run rfl⟩
          · exact ih hfresh hblock

theorem buildClass0Blocks_length {m : Dnp3PointMap} {maxBlockBytes : ℕ} (hroom : m.HasRoom maxBlockBytes) :
    ∀ block ∈ buildClass0Blocks m maxBlockBytes, 0 < block.length ∧ block.length ≤ maxBlockBytes := by
  intro block hblock
  obtain ⟨type, -, hblock⟩ := List.mem_flatMap.mp hblock
  obtain ⟨run, rfl, hfits⟩ := staticBlocks_mem hroom (by simp) hblock
  have hheader := (headerLen_le run).1
  rw [encodeStaticRun_length]
  omega

end OxScada.Dnp3
