import OxScada.Dnp3.PointMap
import OxScada.Order.StableSort
import OxScada.Order.Keys

/-! A master that reads a Class 0 report by the headers of its blocks. It finds every mapped point once, under its own
index, if and only if no index needs more than the two octets that a header has for one. -/

namespace OxScada.Dnp3
open OxScada.Bytes OxScada.Js OxScada.Order

/-! ### The master -/

structure ReportedPoint where
  gv : PointGroupVariation
  index : ℕ
  octets : Buffer
  deriving DecidableEq

/-- The octets of one point, for the static objects that a report is made of. -/
def staticObjectSize (gv : PointGroupVariation) : Option ℕ :=
  match gv.group.toNat, gv.variation.toNat with
  | 1, 2 | 10, 2 => some 1
  | 20, 1 | 30, 1 | 30, 5 | 40, 1 | 40, 3 => some 5
  | _, _ => none

/-- So many points from an index on, and no octet after them. -/
def readPoints (gv : PointGroupVariation) (size : ℕ) : ℕ → ℕ → Buffer → Option (List ReportedPoint)
  | 0, _, data => if data = [] then some [] else none
  | n + 1, index, data =>
    if data.length < size then none
    else (readPoints gv size n (index + 1) (data.drop size)).map fun points => ⟨gv, index, data.take size⟩ :: points

def readRun (gv : PointGroupVariation) (start stop : ℕ) (data : Buffer) : Option (List ReportedPoint) := do
  let size ← staticObjectSize gv
  if stop < start then none else readPoints gv size (stop + 1 - start) start data

def readStaticBlock : Buffer → Option (List ReportedPoint)
  | group :: variation :: qualifier :: first :: second :: rest =>
    if qualifier = 0x00 then readRun ⟨group, variation⟩ first.toNat second.toNat rest
    else if qualifier = 0x01 then
      match rest with
      | third :: fourth :: data => readRun ⟨group, variation⟩ (readUIntLE [first, second]) (readUIntLE [third, fourth]) data
      | _ => none
    else none
  | _ => none

def readClass0 : List Buffer → Option (List ReportedPoint)
  | [] => some []
  | block :: rest => do
    let points ← readStaticBlock block
    let later ← readClass0 rest
    return points ++ later

def ResolvedPoint.reported (point : ResolvedPoint) : ReportedPoint :=
  ⟨(serializeStaticPoint point).1, point.pointDef.index, (serializeStaticPoint point).2⟩

theorem staticObjectSize_serialize (point : ResolvedPoint) :
    staticObjectSize (serializeStaticPoint point).1 = some (serializeStaticPoint point).2.length := by
  simp only [serializeStaticPoint, defaultGroupVariation]
  cases point.pointDef.type with
  | binaryInput | binaryOutput => rfl
  | counter => simp [encodeCounter32WithFlag, writeIntLE_length, staticObjectSize, Group.counterStatic]
  | analogInput =>
    split_ifs
    · simp [encodeAnalog32WithFlag, writeIntLE_length, staticObjectSize, Group.analogInputStatic]
    · simp [encodeAnalogFloatWithFlag, writeFloatLE_length, staticObjectSize, Group.analogInputStatic]
  | analogOutput =>
    split_ifs
    · simp [encodeAnalog32WithFlag, writeIntLE_length, staticObjectSize, Group.analogOutputStatus]
    · simp [encodeAnalogFloatWithFlag, writeFloatLE_length, staticObjectSize, Group.analogOutputStatus]

theorem readClass0_append {front back : List Buffer} {first second : List ReportedPoint} (hfront : readClass0 front = some first)
    (hback : readClass0 back = some second) : readClass0 (front ++ back) = some (first ++ second) := by
  induction front generalizing first with
  | nil =>
    obtain rfl := Option.some.inj hfront
    simpa using hback
  | cons block rest ih =>
    simp only [readClass0, Option.bind_eq_bind, Option.bind_eq_some_iff] at hfront
    obtain ⟨points, hpoints, later, hlater, hsame⟩ := hfront
    obtain rfl := Option.some.inj hsame
    simp [readClass0, hpoints, ih hlater, List.append_assoc]

/-! ### No index of a report is above what two octets tell -/

variable {gv : PointGroupVariation} {point : ReportedPoint} {points : List ReportedPoint}

theorem readPoints_index {size n index : ℕ} {data : Buffer}
    (h : readPoints gv size n index data = some points) (hpoint : point ∈ points) : point.index < index + n := by
  induction n generalizing index data points with
  | zero =>
    simp only [readPoints] at h
    split_ifs at h
    obtain rfl := Option.some.inj h
    cases hpoint
  | succ n ih =>
    simp only [readPoints] at h
    split_ifs at h
    obtain ⟨later, hlater, rfl⟩ := Option.map_eq_some_iff.mp h
    rcases List.mem_cons.mp hpoint with rfl | hpoint
    · show index < index + (n + 1)
      omega
    · have := ih hlater hpoint
      omega

theorem readRun_index {start stop : ℕ} {data : Buffer}
    (h : readRun gv start stop data = some points) (hpoint : point ∈ points) : point.index ≤ stop := by
  simp only [readRun, Option.bind_eq_bind, Option.bind_eq_some_iff] at h
  obtain ⟨size, -, h⟩ := h
  split_ifs at h
  have := readPoints_index h hpoint
  omega

theorem readUIntLE_pair_le (low high : UInt8) : readUIntLE [low, high] ≤ 0xffff := by
  have hlow := low.toNat_lt
  have hhigh := high.toNat_lt
  simp only [readUIntLE]
  omega

theorem readStaticBlock_index {block : Buffer} (h : readStaticBlock block = some points)
    (hpoint : point ∈ points) : point.index ≤ 0xffff := by
  unfold readStaticBlock at h
  split at h
  · rename_i group variation qualifier first second rest
    split_ifs at h
    · have hindex := readRun_index h hpoint
      have hsecond := second.toNat_lt
      omega
    · split at h
      · exact (readRun_index h hpoint).trans (readUIntLE_pair_le _ _)
      · cases h
  · cases h

theorem readClass0_index {blocks : List Buffer} (h : readClass0 blocks = some points)
    (hpoint : point ∈ points) : point.index ≤ 0xffff := by
  induction blocks generalizing points with
  | nil =>
    obtain rfl := Option.some.inj h
    cases hpoint
  | cons block rest ih =>
    simp only [readClass0, Option.bind_eq_bind, Option.bind_eq_some_iff] at h
    obtain ⟨first, hfirst, later, hlater, hsame⟩ := h
    obtain rfl := Option.some.inj hsame
    rcases List.mem_append.mp hpoint with hpoint | hpoint
    · exact readStaticBlock_index hfirst hpoint
    · exact ih hlater hpoint

/-! ### The points of a run -/

/-- The run holds these points, of consecutive indices that its header can tell. -/
structure StaticRun.Assembled (run : StaticRun) (points : List ResolvedPoint) : Prop where
  indices : points.map (·.pointDef.index) = List.range' run.start points.length
  stop : run.stop + 1 = run.start + points.length
  ordered : run.start ≤ run.stop
  wide : run.wide = decide (0xff < run.stop)
  fits : run.stop ≤ 0xffff
  gv : ∀ point ∈ points, (serializeStaticPoint point).1 = run.gv
  data : run.data = points.flatMap fun point => (serializeStaticPoint point).2

theorem StaticRun.Assembled.single {point : ResolvedPoint} (hfits : point.pointDef.index ≤ 0xffff) :
    (StaticRun.mk (serializeStaticPoint point).1 (decide (0xff < point.pointDef.index)) point.pointDef.index
      point.pointDef.index (serializeStaticPoint point).2).Assembled [point] where
  indices := rfl
  stop := rfl
  ordered := le_refl _
  wide := rfl
  fits := hfits
  gv := by simp
  data := by simp

theorem StaticRun.Assembled.snoc {run : StaticRun} {points : List ResolvedPoint} (h : run.Assembled points) {point : ResolvedPoint}
    (hfits : point.pointDef.index ≤ 0xffff) (hnext : point.pointDef.index = run.stop + 1)
    (hwide : decide (0xff < point.pointDef.index) = run.wide) (hgv : (serializeStaticPoint point).1 = run.gv) :
    StaticRun.Assembled { run with data := run.data ++ (serializeStaticPoint point).2, stop := point.pointDef.index } (points ++ [point]) where
  indices := by
    have hstop := h.stop
    rw [List.map_append, h.indices, List.length_append, List.length_singleton, List.range'_concat]
    simp only [List.map_cons, List.map_nil]
    congr 2
    omega
  stop := by
    have hstop := h.stop
    simp only [List.length_append, List.length_singleton]
    omega
  ordered := by
    have hordered := h.ordered
    dsimp only
    omega
  wide := hwide.symm
  fits := hfits
  gv := by
    intro other hother
    rcases List.mem_append.mp hother with hother | hother
    · exact h.gv other hother
    · rw [List.mem_singleton.mp hother]
      exact hgv
  data := by simp [h.data]

theorem readPoints_assembled {size start : ℕ} {points : List ResolvedPoint}
    (hindices : points.map (·.pointDef.index) = List.range' start points.length) (hgv : ∀ point ∈ points, (serializeStaticPoint point).1 = gv)
    (hsize : staticObjectSize gv = some size) :
    readPoints gv size points.length start (points.flatMap fun point => (serializeStaticPoint point).2) =
      some (points.map ResolvedPoint.reported) := by
  induction points generalizing start with
  | nil => rfl
  | cons point rest ih =>
    rw [List.map_cons, List.length_cons, List.range'_succ, List.cons.injEq] at hindices
    have hown := hgv point List.mem_cons_self
    have hlength : (serializeStaticPoint point).2.length = size := by
      have hserialized := staticObjectSize_serialize point
      rw [hown, hsize] at hserialized
      exact (Option.some.inj hserialized).symm
    have hrest := ih hindices.2 fun other hother => hgv other (List.mem_cons_of_mem _ hother)
    rw [List.length_cons, readPoints, List.flatMap_cons, if_neg (by simp [hlength]), List.drop_left' hlength, hrest,
      List.take_left' hlength, ← hindices.1, ← hown]
    rfl

theorem StaticRun.Assembled.reads {run : StaticRun} {points : List ResolvedPoint} (h : run.Assembled points) :
    readStaticBlock (encodeStaticRun run) = some (points.map ResolvedPoint.reported) := by
  have hstop := h.stop
  have hordered := h.ordered
  have hfits := h.fits
  obtain ⟨point, hpoint⟩ : ∃ point, point ∈ points := List.exists_mem_of_length_pos (by omega)
  have hrange : readRun run.gv run.start run.stop run.data = some (points.map ResolvedPoint.reported) := by
    have hsize := staticObjectSize_serialize point
    rw [h.gv point hpoint] at hsize
    have hcount : run.stop + 1 - run.start = points.length := by omega
    rw [readRun, hsize, h.data, hcount]
    show (if run.stop < run.start then none else readPoints _ _ _ _ _) = _
    rw [if_neg (by omega)]
    exact readPoints_assembled h.indices h.gv hsize
  unfold encodeStaticRun
  by_cases hwide : 0xff < run.stop
  · have htwo : ∀ n, writeUIntLE 2 n = [UInt8.ofNat n, UInt8.ofNat (n / 256)] := fun n => by
      rw [writeUIntLE_succ, writeUIntLE_succ]
      rfl
    have hread : ∀ n ≤ 0xffff, readUIntLE [UInt8.ofNat n, UInt8.ofNat (n / 256)] = n := fun n hn => by
      rw [← htwo]
      exact readUIntLE_writeUIntLE (by omega)
    rw [if_pos (by simp [h.wide, hwide]), buildObjectHeaderRange16, htwo, htwo]
    show readRun run.gv (readUIntLE _) (readUIntLE _) run.data = _
    rw [hread _ (by omega), hread _ hfits, hrange]
  · rw [if_neg (by simp [h.wide, hwide]), buildObjectHeaderRange8]
    show readRun run.gv (UInt8.ofNat run.start).toNat (UInt8.ofNat run.stop).toNat run.data = _
    rw [UInt8.toNat_ofNat', UInt8.toNat_ofNat', Nat.mod_eq_of_lt (by omega), Nat.mod_eq_of_lt (by omega), hrange]

/-! ### The report -/

variable {m : Dnp3PointMap}

/-- What is read of the blocks of one type: the points of the run that is open, and then those that follow. -/
theorem readClass0_staticBlocks (maxBlockBytes : ℕ) (hfits : ∀ point ∈ m.points, point.pointDef.index ≤ 0xffff)
    {current : Option StaticRun} {held : List ResolvedPoint}
    (hcurrent : (current = none ∧ held = []) ∨ ∃ run, current = some run ∧ run.Assembled held) (defs : List Dnp3PointDef) :
    readClass0 (staticBlocks m maxBlockBytes current defs) =
      some ((held ++ defs.filterMap fun d => m.resolve d.type d.index).map ResolvedPoint.reported) := by
  induction defs generalizing current held with
  | nil =>
    rcases hcurrent with ⟨rfl, rfl⟩ | ⟨run, rfl, hrun⟩
    · rfl
    · simp [staticBlocks, readClass0, hrun.reads]
  | cons d rest ih =>
    rw [staticBlocks]
    rcases hresolve : m.resolve d.type d.index with _ | point
    · simpa [hresolve] using ih hcurrent
    · obtain ⟨hpoint, hkey⟩ := Dnp3PointMap.lookup_key hresolve
      have hindex : point.pointDef.index = d.index := congrArg Prod.snd hkey
      have hpointFits := hfits point hpoint
      have hfresh := StaticRun.Assembled.single hpointFits
      rw [hindex] at hfresh hpointFits
      rcases hcurrent with ⟨rfl, rfl⟩ | ⟨run, rfl, hrun⟩
      · simpa [hresolve] using ih (.inr ⟨_, rfl, hfresh⟩)
      · dsimp only
        split_ifs with hcontinues
        · obtain ⟨hnext, hwide, hgv, -⟩ := hcontinues
          have hsnoc := hrun.snoc (hindex ▸ hpointFits) (hindex ▸ hnext) (hindex ▸ hwide) hgv
          rw [hindex] at hsnoc
          simpa [hresolve] using ih (.inr ⟨_, rfl, hsnoc⟩)
        · simp [readClass0, hrun.reads, ih (.inr ⟨_, rfl, hfresh⟩), hresolve]

theorem Dnp3PointMap.resolve_mem {point : ResolvedPoint} (hpoint : point ∈ m.points) :
    m.resolve point.pointDef.type point.pointDef.index = some point := by
  have hfound : m.lookup point.pointDef.key = some point := (find?_key m.distinct).mpr ⟨hpoint, rfl⟩
  exact hfound

theorem Dnp3PointMap.pointsOfType_perm (m : Dnp3PointMap) (type : Dnp3PointType) :
    ((m.pointsOfType type).filterMap fun d => m.resolve d.type d.index).Perm (m.points.filter fun point => point.pointDef.type = type) := by
  have hsorted := List.perm_insertionSort (fun a b : Dnp3PointDef => a.index ≤ b.index) ((m.points.map (·.pointDef)).filter (·.type = type))
  refine (hsorted.filterMap _).trans ?_
  rw [List.filter_map, List.filterMap_map]
  refine .of_eq ?_
  refine (List.filterMap_congr fun point hpoint => ?_).trans List.filterMap_some
  exact resolve_mem (List.mem_of_mem_filter hpoint)

theorem readClass0_types (maxBlockBytes : ℕ) (hfits : ∀ point ∈ m.points, point.pointDef.index ≤ 0xffff) (types : List Dnp3PointType) :
    ∃ points, readClass0 (types.flatMap fun type => staticBlocks m maxBlockBytes none (m.pointsOfType type)) = some points ∧
      points.Perm ((dealt (fun point : ResolvedPoint => point.pointDef.type) types m.points).map ResolvedPoint.reported) := by
  induction types with
  | nil => exact ⟨[], rfl, .refl _⟩
  | cons type later ih =>
    obtain ⟨points, hread, hperm⟩ := ih
    have hown := readClass0_staticBlocks maxBlockBytes hfits (.inl ⟨rfl, rfl⟩) (m.pointsOfType type)
    refine ⟨_, readClass0_append hown hread, ?_⟩
    show List.Perm _ ((m.points.filter (fun point => point.pointDef.type = type) ++ dealt _ later m.points).map _)
    rw [List.nil_append, List.map_append]
    exact ((m.pointsOfType_perm type).map _).append hperm

/-- A report is read as the mapped points, each of them once, and no block of it is too long, if and only if every index
is at most what a header tells. -/
theorem class0_decodes_iff {maxBlockBytes : ℕ} (hroom : m.HasRoom maxBlockBytes) :
    ((∃ points, readClass0 (buildClass0Blocks m maxBlockBytes) = some points ∧ points.Perm (m.points.map ResolvedPoint.reported)) ∧
      ∀ block ∈ buildClass0Blocks m maxBlockBytes, block.length ≤ maxBlockBytes) ↔
      ∀ point ∈ m.points, point.pointDef.index ≤ 0xffff := by
  constructor
  · intro ⟨⟨points, hread, hperm⟩, _⟩ point hpoint
    exact readClass0_index hread (hperm.symm.subset (List.mem_map_of_mem hpoint))
  · intro hfits
    refine ⟨?_, fun block hblock => (buildClass0Blocks_length hroom block hblock).2⟩
    obtain ⟨points, hread, hperm⟩ := readClass0_types maxBlockBytes hfits staticReadOrder
    have hall : (dealt (fun point : ResolvedPoint => point.pointDef.type) staticReadOrder m.points).Perm m.points :=
      dealt_perm (by decide) fun point _ => by cases point.pointDef.type <;> decide
    exact ⟨points, hread, hperm.trans (hall.map _)⟩

/-- An output and two inputs, one of them above what one octet tells. -/
def widePointMap : Dnp3PointMap where
  points := [⟨⟨"pump", .binaryOutput, 0, none, none, none⟩, ⟨.boolean true, .good, 0⟩⟩,
    ⟨⟨"level", .analogInput, 255, none, some .int32, none⟩, ⟨.number 7, .good, 0⟩⟩,
    ⟨⟨"flow", .analogInput, 256, none, some .int32, none⟩, ⟨.number 9, .good, 0⟩⟩]

theorem widePointMap_decodes : ((∃ points, readClass0 (buildClass0Blocks widePointMap 12) = some points ∧
      points.Perm (widePointMap.points.map ResolvedPoint.reported)) ∧ ∀ block ∈ buildClass0Blocks widePointMap 12, block.length ≤ 12) :=
  (class0_decodes_iff (by decide +kernel)).mpr (by decide +kernel)

def farPointMap : Dnp3PointMap where
  points := [⟨⟨"level", .analogInput, 65536, none, some .int32, none⟩, ⟨.number 7, .good, 0⟩⟩]

/-- It is reported under the index 0. -/
theorem farPointMap_shifted : farPointMap.HasRoom 12 ∧
    (readClass0 (buildClass0Blocks farPointMap 12)).map (·.map (·.index)) = some [0] ∧
    ¬ ((∃ points, readClass0 (buildClass0Blocks farPointMap 12) = some points ∧
      points.Perm (farPointMap.points.map ResolvedPoint.reported)) ∧ ∀ block ∈ buildClass0Blocks farPointMap 12, block.length ≤ 12) := by
  have hread : (readClass0 (buildClass0Blocks farPointMap 12)).map (·.map (·.index)) = some [0] := by decide +kernel
  refine ⟨by decide +kernel, hread, ?_⟩
  intro ⟨⟨points, hpoints, hperm⟩, _⟩
  rw [hpoints, Option.map_some] at hread
  have hindices := (hperm.map (·.index)).mem_iff (a := 65536)
  rw [Option.some.inj hread] at hindices
  revert hindices
  decide +kernel

end OxScada.Dnp3
