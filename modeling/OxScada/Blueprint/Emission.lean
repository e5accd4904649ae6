import OxScada.Blueprint.Runtime
import OxScada.Blueprint.Feedback

/-! What the arrays of a compiled blueprint hold. Nodes with ids of their own are all there, each once;
of several nodes with one id all but the last are replaced by it. -/

namespace OxScada.Blueprint
open OxScada.Bytes OxScada.Js

/-! ### Decoding -/

def logicOf (tagIndex : Text → Option ℕ) (node : BlueprintNode) : Logic where
  op := node.op
  dest := (tagIndex node.output).getD 0
  immediate := immediate node
  a := ⟨operandTagIndex tagIndex node 0, operandConst node 0⟩
  b := ⟨operandTagIndex tagIndex node 1, operandConst node 1⟩
  c := ⟨operandTagIndex tagIndex node 2, operandConst node 2⟩

def instructionOf (tagIndex slots : Text → Option ℕ) (node : BlueprintNode) : Instruction :=
  { logicOf tagIndex node with stateIndex := stateIndex slots node }

structure Encodes (program : CompiledBlueprint) (code : List Instruction) : Prop where
  count : program.instructionCount = code.length
  decodes : ∀ i, program.instruction i = code[i]?

theorem getElem?_flatMap_stride {α β : Type} {f : α → List β} {width : ℕ} (hwidth : ∀ x, (f x).length = width) (xs : List α) (i : ℕ)
    {k : ℕ} (hk : k < width) : (xs.flatMap f)[i * width + k]? = (xs[i]?).bind fun x => (f x)[k]? := by
  induction xs generalizing i with
  | nil => rfl
  | cons x rest ih =>
    rw [List.flatMap_cons]
    cases i with
    | zero =>
      have hlt : 0 * width + k < (f x).length := by
        rw [hwidth]
        omega
      rw [List.getElem?_append_left hlt]
      simp
    | succ i =>
      have hle : (f x).length ≤ (i + 1) * width + k := by
        rw [hwidth, Nat.succ_mul]
        omega
      have hshift : (i + 1) * width + k - (f x).length = i * width + k := by
        rw [hwidth, Nat.succ_mul]
        omega
      rw [List.getElem?_append_right hle, hshift, ih i]
      rfl

variable {definition : BlueprintDefinition} {program : CompiledBlueprint} {tagIndex slots : Text → Option ℕ} {order nodes : List BlueprintNode}
  {node : BlueprintNode} {code : List Instruction} {i : ℕ} {r : BlueprintRuntime}

theorem operandSlot_emit {k : ℕ} (hk : k < operandStride) :
    (emit definition tagIndex order).operandSlot (i * operandStride + k) =
      (order[i]?).map fun node => ⟨operandTagIndex tagIndex node k, operandConst node k⟩ := by
  have hindex := getElem?_flatMap_stride (f := fun node => (List.range operandStride).map (operandTagIndex tagIndex node))
    (by simp) order i hk
  have hconst := getElem?_flatMap_stride (f := fun node => (List.range operandStride).map (operandConst node)) (by simp) order i hk
  unfold CompiledBlueprint.operandSlot emit
  dsimp only
  rw [hindex, hconst]
  cases order[i]? with
  | none => rfl
  | some node => simp [hk]

theorem instruction_emit (definition : BlueprintDefinition) (tagIndex : Text → Option ℕ) (order : List BlueprintNode) (i : ℕ) :
    (emit definition tagIndex order).instruction i = (order[i]?).map (instructionOf tagIndex (stateSlots order).1) := by
  have hfirst : (emit definition tagIndex order).operandSlot (i * operandStride) = _ := operandSlot_emit (k := 0) (by decide)
  unfold CompiledBlueprint.instruction
  dsimp only
  rw [hfirst, operandSlot_emit (k := 1) (by decide), operandSlot_emit (k := 2) (by decide)]
  simp only [emit, List.getElem?_map]
  cases order[i]? with
  | none => rfl
  | some node => rfl

theorem encodes_emit (definition : BlueprintDefinition) (tagIndex : Text → Option ℕ) (order : List BlueprintNode) :
    Encodes (emit definition tagIndex order) (order.map (instructionOf tagIndex (stateSlots order).1)) where
  count := (List.length_map ..).symm
  decodes i := by rw [instruction_emit, List.getElem?_map]

theorem foldlM_code {σ : Type} (f : Instruction → σ → Option σ) (code : List Instruction) (r : σ) :
    (List.range code.length).foldlM (fun r i => (code[i]?).bind (f · r)) r = code.foldlM (fun r i => f i r) r := by
  induction code generalizing r with
  | nil => rfl
  | cons first rest ih =>
    rw [List.length_cons, List.range_succ_eq_map, List.foldlM_cons, List.foldlM_cons]
    simp only [List.foldlM_map, List.getElem?_cons_zero, List.getElem?_cons_succ, Option.bind_some]
    cases f first r with
    | none => rfl
    | some next => exact ih next

theorem Encodes.tickFast (h : Encodes program code) (r : BlueprintRuntime) :
    r.tickFast program = (code.foldlM (fun r i => BlueprintRuntime.perform (BlueprintRuntime.scanPeriodSeconds program) i r) r).map
      fun r => { r with tickNumber := r.tickNumber + 1 } := by
  rw [BlueprintRuntime.tickFast, h.count]
  simp only [h.decodes]
  rw [foldlM_code]

/-! ### State slots -/

/-- The stateful nodes so far have slots, and no two ids have the same. -/
structure Allocated (slots : (Text → Option ℕ) × ℕ) (done : List BlueprintNode) : Prop where
  lt : ∀ id slot, slots.1 id = some slot → slot < slots.2
  inj : ∀ id id' slot, slots.1 id = some slot → slots.1 id' = some slot → id = id'
  has : ∀ node ∈ done, node.op.isStateful → ∃ slot, slots.1 node.id = some slot
  only : ∀ id slot, slots.1 id = some slot → ∃ node ∈ done, node.op.isStateful ∧ node.id = id

theorem Allocated.allocate {slots : (Text → Option ℕ) × ℕ} {done : List BlueprintNode} (h : Allocated slots done)
    (hnew : node.id ∉ done.map (·.id)) : Allocated (allocate slots node) (done ++ [node]) := by
  unfold Blueprint.allocate
  have hmem : ∀ other, other ∈ done ++ [node] ↔ other ∈ done ∨ other = node := by simp
  have hold : ∀ id slot, slots.1 id = some slot → id ≠ node.id := by
    rintro id slot hslot rfl
    obtain ⟨other, hother, -, hid⟩ := h.only _ slot hslot
    exact hnew (hid ▸ List.mem_map_of_mem hother)
  split_ifs with hop
  · have hcases : ∀ id slot, Function.update slots.1 node.id (some slots.2) id = some slot ↔
        id = node.id ∧ slot = slots.2 ∨ slots.1 id = some slot := by
      intro id slot
      by_cases hid : id = node.id
      · have hnone : ¬slots.1 id = some slot := fun hslot => hold id slot hslot hid
        simp only [hnone, or_false]
        subst hid
        simp [eq_comm]
      · simp [hid]
    refine ⟨fun id slot hslot => ?_, fun id id' slot hslot hslot' => ?_, fun other hother hstateful => ?_, fun id slot hslot => ?_⟩
    · rcases (hcases id slot).mp hslot with ⟨-, rfl⟩ | hslot
      · exact Nat.lt_succ_self _
      · exact Nat.lt_succ_of_lt (h.lt id slot hslot)
    · rcases (hcases id slot).mp hslot with ⟨rfl, hlast⟩ | hslot
      · rcases (hcases id' slot).mp hslot' with ⟨rfl, -⟩ | hslot'
        · rfl
        · exact absurd (h.lt id' slot hslot') (by omega)
      · rcases (hcases id' slot).mp hslot' with ⟨rfl, hlast⟩ | hslot'
        · exact absurd (h.lt id slot hslot) (by omega)
        · exact h.inj id id' slot hslot hslot'
    · rcases (hmem other).mp hother with hdone | rfl
      · obtain ⟨slot, hslot⟩ := h.has other hdone hstateful
        exact ⟨slot, (hcases _ _).mpr (.inr hslot)⟩
      · exact ⟨slots.2, (hcases _ _).mpr (.inl ⟨rfl, rfl⟩)⟩
    · rcases (hcases id slot).mp hslot with ⟨rfl, -⟩ | hslot
      · exact ⟨node, (hmem node).mpr (.inr rfl), hop, rfl⟩
      · obtain ⟨other, hother, hrest⟩ := h.only id slot hslot
        exact ⟨other, (hmem other).mpr (.inl hother), hrest⟩
  · refine ⟨h.lt, h.inj, fun other hother hstateful => ?_, fun id slot hslot => ?_⟩
    · rcases (hmem other).mp hother with hdone | rfl
      · exact h.has other hdone hstateful
      · exact absurd hstateful hop
    · obtain ⟨other, hother, hrest⟩ := h.only id slot hslot
      exact ⟨other, (hmem other).mpr (.inl hother), hrest⟩

theorem allocated (hids : (order.map (·.id)).Nodup) : Allocated (stateSlots order) order := by
  have hall : ∀ done rest slots, Allocated slots done → ((done ++ rest).map (·.id)).Nodup → Allocated (rest.foldl allocate slots) (done ++ rest) := by
    intro done rest
    induction rest generalizing done with
    | nil =>
      intro slots h _
      rwa [List.append_nil]
    | cons node rest ih =>
      intro slots h hnodup
      have hsplit : done ++ node :: rest = done ++ [node] ++ rest := by simp
      rw [hsplit] at hnodup ⊢
      have hnew : node.id ∉ done.map (·.id) := by
        intro hmem
        rw [List.map_append, List.map_append, List.append_assoc] at hnodup
        exact (List.nodup_append.mp hnodup).2.2 _ hmem _ List.mem_cons_self rfl
      exact ih (done ++ [node]) _ (h.allocate hnew) hnodup
  exact hall [] order _ ⟨by simp, by simp, by simp, by simp⟩ hids

theorem Allocated.stateless {slots : (Text → Option ℕ) × ℕ} (h : Allocated slots order) (hids : (order.map (·.id)).Nodup)
    (hnode : node ∈ order) (hop : ¬node.op.isStateful) : slots.1 node.id = none := by
  refine Option.eq_none_iff_forall_ne_some.mpr fun slot hslot => ?_
  obtain ⟨other, hother, hstateful, hid⟩ := h.only _ slot hslot
  exact hop (eq_of_id hids hnode hother hid ▸ hstateful)

/-! ### A round of a scan -/

def valueAt (tagIndex : Text → Option ℕ) (r : BlueprintRuntime) (tag : Text) : Float :=
  match tagIndex tag with
  | some i => (r.tagBuffer[i]?).getD 0
  | none => 0

def stateAt (slots : Text → Option ℕ) (r : BlueprintRuntime) (id : Text) : Float :=
  match slots id with
  | some slot => (r.stateBuffer[slot]?).getD 0
  | none => 0

def operandValue (node : BlueprintNode) (value : Text → Float) (k : ℕ) : Float :=
  match node.inputs[k]? with
  | some (.tag tag) => value tag
  | some (.const const) => const
  | none => 0

def outcome (dt : Float) (node : BlueprintNode) (value : Text → Float) (state : Float) : Float × Float :=
  operate dt node.op (operandValue node value 0) (operandValue node value 1) (operandValue node value 2) (immediate node) state

theorem operate_stateless {op : BlueprintOp} (hop : ¬op.isStateful) (dt a b c imm state : Float) :
    operate dt op a b c imm state = ((operate dt op a b c imm 0).1, state) := by
  cases op <;> first | rfl | exact absurd rfl hop

theorem readSlot_nat {buffer : List Float} {n : ℕ} (h : n < buffer.length) : readSlot buffer n = some ((buffer[n]?).getD 0) := by
  rw [readSlot, if_neg (by omega), Int.toNat_natCast, List.getElem?_eq_getElem h]
  rfl

theorem writeSlot_nat {buffer : List Float} {n : ℕ} (h : n < buffer.length) (value : Float) :
    writeSlot buffer n value = some (buffer.set n value) := by
  rw [writeSlot, Int.toNat_natCast, if_pos ⟨by omega, h⟩]

/-- The buffers are those of a program with some tags and some slots. -/
structure Sized (tags states : ℕ) (r : BlueprintRuntime) : Prop where
  tagBuffer : r.tagBuffer.length = tags
  stateBuffer : r.stateBuffer.length = states

variable {tags : List TagDescriptor} {states : ℕ}

theorem operandSlot_value (hindexes : Indexes tagIndex tags) (hvalid : Valid tagIndex node) (hsized : Sized tags.length states r) (k : ℕ) :
    OperandSlot.value r.tagBuffer ⟨operandTagIndex tagIndex node k, operandConst node k⟩ = some (operandValue node (valueAt tagIndex r) k) := by
  unfold operandTagIndex operandConst operandValue OperandSlot.value
  cases hinput : node.inputs[k]? with
  | none => rfl
  | some operand =>
    cases operand with
    | const value => rfl
    | tag tag =>
      obtain ⟨i, hi⟩ := hvalid.operands tag (List.mem_of_getElem? hinput)
      have hlt : i < r.tagBuffer.length := hsized.tagBuffer ▸ hindexes.lt hi
      simp [valueAt, hi, readSlot_nat hlt]

/-- What is left of a round: the output is written to its tag, and the state to its slot. -/
def performed (dt : Float) (tagIndex slots : Text → Option ℕ) (node : BlueprintNode) (r : BlueprintRuntime) : BlueprintRuntime :=
  let (out, state) := outcome dt node (valueAt tagIndex r) (stateAt slots r node.id)
  { r with
    tagBuffer := r.tagBuffer.set ((tagIndex node.output).getD 0) out
    stateBuffer := match slots node.id with
      | some slot => r.stateBuffer.set slot state
      | none => r.stateBuffer }

theorem perform_spec {slots : (Text → Option ℕ) × ℕ} (hindexes : Indexes tagIndex tags) (hvalid : Valid tagIndex node)
    (hallocated : Allocated slots order) (hids : (order.map (·.id)).Nodup) (hnode : node ∈ order) (hsized : Sized tags.length slots.2 r) (dt : Float) :
    r.perform dt (instructionOf tagIndex slots.1 node) = some (performed dt tagIndex slots.1 node r) := by
  obtain ⟨i, hi⟩ := hvalid.output
  have hlt : i < r.tagBuffer.length := hsized.tagBuffer ▸ hindexes.lt hi
  have hdest : (instructionOf tagIndex slots.1 node).dest = (i : ℤ) := by
    simp [instructionOf, logicOf, hi]
  have ha : (instructionOf tagIndex slots.1 node).a.value r.tagBuffer = some (operandValue node (valueAt tagIndex r) 0) :=
    operandSlot_value hindexes hvalid hsized 0
  have hb : (instructionOf tagIndex slots.1 node).b.value r.tagBuffer = some (operandValue node (valueAt tagIndex r) 1) :=
    operandSlot_value hindexes hvalid hsized 1
  have hc : (instructionOf tagIndex slots.1 node).c.value r.tagBuffer = some (operandValue node (valueAt tagIndex r) 2) :=
    operandSlot_value hindexes hvalid hsized 2
  have hop : (instructionOf tagIndex slots.1 node).op = node.op := rfl
  have himmediate : (instructionOf tagIndex slots.1 node).immediate = immediate node := rfl
  rw [BlueprintRuntime.perform, ha, hb, hc, hdest, hop, himmediate]
  simp only [Option.bind_eq_bind, Option.bind_some, writeSlot_nat hlt]
  by_cases hstateful : node.op.isStateful
  · obtain ⟨slot, hslot⟩ := hallocated.has node hnode hstateful
    have hstate : slot < r.stateBuffer.length := hsized.stateBuffer ▸ hallocated.lt _ _ hslot
    have hindex : (instructionOf tagIndex slots.1 node).stateIndex = (slot : ℤ) := by
      simp [instructionOf, stateIndex, hslot]
    rw [if_pos hstateful, hindex, readSlot_nat hstate]
    simp [writeSlot_nat hstate, performed, outcome, stateAt, hslot, hi]
  · have hslot := hallocated.stateless hids hnode hstateful
    rw [if_neg hstateful]
    simp only [performed, outcome, stateAt, hslot, hi]
    rfl

theorem performed_sized (h : Sized tags.length states r) (dt : Float) : Sized tags.length states (performed dt tagIndex slots node r) where
  tagBuffer := by
    rw [performed, List.length_set]
    exact h.tagBuffer
  stateBuffer := by
    rw [performed]
    cases slots node.id with
    | none => exact h.stateBuffer
    | some slot => exact (List.length_set ..).trans h.stateBuffer

theorem foldlM_perform {slots : (Text → Option ℕ) × ℕ} {rest : List BlueprintNode} (hindexes : Indexes tagIndex tags)
    (hvalid : ∀ node ∈ order, Valid tagIndex node) (hallocated : Allocated slots order) (hids : (order.map (·.id)).Nodup) (hrest : rest ⊆ order)
    (hsized : Sized tags.length slots.2 r) (dt : Float) :
    (rest.map (instructionOf tagIndex slots.1)).foldlM (fun r i => BlueprintRuntime.perform dt i r) r =
        some (rest.foldl (fun r node => performed dt tagIndex slots.1 node r) r) ∧
      Sized tags.length slots.2 (rest.foldl (fun r node => performed dt tagIndex slots.1 node r) r) := by
  induction rest generalizing r with
  | nil => exact ⟨rfl, hsized⟩
  | cons node rest ih =>
    have hnode : node ∈ order := hrest List.mem_cons_self
    have hperform := perform_spec hindexes (hvalid node hnode) hallocated hids hnode hsized dt
    rw [List.map_cons, List.foldlM_cons, hperform, List.foldl_cons]
    exact ih (fun n hn => hrest (List.mem_cons_of_mem _ hn)) (performed_sized hsized dt)

/-! ### Compiled blueprints -/

theorem compile_ok (h : compileBlueprint definition = .ok program) :
    ∃ tagIndex writtenBy order, Validated definition tagIndex writtenBy ∧ topoSort definition.nodes writtenBy = .ok order ∧
      program = emit definition tagIndex order := by
  unfold compileBlueprint at h
  split_ifs at h with htags
  cases hnames : indexTags (fun _ => none) 0 definition.tags with
  | error e =>
    rw [hnames] at h
    cases h
  | ok tagIndex =>
    rw [hnames] at h
    dsimp only at h
    cases hnodes : validateNodes tagIndex (fun _ => none) definition.nodes with
    | error e =>
      rw [hnodes] at h
      cases h
    | ok writtenBy =>
      rw [hnodes] at h
      dsimp only at h
      split at h
      next => cases h
      next order hsort =>
        obtain rfl := Except.ok.inj h
        exact ⟨tagIndex, writtenBy, order, ⟨htags, hnames, hnodes⟩, hsort, rfl⟩

variable {writtenBy : Text → Option BlueprintNode}

section
variable (h : Validated definition tagIndex writtenBy)
include h

theorem Validated.indexes :
    Indexes tagIndex definition.tags := indexTags_spec indexes_nil h.names

theorem Validated.valid :
    ∀ node ∈ definition.nodes, Valid tagIndex node :=
  fun node hnode => validateNode_ok ((validateNodes_ok writes_nil .nil h.nodes).1 node hnode)

theorem Validated.outputs :
    (definition.nodes.map (·.output)).Nodup := (validateNodes_ok writes_nil .nil h.nodes).2.1

end

theorem topoSort_byId (h : topoSort nodes writtenBy = .ok order) :
    ∀ node ∈ order, byId nodes node.id = some node := by
  unfold topoSort at h
  split at h
  next => cases h
  next d hconnect =>
    dsimp only at h
    split_ifs at h
    obtain rfl := Except.ok.inj h
    intro node hnode
    obtain ⟨id, -, hid⟩ := List.mem_filterMap.mp hnode
    rw [(byId_some hid).2]
    exact hid

structure Authored (tagIndex : Text → Option ℕ) (node : BlueprintNode) (logic : Logic) : Prop where
  op : logic.op = node.op
  dest : ∃ i, tagIndex node.output = some i ∧ logic.dest = i
  param : node.op.usesParam → node.param = some logic.immediate
  noParam : ¬node.op.usesParam → logic.immediate = 0
  width : node.inputs.length ≤ 3
  tags : ∀ (k : ℕ) (slot : OperandSlot) (tag : Text), [logic.a, logic.b, logic.c][k]? = some slot → node.inputs[k]? = some (.tag tag) →
    ∃ i : ℕ, tagIndex tag = some i ∧ slot.index = i
  consts : ∀ (k : ℕ) (slot : OperandSlot) (value : Float), [logic.a, logic.b, logic.c][k]? = some slot →
    node.inputs[k]? = some (.const value) → slot = ⟨-1, value⟩

/-- The instructions are those of the authored nodes, each once, with states of their own, and stay within the buffers. -/
structure LosesNoLogic (definition : BlueprintDefinition) (program : CompiledBlueprint) : Prop where
  tagCount : program.tagCount = definition.tags.length
  names : Indexes program.tagIndex definition.tags
  instructions : ∃ code order, Encodes program code ∧ order.Perm definition.nodes ∧
    List.Forall₂ (fun node i => Authored program.tagIndex node i.toLogic) order code
  stateful : ∀ i instr, program.instruction i = some instr → instr.op.isStateful →
    ∃ slot : ℕ, instr.stateIndex = slot ∧ slot < program.stateCount
  separate : ∀ i j instr instr', program.instruction i = some instr → program.instruction j = some instr' →
    instr.op.isStateful → instr'.op.isStateful → instr.stateIndex = instr'.stateIndex → i = j
  inRange : ∀ i instr, program.instruction i = some instr →
    0 ≤ instr.dest ∧ instr.dest < program.tagCount ∧ -1 ≤ instr.stateIndex ∧ instr.stateIndex < program.stateCount ∧
      ∀ slot ∈ [instr.a, instr.b, instr.c], -1 ≤ slot.index ∧ slot.index < program.tagCount
  loads : Sized program.tagCount program.stateCount (.load program)
  scans : ∀ r, Sized program.tagCount program.stateCount r →
    ∃ r', r.tickFast program = some r' ∧ Sized program.tagCount program.stateCount r'
  driven : ∀ node ∈ definition.nodes, ∃ i instr tag, program.instruction i = some instr ∧ program.tagIndex node.output = some tag ∧ instr.dest = tag

theorem authored_logicOf (h : Valid tagIndex node) : Authored tagIndex node (logicOf tagIndex node) := by
  have hslot : ∀ (k : ℕ) (slot : OperandSlot), [(logicOf tagIndex node).a, (logicOf tagIndex node).b, (logicOf tagIndex node).c][k]? = some slot →
      slot = ⟨operandTagIndex tagIndex node k, operandConst node k⟩ := by
    intro k slot hk
    match k with
    | 0 | 1 | 2 => exact (Option.some.inj hk).symm
    | k + 3 => cases hk
  obtain ⟨i, hi⟩ := h.output
  refine ⟨rfl, ⟨i, hi, by simp [logicOf, hi]⟩, fun huses => ?_, fun huses => ?_, h.width, fun k slot tag hk hinput => ?_, fun k slot value hk hinput => ?_⟩
  · obtain ⟨value, hvalue⟩ := Option.isSome_iff_exists.mp (h.param huses)
    simp [logicOf, immediate, huses, hvalue]
  · simp [logicOf, immediate, huses]
  · obtain ⟨j, hj⟩ := h.operands tag (List.mem_of_getElem? hinput)
    refine ⟨j, hj, ?_⟩
    rw [hslot k slot hk]
    simp [operandTagIndex, hinput, hj]
  · rw [hslot k slot hk]
    simp [operandTagIndex, operandConst, hinput]

theorem operandTagIndex_range (hindexes : Indexes tagIndex tags) (hvalid : Valid tagIndex node) (k : ℕ) :
    -1 ≤ operandTagIndex tagIndex node k ∧ operandTagIndex tagIndex node k < tags.length := by
  unfold operandTagIndex
  have hnone : (-1 : ℤ) ≤ -1 ∧ (-1 : ℤ) < tags.length := ⟨le_rfl, by omega⟩
  cases hinput : node.inputs[k]? with
  | none => exact hnone
  | some operand =>
    cases operand with
    | const value => exact hnone
    | tag tag =>
      obtain ⟨i, hi⟩ := hvalid.operands tag (List.mem_of_getElem? hinput)
      have hlt := hindexes.lt hi
      simp only [hi, Option.getD_some]
      omega

theorem losesNoLogic_emit (hvalidated : Validated definition tagIndex writtenBy)
    (hids : (definition.nodes.map (·.id)).Nodup) (hsort : topoSort definition.nodes writtenBy = .ok order) :
    LosesNoLogic definition (emit definition tagIndex order) := by
  obtain ⟨hperm, -⟩ := (topoSort_spec hids hvalidated.writes).1 order hsort
  have hindexes := hvalidated.indexes
  have hids' : (order.map (·.id)).Nodup := (hperm.map _).nodup_iff.mpr hids
  have hallocated := allocated hids'
  have hvalid : ∀ node ∈ order, Valid tagIndex node := fun node hnode => hvalidated.valid node (hperm.mem_iff.mp hnode)
  have hencodes := encodes_emit definition tagIndex order
  have hinstruction : ∀ i instr, (emit definition tagIndex order).instruction i = some instr →
      ∃ node, order[i]? = some node ∧ node ∈ order ∧ instr = instructionOf tagIndex (stateSlots order).1 node := by
    intro i instr h
    rw [instruction_emit, Option.map_eq_some_iff] at h
    obtain ⟨node, hnode, rfl⟩ := h
    exact ⟨node, hnode, List.mem_of_getElem? hnode, rfl⟩
  have hslot : ∀ node ∈ order, node.op.isStateful → ∃ slot : ℕ, (stateSlots order).1 node.id = some slot ∧
      stateIndex (stateSlots order).1 node = slot ∧ slot < (stateSlots order).2 := by
    intro node hnode hop
    obtain ⟨slot, hslot⟩ := hallocated.has node hnode hop
    exact ⟨slot, hslot, by simp [stateIndex, hslot], hallocated.lt _ _ hslot⟩
  refine ⟨rfl, hindexes, ⟨_, order, hencodes, hperm, ?_⟩, ?_, ?_, ?_, ?_, ?_, ?_⟩
  · refine List.forall₂_map_right_iff.mpr (List.forall₂_same.mpr fun node hnode => ?_)
    exact authored_logicOf (hvalid node hnode)
  · intro i instr h hop
    obtain ⟨node, -, hnode, rfl⟩ := hinstruction i instr h
    obtain ⟨slot, -, hindex, hlt⟩ := hslot node hnode hop
    exact ⟨slot, hindex, hlt⟩
  -- two stateful nodes share no slot
  · intro i j instr instr' h h' hop hop' heq
    obtain ⟨node, hi, hnode, rfl⟩ := hinstruction i instr h
    obtain ⟨node', hj, hnode', rfl⟩ := hinstruction j instr' h'
    obtain ⟨slot, hslot₁, hindex, -⟩ := hslot node hnode hop
    obtain ⟨slot', hslot₂, hindex', -⟩ := hslot node' hnode' hop'
    have hsame : (slot : ℤ) = slot' := (hindex.symm.trans heq).trans hindex'
    obtain rfl := Int.ofNat_inj.mp hsame
    obtain rfl := eq_of_id hids' hnode' hnode (hallocated.inj _ _ _ hslot₁ hslot₂)
    exact (List.getElem?_inj (List.getElem?_eq_some_iff.mp hi).1 (List.Nodup.of_map _ hids')).mp (hi.trans hj.symm)
  -- every slot that an instruction names is one of the runtime
  · intro i instr h
    obtain ⟨node, -, hnode, rfl⟩ := hinstruction i instr h
    obtain ⟨tag, htag⟩ := (hvalid node hnode).output
    have hdest : (instructionOf tagIndex (stateSlots order).1 node).dest = (tag : ℤ) := by
      simp [instructionOf, logicOf, htag]
    have htagCount : tag < definition.tags.length := hindexes.lt htag
    have hstate : -1 ≤ stateIndex (stateSlots order).1 node ∧ stateIndex (stateSlots order).1 node < (stateSlots order).2 := by
      by_cases hop : node.op.isStateful
      · obtain ⟨slot, -, hindex, hlt⟩ := hslot node hnode hop
        rw [hindex]
        omega
      · rw [stateIndex, hallocated.stateless hids' hnode hop]
        exact ⟨le_rfl, lt_of_lt_of_le (by decide) (Int.natCast_nonneg _)⟩
    refine ⟨?_, ?_, hstate.1, hstate.2, ?_⟩
    · rw [hdest]
      omega
    · rw [hdest]
      exact Int.ofNat_lt.mpr htagCount
    · intro slot hslot
      have hrange := operandTagIndex_range hindexes (hvalid node hnode)
      simp only [List.mem_cons, List.not_mem_nil, or_false] at hslot
      rcases hslot with rfl | rfl | rfl
      · exact hrange 0
      · exact hrange 1
      · exact hrange 2
  · exact ⟨List.length_map .., List.length_replicate ..⟩
  -- a scan performs all instructions
  · intro r hsized
    obtain ⟨hfold, hsized'⟩ := foldlM_perform hindexes hvalid hallocated hids' (List.Subset.refl order) hsized
      (BlueprintRuntime.scanPeriodSeconds (emit definition tagIndex order))
    have htick := hencodes.tickFast r
    rw [hfold] at htick
    exact ⟨_, htick, hsized'.1, hsized'.2⟩
  · intro node hnode
    obtain ⟨i, hlt, hi⟩ := List.mem_iff_getElem.mp (hperm.mem_iff.mpr hnode)
    obtain ⟨tag, htag⟩ := (hvalidated.valid node hnode).output
    refine ⟨i, instructionOf tagIndex (stateSlots order).1 node, tag, ?_, htag, ?_⟩
    · rw [instruction_emit, List.getElem?_eq_getElem hlt, hi]
      rfl
    · simp [instructionOf, logicOf, htag]

theorem LosesNoLogic.distinct (h : LosesNoLogic definition program) (hcompile : compileBlueprint definition = .ok program) :
    (definition.nodes.map (·.id)).Nodup := by
  obtain ⟨tagIndex, writtenBy, order, hvalidated, hsort, rfl⟩ := compile_ok hcompile
  have hindexes := hvalidated.indexes
  have houtputs := hvalidated.outputs
  have hbyId := topoSort_byId hsort
  have hfound : ∀ node ∈ definition.nodes, byId definition.nodes node.id = some node := by
    intro node hnode
    obtain ⟨i, instr, tag, hinstr, htag, hdest⟩ := h.driven node hnode
    rw [instruction_emit, Option.map_eq_some_iff] at hinstr
    obtain ⟨other, hother, rfl⟩ := hinstr
    have hmem := byId_some (hbyId other (List.mem_of_getElem? hother))
    obtain ⟨tag', htag'⟩ := (hvalidated.valid other hmem.1).output
    have hsame : tag' = tag := by
      have hdest' : (instructionOf tagIndex (stateSlots order).1 other).dest = (tag' : ℤ) := by
        simp [instructionOf, logicOf, htag']
      exact Int.ofNat_inj.mp (hdest'.symm.trans hdest)
    have houtput : other.output = node.output := hindexes.inj (hsame ▸ htag') htag
    obtain rfl := List.inj_on_of_nodup_map houtputs hmem.1 hnode houtput
    exact hbyId other (List.mem_of_getElem? hother)
  refine List.Nodup.map_on (fun node hnode other hother hid => ?_) (List.Nodup.of_map _ houtputs)
  have heq := hfound node hnode
  rw [hid, hfound other hother] at heq
  exact (Option.some.inj heq).symm

/-- A blueprint that compiles loses no logic exactly when its nodes have ids of their own. -/
theorem losesNoLogic_iff (hcompile : compileBlueprint definition = .ok program) :
    LosesNoLogic definition program ↔ (definition.nodes.map (·.id)).Nodup := by
  refine ⟨fun h => h.distinct hcompile, fun hids => ?_⟩
  obtain ⟨tagIndex, writtenBy, order, hvalidated, hsort, rfl⟩ := compile_ok hcompile
  exact losesNoLogic_emit hvalidated hids hsort

def twins : Untrusted :=
  .object [("id".toList, .string ['p']), ("name".toList, .string ['p']),
    ("tags".toList, .array [tag 'x' "input", tag 'y' "output", tag 'z' "output"]),
    ("nodes".toList, .array [node "NOT" 'y', node "MOVE" 'z'])]
where
  tag (name : Char) (direction : String) : Untrusted :=
    .object [("name".toList, .string [name]), ("direction".toList, .string direction.toList), ("dataType".toList, .string "bool".toList)]
  node (op : String) (output : Char) : Untrusted :=
    .object [("id".toList, .string ['1']), ("op".toList, .string op.toList), ("inputs".toList, .array [.object [("tag".toList, .string ['x'])]]),
      ("output".toList, .string [output])]

def twinsDefinition : BlueprintDefinition where
  id := ['p']
  name := ['p']
  tags := [⟨['x'], .input, .bool, none⟩, ⟨['y'], .output, .bool, none⟩, ⟨['z'], .output, .bool, none⟩]
  nodes := [⟨['1'], .not, [.tag ['x']], ['y'], none⟩, ⟨['1'], .move, [.tag ['x']], ['z'], none⟩]

/-- Twins are accepted, and the last one is compiled twice. -/
theorem twins_lose_logic :
    parseBlueprintDefinition twins ⟨3, 2⟩ = .ok twinsDefinition ∧
      ∃ program, compileBlueprint twinsDefinition = .ok program ∧ program.destIndices = [2, 2] ∧ ¬LosesNoLogic twinsDefinition program := by
  have hcompile : ∃ program, compileBlueprint twinsDefinition = .ok program ∧ program.destIndices = [2, 2] := ⟨_, rfl, rfl⟩
  obtain ⟨program, hcompile, hdest⟩ := hcompile
  exact ⟨by rfl, program, hcompile, hdest, fun h => absurd (h.distinct hcompile) (by decide)⟩

def chained : BlueprintDefinition where
  id := ['p']
  name := ['p']
  tags := [⟨['x'], .input, .bool, none⟩, ⟨['y'], .output, .bool, none⟩, ⟨['z'], .internal, .bool, none⟩]
  nodes := [⟨['1'], .latch, [.tag ['z'], .tag ['y']], ['y'], none⟩, ⟨['2'], .not, [.tag ['x']], ['z'], none⟩]

theorem losesNoLogic_chained :
    ∃ program, compileBlueprint chained = .ok program ∧ (LosesNoLogic chained program ↔ (chained.nodes.map (·.id)).Nodup) :=
  ⟨_, rfl, losesNoLogic_iff rfl⟩

end OxScada.Blueprint
