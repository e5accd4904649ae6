import OxScada.Blueprint.Definition
import OxScada.Order.Kahn

/-! The compiler of blueprints. Names are resolved, nodes are put in an order in which a producer comes
before its consumers, and instructions are laid out in flat arrays. -/

namespace OxScada.Blueprint
open OxScada.Bytes OxScada.Order

inductive BlueprintCompileError where
  | noTags (id : Text)
  | duplicateTag (tag : Text)
  | arity (node : Text) (op : BlueprintOp) (expected got : ℕ)
  | stride (node : Text) (op : BlueprintOp) (got : ℕ)
  | writesUnknown (node tag : Text)
  | readsUnknown (node tag : Text)
  | noParam (node : Text) (op : BlueprintOp)
  | negativePreset (node : Text)
  | manyDrivers (node tag : Text)
  | selfCycle (node tag : Text)
  | cycle (remaining : List Text)
  deriving DecidableEq

namespace BlueprintCompileError

def message : BlueprintCompileError → String
  | noTags _ => "blueprint has no tags"
  | duplicateTag tag => s!"duplicate tag \"{String.ofList tag}\""
  | arity _ op expected got => s!"op {String.ofList op.text} expects {expected} operand(s), got {got}"
  | stride _ op got => s!"op {String.ofList op.text} arity {got} exceeds OPERAND_STRIDE {operandStride}"
  | writesUnknown _ tag => s!"node writes unknown tag \"{String.ofList tag}\""
  | readsUnknown _ tag => s!"node reads unknown tag \"{String.ofList tag}\""
  | noParam _ op => s!"op {String.ofList op.text} requires a \"param\" value"
  | negativePreset _ => "TON preset must be >= 0"
  | manyDrivers _ tag => s!"tag \"{String.ofList tag}\" is written by more than one node (multiple drivers)"
  | selfCycle node tag => s!"node \"{String.ofList node}\" feeds its own stateless output back into itself " ++
      s!"(combinational self-cycle on tag \"{String.ofList tag}\"). " ++ "Model feedback with a stateful op (LATCH/TON) instead."
  | cycle remaining => "combinational cycle detected among nodes: " ++ String.ofList (List.intercalate ", ".toList remaining) ++
      ". Break the loop with a stateful op (LATCH/TON) to model feedback."

def IsCycle : BlueprintCompileError → Prop
  | selfCycle _ _ | cycle _ => True
  | _ => False

end BlueprintCompileError

def BlueprintOp.arity : BlueprintOp → ℕ
  | .not | .move | .ton => 1
  | .select => 3
  | .const => 0
  | _ => 2

def BlueprintOp.usesParam : BlueprintOp → Bool
  | .const | .ton => true
  | _ => false

def BlueprintOp.isStateful : BlueprintOp → Bool
  | .latch | .ton => true
  | _ => false

/-- The flat arrays. The operands of an instruction are `operandStride` slots, which hold the index of a tag,
or -1 where the constant counts. -/
structure CompiledBlueprint where
  id : Text
  name : Text
  scanPeriodMs : ℕ
  tagCount : ℕ
  instructionCount : ℕ
  stateCount : ℕ
  opcodes : List BlueprintOp
  destIndices : List ℤ
  immediates : List Float
  operandTagIndices : List ℤ
  operandConsts : List Float
  stateIndices : List ℤ
  tagIndex : Text → Option ℕ
  initialValues : List Float
  tagMeta : List TagDescriptor
  inputSlots : List ℕ
  outputSlots : List ℕ

/-! ### Names -/

/-- The loop that builds the table of the tags, with `count` tags in it already. -/
def indexTags (tagIndex : Text → Option ℕ) (count : ℕ) : List TagDescriptor → Except BlueprintCompileError (Text → Option ℕ)
  | [] => .ok tagIndex
  | tag :: rest =>
    if (tagIndex tag.name).isSome then .error (.duplicateTag tag.name)
    else indexTags (Function.update tagIndex tag.name (some count)) (count + 1) rest

def validateOperands (node : BlueprintNode) (tagIndex : Text → Option ℕ) : List BlueprintOperand → Except BlueprintCompileError Unit
  | [] => .ok ()
  | .const _ :: rest => validateOperands node tagIndex rest
  | .tag tag :: rest => if (tagIndex tag).isNone then .error (.readsUnknown node.id tag) else validateOperands node tagIndex rest

def validateNode (node : BlueprintNode) (tagIndex : Text → Option ℕ) : Except BlueprintCompileError Unit :=
  if node.inputs.length ≠ node.op.arity then .error (.arity node.id node.op node.op.arity node.inputs.length)
  else if operandStride < node.inputs.length then .error (.stride node.id node.op node.inputs.length)
  else if (tagIndex node.output).isNone then .error (.writesUnknown node.id node.output)
  else
    match validateOperands node tagIndex node.inputs with
    | .error e => .error e
    | .ok () =>
      if node.op.usesParam ∧ node.param.isNone then .error (.noParam node.id node.op)
      else if node.op = .ton ∧ node.param.getD 0 < 0 then .error (.negativePreset node.id)
      else .ok ()

/-- The loop that validates the nodes, and the node that writes each tag. -/
def validateNodes (tagIndex : Text → Option ℕ) (writtenBy : Text → Option BlueprintNode) :
    List BlueprintNode → Except BlueprintCompileError (Text → Option BlueprintNode)
  | [] => .ok writtenBy
  | node :: rest =>
    match validateNode node tagIndex with
    | .error e => .error e
    | .ok () =>
      if (writtenBy node.output).isSome then .error (.manyDrivers node.id node.output)
      else validateNodes tagIndex (Function.update writtenBy node.output (some node)) rest

/-! ### Order -/

structure Dependencies where
  inDegree : Text → ℤ
  dependents : Text → List Text

/-- The nodes that feed a node, each once, after those that were seen. -/
def seenProducers (writtenBy : Text → Option BlueprintNode) (node : BlueprintNode) (seen : List Text) :
    List BlueprintOperand → Except BlueprintCompileError (List Text)
  | [] => .ok seen
  | .const _ :: rest => seenProducers writtenBy node seen rest
  | .tag tag :: rest =>
    match writtenBy tag with
    | none => seenProducers writtenBy node seen rest
    | some producer =>
      if node.op.isStateful ∧ producer.id = node.id then seenProducers writtenBy node seen rest
      else if producer.id = node.id then .error (.selfCycle node.id tag)
      else if producer.id ∈ seen then seenProducers writtenBy node seen rest
      else seenProducers writtenBy node (seen ++ [producer.id]) rest

def Dependencies.add (node : Text) (d : Dependencies) (producer : Text) : Dependencies where
  inDegree := Function.update d.inDegree node (d.inDegree node + 1)
  dependents := Function.update d.dependents producer (d.dependents producer ++ [node])

def connect (writtenBy : Text → Option BlueprintNode) (d : Dependencies) : List BlueprintNode → Except BlueprintCompileError Dependencies
  | [] => .ok d
  | node :: rest =>
    match seenProducers writtenBy node [] node.inputs with
    | .error e => .error e
    | .ok producers => connect writtenBy (producers.foldl (Dependencies.add node.id) d) rest

def byId (nodes : List BlueprintNode) (id : Text) : Option BlueprintNode := nodes.reverse.find? (·.id = id)

/-- No run of the loop takes more rounds than there are nodes that are queued first and nodes that are queued later. -/
def topoSort (nodes : List BlueprintNode) (writtenBy : Text → Option BlueprintNode) : Except BlueprintCompileError (List BlueprintNode) :=
  match connect writtenBy ⟨fun _ => 0, fun _ => []⟩ nodes with
  | .error e => .error e
  | .ok d =>
    let queue := (nodes.map (·.id)).filter (d.inDegree · = 0)
    let ordered := (kahn d.dependents (2 * nodes.length) d.inDegree queue).1.filterMap (byId nodes)
    if ordered.length ≠ nodes.length then .error (.cycle ((nodes.filter (· ∉ ordered)).map (·.id)))
    else .ok ordered

/-! ### Instructions -/

/-- The loop that allocates state slots: the slot of each node, and the number of slots. -/
def allocate (slots : (Text → Option ℕ) × ℕ) (node : BlueprintNode) : (Text → Option ℕ) × ℕ :=
  if node.op.isStateful then (Function.update slots.1 node.id (some slots.2), slots.2 + 1) else slots

def stateSlots (order : List BlueprintNode) : (Text → Option ℕ) × ℕ := order.foldl allocate (fun _ => none, 0)

def operandTagIndex (tagIndex : Text → Option ℕ) (node : BlueprintNode) (k : ℕ) : ℤ :=
  match node.inputs[k]? with
  | some (.tag tag) => (tagIndex tag).getD 0
  | _ => -1

def operandConst (node : BlueprintNode) (k : ℕ) : Float :=
  match node.inputs[k]? with
  | some (.const value) => value
  | _ => 0

def immediate (node : BlueprintNode) : Float := if node.op.usesParam then node.param.getD 0 else 0

def stateIndex (slots : Text → Option ℕ) (node : BlueprintNode) : ℤ :=
  match slots node.id with
  | some slot => slot
  | none => -1

def slotsOf (tags : List TagDescriptor) (direction : TagDirection) : List ℕ :=
  (List.range tags.length).filter fun i => (tags[i]?).map (·.direction) = some direction

def emit (definition : BlueprintDefinition) (tagIndex : Text → Option ℕ) (order : List BlueprintNode) : CompiledBlueprint where
  id := definition.id
  name := definition.name
  scanPeriodMs := definition.scanPeriodMs.getD 100
  tagCount := definition.tags.length
  instructionCount := order.length
  stateCount := (stateSlots order).2
  opcodes := order.map (·.op)
  destIndices := order.map fun node => (tagIndex node.output).getD 0
  immediates := order.map immediate
  operandTagIndices := order.flatMap fun node => (List.range operandStride).map (operandTagIndex tagIndex node)
  operandConsts := order.flatMap fun node => (List.range operandStride).map (operandConst node)
  stateIndices := order.map (stateIndex (stateSlots order).1)
  tagIndex := tagIndex
  initialValues := definition.tags.map fun tag => tag.initial.getD 0
  tagMeta := definition.tags
  inputSlots := slotsOf definition.tags .input
  outputSlots := slotsOf definition.tags .output

def compileBlueprint (definition : BlueprintDefinition) : Except BlueprintCompileError CompiledBlueprint :=
  if definition.tags = [] then .error (.noTags definition.id)
  else
    match indexTags (fun _ => none) 0 definition.tags with
    | .error e => .error e
    | .ok tagIndex =>
      match validateNodes tagIndex (fun _ => none) definition.nodes with
      | .error e => .error e
      | .ok writtenBy =>
        match topoSort definition.nodes writtenBy with
        | .error e => .error e
        | .ok order => .ok (emit definition tagIndex order)

/-! ### What the loops find -/

variable {tagIndex : Text → Option ℕ} {writtenBy : Text → Option BlueprintNode} {tags : List TagDescriptor} {nodes : List BlueprintNode}
  {node : BlueprintNode}

def Indexes (tagIndex : Text → Option ℕ) (tags : List TagDescriptor) : Prop :=
  ∀ name i, tagIndex name = some i ↔ (tags[i]?).map (·.name) = some name

theorem indexes_nil : Indexes (fun _ => none) [] := by
  simp [Indexes]

theorem indexTags_spec {done : List TagDescriptor} (hdone : Indexes tagIndex done) {after : Text → Option ℕ}
    (h : indexTags tagIndex done.length tags = .ok after) : Indexes after (done ++ tags) := by
  induction tags generalizing done tagIndex with
  | nil =>
    obtain rfl := Except.ok.inj h
    rwa [List.append_nil]
  | cons tag rest ih =>
    rw [indexTags] at h
    split_ifs at h with hnew
    have hnext : Indexes (Function.update tagIndex tag.name (some done.length)) (done ++ [tag]) := by
      intro name i
      have hnone : tagIndex tag.name = none := Option.not_isSome_iff_eq_none.mp hnew
      rcases lt_trichotomy i done.length with hlt | rfl | hgt
      · have hother : (done[i]?).map (·.name) ≠ some tag.name := by
          rw [Ne, ← hdone, hnone]
          simp
        rw [List.getElem?_append_left hlt, ← hdone]
        by_cases hname : name = tag.name
        · rw [hname, Function.update_self, hnone]
          simp [hlt.ne']
        · rw [Function.update_of_ne hname]
      · rw [List.getElem?_concat_length]
        by_cases hname : name = tag.name
        · simp [hname]
        · have hold : tagIndex name ≠ some done.length := by
            rw [Ne, hdone]
            simp
          simp [Function.update_of_ne hname, hold, Ne.symm hname]
      · have hlong : (done ++ [tag]).length ≤ i := by
          rw [List.length_append]
          exact hgt
        rw [List.getElem?_eq_none hlong]
        by_cases hname : name = tag.name
        · simp [hname, hgt.ne]
        · have hold : tagIndex name ≠ some i := by
            rw [Ne, hdone, List.getElem?_eq_none hgt.le]
            simp
          simp [Function.update_of_ne hname, hold]
    have hrest := ih hnext (by rwa [List.length_append])
    rwa [List.append_assoc] at hrest

theorem Indexes.lt (h : Indexes tagIndex tags) {name : Text} {i : ℕ} (hname : tagIndex name = some i) : i < tags.length := by
  obtain ⟨tag, htag, -⟩ := Option.map_eq_some_iff.mp ((h name i).mp hname)
  exact (List.getElem?_eq_some_iff.mp htag).1

theorem Indexes.inj (h : Indexes tagIndex tags) {name name' : Text} {i : ℕ} (hname : tagIndex name = some i) (hname' : tagIndex name' = some i) :
    name = name' := by
  have hfirst := (h name i).mp hname
  rw [(h name' i).mp hname'] at hfirst
  exact (Option.some.inj hfirst).symm

theorem validateOperands_ok {operands : List BlueprintOperand} (h : validateOperands node tagIndex operands = .ok ()) :
    ∀ tag, .tag tag ∈ operands → ∃ i, tagIndex tag = some i := by
  induction operands with
  | nil => exact fun tag htag => absurd htag List.not_mem_nil
  | cons operand rest ih =>
    intro tag htag
    cases operand with
    | const value =>
      rcases List.mem_cons.mp htag with heq | hrest
      · cases heq
      · exact ih h tag hrest
    | tag first =>
      rw [validateOperands] at h
      split_ifs at h with hknown
      rcases List.mem_cons.mp htag with heq | hrest
      · obtain rfl := BlueprintOperand.tag.inj heq
        exact Option.ne_none_iff_exists'.mp (by simpa using hknown)
      · exact ih h tag hrest

structure Valid (tagIndex : Text → Option ℕ) (node : BlueprintNode) : Prop where
  arity : node.inputs.length = node.op.arity
  width : node.inputs.length ≤ operandStride
  output : ∃ i, tagIndex node.output = some i
  operands : ∀ tag, .tag tag ∈ node.inputs → ∃ i, tagIndex tag = some i
  param : node.op.usesParam → node.param.isSome

theorem validateNode_ok (h : validateNode node tagIndex = .ok ()) : Valid tagIndex node := by
  unfold validateNode at h
  cases hoperands : validateOperands node tagIndex node.inputs with
  | error e =>
    rw [hoperands] at h
    dsimp only at h
    split_ifs at h
  | ok _ =>
    rw [hoperands] at h
    dsimp only at h
    split_ifs at h with harity hstride houtput hparam
    exact ⟨not_not.mp harity, not_lt.mp hstride, Option.ne_none_iff_exists'.mp (by simpa using houtput),
      validateOperands_ok hoperands, fun huses => Option.isSome_iff_ne_none.mpr (by simpa [huses] using hparam)⟩

def Writes (writtenBy : Text → Option BlueprintNode) (nodes : List BlueprintNode) : Prop :=
  ∀ tag node, writtenBy tag = some node ↔ node ∈ nodes ∧ node.output = tag

theorem writes_nil : Writes (fun _ => none) [] := by
  simp [Writes]

variable {done : List BlueprintNode}

theorem Writes.add (h : Writes writtenBy done) (hnew : writtenBy node.output = none) :
    Writes (Function.update writtenBy node.output (some node)) (done ++ [node]) := by
  intro tag other
  by_cases htag : tag = node.output
  · subst htag
    have hnone : ¬(other ∈ done ∧ other.output = node.output) := by
      rw [← h, hnew]
      simp
    rw [Function.update_self, List.mem_append, List.mem_singleton, Option.some.injEq]
    constructor
    · rintro rfl
      exact ⟨.inr rfl, rfl⟩
    · rintro ⟨hdone | rfl, hsame⟩
      · exact absurd ⟨hdone, hsame⟩ hnone
      · rfl
  · rw [Function.update_of_ne htag, h, List.mem_append, List.mem_singleton]
    constructor
    · exact fun ⟨hdone, hsame⟩ => ⟨.inl hdone, hsame⟩
    · rintro ⟨hdone | rfl, hsame⟩
      · exact ⟨hdone, hsame⟩
      · exact absurd hsame.symm htag

theorem Writes.new (h : Writes writtenBy done) :
    writtenBy node.output = none ↔ node.output ∉ done.map (·.output) := by
  rw [Option.eq_none_iff_forall_ne_some, List.mem_map, not_exists]
  exact forall_congr' fun other => not_congr (h node.output other)

theorem validateNodes_ok (hdone : Writes writtenBy done) (hnodup : (done.map (·.output)).Nodup)
    {after : Text → Option BlueprintNode} (h : validateNodes tagIndex writtenBy nodes = .ok after) :
    (∀ node ∈ nodes, validateNode node tagIndex = .ok ()) ∧ ((done ++ nodes).map (·.output)).Nodup ∧ Writes after (done ++ nodes) := by
  induction nodes generalizing done writtenBy with
  | nil =>
    obtain rfl := Except.ok.inj h
    rw [List.append_nil]
    exact ⟨fun node hnode => absurd hnode List.not_mem_nil, hnodup, hdone⟩
  | cons node rest ih =>
    rw [validateNodes] at h
    cases hvalid : validateNode node tagIndex with
    | error e =>
      rw [hvalid] at h
      cases h
    | ok _ =>
      rw [hvalid] at h
      dsimp only at h
      split_ifs at h with hsome
      have hnew : writtenBy node.output = none := Option.not_isSome_iff_eq_none.mp hsome
      have hnodup' : ((done ++ [node]).map (·.output)).Nodup := by
        rw [List.map_append, List.map_singleton]
        exact List.nodup_append.mpr ⟨hnodup, List.nodup_singleton _, fun tag htag other hother heq => by
          rw [List.mem_singleton.mp hother] at heq
          exact hdone.new.mp hnew (heq ▸ htag)⟩
      obtain ⟨hrest, hall, hwrites⟩ := ih (hdone.add hnew) hnodup' h
      rw [List.append_assoc] at hall hwrites
      exact ⟨List.forall_mem_cons.mpr ⟨hvalid, hrest⟩, hall, hwrites⟩

theorem validateNodes_passes (hdone : Writes writtenBy done)
    (hvalid : ∀ node ∈ nodes, validateNode node tagIndex = .ok ()) (hnodup : ((done ++ nodes).map (·.output)).Nodup) :
    ∃ after, validateNodes tagIndex writtenBy nodes = .ok after := by
  induction nodes generalizing done writtenBy with
  | nil => exact ⟨writtenBy, rfl⟩
  | cons node rest ih =>
    obtain ⟨hfirst, hrest⟩ := List.forall_mem_cons.mp hvalid
    have hnew : writtenBy node.output = none := by
      refine hdone.new.mpr fun hmem => ?_
      rw [List.map_append, List.map_cons] at hnodup
      exact (List.nodup_append.mp hnodup).2.2 _ hmem _ List.mem_cons_self rfl
    rw [validateNodes, hfirst]
    dsimp only
    rw [hnew, if_neg (by simp)]
    exact ih (hdone.add hnew) hrest (by rwa [List.append_assoc])

end OxScada.Blueprint
