import OxScada.Blueprint.Emission
import OxScada.Order.Sweep

/-! What a scan computes. The instructions of a compiled blueprint leave the tags as a solution of the
equations of all nodes at once, which no longer tell in what order the nodes were authored. -/

namespace OxScada.Blueprint
open OxScada.Bytes OxScada.Order Relation BlueprintRuntime

def BlueprintOperand.tag? : BlueprintOperand → Option Text
  | .tag name => some name
  | .const _ => none

theorem operandValue_congr {node : BlueprintNode} {value value' : Text → Float}
    (h : ∀ tag ∈ node.inputs.filterMap BlueprintOperand.tag?, value tag = value' tag) (k : ℕ) :
    operandValue node value k = operandValue node value' k := by
  unfold operandValue
  cases hinput : node.inputs[k]? with
  | none => rfl
  | some operand =>
    cases operand with
    | const value => rfl
    | tag tag => exact h tag (List.mem_filterMap.mpr ⟨.tag tag, List.mem_of_getElem? hinput, rfl⟩)

/-- The nodes as a network over the tags, in which each keeps its state under its id. -/
def network (dt : Float) : Network BlueprintNode Text Text Float Float where
  out := BlueprintNode.output
  key := BlueprintNode.id
  reads node := node.inputs.filterMap BlueprintOperand.tag?
  compute := outcome dt
  local_ node value value' h := by
    funext state
    rw [outcome, outcome, operandValue_congr h, operandValue_congr h, operandValue_congr h]

def cells (tagIndex slots : Text → Option ℕ) (r : BlueprintRuntime) : Cells Text Text Float Float := ⟨valueAt tagIndex r, stateAt slots r⟩

variable {definition : BlueprintDefinition} {program program' : CompiledBlueprint} {tagIndex : Text → Option ℕ} {slots slots' : (Text → Option ℕ) × ℕ}
  {order order' nodes nodes' : List BlueprintNode} {node : BlueprintNode} {r r' s : BlueprintRuntime} {tags : List TagDescriptor} {dt : Float}
  {writtenBy : Text → Option BlueprintNode}

/-! ### A round -/

theorem getD_set (buffer : List Float) {i : ℕ} (hi : i < buffer.length) (value : Float) (j : ℕ) :
    (((buffer.set i value)[j]?).getD 0) = if j = i then value else (buffer[j]?).getD 0 := by
  by_cases hj : j = i
  · subst hj
    simp [hi]
  · rw [if_neg hj, List.getElem?_set_ne (Ne.symm hj)]

theorem performed_fire (hindexes : Indexes tagIndex tags) (hvalid : Valid tagIndex node) (hallocated : Allocated slots order)
    (hids : (order.map (·.id)).Nodup) (hnode : node ∈ order) (hsized : Sized tags.length slots.2 r) (dt : Float) :
    cells tagIndex slots.1 (performed dt tagIndex slots.1 node r) = (network dt).fire (cells tagIndex slots.1 r) node := by
  obtain ⟨i, hi⟩ := hvalid.output
  have hlt : i < r.tagBuffer.length := hsized.tagBuffer ▸ hindexes.lt hi
  have hvalue : valueAt tagIndex (performed dt tagIndex slots.1 node r) =
      Function.update (valueAt tagIndex r) node.output (outcome dt node (valueAt tagIndex r) (stateAt slots.1 r node.id)).1 := by
    funext tag
    by_cases htag : tag = node.output
    · subst htag
      rw [Function.update_self, valueAt, hi]
      simp [performed, hi, hlt]
    · rw [Function.update_of_ne htag, valueAt, valueAt]
      cases hj : tagIndex tag with
      | none => rfl
      | some j =>
        have hne : j ≠ i := fun heq => htag (hindexes.inj (heq ▸ hj) hi)
        simp only [performed, hi, Option.getD_some, getD_set _ hlt, if_neg hne]
  have hstate : stateAt slots.1 (performed dt tagIndex slots.1 node r) =
      Function.update (stateAt slots.1 r) node.id (outcome dt node (valueAt tagIndex r) (stateAt slots.1 r node.id)).2 := by
    funext id
    by_cases hstateful : node.op.isStateful
    · obtain ⟨slot, hslot⟩ := hallocated.has node hnode hstateful
      have hstate : slot < r.stateBuffer.length := hsized.stateBuffer ▸ hallocated.lt _ _ hslot
      by_cases hid : id = node.id
      · subst hid
        rw [Function.update_self, stateAt, hslot]
        simp [performed, hslot, hstate]
      · rw [Function.update_of_ne hid, stateAt, stateAt]
        cases hother : slots.1 id with
        | none => rfl
        | some other =>
          have hne : other ≠ slot := fun heq => hid (hallocated.inj _ _ _ (heq ▸ hother) hslot)
          simp only [performed, hslot, getD_set _ hstate, if_neg hne]
    · have hslot := hallocated.stateless hids hnode hstateful
      have hsame : (outcome dt node (valueAt tagIndex r) (stateAt slots.1 r node.id)).2 = stateAt slots.1 r node.id := by
        rw [outcome, operate_stateless hstateful]
      rw [hsame, Function.update_eq_self]
      simp only [stateAt, performed, hslot]
  unfold cells
  rw [hvalue, hstate]
  rfl

theorem foldl_performed (hindexes : Indexes tagIndex tags) (hvalid : ∀ node ∈ order, Valid tagIndex node) (hallocated : Allocated slots order)
    (hids : (order.map (·.id)).Nodup) {rest : List BlueprintNode} (hrest : rest ⊆ order) (hsized : Sized tags.length slots.2 r) :
    cells tagIndex slots.1 (rest.foldl (fun r node => performed dt tagIndex slots.1 node r) r) =
      (network dt).sweep (cells tagIndex slots.1 r) rest := by
  induction rest generalizing r with
  | nil => rfl
  | cons node rest ih =>
    have hnode : node ∈ order := hrest List.mem_cons_self
    have hfire := performed_fire hindexes (hvalid node hnode) hallocated hids hnode hsized dt
    rw [List.foldl_cons, ih (fun n hn => hrest (List.mem_cons_of_mem _ hn)) (performed_sized hsized dt), hfire]
    rfl

/-! ### A scan -/

/-- A definition with ids of its own and the order that it is compiled in. -/
structure Compiled (definition : BlueprintDefinition) (tagIndex : Text → Option ℕ) (writtenBy : Text → Option BlueprintNode)
    (order : List BlueprintNode) : Prop where
  validated : Validated definition tagIndex writtenBy
  distinct : (definition.nodes.map (·.id)).Nodup
  perm : order.Perm definition.nodes
  sorted : order.Pairwise fun n later => ¬Precedes definition.nodes later n

theorem compiled (hvalidated : Validated definition tagIndex writtenBy) (hids : (definition.nodes.map (·.id)).Nodup)
    (hsort : topoSort definition.nodes writtenBy = .ok order) : Compiled definition tagIndex writtenBy order :=
  have hspec := (topoSort_spec hids hvalidated.writes).1 order hsort
  ⟨hvalidated, hids, hspec.1, hspec.2⟩

section
variable (h : Compiled definition tagIndex writtenBy order)
include h

theorem Compiled.ids : (order.map (·.id)).Nodup :=
  (h.perm.map _).nodup_iff.mpr h.distinct

theorem Compiled.valid : ∀ node ∈ order, Valid tagIndex node :=
  fun node hnode => h.validated.valid node (h.perm.mem_iff.mp hnode)

theorem Compiled.ordered (dt : Float) : (network dt).Ordered order := by
  have hids : order.Pairwise fun n later => n.id ≠ later.id := List.pairwise_map.mp h.ids
  have houtputs : order.Pairwise fun n later => n.output ≠ later.output :=
    List.pairwise_map.mp ((h.perm.map _).nodup_iff.mpr h.validated.outputs)
  refine (hids.and (houtputs.and h.sorted)).imp_of_mem fun {n later} hn hlater => ?_
  rintro ⟨hid, houtput, hsorted⟩
  refine ⟨houtput, hid, fun hreads => hsorted ⟨⟨h.perm.mem_iff.mp hlater, h.perm.mem_iff.mp hn, ?_⟩, fun hself => hid (hself.1 ▸ rfl)⟩⟩
  obtain ⟨operand, hoperand, htag⟩ := List.mem_filterMap.mp hreads
  cases operand with
  | const value => cases htag
  | tag name =>
    obtain rfl := Option.some.inj htag
    exact hoperand

theorem Compiled.tick (hsized : Sized definition.tags.length (stateSlots order).2 r) :
    ∃ r', r.tickFast (emit definition tagIndex order) = some r' ∧ Sized definition.tags.length (stateSlots order).2 r' ∧
      cells tagIndex (stateSlots order).1 r' =
        (network (scanPeriodSeconds (emit definition tagIndex order))).sweep (cells tagIndex (stateSlots order).1 r) order := by
  have hindexes := h.validated.indexes
  have hallocated := allocated h.ids
  obtain ⟨hfold, hsized'⟩ := foldlM_perform hindexes h.valid hallocated h.ids (List.Subset.refl order) hsized
    (scanPeriodSeconds (emit definition tagIndex order))
  have htick := (encodes_emit definition tagIndex order).tickFast r
  rw [hfold] at htick
  refine ⟨_, htick, ⟨hsized'.1, hsized'.2⟩, ?_⟩
  exact foldl_performed hindexes h.valid hallocated h.ids (List.Subset.refl order) hsized

end

/-! ### Runs -/

theorem foldl_set_length (inputs : List (ℕ × Float)) (buffer : List Float) :
    (inputs.foldl (fun tags input => tags.set input.1 input.2) buffer).length = buffer.length := by
  induction inputs generalizing buffer with
  | nil => rfl
  | cons input rest ih => rw [List.foldl_cons, ih, List.length_set]

def BlueprintRuntime.Act.IsWrite : Act → Prop
  | .writeInputs _ | .set _ _ => True
  | .tick | .reset => False

/-- A write gives the tags other values, as far as there is room for them, and depends on the names alone. -/
theorem act_write (program : CompiledBlueprint) (r : BlueprintRuntime) {a : Act} (ha : a.IsWrite) :
    ∃ tagBuffer, act program r a = some { r with tagBuffer } ∧ tagBuffer.length = r.tagBuffer.length ∧
      ∀ program' r', program'.tagIndex = program.tagIndex → program'.inputSlots = program.inputSlots → r'.tagBuffer = r.tagBuffer →
        act program' r' a = some { r' with tagBuffer } := by
  cases a with
  | writeInputs values =>
    by_cases hlength : values.length = program.inputSlots.length
    · refine ⟨_, by rw [act, BlueprintRuntime.writeInputs, if_neg (not_not.mpr hlength)]; rfl, foldl_set_length .., ?_⟩
      intro program' r' _ hslots hbuffer
      rw [act, BlueprintRuntime.writeInputs, hslots, hbuffer, if_neg (not_not.mpr hlength)]
      rfl
    · refine ⟨r.tagBuffer, by rw [act, BlueprintRuntime.writeInputs, if_pos hlength]; rfl, rfl, ?_⟩
      intro program' r' _ hslots hbuffer
      rw [act, BlueprintRuntime.writeInputs, hslots, if_pos hlength, ← hbuffer]
      rfl
  | set name value =>
    cases hname : program.tagIndex name with
    | none =>
      refine ⟨r.tagBuffer, by rw [act, BlueprintRuntime.set, hname]; rfl, rfl, ?_⟩
      intro program' r' htags _ hbuffer
      rw [act, BlueprintRuntime.set, htags, hname, ← hbuffer]
      rfl
    | some slot =>
      refine ⟨r.tagBuffer.set slot value, by rw [act, BlueprintRuntime.set, hname]; rfl, List.length_set .., ?_⟩
      intro program' r' htags _ hbuffer
      rw [act, BlueprintRuntime.set, htags, hname, hbuffer]
      rfl
  | tick | reset => exact absurd ha id

theorem Compiled.act (h : Compiled definition tagIndex writtenBy order) (hsized : Sized definition.tags.length (stateSlots order).2 r) (a : Act) :
    ∃ r', r.act (emit definition tagIndex order) a = some r' ∧ Sized definition.tags.length (stateSlots order).2 r' := by
  cases a with
  | tick =>
    obtain ⟨r', htick, hsized', -⟩ := h.tick hsized
    exact ⟨r', htick, hsized'⟩
  | reset => exact ⟨_, rfl, List.length_map .., List.length_replicate ..⟩
  | writeInputs values =>
    obtain ⟨tagBuffer, hact, hlength, -⟩ := act_write (emit definition tagIndex order) r (a := .writeInputs values) trivial
    exact ⟨_, hact, hlength.trans hsized.tagBuffer, hsized.stateBuffer⟩
  | set name value =>
    obtain ⟨tagBuffer, hact, hlength, -⟩ := act_write (emit definition tagIndex order) r (a := .set name value) trivial
    exact ⟨_, hact, hlength.trans hsized.tagBuffer, hsized.stateBuffer⟩

theorem Compiled.runFrom (h : Compiled definition tagIndex writtenBy order) (hsized : Sized definition.tags.length (stateSlots order).2 r)
    (acts : List Act) :
    ∃ r', r.runFrom (emit definition tagIndex order) acts = some r' ∧ Sized definition.tags.length (stateSlots order).2 r' := by
  induction acts generalizing r with
  | nil => exact ⟨r, rfl, hsized⟩
  | cons a acts ih =>
    obtain ⟨next, hact, hnext⟩ := h.act hsized a
    obtain ⟨r', hrun, hsized'⟩ := ih hnext
    refine ⟨r', ?_, hsized'⟩
    rw [BlueprintRuntime.runFrom, List.foldlM_cons, hact]
    exact hrun

/-! ### Authoring orders -/

theorem stateAt_load (slots : Text → Option ℕ) (program : CompiledBlueprint) (id : Text) : stateAt slots (load program) id = 0 := by
  unfold stateAt load
  cases slots id with
  | none => rfl
  | some slot =>
    dsimp only
    rw [List.getElem?_replicate]
    split_ifs <;> rfl

/-- Two runtimes hold the same values, and the same states of the same nodes. -/
structure Agree (slots slots' : Text → Option ℕ) (r r' : BlueprintRuntime) : Prop where
  tags : r'.tagBuffer = r.tagBuffer
  states : stateAt slots' r' = stateAt slots r

theorem tagBuffer_eq (hindexes : Indexes tagIndex tags) (hlength : r.tagBuffer.length = tags.length) (hlength' : r'.tagBuffer.length = tags.length)
    (h : valueAt tagIndex r' = valueAt tagIndex r) : r'.tagBuffer = r.tagBuffer := by
  refine List.ext_getElem (hlength'.trans hlength.symm) fun i hi hi' => ?_
  have htag : i < tags.length := hlength ▸ hi'
  have hname : tagIndex tags[i].name = some i := by
    rw [hindexes, List.getElem?_eq_getElem htag]
    rfl
  have hvalue := congrFun h tags[i].name
  rw [valueAt, valueAt, hname] at hvalue
  simpa [hi, hi'] using hvalue

theorem precedes_perm (hperm : nodes'.Perm nodes) : Precedes nodes' = Precedes nodes := by
  funext producer consumer
  simp only [Precedes, Feeds, hperm.mem_iff]

theorem Compiled.agree_act {writtenBy' : Text → Option BlueprintNode} (h : Compiled definition tagIndex writtenBy order)
    (h' : Compiled { definition with nodes := nodes' } tagIndex writtenBy' order') (hperm : nodes'.Perm definition.nodes)
    (hsized : Sized definition.tags.length (stateSlots order).2 r) (hsized' : Sized definition.tags.length (stateSlots order').2 r')
    (hagree : Agree (stateSlots order).1 (stateSlots order').1 r r') {a : Act}
    (hact : r.act (emit definition tagIndex order) a = some s) :
    ∃ s', r'.act (emit { definition with nodes := nodes' } tagIndex order') a = some s' ∧
      Agree (stateSlots order).1 (stateSlots order').1 s s' := by
  have hwrite : a.IsWrite → ∃ s', r'.act (emit { definition with nodes := nodes' } tagIndex order') a = some s' ∧
      Agree (stateSlots order).1 (stateSlots order').1 s s' := by
    intro ha
    obtain ⟨tagBuffer, hsame, -, hother⟩ := act_write (emit definition tagIndex order) r ha
    obtain rfl := Option.some.inj (hsame.symm.trans hact)
    exact ⟨_, hother (emit { definition with nodes := nodes' } tagIndex order') r' rfl rfl hagree.tags, rfl, hagree.states⟩
  cases a with
  | writeInputs | set => exact hwrite trivial
  | reset =>
    obtain rfl := Option.some.inj hact
    refine ⟨_, rfl, rfl, ?_⟩
    funext id
    rw [BlueprintRuntime.reset, BlueprintRuntime.reset, stateAt_load, stateAt_load]
  | tick =>
    obtain ⟨t, htick, htsized, ht⟩ := h.tick hsized
    obtain ⟨t', htick', htsized', ht'⟩ := h'.tick hsized'
    obtain rfl := Option.some.inj (htick.symm.trans hact)
    have hstart : cells tagIndex (stateSlots order').1 r' = cells tagIndex (stateSlots order).1 r := by
      unfold cells
      rw [hagree.states]
      congr 1
      funext tag
      rw [valueAt, valueAt, hagree.tags]
    have horder : order'.Perm order := h'.perm.trans (hperm.trans h.perm.symm)
    have hperiod : scanPeriodSeconds (emit { definition with nodes := nodes' } tagIndex order') =
        scanPeriodSeconds (emit definition tagIndex order) := rfl
    have hcells : cells tagIndex (stateSlots order').1 t' = cells tagIndex (stateSlots order).1 t := by
      rw [ht', ht, hperiod, hstart]
      exact Network.sweep_perm (h'.ordered _) (h.ordered _) horder _
    refine ⟨t', htick', ?_, congrArg Cells.memory hcells⟩
    exact tagBuffer_eq h.validated.indexes htsized.tagBuffer htsized'.tagBuffer (congrArg Cells.value hcells)

theorem Compiled.agree_runFrom {writtenBy' : Text → Option BlueprintNode} (h : Compiled definition tagIndex writtenBy order)
    (h' : Compiled { definition with nodes := nodes' } tagIndex writtenBy' order') (hperm : nodes'.Perm definition.nodes)
    (hsized : Sized definition.tags.length (stateSlots order).2 r) (hsized' : Sized definition.tags.length (stateSlots order').2 r')
    (hagree : Agree (stateSlots order).1 (stateSlots order').1 r r') (acts : List Act)
    (hrun : r.runFrom (emit definition tagIndex order) acts = some s) :
    ∃ s', r'.runFrom (emit { definition with nodes := nodes' } tagIndex order') acts = some s' ∧ s'.tagBuffer = s.tagBuffer := by
  induction acts generalizing r r' with
  | nil =>
    obtain rfl := Option.some.inj hrun
    exact ⟨r', rfl, hagree.tags⟩
  | cons a acts ih =>
    obtain ⟨next, hact, hnext⟩ := h.act hsized a
    obtain ⟨next', hact', hnext'⟩ := h'.act hsized' a
    obtain ⟨other, hother, hagree'⟩ := h.agree_act h' hperm hsized hsized' hagree hact
    obtain rfl := Option.some.inj (hother.symm.trans hact')
    rw [BlueprintRuntime.runFrom, List.foldlM_cons, hact] at hrun
    obtain ⟨s', hrun', htags⟩ := ih hnext hnext' hagree' hrun
    refine ⟨s', ?_, htags⟩
    rw [BlueprintRuntime.runFrom, List.foldlM_cons, hact']
    exact hrun'

theorem compile_perm (h : Compiled definition tagIndex writtenBy order) (hsort : topoSort definition.nodes writtenBy = .ok order)
    (hperm : nodes'.Perm definition.nodes) : ∃ writtenBy' order', Compiled { definition with nodes := nodes' } tagIndex writtenBy' order' ∧
      compileBlueprint { definition with nodes := nodes' } = .ok (emit { definition with nodes := nodes' } tagIndex order') := by
  have hchecks := validateNodes_ok writes_nil .nil h.validated.nodes
  have hchecks' : ∀ node ∈ nodes', validateNode node tagIndex = .ok () := fun node hnode => hchecks.1 node (hperm.mem_iff.mp hnode)
  have houtputs : (nodes'.map (·.output)).Nodup := (hperm.map _).nodup_iff.mpr h.validated.outputs
  obtain ⟨writtenBy', hnodes'⟩ := validateNodes_passes writes_nil hchecks' houtputs
  have hvalidated' : Validated { definition with nodes := nodes' } tagIndex writtenBy' := ⟨h.validated.tags, h.validated.names, hnodes'⟩
  have hids' : (nodes'.map (·.id)).Nodup := (hperm.map _).nodup_iff.mpr h.distinct
  obtain ⟨-, -, hrejects⟩ := topoSort_spec h.distinct h.validated.writes
  obtain ⟨-, -, hrejects'⟩ := topoSort_spec hids' hvalidated'.writes
  cases hsort' : topoSort nodes' writtenBy' with
  | error e =>
    have hcycle := hrejects'.mp ⟨e, hsort'⟩
    rw [precedes_perm hperm] at hcycle
    obtain ⟨e', he'⟩ := hrejects.mpr hcycle
    rw [hsort] at he'
    cases he'
  | ok order' =>
    refine ⟨writtenBy', order', compiled hvalidated' hids' hsort', ?_⟩
    rw [hvalidated'.compile, hsort']
    rfl

/-! ### What is computed -/

/-- The runtime solves the equations of the nodes in every scan, with a state for each stateful node that
starts at zero and that writes leave alone. -/
structure Dataflow (definition : BlueprintDefinition) (program : CompiledBlueprint) (slots : Text → Option ℕ) : Prop where
  stateful : ∀ node ∈ definition.nodes, (slots node.id).isSome ↔ node.op.isStateful
  separate : ∀ id id' slot, slots id = some slot → slots id' = some slot → id = id'
  loads : ∀ id, (cells program.tagIndex slots (load program)).memory id = 0
  runs : ∀ acts, ∃ r, run program acts = some r
  writes : ∀ acts r a r', run program acts = some r → a.IsWrite → act program r a = some r' →
    (cells program.tagIndex slots r').memory = (cells program.tagIndex slots r).memory
  ticks : ∀ acts r r', run program acts = some r → r.tickFast program = some r' →
    (network (scanPeriodSeconds program)).Solves definition.nodes (cells program.tagIndex slots r) (cells program.tagIndex slots r')

theorem sized_load (definition : BlueprintDefinition) (tagIndex : Text → Option ℕ) (order : List BlueprintNode) :
    Sized definition.tags.length (stateSlots order).2 (load (emit definition tagIndex order)) := ⟨List.length_map .., List.length_replicate ..⟩

theorem Compiled.dataflow (h : Compiled definition tagIndex writtenBy order) :
    Dataflow definition (emit definition tagIndex order) (stateSlots order).1 := by
  have hallocated := allocated h.ids
  refine ⟨fun node hnode => ?_, hallocated.inj, stateAt_load _ _, fun acts => ?_, fun acts r a r' _ ha hact => ?_, fun acts r r' hrun htick => ?_⟩
  · have horder : node ∈ order := h.perm.mem_iff.mpr hnode
    by_cases hop : node.op.isStateful
    · obtain ⟨slot, hslot⟩ := hallocated.has node horder hop
      simp [hslot, hop]
    · simp [hallocated.stateless h.ids horder hop, hop]
  · obtain ⟨r, hrun, -⟩ := h.runFrom (sized_load ..) acts
    exact ⟨r, hrun⟩
  · obtain ⟨tagBuffer, hsame, -⟩ := act_write (emit definition tagIndex order) r ha
    obtain rfl := Option.some.inj (hsame.symm.trans hact)
    rfl
  · obtain ⟨s, hrun', hsized⟩ := h.runFrom (sized_load ..) acts
    obtain rfl := Option.some.inj (hrun'.symm.trans hrun)
    obtain ⟨t, htick', -, hcells⟩ := h.tick hsized
    obtain rfl := Option.some.inj (htick'.symm.trans htick)
    exact ((Network.solves_iff (h.ordered _)).mpr hcells).perm h.perm

/-- A compiled blueprint computes the dataflow of its nodes, in whatever order these were authored. -/
theorem scan_dataflow (hcompile : compileBlueprint definition = .ok program) (hids : (definition.nodes.map (·.id)).Nodup) :
    (∃ slots, Dataflow definition program slots) ∧
      ∀ nodes', nodes'.Perm definition.nodes → ∃ program', compileBlueprint { definition with nodes := nodes' } = .ok program' ∧
        ∀ acts r, run program acts = some r → ∃ r', run program' acts = some r' ∧ ∀ name, r'.get program' name = r.get program name := by
  obtain ⟨tagIndex, writtenBy, order, hvalidated, hsort, rfl⟩ := compile_ok hcompile
  have hcompiled := compiled hvalidated hids hsort
  refine ⟨⟨_, hcompiled.dataflow⟩, fun nodes' hperm => ?_⟩
  obtain ⟨writtenBy', order', hcompiled', hcompile'⟩ := compile_perm hcompiled hsort hperm
  refine ⟨_, hcompile', fun acts r hrun => ?_⟩
  have hagree : Agree (stateSlots order).1 (stateSlots order').1 (load (emit definition tagIndex order))
      (load (emit { definition with nodes := nodes' } tagIndex order')) :=
    ⟨rfl, funext fun id => by rw [stateAt_load, stateAt_load]⟩
  obtain ⟨r', hrun', htags⟩ := hcompiled.agree_runFrom hcompiled' hperm (sized_load ..) (sized_load ..) hagree acts hrun
  refine ⟨r', hrun', fun name => ?_⟩
  unfold BlueprintRuntime.get
  rw [htags]
  rfl

theorem scan_dataflow_chained :
    ∃ program, compileBlueprint chained = .ok program ∧ (∃ slots, Dataflow chained program slots) ∧
      ∀ nodes', nodes'.Perm chained.nodes → ∃ program', compileBlueprint { chained with nodes := nodes' } = .ok program' ∧
        ∀ acts r, run program acts = some r → ∃ r', run program' acts = some r' ∧ ∀ name, r'.get program' name = r.get program name :=
  ⟨_, rfl, scan_dataflow rfl (by decide)⟩

end OxScada.Blueprint
