import OxScada.Blueprint.Compiler

/-! Feedback. The sort leaves out the edge of a stateful node to itself and no other, so that it rejects
every cycle of several nodes, through a stateful node or not. -/

namespace OxScada.Blueprint
open OxScada.Bytes OxScada.Order Relation

/-- The data-dependency graph: the one node writes a tag that the other reads. -/
def Feeds (nodes : List BlueprintNode) (producer consumer : BlueprintNode) : Prop :=
  producer ∈ nodes ∧ consumer ∈ nodes ∧ .tag producer.output ∈ consumer.inputs

def Precedes (nodes : List BlueprintNode) (producer consumer : BlueprintNode) : Prop :=
  Feeds nodes producer consumer ∧ ¬(producer = consumer ∧ consumer.op.isStateful)

variable {nodes all order : List BlueprintNode} {node producer consumer : BlueprintNode} {writtenBy : Text → Option BlueprintNode}
  {d after : Dependencies} {seen producers : List Text} {operands : List BlueprintOperand} {e : BlueprintCompileError}
  {definition : BlueprintDefinition}

/-- A node that writes one of some operands, as the loop looks it up. -/
def Produces (writtenBy : Text → Option BlueprintNode) (operands : List BlueprintOperand) (producer : BlueprintNode) : Prop :=
  ∃ tag, .tag tag ∈ operands ∧ writtenBy tag = some producer

theorem produces_const (value : Float) : Produces writtenBy (.const value :: operands) producer ↔ Produces writtenBy operands producer := by
  simp [Produces]

theorem produces_tag (tag : Text) :
    Produces writtenBy (.tag tag :: operands) producer ↔ writtenBy tag = some producer ∨ Produces writtenBy operands producer := by
  simp [Produces, or_and_right, exists_or]

theorem produces_feeds (hwrites : Writes writtenBy nodes) (hnode : node ∈ nodes) :
    Produces writtenBy node.inputs producer ↔ Feeds nodes producer node := by
  constructor
  · rintro ⟨tag, htag, hproducer⟩
    obtain ⟨hmem, rfl⟩ := (hwrites tag producer).mp hproducer
    exact ⟨hmem, hnode, htag⟩
  · rintro ⟨hmem, -, htag⟩
    exact ⟨producer.output, htag, (hwrites _ _).mpr ⟨hmem, rfl⟩⟩

/-- The producers that are found, each once: a node that feeds itself is stateful, and is left out. -/
theorem seenProducers_ok (hseen : seen.Nodup) (h : seenProducers writtenBy node seen operands = .ok producers) :
    producers.Nodup ∧ (∀ id, id ∈ producers ↔ id ∈ seen ∨ ∃ producer, Produces writtenBy operands producer ∧ producer.id = id ∧ id ≠ node.id) ∧
      ∀ producer, Produces writtenBy operands producer → producer.id = node.id → node.op.isStateful := by
  induction operands generalizing seen with
  | nil =>
    obtain rfl := Except.ok.inj h
    simp [Produces, hseen]
  | cons operand rest ih =>
    cases operand with
    | const value =>
      simp only [produces_const]
      exact ih hseen h
    | tag tag =>
      simp only [produces_tag]
      rw [seenProducers] at h
      cases hfirst : writtenBy tag with
      | none =>
        rw [hfirst] at h
        simpa using ih hseen h
      | some first =>
        rw [hfirst] at h
        dsimp only at h
        simp only [Option.some.injEq, or_and_right, exists_or, exists_eq_left']
        -- the node itself, where it is stateful, and a producer that was seen are left out
        split_ifs at h with hstateful hself hold
        · obtain ⟨hnodup, hmem, hloops⟩ := ih hseen h
          refine ⟨hnodup, fun id => ?_, fun producer hproduces hid => hproduces.elim (fun _ => hstateful.1) fun hrest => hloops producer hrest hid⟩
          rw [hmem]
          have hnot : ¬(first.id = id ∧ id ≠ node.id) := fun ⟨hid, hne⟩ => hne (hid ▸ hstateful.2)
          simp only [hnot, false_or]
        · obtain ⟨hnodup, hmem, hloops⟩ := ih hseen h
          have hloop : ∀ producer, first = producer ∨ Produces writtenBy rest producer → producer.id = node.id → node.op.isStateful := by
            rintro producer (rfl | hrest) hid
            · exact absurd hid hself
            · exact hloops producer hrest hid
          refine ⟨hnodup, fun id => ?_, hloop⟩
          rw [hmem]
          constructor
          · rintro (hid | hrest)
            · exact .inl hid
            · exact .inr (.inr hrest)
          · rintro (hid | ⟨rfl, -⟩ | hrest)
            · exact .inl hid
            · exact .inl hold
            · exact .inr hrest
        · have hseen' : (seen ++ [first.id]).Nodup :=
            List.nodup_append.mpr ⟨hseen, List.nodup_singleton _, fun id hid other hother heq => by
              rw [List.mem_singleton.mp hother] at heq
              exact hold (heq ▸ hid)⟩
          obtain ⟨hnodup, hmem, hloops⟩ := ih hseen' h
          have hloop : ∀ producer, first = producer ∨ Produces writtenBy rest producer → producer.id = node.id → node.op.isStateful := by
            rintro producer (rfl | hrest) hid
            · exact absurd hid hself
            · exact hloops producer hrest hid
          refine ⟨hnodup, fun id => ?_, hloop⟩
          rw [hmem, List.mem_append, List.mem_singleton]
          constructor
          · rintro ((hid | rfl) | hrest)
            · exact .inl hid
            · exact .inr (.inl ⟨rfl, hself⟩)
            · exact .inr (.inr hrest)
          · rintro (hid | ⟨rfl, -⟩ | hrest)
            · exact .inl (.inl hid)
            · exact .inl (.inr rfl)
            · exact .inr hrest

theorem seenProducers_error (h : seenProducers writtenBy node seen operands = .error e) :
    e.IsCycle ∧ ∃ producer, Produces writtenBy operands producer ∧ producer.id = node.id ∧ ¬node.op.isStateful := by
  induction operands generalizing seen with
  | nil => cases h
  | cons operand rest ih =>
    cases operand with
    | const value =>
      simp only [produces_const]
      exact ih h
    | tag tag =>
      simp only [produces_tag]
      rw [seenProducers] at h
      cases hfirst : writtenBy tag with
      | none =>
        rw [hfirst] at h
        simpa using ih h
      | some first =>
        rw [hfirst] at h
        dsimp only at h
        split_ifs at h with hstateful hself hold
        · obtain ⟨hcycle, producer, hproduces, hloop⟩ := ih h
          exact ⟨hcycle, producer, .inr hproduces, hloop⟩
        · cases h
          exact ⟨trivial, first, .inl rfl, hself, fun hop => hstateful ⟨hop, hself⟩⟩
        · obtain ⟨hcycle, producer, hproduces, hloop⟩ := ih h
          exact ⟨hcycle, producer, .inr hproduces, hloop⟩
        · obtain ⟨hcycle, producer, hproduces, hloop⟩ := ih h
          exact ⟨hcycle, producer, .inr hproduces, hloop⟩

/-! ### The edges that are counted -/

theorem foldl_add_inDegree (hids : (all.map (·.id)).Nodup) (hsub : producers ⊆ all.map (·.id))
    (hcounts : ∀ v, d.inDegree v = incoming d.dependents (all.map (·.id)) v) (v : Text) :
    (producers.foldl (Dependencies.add node.id) d).inDegree v =
      incoming (producers.foldl (Dependencies.add node.id) d).dependents (all.map (·.id)) v := by
  induction producers generalizing d with
  | nil => exact hcounts v
  | cons producer rest ih =>
    refine ih (fun id hid => hsub (List.mem_cons_of_mem _ hid)) fun w => ?_
    have hdegree : (Dependencies.add node.id d producer).inDegree w = Function.update d.inDegree node.id (d.inDegree node.id + 1) w := rfl
    have hnext : incoming (Dependencies.add node.id d producer).dependents (all.map (·.id)) w = _ :=
      incoming_add hids (hsub List.mem_cons_self) node.id w
    rw [hdegree, hnext]
    by_cases hw : w = node.id
    · subst hw
      rw [Function.update_self, hcounts]
      simp
    · rw [Function.update_of_ne hw, hcounts]
      simp [hw]

theorem mem_foldl_add (u v : Text) :
    v ∈ (producers.foldl (Dependencies.add node.id) d).dependents u ↔ v ∈ d.dependents u ∨ v = node.id ∧ u ∈ producers := by
  induction producers generalizing d with
  | nil => simp
  | cons producer rest ih =>
    rw [List.foldl_cons, ih, Dependencies.add]
    by_cases hu : u = producer
    · subst hu
      simp
      tauto
    · simp [hu]

theorem connect_ok (hids : (all.map (·.id)).Nodup) (hwrites : Writes writtenBy all) (hsub : nodes ⊆ all)
    (hcounts : ∀ v, d.inDegree v = incoming d.dependents (all.map (·.id)) v) (h : connect writtenBy d nodes = .ok after) :
    (∀ v, after.inDegree v = incoming after.dependents (all.map (·.id)) v) ∧
      (∀ u v, v ∈ after.dependents u ↔ v ∈ d.dependents u ∨
        ∃ node ∈ nodes, v = node.id ∧ ∃ producer, Produces writtenBy node.inputs producer ∧ producer.id = u ∧ u ≠ node.id) ∧
      ∀ node ∈ nodes, ∀ producer, Produces writtenBy node.inputs producer → producer.id = node.id → node.op.isStateful := by
  induction nodes generalizing d with
  | nil =>
    obtain rfl := Except.ok.inj h
    exact ⟨hcounts, by simp, by simp⟩
  | cons node rest ih =>
    rw [connect] at h
    split at h
    next => cases h
    next producers hproducers =>
      obtain ⟨-, hmem, hloops⟩ := seenProducers_ok List.nodup_nil hproducers
      have hknown : producers ⊆ all.map (·.id) := by
        intro id hid
        obtain hnil | ⟨producer, ⟨tag, -, hproducer⟩, rfl, -⟩ := (hmem id).mp hid
        · exact absurd hnil List.not_mem_nil
        · exact List.mem_map_of_mem ((hwrites tag producer).mp hproducer).1
      obtain ⟨hcounts', hedges, hloops'⟩ := ih (fun n hn => hsub (List.mem_cons_of_mem _ hn)) (foldl_add_inDegree hids hknown hcounts) h
      refine ⟨hcounts', fun u v => ?_, List.forall_mem_cons.mpr ⟨hloops, hloops'⟩⟩
      rw [hedges, mem_foldl_add, hmem]
      simp [or_assoc]

theorem connect_error (h : connect writtenBy d nodes = .error e) :
    e.IsCycle ∧ ∃ node ∈ nodes, ∃ producer, Produces writtenBy node.inputs producer ∧ producer.id = node.id ∧ ¬node.op.isStateful := by
  induction nodes generalizing d with
  | nil => cases h
  | cons node rest ih =>
    rw [connect] at h
    cases hproducers : seenProducers writtenBy node [] node.inputs with
    | error e' =>
      rw [hproducers] at h
      obtain rfl := Except.error.inj h
      obtain ⟨hcycle, hself⟩ := seenProducers_error hproducers
      exact ⟨hcycle, node, List.mem_cons_self, hself⟩
    | ok producers =>
      rw [hproducers] at h
      obtain ⟨hcycle, other, hother, hself⟩ := ih h
      exact ⟨hcycle, other, List.mem_cons_of_mem _ hother, hself⟩

/-! ### The sort -/

theorem eq_of_id (hids : (nodes.map (·.id)).Nodup) (hnode : node ∈ nodes) (hproducer : producer ∈ nodes) (h : producer.id = node.id) :
    producer = node := List.inj_on_of_nodup_map hids hproducer hnode h

theorem byId_some {id : Text} (h : byId nodes id = some node) : node ∈ nodes ∧ node.id = id := by
  have hmem := List.mem_of_find?_eq_some h
  have hid := List.find?_some h
  exact ⟨List.mem_reverse.mp hmem, by simpa using hid⟩

theorem byId_isSome {id : Text} (h : id ∈ nodes.map (·.id)) : ∃ node, byId nodes id = some node := by
  obtain ⟨node, hnode, rfl⟩ := List.mem_map.mp h
  refine Option.isSome_iff_exists.mp (List.find?_isSome.mpr ⟨node, List.mem_reverse.mpr hnode, by simp⟩)

theorem filterMap_byId {ids : List Text} (h : ids ⊆ nodes.map (·.id)) : (ids.filterMap (byId nodes)).map (·.id) = ids := by
  induction ids with
  | nil => rfl
  | cons id rest ih =>
    obtain ⟨node, hnode⟩ := byId_isSome (h List.mem_cons_self)
    rw [List.filterMap_cons_some hnode, List.map_cons, ih fun other hother => h (List.mem_cons_of_mem _ hother), (byId_some hnode).2]

section
variable (hids : (nodes.map (·.id)).Nodup)
include hids

section
variable (hwrites : Writes writtenBy nodes)
include hwrites

section
variable (hconnect : connect writtenBy ⟨fun _ => 0, fun _ => []⟩ nodes = .ok d)
include hconnect

theorem follows_iff (u v : Text) :
    Follows d.dependents (nodes.map (·.id)) u v ↔ ∃ producer consumer, Precedes nodes producer consumer ∧ producer.id = u ∧ consumer.id = v := by
  obtain ⟨-, hedges, hloops⟩ := connect_ok hids hwrites (List.Subset.refl _) (fun v => by rw [incoming_nil]; rfl) hconnect
  rw [Follows, hedges]
  constructor
  · rintro ⟨hu, hnil | ⟨consumer, hconsumer, rfl, producer, hproduces, rfl, hne⟩⟩
    · exact absurd hnil List.not_mem_nil
    · have hfeeds := (produces_feeds hwrites hconsumer).mp hproduces
      refine ⟨producer, consumer, ⟨hfeeds, ?_⟩, rfl, rfl⟩
      rintro ⟨rfl, -⟩
      exact hne rfl
  · rintro ⟨producer, consumer, ⟨hfeeds, hother⟩, rfl, rfl⟩
    have hproduces := (produces_feeds hwrites hfeeds.2.1).mpr hfeeds
    refine ⟨List.mem_map_of_mem hfeeds.1, .inr ⟨consumer, hfeeds.2.1, rfl, producer, hproduces, rfl, fun hid => ?_⟩⟩
    exact hother ⟨eq_of_id hids hfeeds.2.1 hfeeds.1 hid, hloops consumer hfeeds.2.1 producer hproduces hid⟩

theorem cycle_iff :
    (∃ v, TransGen (Follows d.dependents (nodes.map (·.id))) v v) ↔ ∃ node, TransGen (Precedes nodes) node node := by
  have hfollows := follows_iff hids hwrites hconnect
  constructor
  · rintro ⟨v, hcycle⟩
    have hway : ∀ u w, TransGen (Follows d.dependents (nodes.map (·.id))) u w →
        ∃ first last, TransGen (Precedes nodes) first last ∧ first ∈ nodes ∧ last ∈ nodes ∧ first.id = u ∧ last.id = w := by
      intro u w h
      induction h with
      | single hedge =>
        obtain ⟨first, last, hprecedes, rfl, rfl⟩ := (hfollows _ _).mp hedge
        exact ⟨first, last, .single hprecedes, hprecedes.1.1, hprecedes.1.2.1, rfl, rfl⟩
      | tail _ hedge ih =>
        obtain ⟨first, middle, hway, hfirst, hmiddle, rfl, hid⟩ := ih
        obtain ⟨middle', last, hprecedes, rfl, rfl⟩ := (hfollows _ _).mp hedge
        obtain rfl := eq_of_id hids hprecedes.1.1 hmiddle hid
        exact ⟨first, last, hway.tail hprecedes, hfirst, hprecedes.1.2.1, rfl, rfl⟩
    obtain ⟨first, last, hway, hfirst, hlast, rfl, hid⟩ := hway v v hcycle
    obtain rfl := eq_of_id hids hfirst hlast hid
    exact ⟨last, hway⟩
  · rintro ⟨node, hcycle⟩
    exact ⟨node.id, hcycle.lift (·.id) fun producer consumer hprecedes => (hfollows _ _).mpr ⟨producer, consumer, hprecedes, rfl, rfl⟩⟩

theorem linked : Linked d.dependents (nodes.map (·.id)) d.inDegree := by
  obtain ⟨hcounts, hedges, -⟩ := connect_ok hids hwrites (List.Subset.refl _) (fun v => by rw [incoming_nil]; rfl) hconnect
  refine ⟨hids, fun u _ v hv => ?_, fun v _ => hcounts v⟩
  rcases (hedges u v).mp hv with hnil | ⟨node, hnode, rfl, -⟩
  · exact absurd hnil List.not_mem_nil
  · exact List.mem_map_of_mem hnode

end

/-- Nodes with ids of their own are put in an order of the edges, exactly when these have no cycle. -/
theorem topoSort_spec :
    (∀ order, topoSort nodes writtenBy = .ok order → order.Perm nodes ∧ order.Pairwise fun n later => ¬Precedes nodes later n) ∧
      (∀ e, topoSort nodes writtenBy = .error e → e.IsCycle) ∧
      ((∃ e, topoSort nodes writtenBy = .error e) ↔ ∃ node, TransGen (Precedes nodes) node node) := by
  unfold topoSort
  cases hconnect : connect writtenBy ⟨fun _ => 0, fun _ => []⟩ nodes with
  | error e =>
    obtain ⟨hcycle, node, hnode, producer, hproduces, hid, hstateless⟩ := connect_error hconnect
    have hfeeds := (produces_feeds hwrites hnode).mp hproduces
    obtain rfl := eq_of_id hids hnode hfeeds.1 hid
    refine ⟨fun order h => (by cases h), fun e' h => ?_, fun _ => ?_, fun _ => ⟨e, rfl⟩⟩
    · obtain rfl := Except.error.inj h
      exact hcycle
    · exact ⟨producer, .single ⟨hfeeds, fun ⟨_, hop⟩ => hstateless hop⟩⟩
  | ok d =>
    dsimp only
    cases hkahn : kahn d.dependents (2 * nodes.length) d.inDegree ((nodes.map (·.id)).filter (d.inDegree · = 0)) with
    | mk ids left =>
      have hrounds : 2 * (nodes.map (·.id)).length ≤ 2 * nodes.length := by rw [List.length_map]
      obtain ⟨htopological, hsub, hcomplete⟩ := kahn_spec (linked hids hwrites hconnect) hrounds hkahn
      have hsorted := filterMap_byId hsub
      have hlength : (ids.filterMap (byId nodes)).length = ids.length := by
        rw [← List.length_map (f := (·.id)), hsorted]
      have hnodes : ∀ node ∈ ids.filterMap (byId nodes), node ∈ nodes := by
        intro node hnode
        obtain ⟨id, -, hid⟩ := List.mem_filterMap.mp hnode
        exact (byId_some hid).1
      have hcycles := cycle_iff hids hwrites hconnect
      rw [List.length_map, ← hlength] at hcomplete
      by_cases hall : (ids.filterMap (byId nodes)).length = nodes.length
      · rw [if_neg (not_not.mpr hall)]
        have hnodup : (ids.filterMap (byId nodes)).Nodup := List.Nodup.of_map _ (hsorted.symm ▸ htopological.nodup.1)
        refine ⟨fun order h => ?_, fun e h => (by cases h), ⟨fun ⟨e, h⟩ => (by cases h), fun hcycle => ?_⟩⟩
        · obtain rfl := Except.ok.inj h
          refine ⟨(List.subperm_of_subset hnodup hnodes).perm_of_length_le hall.ge, ?_⟩
          have hpairwise := htopological.pairwise
          rw [← hsorted, List.pairwise_map] at hpairwise
          refine hpairwise.imp fun hnot hprecedes => hnot ?_
          exact (follows_iff hids hwrites hconnect _ _).mpr ⟨_, _, hprecedes, rfl, rfl⟩
        · obtain ⟨v, hv⟩ := hcycles.mpr hcycle
          exact absurd hv (hcomplete.mp hall v)
      · rw [if_pos hall]
        refine ⟨fun order h => (by cases h), fun e h => ?_, fun _ => ?_, fun _ => ⟨_, rfl⟩⟩
        · obtain rfl := Except.error.inj h
          trivial
        · rw [← hcycles]
          by_contra hnone
          exact hall (hcomplete.mpr fun v hv => hnone ⟨v, hv⟩)

end

end

/-! ### Cycles -/

def StatelessCycle (nodes : List BlueprintNode) : Prop :=
  ∃ node, TransGen (fun producer consumer => Feeds nodes producer consumer ∧ ¬producer.op.isStateful ∧ ¬consumer.op.isStateful) node node

def StatefulLoop (nodes : List BlueprintNode) : Prop :=
  ∃ node other, node.op.isStateful ∧ other ≠ node ∧ TransGen (Feeds nodes) node other ∧ TransGen (Feeds nodes) other node

theorem precedes_of_feeds (h : TransGen (Feeds nodes) producer consumer) (hne : producer ≠ consumer) :
    TransGen (Precedes nodes) producer consumer := by
  have hway : ∀ last, TransGen (Feeds nodes) producer last → ReflTransGen (Precedes nodes) producer last := by
    intro last h
    have hstep : ∀ a b, Feeds nodes a b → ReflTransGen (Precedes nodes) a b := by
      intro a b hfeeds
      by_cases heq : a = b
      · rw [heq]
      · exact .single ⟨hfeeds, fun hself => heq hself.1⟩
    induction h with
    | single hfeeds => exact hstep _ _ hfeeds
    | tail _ hfeeds ih => exact ih.trans (hstep _ _ hfeeds)
  rcases ReflTransGen.cases_head (hway consumer h) with heq | ⟨next, hfirst, hrest⟩
  · exact absurd heq hne
  · exact .head' hfirst hrest

theorem precedes_cycle_iff : (∃ node, TransGen (Precedes nodes) node node) ↔ StatelessCycle nodes ∨ StatefulLoop nodes := by
  constructor
  · rintro ⟨node, hcycle⟩
    by_cases hloop : StatefulLoop nodes
    · exact .inr hloop
    · have hfeeds : ∀ a b, ReflTransGen (Precedes nodes) a b → ReflTransGen (Feeds nodes) a b :=
        ReflTransGen.mono fun _ _ hprecedes => hprecedes.1
      have hstateless : ∀ a b, Precedes nodes a b → ReflTransGen (Precedes nodes) b a → ¬a.op.isStateful ∧ ¬b.op.isStateful := by
        intro a b hedge hback
        by_cases heq : a = b
        · subst heq
          exact ⟨fun hop => hedge.2 ⟨rfl, hop⟩, fun hop => hedge.2 ⟨rfl, hop⟩⟩
        · have hreturn : TransGen (Feeds nodes) b a := by
            rcases ReflTransGen.cases_head (hfeeds b a hback) with hsame | ⟨next, hfirst, hrest⟩
            · exact absurd hsame.symm heq
            · exact .head' hfirst hrest
          exact ⟨fun hop => hloop ⟨a, b, hop, Ne.symm heq, .single hedge.1, hreturn⟩,
            fun hop => hloop ⟨b, a, hop, heq, hreturn, .single hedge.1⟩⟩
      have hway : ∀ a b, TransGen (Precedes nodes) a b → ReflTransGen (Precedes nodes) b a →
          TransGen (fun producer consumer => Feeds nodes producer consumer ∧ ¬producer.op.isStateful ∧ ¬consumer.op.isStateful) a b := by
        intro a b h
        induction h with
        | single hedge => exact fun hback => .single ⟨hedge.1, hstateless _ _ hedge hback⟩
        | tail hbefore hedge ih =>
          exact fun hback => (ih (.head hedge hback)).tail ⟨hedge.1, hstateless _ _ hedge (hback.trans hbefore.to_reflTransGen)⟩
      exact .inl ⟨node, hway node node hcycle .refl⟩
  · rintro (⟨node, hcycle⟩ | ⟨node, other, -, hne, hway, hback⟩)
    · exact ⟨node, TransGen.mono (fun _ _ hedge => ⟨hedge.1, fun hself => hedge.2.2 hself.2⟩) _ _ hcycle⟩
    · exact ⟨node, (precedes_of_feeds hway hne.symm).trans (precedes_of_feeds hback hne)⟩

structure Validated (definition : BlueprintDefinition) (tagIndex : Text → Option ℕ) (writtenBy : Text → Option BlueprintNode) : Prop where
  tags : definition.tags ≠ []
  names : indexTags (fun _ => none) 0 definition.tags = .ok tagIndex
  nodes : validateNodes tagIndex (fun _ => none) definition.nodes = .ok writtenBy

variable {tagIndex : Text → Option ℕ}

theorem Validated.writes (h : Validated definition tagIndex writtenBy) : Writes writtenBy definition.nodes :=
  (validateNodes_ok writes_nil .nil h.nodes).2.2

theorem Validated.compile (h : Validated definition tagIndex writtenBy) :
    compileBlueprint definition = (topoSort definition.nodes writtenBy).map (emit definition tagIndex) := by
  rw [compileBlueprint, if_neg h.tags, h.names]
  dsimp only
  rw [h.nodes]
  dsimp only
  cases topoSort definition.nodes writtenBy <;> rfl

/-- Feedback is rejected exactly when it is stateless, unless there is feedback of a stateful node through
another one: that is rejected too. -/
theorem feedback_rejected (hids : (definition.nodes.map (·.id)).Nodup) (hvalid : Validated definition tagIndex writtenBy) :
    ((∃ e, compileBlueprint definition = .error e ∧ e.IsCycle) ↔ StatelessCycle definition.nodes) ↔
      (StatefulLoop definition.nodes → StatelessCycle definition.nodes) := by
  obtain ⟨-, hcycle, hrejects⟩ := topoSort_spec hids hvalid.writes
  have herror : (∃ e, compileBlueprint definition = .error e ∧ e.IsCycle) ↔ StatelessCycle definition.nodes ∨ StatefulLoop definition.nodes := by
    rw [← precedes_cycle_iff, ← hrejects, hvalid.compile]
    cases hsort : topoSort definition.nodes writtenBy with
    | error e => simp [Except.map, hcycle e hsort]
    | ok order => simp [Except.map]
  rw [herror]
  tauto

def latchLoop : BlueprintDefinition where
  id := ['p']
  name := ['p']
  tags := [⟨['x'], .input, .bool, none⟩, ⟨['q'], .output, .bool, none⟩, ⟨['r'], .internal, .bool, none⟩]
  nodes := [⟨['1'], .latch, [.tag ['x'], .tag ['r']], ['q'], none⟩, ⟨['2'], .not, [.tag ['q']], ['r'], none⟩]

theorem feedback_rejected_latchLoop :
    ((∃ e, compileBlueprint latchLoop = .error e ∧ e.IsCycle) ↔ StatelessCycle latchLoop.nodes) ↔
      (StatefulLoop latchLoop.nodes → StatelessCycle latchLoop.nodes) :=
  feedback_rejected (by decide) ⟨by decide, rfl, rfl⟩

/-- Feedback through a latch is rejected as combinational. -/
theorem latchLoop_rejected :
    compileBlueprint latchLoop = .error (.cycle [['1'], ['2']]) ∧ StatefulLoop latchLoop.nodes ∧ ¬StatelessCycle latchLoop.nodes := by
  refine ⟨by rfl, ?_, ?_⟩
  · refine ⟨latchLoop.nodes[0], latchLoop.nodes[1], by decide, by decide, .single ?_, .single ?_⟩
    · exact ⟨by decide, by decide, by decide⟩
    · exact ⟨by decide, by decide, by decide⟩
  · rintro ⟨node, hcycle⟩
    obtain ⟨next, ⟨⟨hnode, hnext, hfeeds⟩, hstateless, hstateless'⟩, -⟩ := TransGen.head'_iff.mp hcycle
    have honly : ∀ n ∈ latchLoop.nodes, ¬n.op.isStateful → n.output = ['r'] ∧ n.inputs = [.tag ['q']] := by decide
    rw [(honly node hnode hstateless).1, (honly next hnext hstateless').2] at hfeeds
    exact absurd hfeeds (by decide)

end OxScada.Blueprint
