import Mathlib.Data.List.Perm.Basic
import Mathlib.Logic.Function.Basic
import Mathlib.Tactic

/-! Nodes that compute cells from cells, each with a memory of its own. Nodes that run one after the
other leave the cells as a solution of the equations of all nodes at once, and the solution is
unique, as long as no node reads what a later one computes. -/

namespace OxScada.Order
variable {ν κ ι V S : Type*} [DecidableEq κ] [DecidableEq ι]

/-- What each node writes and remembers under, what it reads, and what it makes of the cells and its memory. -/
structure Network (ν κ ι V S : Type*) where
  out : ν → κ
  key : ν → ι
  reads : ν → List κ
  compute : ν → (κ → V) → S → V × S
  local_ : ∀ n (cells cells' : κ → V), (∀ k ∈ reads n, cells k = cells' k) → compute n cells = compute n cells'

structure Cells (κ ι V S : Type*) where
  value : κ → V
  memory : ι → S

namespace Network
variable (net : Network ν κ ι V S)

def fire (before : Cells κ ι V S) (n : ν) : Cells κ ι V S :=
  let (value, memory) := net.compute n before.value (before.memory (net.key n))
  ⟨Function.update before.value (net.out n) value, Function.update before.memory (net.key n) memory⟩

def sweep (before : Cells κ ι V S) (nodes : List ν) : Cells κ ι V S := nodes.foldl net.fire before

/-- No two nodes share a cell or a memory, and no node reads what a later one writes. -/
def Ordered (nodes : List ν) : Prop :=
  nodes.Pairwise fun n later => net.out n ≠ net.out later ∧ net.key n ≠ net.key later ∧ net.out later ∉ net.reads n

/-- The equations of some nodes: each has computed its cell from the cells as they are after, save that it
saw its own cell as it was before. -/
structure Solves (nodes : List ν) (before after : Cells κ ι V S) : Prop where
  drives : ∀ n ∈ nodes, (after.value (net.out n), after.memory (net.key n)) =
    net.compute n (Function.update after.value (net.out n) (before.value (net.out n))) (before.memory (net.key n))
  keeps : ∀ k, (∀ n ∈ nodes, net.out n ≠ k) → after.value k = before.value k
  remembers : ∀ i, (∀ n ∈ nodes, net.key n ≠ i) → after.memory i = before.memory i

variable {net} {nodes nodes' : List ν} {before after : Cells κ ι V S} {n : ν}

omit [DecidableEq ι] in
theorem Solves.perm (h : net.Solves nodes before after) (hperm : nodes.Perm nodes') : net.Solves nodes' before after where
  drives n hn := h.drives n (hperm.mem_iff.mpr hn)
  keeps k hk := h.keeps k fun n hn => hk n (hperm.mem_iff.mp hn)
  remembers i hi := h.remembers i fun n hn => hi n (hperm.mem_iff.mp hn)

omit [DecidableEq ι] in
theorem compute_before (hreads : ∀ k ∈ net.reads n, k ≠ net.out n → after.value k = before.value k) (memory : S) :
    net.compute n (Function.update after.value (net.out n) (before.value (net.out n))) memory = net.compute n before.value memory := by
  have hsame : ∀ k ∈ net.reads n, Function.update after.value (net.out n) (before.value (net.out n)) k = before.value k := by
    intro k hk
    by_cases hout : k = net.out n
    · rw [hout, Function.update_self]
    · rw [Function.update_of_ne hout]
      exact hreads k hk hout
  rw [net.local_ n _ _ hsame]

theorem fire_value (before : Cells κ ι V S) (n : ν) :
    (net.fire before n).value (net.out n) = (net.compute n before.value (before.memory (net.key n))).1 := Function.update_self ..

theorem fire_memory (before : Cells κ ι V S) (n : ν) :
    (net.fire before n).memory (net.key n) = (net.compute n before.value (before.memory (net.key n))).2 := Function.update_self ..

theorem fire_value_of_ne {k : κ} (h : k ≠ net.out n) : (net.fire before n).value k = before.value k := Function.update_of_ne h ..

theorem fire_memory_of_ne {i : ι} (h : i ≠ net.key n) : (net.fire before n).memory i = before.memory i := Function.update_of_ne h ..

theorem solves_cons {rest : List ν}
    (hfirst : ∀ later ∈ rest, net.out n ≠ net.out later ∧ net.key n ≠ net.key later ∧ net.out later ∉ net.reads n) :
    net.Solves (n :: rest) before after ↔ net.Solves rest (net.fire before n) after := by
  have hlater : ∀ m ∈ rest, net.compute m (Function.update after.value (net.out m) (before.value (net.out m))) (before.memory (net.key m)) =
      net.compute m (Function.update after.value (net.out m) ((net.fire before n).value (net.out m)))
        ((net.fire before n).memory (net.key m)) := by
    intro m hm
    obtain ⟨hout, hkey, -⟩ := hfirst m hm
    rw [fire_value_of_ne hout.symm, fire_memory_of_ne hkey.symm]
  constructor
  · intro h
    have hreads : ∀ k ∈ net.reads n, k ≠ net.out n → after.value k = before.value k := by
      intro k hk hout
      refine h.keeps k (List.forall_mem_cons.mpr ⟨hout.symm, fun m hm heq => ?_⟩)
      exact (hfirst m hm).2.2 (heq ▸ hk)
    have hn := h.drives n List.mem_cons_self
    rw [compute_before hreads] at hn
    refine ⟨fun m hm => ?_, fun k hk => ?_, fun i hi => ?_⟩
    · rw [h.drives m (List.mem_cons_of_mem _ hm), hlater m hm]
    · by_cases hout : k = net.out n
      · rw [hout, fire_value, ← hn]
      · rw [fire_value_of_ne hout]
        exact h.keeps k (List.forall_mem_cons.mpr ⟨Ne.symm hout, hk⟩)
    · by_cases hkey : i = net.key n
      · rw [hkey, fire_memory, ← hn]
      · rw [fire_memory_of_ne hkey]
        exact h.remembers i (List.forall_mem_cons.mpr ⟨Ne.symm hkey, hi⟩)
  · intro h
    have hreads : ∀ k ∈ net.reads n, k ≠ net.out n → after.value k = before.value k := by
      intro k hk hout
      rw [h.keeps k fun m hm heq => (hfirst m hm).2.2 (heq ▸ hk), fire_value_of_ne hout]
    refine ⟨List.forall_mem_cons.mpr ⟨?_, fun m hm => ?_⟩, fun k hk => ?_, fun i hi => ?_⟩
    · have hvalue := h.keeps (net.out n) fun m hm heq => (hfirst m hm).1 heq.symm
      have hmemory := h.remembers (net.key n) fun m hm heq => (hfirst m hm).2.1 heq.symm
      rw [compute_before hreads, hvalue, hmemory, fire_value, fire_memory]
    · rw [h.drives m hm, hlater m hm]
    · obtain ⟨hout, hrest⟩ := List.forall_mem_cons.mp hk
      rw [h.keeps k hrest, fire_value_of_ne hout.symm]
    · obtain ⟨hkey, hrest⟩ := List.forall_mem_cons.mp hi
      rw [h.remembers i hrest, fire_memory_of_ne hkey.symm]

omit [DecidableEq ι] in
theorem solves_nil : net.Solves [] before after ↔ after = before := by
  constructor
  · intro h
    have hvalue : after.value = before.value := funext fun k => h.keeps k (by simp)
    have hmemory : after.memory = before.memory := funext fun i => h.remembers i (by simp)
    cases after
    cases before
    congr
  · rintro rfl
    exact ⟨fun n hn => absurd hn List.not_mem_nil, fun _ _ => rfl, fun _ _ => rfl⟩

theorem solves_iff (hordered : net.Ordered nodes) : net.Solves nodes before after ↔ after = net.sweep before nodes := by
  induction nodes generalizing before with
  | nil => exact solves_nil
  | cons n rest ih =>
    obtain ⟨hfirst, hrest⟩ := List.pairwise_cons.mp hordered
    rw [solves_cons hfirst, ih hrest]
    rfl

theorem sweep_perm (hordered : net.Ordered nodes) (hordered' : net.Ordered nodes') (hperm : nodes.Perm nodes') (before : Cells κ ι V S) :
    net.sweep before nodes = net.sweep before nodes' :=
  (solves_iff hordered').mp (((solves_iff hordered).mpr rfl).perm hperm)

end Network

end OxScada.Order
