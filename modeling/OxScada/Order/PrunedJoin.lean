import Mathlib.Data.Set.Finite.Basic
import Mathlib.Order.Preorder.Finite
import Mathlib.Tactic

/-! Partial functions on an ordered set that are joined key by key, and pruned to the keys
that have nothing above them. Pruning before a join does not change the pruned join, so the
pruned join is associative when the operation on the values is. -/

namespace OxScada.Order

section Greater
variable {E : Type*} (le : E → E → Prop) [DecidableRel le]

/-- The greater of two values, and the first one if they tie. -/
def greater (x y : E) : E := if le y x then x else y

variable {le}

theorem greater_of_le {x y : E} (h : le y x) : greater le x y = x := if_pos h

theorem greater_of_not_le {x y : E} (h : ¬ le y x) : greater le x y = y := if_neg h

theorem greater_idem (x : E) : greater le x x = x := ite_self x

theorem greater_comm [Std.Total le] [Std.Antisymm le] (x y : E) : greater le x y = greater le y x := by
  unfold greater
  by_cases hyx : le y x
  · by_cases hxy : le x y
    · rw [if_pos hyx, if_pos hxy]
      exact Std.Antisymm.antisymm x y hxy hyx
    · rw [if_pos hyx, if_neg hxy]
  · rw [if_neg hyx, if_pos ((Std.Total.total x y).resolve_right hyx)]

theorem greater_assoc [Std.Total le] [IsTrans E le] (x y z : E) :
    greater le (greater le x y) z = greater le x (greater le y z) := by
  unfold greater
  by_cases hyx : le y x
  · rw [if_pos hyx]
    by_cases hzy : le z y
    · rw [if_pos hzy, if_pos (IsTrans.trans z y x hzy hyx), if_pos hyx]
    · rw [if_neg hzy]
  · have hxy : le x y := (Std.Total.total x y).resolve_right hyx
    rw [if_neg hyx]
    by_cases hzy : le z y
    · rw [if_pos hzy, if_neg hyx]
    · have hzx : ¬ le z x := fun hzx => hzy (IsTrans.trans z x y hzx hxy)
      rw [if_neg hzy, if_neg hzx]

end Greater

variable {K E : Type*} (op : E → E → E)

def joinAt (A B : K → Option E) (k : K) : Option E := Option.merge op (A k) (B k)

theorem joinAt_comm (hop : ∀ x y, op x y = op y x) (A B : K → Option E) : joinAt op A B = joinAt op B A := by
  have : Std.Commutative op := ⟨hop⟩
  funext k
  exact Std.Commutative.comm (A k) (B k)

theorem joinAt_assoc (hop : ∀ x y z, op (op x y) z = op x (op y z)) (A B C : K → Option E) :
    joinAt op (joinAt op A B) C = joinAt op A (joinAt op B C) := by
  have : Std.Associative op := ⟨hop⟩
  funext k
  exact Std.Associative.assoc (A k) (B k) (C k)

theorem joinAt_self (hop : ∀ x, op x x = x) (A : K → Option E) : joinAt op A A = A := by
  have : Std.IdempotentOp op := ⟨hop⟩
  funext k
  exact Std.IdempotentOp.idempotent (A k)

theorem joinAt_isSome (A B : K → Option E) (k : K) : (joinAt op A B k).isSome ↔ (A k).isSome ∨ (B k).isSome := by
  unfold joinAt
  cases A k <;> cases B k <;> simp [Option.merge]

section Prune
variable [PartialOrder K] {A B C : K → Option E}

def Covered (A : K → Option E) (k : K) : Prop := ∃ k', k < k' ∧ (A k').isSome

open Classical in
/-- Only the keys that have nothing above them keep their value. -/
noncomputable def prune (A : K → Option E) (k : K) : Option E := if Covered A k then none else A k

theorem prune_of_covered {k : K} (h : Covered A k) : prune A k = none := if_pos h

theorem prune_of_not_covered {k : K} (h : ¬ Covered A k) : prune A k = A k := if_neg h

theorem prune_eq_some {k : K} {e : E} : prune A k = some e ↔ ¬ Covered A k ∧ A k = some e := by
  by_cases h : Covered A k
  · rw [prune_of_covered h]
    exact ⟨fun hsome => (by cases hsome), fun hboth => absurd h hboth.1⟩
  · rw [prune_of_not_covered h]
    exact ⟨fun hsome => ⟨h, hsome⟩, fun hboth => hboth.2⟩

theorem prune_isSome {k : K} : (prune A k).isSome ↔ ¬ Covered A k ∧ (A k).isSome := by
  simp only [Option.isSome_iff_exists, prune_eq_some, exists_and_left]

theorem covered_prune (hfinite : {k | (A k).isSome}.Finite) {k : K} (h : Covered A k) : Covered (prune A) k := by
  obtain ⟨k', hk', hsome⟩ := h
  obtain ⟨top, hle, htop⟩ := hfinite.exists_le_maximal hsome
  refine ⟨top, hk'.trans_le hle, prune_isSome.mpr ⟨?_, htop.prop⟩⟩
  rintro ⟨above, habove, hsome'⟩
  exact htop.not_gt hsome' habove

theorem prune_joinAt_prune (hfinite : {k | (A k).isSome}.Finite) :
    prune (joinAt op (prune A) B) = prune (joinAt op A B) := by
  funext k
  have hiff : Covered (joinAt op (prune A) B) k ↔ Covered (joinAt op A B) k := by
    constructor
    · rintro ⟨k', hk', hsome⟩
      refine ⟨k', hk', (joinAt_isSome op A B k').mpr ?_⟩
      rcases (joinAt_isSome op (prune A) B k').mp hsome with hA | hB
      · exact .inl (prune_isSome.mp hA).2
      · exact .inr hB
    · rintro ⟨k', hk', hsome⟩
      rcases (joinAt_isSome op A B k').mp hsome with hA | hB
      · obtain ⟨top, htop, hsome'⟩ := covered_prune hfinite ⟨k', hk', hA⟩
        exact ⟨top, htop, (joinAt_isSome op (prune A) B top).mpr (.inl hsome')⟩
      · exact ⟨k', hk', (joinAt_isSome op (prune A) B k').mpr (.inr hB)⟩
  by_cases hcovered : Covered (joinAt op A B) k
  · rw [prune_of_covered hcovered, prune_of_covered (hiff.mpr hcovered)]
  · have hA : ¬ Covered A k := by
      rintro ⟨k', hk', hsome⟩
      exact hcovered ⟨k', hk', (joinAt_isSome op A B k').mpr (.inl hsome)⟩
    rw [prune_of_not_covered hcovered, prune_of_not_covered (fun h => hcovered (hiff.mp h)), joinAt, joinAt,
      prune_of_not_covered hA]

theorem prune_joinAt_assoc (hcomm : ∀ x y, op x y = op y x) (hassoc : ∀ x y z, op (op x y) z = op x (op y z))
    (hAB : {k | (joinAt op A B k).isSome}.Finite) (hBC : {k | (joinAt op B C k).isSome}.Finite) :
    prune (joinAt op (prune (joinAt op A B)) C) = prune (joinAt op A (prune (joinAt op B C))) := by
  calc prune (joinAt op (prune (joinAt op A B)) C)
      = prune (joinAt op (joinAt op A B) C) := prune_joinAt_prune op hAB
    _ = prune (joinAt op (joinAt op B C) A) := by rw [joinAt_assoc op hassoc, joinAt_comm op hcomm]
    _ = prune (joinAt op (prune (joinAt op B C)) A) := (prune_joinAt_prune op hBC).symm
    _ = prune (joinAt op A (prune (joinAt op B C))) := by rw [joinAt_comm op hcomm]

end Prune

end OxScada.Order
