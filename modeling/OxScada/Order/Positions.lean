import Mathlib.Data.List.Basic
import Mathlib.Tactic

/-! Lists by the positions of their items. -/

namespace OxScada.Order
variable {α : Type*} {l : List α} {x y : α} {i : ℕ}

theorem getElem?_snoc : (l ++ [x])[i]? = some y ↔ l[i]? = some y ∨ i = l.length ∧ y = x := by
  rw [List.getElem?_append]
  split_ifs with hlt
  · refine ⟨.inl, ?_⟩
    rintro (hold | ⟨rfl, -⟩)
    · exact hold
    · exact absurd hlt (lt_irrefl _)
  · have hnone : l[i]? = none := List.getElem?_eq_none (not_lt.mp hlt)
    rw [hnone]
    rcases Nat.eq_or_lt_of_le (not_lt.mp hlt) with heq | hgt
    · subst heq
      simp [eq_comm]
    · have hpos : i - l.length ≠ 0 := by omega
      simp [hgt.ne', hpos]

theorem getElem?_modify_some {f : α → α} {j : ℕ} (h : (l.modify j f)[i]? = some y) : ∃ x, l[i]? = some x ∧ y = if j = i then f x else x := by
  rw [List.getElem?_modify] at h
  obtain ⟨x, hx, rfl⟩ := Option.map_eq_some_iff.mp h
  exact ⟨x, hx, rfl⟩

end OxScada.Order
