import Mathlib.Order.RelClasses
import Mathlib.Tactic

/-! Comparators as sorting relies on them, and comparators that are tried one after another. -/

namespace OxScada.Js

variable {α β : Type*} {compare first next : α → α → ℤ} {x y : α}

structure Compares (compare : α → α → ℤ) : Prop where
  swap : ∀ x y, compare x y < 0 ↔ 0 < compare y x
  trans : ∀ x y z, compare x y ≤ 0 → compare y z ≤ 0 → compare x z ≤ 0

def Distinguishes (compare : α → α → ℤ) : Prop := ∀ x y, compare x y = 0 → x = y

def thenBy (first next : α → α → ℤ) (x y : α) : ℤ := if first x y ≠ 0 then first x y else next x y

def Sorts (compare : α → α → ℤ) (x y : α) : Prop := compare x y ≤ 0

instance (compare : α → α → ℤ) : DecidableRel (Sorts compare) := fun x y => inferInstanceAs (Decidable (compare x y ≤ 0))

section
variable (h : Compares compare)
include h

theorem Compares.eq_zero_comm : compare x y = 0 ↔ compare y x = 0 := by
  have hxy := h.swap x y
  have hyx := h.swap y x
  omega

theorem Compares.self (x : α) : compare x x = 0 := by
  have hxx := h.swap x x
  omega

theorem Compares.total : Std.Total (Sorts compare) := by
  refine ⟨fun x y => ?_⟩
  have hyx := h.swap y x
  unfold Sorts
  omega

theorem Compares.isTrans : IsTrans α (Sorts compare) := ⟨h.trans⟩

theorem Compares.antisymm (hdistinct : Distinguishes compare) : Std.Antisymm (Sorts compare) := by
  refine ⟨fun x y hxy hyx => hdistinct x y ?_⟩
  have hswap := h.swap x y
  unfold Sorts at hxy hyx
  omega

theorem Compares.comap (f : β → α) : Compares fun x y => compare (f x) (f y) :=
  ⟨fun x y => h.swap (f x) (f y), fun x y z => h.trans (f x) (f y) (f z)⟩

end

theorem Compares.sub (f : α → ℤ) : Compares fun x y => f x - f y := by
  refine ⟨fun x y => ?_, fun x y z hxy hyz => ?_⟩
  · omega
  · omega

theorem Compares.lt_trans (h : Compares compare) {z : α} (hxy : compare x y ≤ 0) (hyz : compare y z ≤ 0) (hne : compare x y ≠ 0 ∨ compare y z ≠ 0) :
    compare x z < 0 := by
  have hle := h.trans x y z hxy hyz
  by_contra hge
  -- if the ends were equal, so would be what is between them
  have hzx : compare z x ≤ 0 := (h.eq_zero_comm.mp (hle.antisymm (not_lt.mp hge))).le
  have hyx := h.trans y z x hyz hzx
  have hzy := h.trans z x y hzx hxy
  have hswap := h.swap y x
  have hswap' := h.swap z y
  have hcases := h.swap x y
  have hcases' := h.swap y z
  omega

theorem Compares.thenBy (hfirst : Compares first) (hnext : Compares next) : Compares (thenBy first next) := by
  refine ⟨fun x y => ?_, fun x y z hxy hyz => ?_⟩
  · have hzero := hfirst.eq_zero_comm (x := x) (y := y)
    have hswap := hfirst.swap x y
    have hswap' := hnext.swap x y
    unfold Js.thenBy
    split_ifs <;> omega
  · unfold Js.thenBy at hxy hyz ⊢
    have hxy' : first x y ≤ 0 := by
      split_ifs at hxy <;> omega
    have hyz' : first y z ≤ 0 := by
      split_ifs at hyz <;> omega
    by_cases hne : first x y ≠ 0 ∨ first y z ≠ 0
    · have hlt := hfirst.lt_trans hxy' hyz' hne
      rw [if_pos hlt.ne]
      exact hlt.le
    · rw [not_or, not_not, not_not] at hne
      rw [if_neg (not_not.mpr hne.1)] at hxy
      rw [if_neg (not_not.mpr hne.2)] at hyz
      have hle := hfirst.trans x y z hne.1.le hne.2.le
      split_ifs
      · exact hle
      · exact hnext.trans x y z hxy hyz

theorem thenBy_eq_zero : thenBy first next x y = 0 ↔ first x y = 0 ∧ next x y = 0 := by
  unfold thenBy
  split_ifs with h
  · exact ⟨fun h' => absurd h' h, fun h' => h'.1⟩
  · exact ⟨fun h' => ⟨not_not.mp h, h'⟩, fun h' => h'.2⟩

def orderCompare [LinearOrder α] (x y : α) : ℤ := if x < y then -1 else if y < x then 1 else 0

theorem compares_orderCompare [LinearOrder α] : Compares (orderCompare (α := α)) := by
  have hle : ∀ x y : α, orderCompare x y ≤ 0 ↔ x ≤ y := by
    intro x y
    unfold orderCompare
    split_ifs with hlt hgt
    · exact iff_of_true (by decide) hlt.le
    · exact iff_of_false (by decide) hgt.not_ge
    · exact iff_of_true (by decide) (not_lt.mp hgt)
  have hpos : ∀ x y : α, 0 < orderCompare y x ↔ x < y := by
    intro x y
    rw [← not_le, hle, not_le]
  refine ⟨fun x y => ?_, fun x y z hxy hyz => ?_⟩
  · rw [hpos]
    unfold orderCompare
    split_ifs with hlt hgt
    · exact iff_of_true (by decide) hlt
    · exact iff_of_false (by decide) hlt
    · exact iff_of_false (by decide) hlt
  · rw [hle] at hxy hyz ⊢
    exact hxy.trans hyz

end OxScada.Js
