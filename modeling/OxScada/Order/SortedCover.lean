import Mathlib.Data.List.Sort
import Mathlib.Tactic

/-! Whether intervals of natural numbers cover a beginning of the numbers without a gap. The
intervals are walked in the order of their starts. -/

namespace OxScada.Order

structure Interval where
  start : ℕ
  stop : ℕ
  deriving DecidableEq

def Interval.Has (i : Interval) (n : ℕ) : Prop := i.start ≤ n ∧ n ≤ i.stop

/-- The last number up to which there is no gap after `covered`, or `none` if a gap is met. -/
def walk : ℕ → List Interval → Option ℕ
  | covered, [] => some covered
  | covered, i :: rest => if covered + 1 < i.start then none else walk (max covered i.stop) rest

def InSome (intervals : List Interval) (n : ℕ) : Prop := ∃ i ∈ intervals, i.Has n

variable {intervals : List Interval} {covered last n : ℕ}

theorem walk_some (h : walk covered intervals = some last) : covered ≤ last ∧ (∀ i ∈ intervals, i.stop ≤ last) ∧
    ∀ n, covered < n → n ≤ last → InSome intervals n := by
  induction intervals generalizing covered with
  | nil =>
    obtain rfl := Option.some.inj h
    exact ⟨le_rfl, fun i hi => absurd hi List.not_mem_nil, fun n hlt hle => absurd hlt hle.not_gt⟩
  | cons i rest ih =>
    rw [walk] at h
    split_ifs at h with hgap
    obtain ⟨hle, hstops, hcovered⟩ := ih h
    refine ⟨(le_max_left _ _).trans hle, List.forall_mem_cons.mpr ⟨(le_max_right _ _).trans hle, hstops⟩, fun n hlt hn => ?_⟩
    by_cases hmax : max covered i.stop < n
    · obtain ⟨j, hj, hhas⟩ := hcovered n hmax hn
      exact ⟨j, List.mem_cons_of_mem _ hj, hhas⟩
    · exact ⟨i, List.mem_cons_self, by omega, by omega⟩

theorem walk_le {bound : ℕ} (hcovered : covered ≤ bound) (hstops : ∀ i ∈ intervals, i.stop ≤ bound)
    (h : walk covered intervals = some last) : last ≤ bound := by
  induction intervals generalizing covered with
  | nil =>
    obtain rfl := Option.some.inj h
    exact hcovered
  | cons i rest ih =>
    rw [walk] at h
    split_ifs at h
    obtain ⟨hfirst, hrest⟩ := List.forall_mem_cons.mp hstops
    exact ih (max_le hcovered hfirst) hrest h

theorem walk_none (hsorted : intervals.Pairwise fun i j => i.start ≤ j.start) (h : walk covered intervals = none) :
    ∃ n, covered < n ∧ (∃ i ∈ intervals, n < i.start) ∧ ¬ InSome intervals n := by
  induction intervals generalizing covered with
  | nil => cases h
  | cons i rest ih =>
    obtain ⟨hfirst, hrest⟩ := List.pairwise_cons.mp hsorted
    rw [walk] at h
    split_ifs at h with hgap
    · refine ⟨covered + 1, Nat.lt_succ_self covered, ⟨i, List.mem_cons_self, hgap⟩, ?_⟩
      rintro ⟨j, hj, hhas⟩
      rcases List.mem_cons.mp hj with rfl | hj
      · exact hgap.not_ge hhas.1
      · exact (hgap.trans_le (hfirst j hj)).not_ge hhas.1
    · obtain ⟨n, hlt, ⟨j, hj, hbefore⟩, hnot⟩ := ih hrest h
      refine ⟨n, (le_max_left _ _).trans_lt hlt, ⟨j, List.mem_cons_of_mem _ hj, hbefore⟩, ?_⟩
      rintro ⟨k, hk, hhas⟩
      rcases List.mem_cons.mp hk with rfl | hk
      · exact ((le_max_right _ _).trans_lt hlt).not_ge hhas.2
      · exact hnot ⟨k, hk, hhas⟩

/-- Sorted intervals cover the numbers up to `last` if and only if the first begins at 0 and the
walk from its end comes to `last`. -/
theorem covers_iff_walk {first : Interval} {rest : List Interval} {last : ℕ}
    (hsorted : (first :: rest).Pairwise fun i j => i.start ≤ j.start) (hinside : ∀ i ∈ first :: rest, i.start ≤ last ∧ i.stop ≤ last) :
    (∀ n ≤ last, InSome (first :: rest) n) ↔ first.start = 0 ∧ walk first.stop rest = some last := by
  obtain ⟨hfirst, hrest⟩ := List.pairwise_cons.mp hsorted
  constructor
  · intro hcovers
    constructor
    · obtain ⟨i, hi, hhas⟩ := hcovers 0 (Nat.zero_le _)
      rcases List.mem_cons.mp hi with rfl | hi
      · exact Nat.le_zero.mp hhas.1
      · exact Nat.le_zero.mp ((hfirst i hi).trans hhas.1)
    · cases hwalk : walk first.stop rest with
      | none =>
        obtain ⟨n, hlt, ⟨i, hi, hbefore⟩, hnot⟩ := walk_none hrest hwalk
        obtain ⟨j, hj, hhas⟩ := hcovers n (hbefore.le.trans (hinside i (List.mem_cons_of_mem _ hi)).1)
        rcases List.mem_cons.mp hj with rfl | hj
        · exact absurd hhas.2 hlt.not_ge
        · exact absurd ⟨j, hj, hhas⟩ hnot
      | some reached =>
        obtain ⟨hle, hstops, -⟩ := walk_some hwalk
        obtain ⟨i, hi, hhas⟩ := hcovers last le_rfl
        have hlast : last ≤ reached := by
          rcases List.mem_cons.mp hi with rfl | hi
          · exact hhas.2.trans hle
          · exact hhas.2.trans (hstops i hi)
        have hreached : reached ≤ last :=
          walk_le (hinside first List.mem_cons_self).2 (fun i hi => (hinside i (List.mem_cons_of_mem _ hi)).2) hwalk
        rw [le_antisymm hreached hlast]
  · rintro ⟨hzero, hwalk⟩ n hn
    obtain ⟨-, -, hcovered⟩ := walk_some hwalk
    by_cases hstop : n ≤ first.stop
    · exact ⟨first, List.mem_cons_self, by omega, hstop⟩
    · obtain ⟨i, hi, hhas⟩ := hcovered n (not_le.mp hstop) hn
      exact ⟨i, List.mem_cons_of_mem _ hi, hhas⟩

end OxScada.Order
