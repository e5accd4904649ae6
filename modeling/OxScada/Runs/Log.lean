import Mathlib.Data.List.Chain
import Mathlib.Data.List.Range
import Mathlib.Tactic

/-! Logs that grow at the head. An entry is logged when the entries before it had a property, entries
that rise are in order until one wraps, and entries that are numbered from each reset on, modulo `n`,
are counted. -/

namespace OxScada.Runs
variable {ε : Type*}

section Entries
variable {P Q : List ε → Prop} {e x : ε} {log : List ε}

def LoggedWhen (P : List ε → Prop) (e : ε) (log : List ε) : Prop := ∃ newer older, log = newer ++ e :: older ∧ P older

theorem LoggedWhen.here (h : P log) : LoggedWhen P e (e :: log) := ⟨[], log, rfl, h⟩

theorem LoggedWhen.cons (h : LoggedWhen P e log) (x : ε) : LoggedWhen P e (x :: log) := by
  obtain ⟨newer, older, rfl, hP⟩ := h
  exact ⟨x :: newer, older, rfl, hP⟩

end Entries

/-! ### Entries that rise, or wrap -/

section Rising
variable {rises wraps : ε → ε → Prop}

/-- Entries that each rise or wrap, newest first, have risen from the first to the last, unless one of
them has wrapped. -/
theorem risen_or_wrapped [IsTrans ε rises] {first last : ε} {between : List ε}
    (h : List.IsChain (fun newer older => rises older newer ∨ wraps older newer) (last :: (between ++ [first]))) :
    rises first last ∨ ∃ after newer older before, last :: (between ++ [first]) = after ++ newer :: older :: before ∧ wraps older newer := by
  induction between generalizing last with
  | nil =>
    have hstep : rises first last ∨ wraps first last := (List.isChain_cons_cons.mp h).1
    exact hstep.imp id fun hwrap => ⟨[], last, first, [], rfl, hwrap⟩
  | cons x between ih =>
    obtain ⟨hstep, hrest⟩ := List.isChain_cons_cons.mp h
    rcases hstep with hrise | hwrap
    · rcases ih hrest with hrisen | ⟨after, newer, older, before, heq, hwrap⟩
      · exact .inl (IsTrans.trans first x last hrisen hrise)
      · exact .inr ⟨last :: after, newer, older, before, congrArg (last :: ·) heq, hwrap⟩
    · exact .inr ⟨[], last, x, between ++ [first], rfl, hwrap⟩

end Rising

/-! ### Numbers that start again -/

section Counting
variable (resets : ε → Bool) (number : ε → ℕ) (n : ℕ)

def Follows (x y : ε) : Prop := number y = if resets y = true then 0 else (number x + 1) % n

/-- Entries, newest first, each of them numbered after the one before it, the first of all with 0. -/
inductive Counted : List ε → Prop
  | nil : Counted []
  | first {x : ε} (h : number x = 0) : Counted [x]
  | next {x y : ε} {older : List ε} (h : Follows resets number n x y) (hcounted : Counted (x :: older)) : Counted (y :: x :: older)

variable {resets number n}

variable {older : List ε} {x : ε}

theorem Counted.cons (h : Counted resets number n older)
    (hx : ∀ y, older.head? = some y → Follows resets number n y x) (hfirst : older = [] → number x = 0) :
    Counted resets number n (x :: older) := by
  cases older with
  | nil => exact .first (hfirst rfl)
  | cons y older => exact .next (hx y rfl) h

theorem Counted.reset (h : Counted resets number n older) (hreset : resets x = true) (hzero : number x = 0) :
    Counted resets number n (x :: older) := by
  refine h.cons (fun y _ => ?_) fun _ => hzero
  rw [Follows, if_pos hreset, hzero]

theorem Counted.tail (newer : List ε) (h : Counted resets number n (newer ++ older)) : Counted resets number n older := by
  induction newer with
  | nil => exact h
  | cons x newer ih =>
    refine ih ?_
    rw [List.cons_append] at h
    generalize newer ++ older = rest at h ⊢
    cases h with
    | first => exact .nil
    | next _ hcounted => exact hcounted

theorem Counted.reset_zero (h : Counted resets number n (x :: older)) (hreset : resets x = true) : number x = 0 := by
  cases h with
  | first hzero => exact hzero
  | next hfollows => rw [hfollows, if_pos hreset]

theorem Counted.run {start : ε} {run : List ε} (h : Counted resets number n (run.reverse ++ start :: older))
    (hstart : resets start = true) (hrun : ∀ x ∈ run, resets x = false) :
    (start :: run).map number = (List.range (run.length + 1)).map (· % n) := by
  induction run using List.reverseRecOn with
  | nil => simp [h.reset_zero hstart]
  | append_singleton run x ih =>
    rw [List.reverse_append, List.reverse_singleton, List.singleton_append, List.cons_append] at h
    have hcounted : Counted resets number n (run.reverse ++ start :: older) := h.tail [x]
    have hbefore := ih hcounted fun y hy => hrun y (List.mem_append_left _ hy)
    have hx : resets x = false := hrun x (List.mem_append_right _ (List.mem_singleton_self x))
    obtain ⟨y, hlast, hfollows⟩ : ∃ y, (start :: run).getLast? = some y ∧ Follows resets number n y x := by
      cases run using List.reverseRecOn with
      | nil =>
        cases h with
        | next hfollows _ => exact ⟨start, rfl, hfollows⟩
      | append_singleton run y =>
        rw [List.reverse_append, List.reverse_singleton, List.singleton_append, List.cons_append] at h
        cases h with
        | next hfollows _ => exact ⟨y, List.getLast?_concat (l := start :: run), hfollows⟩
    have hy : number y = run.length % n := by
      have hlast' : ((start :: run).map number).getLast? = some (number y) := by rw [List.getLast?_map, hlast, Option.map_some]
      rw [hbefore, List.getLast?_map, List.getLast?_range] at hlast'
      simpa using hlast'.symm
    have hnumber : number x = (run.length + 1) % n := by
      rw [hfollows, if_neg (by simp [hx]), hy, Nat.mod_add_mod]
    calc (start :: (run ++ [x])).map number = (start :: run).map number ++ [number x] := by simp
      _ = (List.range (run.length + 1)).map (· % n) ++ [(run.length + 1) % n] := by rw [hbefore, hnumber]
      _ = (List.range ((run ++ [x]).length + 1)).map (· % n) := by
        have hrange : List.range (run.length + 1 + 1) = List.range (run.length + 1) ++ [run.length + 1] := List.range_succ
        rw [List.length_append, List.length_singleton, hrange, List.map_append, List.map_singleton]

end Counting

end OxScada.Runs
