import Mathlib

/-! Lists whose items have keys of their own. -/

namespace OxScada.Order

variable {α β : Type*} {key : α → β} {l : List α} {x y : α}

theorem key_injective (h : (l.map key).Nodup) (hx : x ∈ l) (hy : y ∈ l) (hsame : key x = key y) : x = y :=
  List.inj_on_of_nodup_map h hx hy hsame

variable [DecidableEq β] {k : β}

theorem find?_key (h : (l.map key).Nodup) : l.find? (fun y => key y = k) = some x ↔ x ∈ l ∧ key x = k := by
  constructor
  · intro hfind
    exact ⟨List.mem_of_find?_eq_some hfind, by simpa using List.find?_some hfind⟩
  · rintro ⟨hx, rfl⟩
    cases hfind : l.find? fun y => key y = key x with
    | none =>
      have := List.find?_eq_none.mp hfind x hx
      simp at this
    | some y =>
      have hsame : key y = key x := by simpa using List.find?_some hfind
      rw [key_injective h (List.mem_of_find?_eq_some hfind) hx hsame]

theorem find?_key_congr {l' : List α} (h : (l.map key).Nodup) (h' : (l'.map key).Nodup) (hsame : ∀ x, key x = k → (x ∈ l' ↔ x ∈ l)) :
    l'.find? (fun y => key y = k) = l.find? (fun y => key y = k) := by
  refine Option.ext fun x => ?_
  rw [find?_key h', find?_key h]
  exact and_congr_left fun hx => hsame x hx

theorem find?_key_none : l.find? (fun y => key y = k) = none ↔ k ∉ l.map key := by simp [List.find?_eq_none]

theorem eraseP_key (h : (l.map key).Nodup) (k : β) : l.eraseP (fun y => key y = k) = l.filter fun y => key y ≠ k := by
  induction l with
  | nil => rfl
  | cons x rest ih =>
    obtain ⟨hnew, hrest⟩ := List.nodup_cons.mp h
    by_cases hx : key x = k
    · have hall : ∀ y ∈ rest, key y ≠ k := by
        intro y hy hsame
        exact hnew (List.mem_map.mpr ⟨y, hy, hsame.trans hx.symm⟩)
      rw [List.eraseP_cons_of_pos (by simpa using hx), List.filter_cons_of_neg (by simpa using hx), List.filter_eq_self.mpr (by simpa using hall)]
    · rw [List.eraseP_cons_of_neg (by simpa using hx), List.filter_cons_of_pos (by simpa using hx), ih hrest]

theorem nodup_eraseP_key (h : (l.map key).Nodup) (k : β) : ((l.eraseP fun y => key y = k).map key).Nodup :=
  h.sublist (List.eraseP_sublist.map key)

theorem length_filter_key (h : (l.map key).Nodup) (hx : x ∈ l) : (l.filter fun y => key y ≠ key x).length = l.length - 1 := by
  rw [← eraseP_key h]
  exact List.length_eraseP_of_mem hx (by simp)

end OxScada.Order
