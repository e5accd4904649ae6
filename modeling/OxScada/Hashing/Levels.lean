import Mathlib.Data.Nat.Log
import Mathlib.Tactic

/-! One level of a binary hash tree: neighbours are joined from the left, and the
last entry of a level of odd length has a rule of its own. -/

namespace OxScada.Hashing

section Pairing
variable {α β : Type*} (pair : α → α → β) (lone : α → β)

def pairUp : List α → List β
  | [] => []
  | [a] => [lone a]
  | a :: b :: rest => pair a b :: pairUp rest

theorem pairUp_length (l : List α) : (pairUp pair lone l).length = (l.length + 1) / 2 := by
  induction l using pairUp.induct with
  | case1 | case2 => simp [pairUp]
  | case3 a b rest ih =>
    simp only [pairUp, List.length_cons, ih]
    omega

theorem pairUp_getElem? (l : List α) (i : ℕ) :
    (pairUp pair lone l)[i]? =
      (l[2 * i]?).map fun a => match l[2 * i + 1]? with
        | some b => pair a b
        | none => lone a := by
  induction l using pairUp.induct generalizing i with
  | case1 => simp [pairUp]
  | case2 a =>
    cases i with
    | zero | succ => simp [pairUp]
  | case3 a b rest ih =>
    cases i with
    | zero => simp [pairUp]
    | succ i =>
      have heven : (a :: b :: rest)[2 * (i + 1)]? = rest[2 * i]? := rfl
      have hodd : (a :: b :: rest)[2 * (i + 1) + 1]? = rest[2 * i + 1]? := rfl
      rw [pairUp, List.getElem?_cons_succ, ih, heven, hodd]

variable {i : ℕ} {l : List α}

theorem pairUp_getElem?_pair {a b : α} (ha : l[2 * i]? = some a)
    (hb : l[2 * i + 1]? = some b) : (pairUp pair lone l)[i]? = some (pair a b) := by
  rw [pairUp_getElem?, ha, hb]
  rfl

theorem pairUp_getElem?_lone {a : α} (ha : l[2 * i]? = some a)
    (hb : l[2 * i + 1]? = none) : (pairUp pair lone l)[i]? = some (lone a) := by
  rw [pairUp_getElem?, ha, hb]
  rfl

theorem pairUp_cases {x : β} (h : (pairUp pair lone l)[i]? = some x) :
    ∃ a, l[2 * i]? = some a ∧
      ((∃ b, l[2 * i + 1]? = some b ∧ x = pair a b) ∨ (l[2 * i + 1]? = none ∧ x = lone a)) := by
  rw [pairUp_getElem?] at h
  obtain ⟨a, ha, hx⟩ := Option.map_eq_some_iff.mp h
  refine ⟨a, ha, ?_⟩
  rcases hb : l[2 * i + 1]? with _ | b
  · rw [hb] at hx
    exact .inr ⟨rfl, hx.symm⟩
  · rw [hb] at hx
    exact .inl ⟨b, rfl, hx.symm⟩

theorem forall_mem_pairUp {P : β → Prop} (hpair : ∀ a b, P (pair a b)) (hlone : ∀ a, P (lone a))
    (l : List α) : ∀ x ∈ pairUp pair lone l, P x := by
  intro x hx
  obtain ⟨i, hi⟩ := List.mem_iff_getElem?.mp hx
  obtain ⟨a, -, ⟨b, -, rfl⟩ | ⟨-, rfl⟩⟩ := pairUp_cases _ _ hi
  · exact hpair a b
  · exact hlone a

theorem pairUp_congr {pair' : α → α → β} {lone' : α → β}
    (hpair : ∀ a ∈ l, ∀ b ∈ l, pair a b = pair' a b) (hlone : ∀ a ∈ l, lone a = lone' a) :
    pairUp pair lone l = pairUp pair' lone' l := by
  induction l using pairUp.induct with
  | case1 => rfl
  | case2 a => rw [pairUp, pairUp, hlone a (by simp)]
  | case3 a b rest ih =>
    rw [pairUp, pairUp, hpair a (by simp) b (by simp),
      ih (fun x hx y hy => hpair x (by simp [hx]) y (by simp [hy])) fun x hx => hlone x (by simp [hx])]

end Pairing

/-! ### Heights -/

theorem clog_halve {m : ℕ} (h : 2 ≤ m) : Nat.clog 2 m = Nat.clog 2 ((m + 1) / 2) + 1 := by
  rw [Nat.clog_of_two_le (by norm_num) h]
  rfl

theorem levels_induction {α : Type*} (pair : α → α → α) (lone : α → α)
    {motive : List α → Prop} (single : ∀ a, motive [a])
    (level : ∀ l, 2 ≤ l.length → motive (pairUp pair lone l) → motive l) :
    ∀ l, l ≠ [] → motive l := by
  intro l
  induction hn : l.length using Nat.strong_induction_on generalizing l with
  | _ n ih =>
    intro hne
    match l, hne with
    | [a], _ => exact single a
    | a :: b :: rest, _ =>
      have hlen := pairUp_length pair lone (a :: b :: rest)
      simp only [List.length_cons] at hn hlen
      refine level _ (by simp) (ih _ (by omega) _ rfl ?_)
      intro hnil
      rw [hnil, List.length_nil] at hlen
      omega

end OxScada.Hashing
