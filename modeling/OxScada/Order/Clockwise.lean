import Mathlib.Order.RelClasses
import Mathlib.Tactic

/-! The first point at or after a target on a circle, and the binary search that finds it. A point that comes or
goes moves the targets of which it is the first, and no others. -/

namespace OxScada.Order

/-! ### The first of a set -/

section First
variable {α : Type*} {r : α → α → Prop} {s t : Set α} {x y : α}

def First (r : α → α → Prop) (s : Set α) (x : α) : Prop := x ∈ s ∧ ∀ y ∈ s, r x y

theorem First.unique [Std.Antisymm r] (hx : First r s x) (hy : First r s y) : x = y :=
  Std.Antisymm.antisymm x y (hx.2 y hy.1) (hy.2 x hx.1)

theorem First.of_subset (h : First r s x) (hts : t ⊆ s) (hx : x ∈ t) : First r t x := ⟨hx, fun y hy => h.2 y (hts hy)⟩

theorem First.of_union (h : First r (s ∪ t) x) : x ∈ t ∨ First r s x := by
  rcases h.1 with hs | ht
  · exact .inr (h.of_subset Set.subset_union_left hs)
  · exact .inl ht

end First

/-! ### The circle -/

section Clockwise
variable {α κ : Type*} [LinearOrder κ] {r : α → α → Prop} {key : α → κ} {target : κ}

def Clockwise (r : α → α → Prop) (key : α → κ) (target : κ) (x y : α) : Prop :=
  target ≤ key x ∧ key y < target ∨ (target ≤ key x ↔ target ≤ key y) ∧ r x y

theorem Clockwise.antisymm [Std.Antisymm r] {x y : α} (h : Clockwise r key target x y) (h' : Clockwise r key target y x) : x = y := by
  rcases h with ⟨hx, hy⟩ | ⟨hsame, hxy⟩
  · rcases h' with ⟨hy', -⟩ | ⟨hsame, -⟩
    · exact absurd hy' hy.not_ge
    · exact absurd (hsame.mpr hx) hy.not_ge
  · rcases h' with ⟨hy, hx⟩ | ⟨-, hyx⟩
    · exact absurd (hsame.mpr hy) hx.not_ge
    · exact Std.Antisymm.antisymm x y hxy hyx

instance [Std.Antisymm r] : Std.Antisymm (Clockwise r key target) := ⟨fun _ _ => Clockwise.antisymm⟩

end Clockwise

/-! ### The binary search -/

def lowerBound (below : ℕ → Bool) : ℕ → ℕ → ℕ → ℕ
  | 0, low, _ => low
  | fuel + 1, low, high =>
    if low < high then
      if below ((low + high) / 2) then lowerBound below fuel ((low + high) / 2 + 1) high
      else lowerBound below fuel low ((low + high) / 2)
    else low

theorem lowerBound_spec {below : ℕ → Bool} {n fuel low high : ℕ} (hmono : ∀ i j, i ≤ j → j < n → below j = true → below i = true)
    (hlow : low ≤ high) (hhigh : high ≤ n) (hfuel : high ≤ low + fuel) (hbefore : ∀ i < low, below i = true)
    (hafter : ∀ i, high ≤ i → i < n → below i = false) :
    lowerBound below fuel low high ≤ n ∧ (∀ i < lowerBound below fuel low high, below i = true) ∧
      ∀ i, lowerBound below fuel low high ≤ i → i < n → below i = false := by
  induction fuel generalizing low high with
  | zero =>
    have hsame : low = high := by omega
    rw [lowerBound]
    exact ⟨hlow.trans hhigh, hbefore, by rwa [hsame]⟩
  | succ fuel ih =>
    rw [lowerBound]
    split_ifs with hopen hmiddle
    · refine ih (by omega) hhigh (by omega) (fun i hi => ?_) hafter
      exact hmono i _ (by omega) (by omega) hmiddle
    · refine ih (by omega) (by omega) (by omega) hbefore fun i hi hn => ?_
      -- a place after the middle that were below would make the middle below
      by_contra hbelow
      exact hmiddle (hmono _ i hi hn (by simpa using hbelow))
    · have hsame : low = high := by omega
      exact ⟨hlow.trans hhigh, hbefore, by rwa [hsame]⟩

section Search
variable {α κ : Type*} [LinearOrder κ] {r : α → α → Prop} {key : α → κ} {target : κ} {points : List α}

theorem exists_lowerBound (target : κ) (hsorted : points.Pairwise r) (hkey : ∀ x y, r x y → key x ≤ key y) :
    ∃ low, lowerBound (fun i => points[i]?.any fun x => key x < target) points.length 0 points.length = low ∧ low ≤ points.length ∧
      (∀ x ∈ points.take low, key x < target) ∧ ∀ x ∈ points.drop low, target ≤ key x := by
  have hmono : ∀ i j, i ≤ j → j < points.length → (points[j]?.any fun x => key x < target) = true → (points[i]?.any fun x => key x < target) = true := by
    intro i j hij hj hbelow
    have hi : i < points.length := hij.trans_lt hj
    rw [List.getElem?_eq_getElem hj] at hbelow
    rw [List.getElem?_eq_getElem hi]
    have hlt : key points[j] < target := by simpa using hbelow
    rcases hij.eq_or_lt with rfl | hij
    · simpa using hlt
    · have hle := hkey _ _ (List.pairwise_iff_getElem.mp hsorted i j hi hj hij)
      simpa using hle.trans_lt hlt
  obtain ⟨hle, hbefore, hafter⟩ := lowerBound_spec hmono (Nat.zero_le _) le_rfl (Nat.le_add_left points.length 0) (by simp)
    (fun i hi hi' => absurd hi hi'.not_ge)
  refine ⟨_, rfl, hle, fun x hx => ?_, fun x hx => ?_⟩
  · obtain ⟨i, hi, rfl⟩ := List.mem_take_iff_getElem.mp hx
    have hbelow := hbefore i (lt_of_lt_of_le hi (min_le_left _ _))
    rw [List.getElem?_eq_getElem] at hbelow
    simpa using hbelow
  · obtain ⟨i, hi, rfl⟩ := List.mem_drop_iff_getElem.mp hx
    have hi' : lowerBound _ points.length 0 points.length + i < points.length := (Nat.add_comm _ _).trans_lt hi
    have hbelow := hafter _ (Nat.le_add_right _ i) hi'
    rw [List.getElem?_eq_getElem hi'] at hbelow
    simpa using hbelow

theorem first_of_search [Std.Refl r] (hsorted : points.Pairwise r) (hkey : ∀ x y, r x y → key x ≤ key y) {x : α} {low : ℕ}
    (hlow : lowerBound (fun i => points[i]?.any fun x => key x < target) points.length 0 points.length = low)
    (hx : points[if low = points.length then 0 else low]? = some x) : First (Clockwise r key target) {y | y ∈ points} x := by
  obtain ⟨low', hlow', hle, hbefore, hafter⟩ := exists_lowerBound target hsorted hkey
  obtain rfl : low' = low := hlow'.symm.trans hlow
  refine ⟨List.mem_of_getElem? hx, fun y hy => ?_⟩
  have hr : ∀ {ys : List α}, ys.Pairwise r → ys[0]? = some x → ∀ y ∈ ys, r x y := by
    intro ys hys hhead y hy
    cases ys with
    | nil => cases hy
    | cons first rest =>
      obtain rfl : first = x := by simpa using hhead
      rcases List.mem_cons.mp hy with rfl | hy
      · exact Std.Refl.refl y
      · exact (List.pairwise_cons.mp hys).1 y hy
  split_ifs at hx with hend
  · -- every point is before the target
    rw [hend, List.take_length] at hbefore
    have hxt := hbefore x (List.mem_of_getElem? hx)
    have hyt := hbefore y hy
    exact .inr ⟨iff_of_false hxt.not_ge hyt.not_ge, hr hsorted hx y hy⟩
  · have hhead : (points.drop low')[0]? = some x := by rw [List.getElem?_drop, Nat.add_zero, hx]
    have hxt := hafter x (List.mem_of_getElem? hhead)
    have hsplit : y ∈ points.take low' ++ points.drop low' := by rwa [List.take_append_drop]
    rcases List.mem_append.mp hsplit with hy | hy
    · exact .inl ⟨hxt, hbefore y hy⟩
    · exact .inr ⟨iff_of_true hxt (hafter y hy), hr (hsorted.sublist (List.drop_sublist _ _)) hhead y hy⟩

end Search

end OxScada.Order
