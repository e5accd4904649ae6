import Mathlib.Data.List.Sort
import Mathlib.Tactic

/-! Stable sorting. Entries that are equal for the order keep their places among each other, and a sorted list is
known by its classes of equal entries. A list that is dealt into parts and put together again is known in the same
way. -/

namespace OxScada.Order

variable {α ι : Type*} {r : α → α → Prop} {l l' : List α}

def Tied (r : α → α → Prop) (x y : α) : Prop := r x y ∧ r y x

instance [DecidableRel r] : DecidableRel (Tied r) := fun x y => inferInstanceAs (Decidable (r x y ∧ r y x))

theorem eq_of_tied [DecidableRel r] [Std.Refl r] (hl : l.Pairwise r) (hl' : l'.Pairwise r) (hperm : l.Perm l')
    (hclasses : ∀ x ∈ l, l.filter (fun y => Tied r x y) = l'.filter fun y => Tied r x y) : l = l' := by
  induction l generalizing l' with
  | nil => exact hperm.nil_eq
  | cons a rest ih =>
    cases l' with
    | nil => exact absurd hperm.symm.nil_eq (by simp)
    | cons b rest' =>
      obtain ⟨ha, hrest⟩ := List.pairwise_cons.mp hl
      obtain ⟨hb, hrest'⟩ := List.pairwise_cons.mp hl'
      -- the first entries are equal for the order, and both are the first of their class
      have htied : Tied r a b := by
        have hab : ∀ x ∈ a :: rest, r a x := List.forall_mem_cons.mpr ⟨Std.Refl.refl a, ha⟩
        have hba : ∀ x ∈ b :: rest', r b x := List.forall_mem_cons.mpr ⟨Std.Refl.refl b, hb⟩
        exact ⟨hab b (hperm.mem_iff.mpr List.mem_cons_self), hba a (hperm.mem_iff.mp List.mem_cons_self)⟩
      have hself : Tied r a a := ⟨Std.Refl.refl a, Std.Refl.refl a⟩
      have hfirst := hclasses a List.mem_cons_self
      rw [List.filter_cons_of_pos (by simpa using hself), List.filter_cons_of_pos (by simpa using htied)] at hfirst
      obtain ⟨rfl, -⟩ := List.cons.inj hfirst
      have hperm' : rest.Perm rest' := hperm.cons_inv
      rw [ih hrest hrest' hperm' fun x hx => ?_]
      have hclass := hclasses x (List.mem_cons_of_mem a hx)
      rw [List.filter_cons, List.filter_cons] at hclass
      split_ifs at hclass
      · exact (List.cons.inj hclass).2
      · exact hclass

theorem insertionSort_filter [DecidableRel r] {p : α → Bool} (hp : ∀ x ∈ l, ∀ y ∈ l, p x = true → p y = true → r x y) : (l.insertionSort r).filter p = l.filter p := by
  have hclass : (l.filter p).Pairwise r := by
    refine List.pairwise_of_forall_mem_list fun x hx y hy => ?_
    exact hp x (List.mem_of_mem_filter hx) y (List.mem_of_mem_filter hy) (List.of_mem_filter hx) (List.of_mem_filter hy)
  have hsublist : (l.filter p).Sublist ((l.insertionSort r).filter p) := by
    have hkept := (List.sublist_insertionSort hclass List.filter_sublist).filter p
    rwa [List.filter_filter, show (fun a => p a && p a) = p from funext fun a => Bool.and_self _] at hkept
  exact (hsublist.eq_of_length (((List.perm_insertionSort r l).filter p).length_eq).symm).symm

theorem insertionSort_class [DecidableRel r] [IsTrans α r] (x : α) (l : List α) : (l.insertionSort r).filter (fun y => Tied r x y) = l.filter fun y => Tied r x y := by
  refine insertionSort_filter fun y _ z _ hy hz => ?_
  have hy' : Tied r x y := by simpa using hy
  have hz' : Tied r x z := by simpa using hz
  exact IsTrans.trans y x z hy'.2 hz'.1

variable [DecidableRel r] [Std.Total r] [IsTrans α r]

theorem filter_insertionSort (p : α → Bool) (l : List α) : (l.insertionSort r).filter p = (l.filter p).insertionSort r := by
  have hperm : ((l.insertionSort r).filter p).Perm ((l.filter p).insertionSort r) :=
    ((List.perm_insertionSort r l).filter p).trans (List.perm_insertionSort r _).symm
  refine eq_of_tied ((List.pairwise_insertionSort r l).filter p) (List.pairwise_insertionSort r _) hperm fun x _ => ?_
  rw [insertionSort_class, List.filter_comm, insertionSort_class, List.filter_comm]

theorem insertionSort_eq_iff (hperm : l.Perm l') :
    l.insertionSort r = l'.insertionSort r ↔ ∀ x ∈ l, l.filter (fun y => Tied r x y) = l'.filter fun y => Tied r x y := by
  constructor
  · intro hsame x _
    rw [← insertionSort_class x l, hsame, insertionSort_class]
  · intro hclasses
    refine eq_of_tied (List.pairwise_insertionSort r l) (List.pairwise_insertionSort r l') ?_ fun x hx => ?_
    · exact (List.perm_insertionSort r l).trans (hperm.trans (List.perm_insertionSort r l').symm)
    · rw [insertionSort_class, insertionSort_class]
      exact hclasses x ((List.mem_insertionSort r).mp hx)

/-! ### Parts -/

section Parts
variable [DecidableEq ι] {part : α → ι} {parts : List ι}

def dealt (part : α → ι) (parts : List ι) (l : List α) : List α := parts.flatMap fun i => l.filter fun x => part x = i

theorem dealt_filter (p : α → Bool) (l : List α) : (dealt part parts l).filter p = dealt part parts (l.filter p) := by
  unfold dealt
  rw [List.filter_flatMap]
  refine List.flatMap_congr fun i _ => ?_
  rw [List.filter_filter, List.filter_filter]
  simp [Bool.and_comm]

theorem mem_dealt {x : α} : x ∈ dealt part parts l ↔ x ∈ l ∧ part x ∈ parts := by
  unfold dealt
  simp [List.mem_flatMap, List.mem_filter, and_comm]

theorem dealt_perm (hparts : parts.Nodup) (hl : ∀ x ∈ l, part x ∈ parts) : (dealt part parts l).Perm l := by
  induction parts generalizing l with
  | nil =>
    have hnil : l = [] := List.eq_nil_iff_forall_not_mem.mpr fun x hx => absurd (hl x hx) List.not_mem_nil
    rw [hnil]
    exact .refl []
  | cons i later ih =>
    obtain ⟨hnew, hlater⟩ := List.nodup_cons.mp hparts
    -- the entries of the other parts are dealt as if those of the first part were not there
    have hrest : dealt part later l = dealt part later (l.filter fun x => ¬ part x = i) := by
      unfold dealt
      refine List.flatMap_congr fun j hj => ?_
      rw [List.filter_filter]
      refine List.filter_congr fun x _ => ?_
      have hne : j ≠ i := fun hsame => hnew (hsame ▸ hj)
      by_cases hx : part x = j
      · simp [hx, hne]
      · simp [hx]
    have hperm := ih (l := l.filter fun x => ¬ part x = i) hlater fun x hx => by
      obtain ⟨hx, hother⟩ := List.mem_filter.mp hx
      exact (List.mem_cons.mp (hl x hx)).resolve_left (by simpa using hother)
    show (l.filter (fun x => part x = i) ++ dealt part later l).Perm l
    rw [hrest]
    exact (hperm.append_left _).trans (by simpa using List.filter_append_perm (fun x => decide (part x = i)) l)

theorem dealt_eq_nil (hl : ∀ x ∈ l, part x ∉ parts) : dealt part parts l = [] :=
  List.eq_nil_iff_forall_not_mem.mpr fun x hx => hl x (mem_dealt.mp hx).1 (mem_dealt.mp hx).2

theorem dealt_one {i : ι} (hparts : parts.Nodup) (hi : i ∈ parts) (hl : ∀ x ∈ l, part x = i) : dealt part parts l = l := by
  induction parts with
  | nil => cases hi
  | cons j later ih =>
    obtain ⟨hnew, hlater⟩ := List.nodup_cons.mp hparts
    show l.filter (fun x => part x = j) ++ dealt part later l = l
    rcases List.mem_cons.mp hi with rfl | hi
    · have hall : l.filter (fun x => part x = i) = l := List.filter_eq_self.mpr fun x hx => decide_eq_true (hl x hx)
      rw [hall, dealt_eq_nil fun x hx => hl x hx ▸ hnew, List.append_nil]
    · have hnone : l.filter (fun x => part x = j) = [] := by
        refine List.filter_eq_nil_iff.mpr fun x hx hxj => hnew ?_
        rw [← of_decide_eq_true hxj, hl x hx]
        exact hi
      rw [hnone, ih hlater hi, List.nil_append]

variable [BEq ι] [LawfulBEq ι]

theorem dealt_pairwise (hparts : parts.Nodup) (l : List α) : (dealt part parts l).Pairwise fun x y => parts.idxOf (part x) ≤ parts.idxOf (part y) := by
  unfold dealt
  refine List.pairwise_flatMap.mpr ⟨fun i _ => ?_, ?_⟩
  · refine List.pairwise_of_forall_mem_list fun x hx y hy => ?_
    have hxi : part x = i := by simpa using List.of_mem_filter hx
    have hyi : part y = i := by simpa using List.of_mem_filter hy
    rw [hxi, hyi]
  · refine List.pairwise_iff_getElem.mpr fun i j hi hj hij x hx y hy => ?_
    have hxi : part x = parts[i] := by simpa using List.of_mem_filter hx
    have hyj : part y = parts[j] := by simpa using List.of_mem_filter hy
    rw [hxi, hyj, hparts.idxOf_getElem i hi, hparts.idxOf_getElem j hj]
    exact hij.le

theorem dealt_eq_iff (hparts : parts.Nodup) (hl : ∀ x ∈ l, part x ∈ parts) :
    dealt part parts l = l ↔ l.Pairwise fun x y => parts.idxOf (part x) ≤ parts.idxOf (part y) := by
  constructor
  · intro hsame
    rw [← hsame]
    exact dealt_pairwise hparts l
  · intro hsorted
    have hrefl : Std.Refl fun x y : α => parts.idxOf (part x) ≤ parts.idxOf (part y) := ⟨fun x => le_rfl⟩
    refine eq_of_tied (dealt_pairwise hparts l) hsorted (dealt_perm hparts hl) fun x hx => ?_
    obtain ⟨hxl, hxparts⟩ := mem_dealt.mp hx
    have htied : ∀ y ∈ l, Tied (fun x y : α => parts.idxOf (part x) ≤ parts.idxOf (part y)) x y ↔ part y = part x := by
      intro y hy
      refine le_antisymm_iff.symm.trans ?_
      exact (List.idxOf_inj hxparts).trans eq_comm
    have hfilter : ∀ m : List α, (∀ y ∈ m, y ∈ l) →
        m.filter (fun y => Tied (fun x y : α => parts.idxOf (part x) ≤ parts.idxOf (part y)) x y) = m.filter fun y => part y = part x := by
      intro m hm
      refine List.filter_congr fun y hy => ?_
      exact decide_eq_decide.mpr (htied y (hm y hy))
    rw [hfilter _ fun y hy => (mem_dealt.mp hy).1, hfilter l fun y hy => hy, dealt_filter]
    -- the class is one part
    exact dealt_one hparts hxparts fun y hy => by simpa using List.of_mem_filter hy

/-- Sorting the parts gives what sorting the whole list gives if and only if entries that are equal for the order
come in the order of their parts already. -/
theorem insertionSort_dealt_iff (hparts : parts.Nodup) (hl : ∀ x ∈ l, part x ∈ parts) :
    (dealt part parts l).insertionSort r = l.insertionSort r ↔ l.Pairwise fun x y => Tied r x y → parts.idxOf (part x) ≤ parts.idxOf (part y) := by
  have hclass : ∀ x, (dealt part parts l).filter (fun y => Tied r x y) = l.filter (fun y => Tied r x y) ↔
      l.Pairwise fun y z => Tied r x y → Tied r x z → parts.idxOf (part y) ≤ parts.idxOf (part z) := by
    intro x
    rw [dealt_filter, dealt_eq_iff hparts fun y hy => hl y (List.mem_of_mem_filter hy), List.pairwise_filter]
    simp only [decide_eq_true_eq]
  rw [insertionSort_eq_iff (dealt_perm hparts hl), List.pairwise_iff_forall_sublist]
  constructor
  · intro hclasses x y hxy htied
    have hx : x ∈ l := hxy.subset List.mem_cons_self
    have hpairs := (hclass x).mp (hclasses x (mem_dealt.mpr ⟨hx, hl x hx⟩))
    have hrefl : Tied r x x := ⟨Std.Refl.refl x, Std.Refl.refl x⟩
    exact List.pairwise_iff_forall_sublist.mp hpairs hxy hrefl htied
  · intro hpairs x _
    refine (hclass x).mpr (List.pairwise_iff_forall_sublist.mpr fun {y z} hyz hxy hxz => hpairs hyz ?_)
    exact ⟨IsTrans.trans y x z hxy.2 hxz.1, IsTrans.trans z x y hxz.2 hxy.1⟩

end Parts

end OxScada.Order
