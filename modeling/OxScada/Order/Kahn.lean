import Mathlib.Data.Finset.Card
import Mathlib.Data.Set.Finite.List
import Mathlib.Data.List.Nodup
import Mathlib.Logic.Function.Basic
import Mathlib.Logic.Relation
import Mathlib.Order.RelClasses
import Mathlib.Tactic

/-! Kahn's algorithm. A vertex is taken when every edge into it comes from a vertex that was taken
before, so that all vertices are taken exactly when there is no cycle. -/

namespace OxScada.Order
open Relation
variable {ι : Type*}

/-- Every vertex comes once, and after all that have an edge to it. -/
def Topological (edge : ι → ι → Prop) : List ι → List ι → Prop
  | _, [] => True
  | done, v :: rest => v ∉ done ∧ (∀ u, edge u v → u ∈ done) ∧ Topological edge (v :: done) rest

variable {done order remaining : List ι} {edge : ι → ι → Prop} {u v : ι}

theorem Topological.nodup (h : Topological edge done order) : order.Nodup ∧ ∀ v ∈ order, v ∉ done := by
  induction order generalizing done with
  | nil => exact ⟨List.nodup_nil, fun v hv => absurd hv List.not_mem_nil⟩
  | cons v rest ih =>
    obtain ⟨hnew, -, hrest⟩ := h
    obtain ⟨hnodup, hdisjoint⟩ := ih hrest
    have hv : v ∉ rest := fun hmem => hdisjoint v hmem List.mem_cons_self
    refine ⟨List.nodup_cons.mpr ⟨hv, hnodup⟩, List.forall_mem_cons.mpr ⟨hnew, fun w hw hdone => ?_⟩⟩
    exact hdisjoint w hw (List.mem_cons_of_mem _ hdone)

theorem Topological.pairwise (h : Topological edge done order) : order.Pairwise fun v later => ¬edge later v := by
  induction order generalizing done with
  | nil => exact .nil
  | cons v rest ih =>
    obtain ⟨-, hbefore, hrest⟩ := h
    refine List.pairwise_cons.mpr ⟨fun later hlater hedge => ?_, ih hrest⟩
    exact hrest.nodup.2 later hlater (List.mem_cons_of_mem _ (hbefore later hedge))

theorem Topological.acyclic (h : Topological edge done order) (hdone : ∀ v ∈ done, ¬TransGen edge v v)
    (hclosed : ∀ u v, edge u v → v ∈ done → u ∈ done) : ∀ v ∈ order, ¬TransGen edge v v := by
  induction order generalizing done with
  | nil => exact fun v hv => absurd hv List.not_mem_nil
  | cons v rest ih =>
    obtain ⟨hnew, hbefore, hrest⟩ := h
    -- What has a way to `v` is done, and `v` is not.
    have hback : ∀ u, TransGen edge u v → u ∈ done := by
      intro u hway
      induction hway using TransGen.head_induction_on with
      | single hedge => exact hbefore _ hedge
      | head hedge _ ih' => exact hclosed _ _ hedge ih'
    have hv : ¬TransGen edge v v := fun hcycle => hnew (hback v hcycle)
    refine List.forall_mem_cons.mpr ⟨hv, ih hrest (List.forall_mem_cons.mpr ⟨hv, hdone⟩) fun u w hedge hw => ?_⟩
    rcases List.mem_cons.mp hw with rfl | hw
    · exact List.mem_cons_of_mem _ (hbefore u hedge)
    · exact List.mem_cons_of_mem _ (hclosed u w hedge hw)

theorem exists_cycle (hsome : v ∈ remaining) (hfed : ∀ v ∈ remaining, ∃ u ∈ remaining, edge u v) :
    ∃ v, TransGen edge v v := by
  by_contra hacyclic
  simp only [not_exists] at hacyclic
  let below : {w // w ∈ remaining} → {w // w ∈ remaining} → Prop := fun a b => TransGen edge a b
  have htrans : IsTrans _ below := ⟨fun a b c hab hbc => TransGen.trans hab hbc⟩
  have hirrefl : Std.Irrefl below := ⟨fun a => hacyclic a⟩
  have hfinite : Finite {w // w ∈ remaining} := (List.finite_toSet remaining).to_subtype
  have hfounded : WellFounded below := Finite.wellFounded_of_trans_of_irrefl below
  obtain ⟨least, -, hleast⟩ := hfounded.has_min Set.univ ⟨⟨v, hsome⟩, trivial⟩
  obtain ⟨u, hu, hedge⟩ := hfed least least.2
  exact hleast ⟨u, hu⟩ trivial (.single hedge)

/-! ### The algorithm -/

variable [DecidableEq ι]

/-- The vertices that follow lose an edge each, and those that have none left are released. -/
def release (inDegree : ι → ℤ) : List ι → (ι → ℤ) × List ι
  | [] => (inDegree, [])
  | v :: rest =>
    let d := inDegree v - 1
    let (after, released) := release (Function.update inDegree v d) rest
    (after, if d = 0 then v :: released else released)

/-- The vertices that are taken from the queue in some rounds, and the queue that they leave. -/
def kahn (dependents : ι → List ι) : ℕ → (ι → ℤ) → List ι → List ι × List ι
  | 0, _, queue => ([], queue)
  | _ + 1, _, [] => ([], [])
  | rounds + 1, inDegree, v :: queue =>
    let (inDegree, released) := release inDegree (dependents v)
    let (order, left) := kahn dependents rounds inDegree (queue ++ released)
    (v :: order, left)

variable {dependents : ι → List ι} {vertices queue left : List ι} {inDegree degrees : ι → ℤ} {rounds : ℕ}

/-! ### A round -/

theorem release_inDegree (inDegree : ι → ℤ) (vs : List ι) (v : ι) : (release inDegree vs).1 v = inDegree v - vs.count v := by
  induction vs generalizing inDegree with
  | nil => simp [release]
  | cons w rest ih =>
    simp only [release, ih, List.count_cons]
    by_cases hv : v = w
    · subst hv
      simp
      ring
    · rw [Function.update_of_ne hv]
      simp [Ne.symm hv]

theorem count_le_release {w : ι} {rest : List ι} (hle : ∀ v ∈ w :: rest, ((w :: rest).count v : ℤ) ≤ inDegree v) :
    ∀ v ∈ rest, (rest.count v : ℤ) ≤ Function.update inDegree w (inDegree w - 1) v := by
  intro v hv
  have hcount := hle v (List.mem_cons_of_mem _ hv)
  by_cases hw : v = w
  · subst hw
    rw [List.count_cons_self] at hcount
    rw [Function.update_self]
    push_cast at hcount
    linarith
  · rw [Function.update_of_ne hw]
    rwa [List.count_cons_of_ne (Ne.symm hw)] at hcount

theorem mem_release {vs : List ι} (hle : ∀ v ∈ vs, (vs.count v : ℤ) ≤ inDegree v) :
    v ∈ (release inDegree vs).2 ↔ v ∈ vs ∧ inDegree v = vs.count v := by
  induction vs generalizing inDegree with
  | nil => simp [release]
  | cons w rest ih =>
    have hrest := ih (count_le_release hle)
    by_cases hw : v = w
    · subst hw
      have hcount := hle v List.mem_cons_self
      rw [Function.update_self] at hrest
      simp only [release, List.count_cons_self, List.mem_cons_self, true_and] at hcount ⊢
      by_cases hmem : v ∈ rest
      · have hpos : 0 < rest.count v := List.count_pos_iff.mpr hmem
        have hlarge : ¬inDegree v - 1 = 0 := by omega
        rw [if_neg hlarge, hrest]
        constructor
        · rintro ⟨-, heq⟩
          omega
        · intro heq
          exact ⟨hmem, by omega⟩
      · have hzero : rest.count v = 0 := List.count_eq_zero_of_not_mem hmem
        have hnot : v ∉ (release (Function.update inDegree v (inDegree v - 1)) rest).2 := fun h => hmem (hrest.mp h).1
        rw [hzero]
        split_ifs with hlast
        · simp only [List.mem_cons_self, true_iff]
          omega
        · simp only [hnot, false_iff]
          omega
    · rw [Function.update_of_ne hw] at hrest
      simp only [release, List.mem_cons, hw, false_or, List.count_cons_of_ne (Ne.symm hw)]
      rw [← hrest]
      split_ifs
      · simp [hw]
      · exact Iff.rfl

theorem release_nodup {vs : List ι} (hle : ∀ v ∈ vs, (vs.count v : ℤ) ≤ inDegree v) : (release inDegree vs).2.Nodup := by
  induction vs generalizing inDegree with
  | nil => exact List.nodup_nil
  | cons w rest ih =>
    have hrest := ih (count_le_release hle)
    simp only [release]
    split_ifs with hlast
    · refine List.nodup_cons.mpr ⟨fun hmem => ?_, hrest⟩
      obtain ⟨hw, hzero⟩ := (mem_release (count_le_release hle)).mp hmem
      have hpos : 0 < rest.count w := List.count_pos_iff.mpr hw
      rw [Function.update_self] at hzero
      omega
    · exact hrest

theorem release_subset (inDegree : ι → ℤ) (vs : List ι) : (release inDegree vs).2 ⊆ vs := by
  induction vs generalizing inDegree with
  | nil => exact List.nil_subset _
  | cons w rest ih =>
    have hrest : (release (Function.update inDegree w (inDegree w - 1)) rest).2 ⊆ w :: rest :=
      fun v hv => List.mem_cons_of_mem _ (ih _ hv)
    simp only [release]
    split_ifs
    · exact List.cons_subset.mpr ⟨List.mem_cons_self, hrest⟩
    · exact hrest

/-! ### Rounds -/

def waiting (vertices : List ι) (inDegree : ι → ℤ) : Finset ι := vertices.toFinset.filter fun v => 0 < inDegree v

theorem release_waiting {vs : List ι} (hsub : vs ⊆ vertices) (inDegree : ι → ℤ) :
    (release inDegree vs).2.length + (waiting vertices (release inDegree vs).1).card ≤ (waiting vertices inDegree).card := by
  induction vs generalizing inDegree with
  | nil => simp [release]
  | cons w rest ih =>
    have hw : w ∈ vertices := hsub List.mem_cons_self
    have hrest := ih (fun v hv => hsub (List.mem_cons_of_mem _ hv)) (Function.update inDegree w (inDegree w - 1))
    have hmono : waiting vertices (Function.update inDegree w (inDegree w - 1)) ⊆ waiting vertices inDegree := by
      intro v hv
      obtain ⟨hmem, hpos⟩ := Finset.mem_filter.mp hv
      refine Finset.mem_filter.mpr ⟨hmem, ?_⟩
      by_cases hvw : v = w
      · subst hvw
        rw [Function.update_self] at hpos
        linarith
      · rwa [Function.update_of_ne hvw] at hpos
    simp only [release]
    split_ifs with hlast
    · have hstrict : waiting vertices (Function.update inDegree w (inDegree w - 1)) ⊂ waiting vertices inDegree := by
        refine Finset.ssubset_iff_subset_ne.mpr ⟨hmono, fun heq => ?_⟩
        have hmem : w ∈ waiting vertices inDegree := Finset.mem_filter.mpr ⟨List.mem_toFinset.mpr hw, by linarith⟩
        rw [← heq] at hmem
        have hpos := (Finset.mem_filter.mp hmem).2
        rw [Function.update_self] at hpos
        linarith
      have hcard := Finset.card_lt_card hstrict
      rw [List.length_cons]
      omega
    · exact hrest.trans (Finset.card_le_card hmono)

/-- In as many rounds as there are vertices queued and vertices that have edges left, the queue is emptied. -/
theorem kahn_left (hsub : ∀ v ∈ vertices, dependents v ⊆ vertices) (hqueue : queue ⊆ vertices)
    (hrounds : queue.length + (waiting vertices inDegree).card ≤ rounds) : (kahn dependents rounds inDegree queue).2 = [] := by
  induction rounds generalizing inDegree queue with
  | zero =>
    have hnil : queue.length = 0 := by omega
    exact List.eq_nil_of_length_eq_zero hnil
  | succ rounds ih =>
    cases queue with
    | nil => rfl
    | cons v queue =>
      have hv : v ∈ vertices := hqueue List.mem_cons_self
      have hround := release_waiting (hsub v hv) inDegree
      have hreleased : (release inDegree (dependents v)).2 ⊆ vertices := List.Subset.trans (release_subset ..) (hsub v hv)
      refine ih (List.append_subset.mpr ⟨fun u hu => hqueue (List.mem_cons_of_mem _ hu), hreleased⟩) ?_
      rw [List.length_append]
      rw [List.length_cons] at hrounds
      omega

/-! ### What the rounds preserve -/

def incoming (dependents : ι → List ι) (us : List ι) (v : ι) : ℕ := (us.map fun u => (dependents u).count v).sum

def Follows (dependents : ι → List ι) (vertices : List ι) (u v : ι) : Prop := u ∈ vertices ∧ v ∈ dependents u

structure Linked (dependents : ι → List ι) (vertices : List ι) (inDegree : ι → ℤ) : Prop where
  nodup : vertices.Nodup
  closed : ∀ v ∈ vertices, dependents v ⊆ vertices
  counts : ∀ v ∈ vertices, inDegree v = incoming dependents vertices v

/-- Each vertex is counted the edges from the vertices that are not done, and is queued or done when it has none of these. -/
structure Progress (dependents : ι → List ι) (vertices : List ι) (inDegree : ι → ℤ) (done queue : List ι) : Prop where
  distinct : (queue ++ done).Nodup
  within : queue ++ done ⊆ vertices
  counts : ∀ v ∈ vertices, inDegree v = incoming dependents (vertices.filter (· ∉ done)) v
  released : ∀ v ∈ vertices, v ∈ queue ++ done ↔ inDegree v = 0

theorem incoming_nil (us : List ι) (v : ι) : incoming (fun _ => []) us v = 0 := by
  simp [incoming]

theorem incoming_pos {us : List ι} : 0 < incoming dependents us v ↔ ∃ u ∈ us, v ∈ dependents u := by
  induction us with
  | nil => simp [incoming]
  | cons w rest ih =>
    rw [incoming] at ih ⊢
    rw [List.map_cons, List.sum_cons, Nat.add_pos_iff_pos_or_pos, ih, List.count_pos_iff]
    simp

theorem incoming_take (hnodup : vertices.Nodup) (hv : v ∈ vertices) (hnew : v ∉ done) (w : ι) :
    incoming dependents (vertices.filter (· ∉ done)) w =
      (dependents v).count w + incoming dependents (vertices.filter (· ∉ v :: done)) w := by
  have hperm : (vertices.filter (· ∉ done)).Perm (v :: vertices.filter (· ∉ v :: done)) := by
    refine (List.perm_ext_iff_of_nodup (hnodup.filter _) ?_).mpr fun u => ?_
    · exact List.nodup_cons.mpr ⟨by simp, hnodup.filter _⟩
    · simp only [List.mem_filter, List.mem_cons, decide_eq_true_eq, not_or]
      by_cases hu : u = v
      · subst hu
        simp [hv, hnew]
      · simp [hu]
  rw [incoming, (hperm.map _).sum_eq, List.map_cons, List.sum_cons]
  rfl

theorem incoming_add {us : List ι} (hnodup : us.Nodup) (hu : u ∈ us) (v w : ι) :
    incoming (Function.update dependents u (dependents u ++ [v])) us w = incoming dependents us w + if w = v then 1 else 0 := by
  have hsame : ∀ xs : List ι, u ∉ xs → incoming (Function.update dependents u (dependents u ++ [v])) xs w = incoming dependents xs w := by
    intro xs hnot
    rw [incoming, incoming]
    congr 1
    refine List.map_congr_left fun x hx => ?_
    rw [Function.update_of_ne (ne_of_mem_of_not_mem hx hnot)]
  have hperm : us.Perm (u :: us.erase u) := List.perm_cons_erase hu
  have hrest : u ∉ us.erase u := hnodup.not_mem_erase
  have hsplit : ∀ next : ι → List ι, incoming next us w = (next u).count w + incoming next (us.erase u) w := by
    intro next
    rw [incoming, (hperm.map _).sum_eq, List.map_cons, List.sum_cons]
    rfl
  rw [hsplit, hsplit dependents, hsame _ hrest, Function.update_self, List.count_append, List.count_singleton]
  by_cases hv : w = v
  · simp [hv]
    ring
  · simp [hv, Ne.symm hv]

theorem Linked.start (h : Linked dependents vertices inDegree) :
    Progress dependents vertices inDegree [] (vertices.filter (inDegree · = 0)) where
  distinct := by
    rw [List.append_nil]
    exact h.nodup.filter _
  within := by
    rw [List.append_nil]
    exact List.filter_subset_self _
  counts v hv := by
    rw [h.counts v hv]
    simp
  released v hv := by simp [hv]

theorem Progress.before (h : Progress dependents vertices inDegree done (v :: queue)) (hedge : Follows dependents vertices u v) : u ∈ done := by
  have hv : v ∈ vertices := h.within List.mem_cons_self
  have hzero : inDegree v = 0 := (h.released v hv).mp List.mem_cons_self
  by_contra hu
  have hpos : 0 < incoming dependents (vertices.filter (· ∉ done)) v :=
    incoming_pos.mpr ⟨u, List.mem_filter.mpr ⟨hedge.1, by simpa using hu⟩, hedge.2⟩
  have hcount := h.counts v hv
  omega

theorem Progress.round (hlinked : Linked dependents vertices degrees)
    (h : Progress dependents vertices inDegree done (v :: queue)) :
    Progress dependents vertices (release inDegree (dependents v)).1 (v :: done) (queue ++ (release inDegree (dependents v)).2) := by
  have hv : v ∈ vertices := h.within List.mem_cons_self
  obtain ⟨hnew, hdistinct⟩ := List.nodup_cons.mp h.distinct
  have hdone : v ∉ done := fun hmem => hnew (List.mem_append_right _ hmem)
  have htaken : ∀ w ∈ vertices, inDegree w = (dependents v).count w + incoming dependents (vertices.filter (· ∉ v :: done)) w := by
    intro w hw
    rw [h.counts w hw, incoming_take hlinked.nodup hv hdone]
    push_cast
    rfl
  have hle : ∀ w ∈ dependents v, ((dependents v).count w : ℤ) ≤ inDegree w := by
    intro w hw
    have hcount := htaken w (hlinked.closed v hv hw)
    omega
  have hmem : ∀ w, w ∈ queue ++ (release inDegree (dependents v)).2 ++ v :: done ↔
      w ∈ v :: queue ++ done ∨ w ∈ (release inDegree (dependents v)).2 := by
    intro w
    simp only [List.mem_append, List.mem_cons]
    tauto
  have hfresh : ∀ w ∈ (release inDegree (dependents v)).2, w ∉ v :: queue ++ done := by
    intro w hw hold
    obtain ⟨hdependent, hcount⟩ := (mem_release hle).mp hw
    have hzero := (h.released w (hlinked.closed v hv hdependent)).mp hold
    have hpos : 0 < (dependents v).count w := List.count_pos_iff.mpr hdependent
    omega
  refine ⟨?_, ?_, ?_, ?_⟩
  · have hperm : (queue ++ (release inDegree (dependents v)).2 ++ v :: done).Perm
        ((release inDegree (dependents v)).2 ++ (v :: queue ++ done)) := by
      refine List.perm_iff_count.mpr fun w => ?_
      simp only [List.count_append, List.count_cons]
      omega
    refine hperm.nodup_iff.mpr (List.Nodup.append (release_nodup hle) h.distinct fun w hw hold => hfresh w hw hold)
  · intro w hw
    rcases (hmem w).mp hw with hold | hreleased
    · exact h.within hold
    · exact hlinked.closed v hv (release_subset _ _ hreleased)
  · intro w hw
    rw [release_inDegree, htaken w hw]
    ring
  · intro w hw
    rw [hmem, h.released w hw, release_inDegree, mem_release hle]
    have hcount := htaken w hw
    by_cases hdependent : w ∈ dependents v
    · have hpos : 0 < (dependents v).count w := List.count_pos_iff.mpr hdependent
      constructor
      · rintro (hzero | ⟨-, heq⟩)
        · omega
        · omega
      · intro hzero
        exact .inr ⟨hdependent, by omega⟩
    · rw [List.count_eq_zero_of_not_mem hdependent]
      simp [hdependent]

theorem kahn_progress (hlinked : Linked dependents vertices degrees) (h : Progress dependents vertices inDegree done queue)
    (hkahn : kahn dependents rounds inDegree queue = (order, left)) :
    Topological (Follows dependents vertices) done order ∧ ∃ last, Progress dependents vertices last (order.reverse ++ done) left := by
  induction rounds generalizing inDegree done queue order with
  | zero =>
    obtain ⟨rfl, rfl⟩ := Prod.mk.inj hkahn
    exact ⟨trivial, inDegree, h⟩
  | succ rounds ih =>
    cases queue with
    | nil =>
      obtain ⟨rfl, rfl⟩ := Prod.mk.inj hkahn
      exact ⟨trivial, inDegree, h⟩
    | cons v queue =>
      obtain ⟨rfl, hleft⟩ := Prod.mk.inj hkahn
      obtain ⟨hrest, last, hlast⟩ := ih (h.round hlinked) (Prod.ext rfl hleft)
      have hnew : v ∉ done := fun hmem => (List.nodup_cons.mp h.distinct).1 (List.mem_append_right _ hmem)
      refine ⟨⟨hnew, fun u hedge => h.before hedge, hrest⟩, last, ?_⟩
      rw [List.reverse_cons, List.append_assoc]
      exact hlast

/-- The vertices that come are in a topological order, and all come exactly when there is no cycle. -/
theorem kahn_spec (h : Linked dependents vertices inDegree) (hrounds : 2 * vertices.length ≤ rounds)
    (hkahn : kahn dependents rounds inDegree (vertices.filter (inDegree · = 0)) = (order, left)) :
    Topological (Follows dependents vertices) [] order ∧ order ⊆ vertices ∧
      (order.length = vertices.length ↔ ∀ v, ¬TransGen (Follows dependents vertices) v v) := by
  obtain ⟨horder, last, hlast⟩ := kahn_progress h h.start hkahn
  have hsub : order ⊆ vertices := by
    intro v hv
    exact hlast.within (List.mem_append_right _ (List.mem_append_left _ (List.mem_reverse.mpr hv)))
  refine ⟨horder, hsub, fun hlength v hcycle => ?_, fun hacyclic => ?_⟩
  · have hperm : order.Perm vertices := (List.subperm_of_subset horder.nodup.1 hsub).perm_of_length_le hlength.ge
    have hv : v ∈ vertices := by
      obtain ⟨w, hfirst, -⟩ := TransGen.head'_iff.mp hcycle
      exact hfirst.1
    exact horder.acyclic (fun u hu => absurd hu List.not_mem_nil) (fun u w _ hw => absurd hw List.not_mem_nil) v
      (hperm.mem_iff.mpr hv) hcycle
  · have hleft : left = [] := by
      have hqueued : (vertices.filter (inDegree · = 0)).length ≤ vertices.length := List.length_filter_le ..
      have hwaiting : (waiting vertices inDegree).card ≤ vertices.length :=
        (Finset.card_filter_le ..).trans (List.toFinset_card_le vertices)
      have hempty : (kahn dependents rounds inDegree (vertices.filter (inDegree · = 0))).2 = [] :=
        kahn_left h.closed (List.filter_subset_self _) (by omega)
      rw [hkahn] at hempty
      exact hempty
    by_contra hlength
    have hall : ∃ v ∈ vertices, v ∉ order := by
      by_contra hnone
      have hsup : vertices ⊆ order := fun v hv => by_contra fun hnew => hnone ⟨v, hv, hnew⟩
      exact hlength ((List.subperm_of_subset horder.nodup.1 hsub).length_le.antisymm (List.subperm_of_subset h.nodup hsup).length_le)
    obtain ⟨v, hv, hnew⟩ := hall
    have hfed : ∀ w ∈ vertices.filter (· ∉ order), ∃ u ∈ vertices.filter (· ∉ order), Follows dependents vertices u w := by
      intro w hw
      obtain ⟨hmem, hremains⟩ := List.mem_filter.mp hw
      have hsame : vertices.filter (· ∉ order.reverse ++ []) = vertices.filter (· ∉ order) := by simp
      have hcount := hlast.counts w hmem
      have hreleased := hlast.released w hmem
      rw [hsame] at hcount
      rw [hleft] at hreleased
      have hpos : 0 < incoming dependents (vertices.filter (· ∉ order)) w := by
        by_contra hzero
        have hback := hreleased.mpr (by omega)
        simp only [List.nil_append, List.append_nil, List.mem_reverse] at hback
        exact absurd hback (by simpa using hremains)
      obtain ⟨u, hu, hdependent⟩ := incoming_pos.mp hpos
      exact ⟨u, hu, List.mem_of_mem_filter hu, hdependent⟩
    obtain ⟨w, hcycle⟩ := exists_cycle (List.mem_filter.mpr ⟨hv, by simpa using hnew⟩) hfed
    exact hacyclic w hcycle

end OxScada.Order
