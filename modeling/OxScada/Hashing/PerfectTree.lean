import OxScada.Hashing.Levels

/-! Perfect binary hash trees. A list whose odd levels repeat their last entry has the
root of a perfect tree, over positions that are each filled from some entry of the list.
Commitment and inclusion proofs are then properties of perfect trees. -/

namespace OxScada.Hashing

variable {α : Type*} (pair : α → α → α)

def perfect : ℕ → (ℕ → α) → α
  | 0, f => f 0
  | h + 1, f => perfect h fun j => pair (f (2 * j)) (f (2 * j + 1))

def siblings : ℕ → (ℕ → α) → ℕ → List α
  | 0, _, _ => []
  | h + 1, f, i =>
    f (if i % 2 = 0 then i + 1 else i - 1) ::
      siblings h (fun j => pair (f (2 * j)) (f (2 * j + 1))) (i / 2)

/-- The root that siblings lead to; the parity of the index tells the sides. -/
def ascend : List α → α → ℕ → α
  | [], x, _ => x
  | s :: rest, x, j => ascend rest (if j % 2 = 0 then pair x s else pair s x) (j / 2)

variable {f g : ℕ → α} {h n j k : ℕ} {x : α}

theorem perfect_congr (hfg : ∀ j < 2 ^ h, f j = g j) :
    perfect pair h f = perfect pair h g := by
  induction h generalizing f g with
  | zero => exact hfg 0 (by norm_num)
  | succ h ih =>
    apply ih
    intro j hj
    rw [hfg (2 * j) (by rw [pow_succ]; omega), hfg (2 * j + 1) (by rw [pow_succ]; omega)]

theorem siblings_length (h : ℕ) (f : ℕ → α) (i : ℕ) : (siblings pair h f i).length = h := by
  induction h generalizing f i with
  | zero => rfl
  | succ h ih => rw [siblings, List.length_cons, ih]

theorem ascend_siblings (h : ℕ) (f : ℕ → α) {i : ℕ} (hi : i < 2 ^ h) :
    ascend pair (siblings pair h f i) (f i) i = perfect pair h f := by
  induction h generalizing f i with
  | zero =>
    obtain rfl : i = 0 := by simpa using hi
    rfl
  | succ h ih =>
    rw [siblings, ascend, perfect]
    have hhalf : i / 2 < 2 ^ h := by
      rw [pow_succ] at hi
      omega
    rw [← ih _ hhalf]
    rcases Nat.mod_two_eq_zero_or_one i with hpar | hpar
    · have hi2 : 2 * (i / 2) = i := by omega
      simp only [hpar, if_pos, hi2]
    · have hi2 : 2 * (i / 2) + 1 = i := by omega
      have hpred : 2 * (i / 2) = i - 1 := by omega
      have hodd : ¬ i % 2 = 0 := by omega
      simp only [if_neg hodd]
      rw [hi2, hpred]

/-! ### Lists padded by repetition -/

/-- The entry of a list of `n` that fills position `j` of its tree, when every level of odd
length repeats its last entry. -/
def origin (n j : ℕ) : ℕ :=
  if n ≤ 1 then 0 else min (2 * origin ((n + 1) / 2) (j / 2) + j % 2) (n - 1)
termination_by n
decreasing_by omega

theorem origin_halve (hn : 2 ≤ n) (j : ℕ) :
    origin n j = min (2 * origin ((n + 1) / 2) (j / 2) + j % 2) (n - 1) := by
  rw [origin, if_neg (by omega)]

theorem origin_lt (hn : 0 < n) (j : ℕ) : origin n j < n := by
  unfold origin
  split_ifs
  · exact hn
  · exact (min_le_right _ _).trans_lt (by omega)

theorem origin_self (hj : j < n) : origin n j = j := by
  induction n using Nat.strong_induction_on generalizing j with
  | _ n ih =>
    by_cases hn : n ≤ 1
    · rw [origin, if_pos hn]
      omega
    · have hhalf := ih ((n + 1) / 2) (by omega) (j := j / 2) (by omega)
      rw [origin_halve (by omega), hhalf]
      omega

theorem origin_length (hn : 2 ≤ n) (hodd : n % 2 = 1) : origin n n = n - 1 := by
  have hhalf : origin ((n + 1) / 2) (n / 2) = n / 2 := origin_self (by omega)
  rw [origin_halve hn, hhalf]
  omega

section Padded
variable [Inhabited α]

def padded (l : List α) (j : ℕ) : α := l.getD (origin l.length j) default

variable {l : List α}

theorem getElem?_padded (hne : l ≠ []) (j : ℕ) :
    l[origin l.length j]? = some (padded l j) := by
  have hlt := origin_lt (List.length_pos_of_ne_nil hne) j
  rw [padded, List.getD_eq_getElem?_getD, List.getElem?_eq_getElem hlt, Option.getD_some]

theorem padded_mem (hne : l ≠ []) (j : ℕ) : padded l j ∈ l :=
  List.mem_of_getElem? (getElem?_padded hne j)

theorem padded_of_lt (hj : j < l.length) : l[j]? = some (padded l j) := by
  have hget := getElem?_padded (List.ne_nil_of_length_pos (Nat.zero_lt_of_lt hj)) j
  rwa [origin_self hj] at hget

theorem padded_pairUp (h2 : 2 ≤ l.length) (j : ℕ) :
    padded (pairUp pair (fun a => pair a a) l) j = pair (padded l (2 * j)) (padded l (2 * j + 1)) := by
  have hne : l ≠ [] := List.ne_nil_of_length_pos (by omega)
  have hk : origin ((l.length + 1) / 2) j < (l.length + 1) / 2 := origin_lt (by omega) j
  have hleft := getElem?_padded hne (2 * j)
  have hright := getElem?_padded hne (2 * j + 1)
  rw [origin_halve h2, show 2 * j / 2 = j by omega, show 2 * j % 2 = 0 by omega, Nat.add_zero,
    Nat.min_eq_left (by omega)] at hleft
  rw [origin_halve h2, show (2 * j + 1) / 2 = j by omega, show (2 * j + 1) % 2 = 1 by omega] at hright
  have hlen := pairUp_length pair (fun a => pair a a) l
  have hentry : (pairUp pair (fun a => pair a a) l)[origin ((l.length + 1) / 2) j]? =
      some (pair (padded l (2 * j)) (padded l (2 * j + 1))) := by
    by_cases hin : 2 * origin ((l.length + 1) / 2) j + 1 < l.length
    · rw [Nat.min_eq_left (by omega)] at hright
      exact pairUp_getElem?_pair pair _ hleft hright
    · -- the last entry of an odd level stands on both sides
      rw [show min (2 * origin ((l.length + 1) / 2) j + 1) (l.length - 1) =
        2 * origin ((l.length + 1) / 2) j by omega, hleft] at hright
      rw [← Option.some.inj hright]
      exact pairUp_getElem?_lone pair _ hleft (List.getElem?_eq_none (by omega))
  rw [padded, hlen, List.getD_eq_getElem?_getD, hentry]
  rfl

theorem root_eq_perfect {root : List α → α} {good : α → Prop} (hgood : ∀ a b, good (pair a b))
    (single : ∀ a, root [a] = a)
    (level : ∀ l, 2 ≤ l.length → (∀ x ∈ l, good x) → root l = root (pairUp pair (fun a => pair a a) l))
    (hne : l ≠ []) (hl : ∀ x ∈ l, good x) :
    root l = perfect pair (Nat.clog 2 l.length) (padded l) := by
  revert hl
  refine levels_induction pair (fun a => pair a a) (motive := fun l => (∀ x ∈ l, good x) →
    root l = perfect pair (Nat.clog 2 l.length) (padded l)) ?single ?level l hne
  case single =>
    intro a _
    rw [single]
    simp [perfect, padded, origin]
  case level =>
    intro l h2 ih hl
    have hpaired := forall_mem_pairUp pair (fun a => pair a a) hgood (fun a => hgood a a) l
    rw [level l h2 hl, ih hpaired, pairUp_length, clog_halve h2, perfect]
    exact congrArg _ (funext fun j => padded_pairUp pair h2 j)

end Padded

/-! ### Commitment

`digest` holds of the results of the hash and `leaf` of those that stand for data. -/

/-- What makes a pairing function bind both of its arguments and tells leaves from nodes. -/
structure Binding (digest leaf : α → Prop) : Prop where
  digest_pair : ∀ a b, digest (pair a b)
  digest_leaf : ∀ {a}, leaf a → digest a
  left : ∀ {a b c d}, digest a → digest c → pair a b = pair c d → a = c
  right : ∀ {a b c d}, digest b → digest d → pair a b = pair c d → b = d
  leaf_ne : ∀ {a b}, digest a → digest b → ¬ leaf (pair a b)

inductive Rank (leaf : α → Prop) : ℕ → α → Prop
  | leaf {a : α} (ha : leaf a) : Rank leaf 0 a
  | node {k : ℕ} {a b : α} (ha : Rank leaf k a) (hb : Rank leaf k b) : Rank leaf (k + 1) (pair a b)

variable {pair} {digest leaf : α → Prop} (hb : Binding pair digest leaf)
include hb

theorem Binding.digest_rank (hx : Rank pair leaf k x) : digest x := by
  cases hx with
  | leaf ha => exact hb.digest_leaf ha
  | node ha hb' => exact hb.digest_pair _ _

theorem Binding.rank_unique {m : ℕ} (hk : Rank pair leaf k x) (hm : Rank pair leaf m x) :
    k = m := by
  induction hk generalizing m with
  | leaf ha =>
    cases hm with
    | leaf _ => rfl
    | node hc hd => exact absurd ha (hb.leaf_ne (hb.digest_rank hc) (hb.digest_rank hd))
  | @node k a b ha hb' iha ihb =>
    generalize hx : pair a b = x at hm
    cases hm with
    | leaf hl =>
      subst hx
      exact absurd hl (hb.leaf_ne (hb.digest_rank ha) (hb.digest_rank hb'))
    | node hc hd =>
      obtain rfl := hb.left (hb.digest_rank ha) (hb.digest_rank hc) hx
      rw [iha hc]

omit hb in
theorem rank_perfect (hf : ∀ j, Rank pair leaf k (f j)) :
    Rank pair leaf (k + h) (perfect pair h f) := by
  induction h generalizing k f with
  | zero => exact hf 0
  | succ h ih =>
    have hnode : ∀ j, Rank pair leaf (k + 1) (pair (f (2 * j)) (f (2 * j + 1))) :=
      fun j => .node (hf _) (hf _)
    have hroot := ih hnode
    rwa [Nat.add_right_comm] at hroot

theorem Binding.height_eq {h' : ℕ} (hf : ∀ j, leaf (f j)) (hg : ∀ j, leaf (g j))
    (e : perfect pair h f = perfect pair h' g) : h = h' := by
  have hleft : Rank pair leaf (0 + h) (perfect pair h f) := rank_perfect fun j => .leaf (hf j)
  have hright : Rank pair leaf (0 + h') (perfect pair h' g) := rank_perfect fun j => .leaf (hg j)
  rw [e] at hleft
  have hrank := hb.rank_unique hleft hright
  omega

theorem Binding.ascend_sound (hf : ∀ j, digest (f j)) {p : List α}
    (hp : p.length = h) (hj : j < 2 ^ h) (hx : digest x)
    (e : ascend pair p x j = perfect pair h f) : x = f j := by
  induction h generalizing f p x j with
  | zero =>
    obtain rfl := List.eq_nil_of_length_eq_zero hp
    obtain rfl : j = 0 := by simpa using hj
    exact e
  | succ h ih =>
    match p, hp with
    | s :: rest, hp =>
      have hhalf : j / 2 < 2 ^ h := by
        rw [pow_succ] at hj
        omega
      rw [ascend, perfect] at e
      -- the upper levels bind the pair, and the pair binds the side of `x`
      have hstep := ih (fun j => hb.digest_pair _ _) (Nat.succ.inj hp) hhalf
        (by split_ifs <;> exact hb.digest_pair _ _) e
      split_ifs at hstep with hpar
      · have heven : 2 * (j / 2) = j := by omega
        rw [heven] at hstep
        exact hb.left hx (hf j) hstep
      · have hodd : 2 * (j / 2) + 1 = j := by omega
        rw [hodd] at hstep
        exact hb.right hx (hf j) hstep

theorem Binding.perfect_inj (hf : ∀ j, digest (f j)) (hg : ∀ j, digest (g j))
    (e : perfect pair h f = perfect pair h g) (hj : j < 2 ^ h) : f j = g j := by
  apply hb.ascend_sound hg (siblings_length pair h f j) hj (hf j)
  rw [ascend_siblings pair h f hj, e]

end OxScada.Hashing
