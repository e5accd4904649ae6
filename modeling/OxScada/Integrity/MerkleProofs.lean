import OxScada.Integrity.Merkle

/-! Inclusion proofs of the tree builder: which of them can be generated, and what a
verified one says about the leaf it names. -/

namespace OxScada.Integrity.MerkleTreeBuilder
open OxScada.Bytes OxScada.Hashing

variable {sha256 : Text → Text} {data : List Text}

/-! ### Generation -/

theorem generateProofRecursive_leaf (t : Text) (idx : ℤ) (hash : Text) (d : Option Text)
    (n : Option ℕ) (acc : List ProofStep) (cur : ℤ) :
    generateProofRecursive t idx (.mk hash none none d n) acc cur = (hash == t && cur == idx, acc) := by
  rw [generateProofRecursive]

theorem generateProofRecursive_parent (t : Text) (idx : ℤ) (l r : MerkleNode)
    (acc : List ProofStep) (cur : ℤ) :
    generateProofRecursive t idx (parentNode sha256 l r) acc cur =
      if idx < cur + 2 ^ l.calculateDepth then
        generateProofRecursive t idx l (acc ++ [⟨r.hash, .right⟩]) cur
      else generateProofRecursive t idx r (acc ++ [⟨l.hash, .left⟩]) (cur + 2 ^ l.calculateDepth) := by
  rw [parentNode, generateProofRecursive]

variable {h i : ℕ} {node : MerkleNode} {leaf : Text} {step : ProofStep} {steps : List ProofStep} {ps : List Position}

theorem generateProofRecursive_climb (sha256 : Text → Text) (t : Text) (idx : ℤ)
    (hc : Covers sha256 data h i node) (acc : List ProofStep) (cur : ℤ) :
    ∃ steps, (generateProofRecursive t idx node acc cur).2 = acc ++ steps ∧
      ((generateProofRecursive t idx node acc cur).1 = true →
        climb sha256 t steps.reverse = node.hash) := by
  induction hc generalizing acc cur with
  | leaf hx =>
    refine ⟨[], ?_, ?_⟩
    · rw [leafNode, generateProofRecursive_leaf, List.append_nil]
    · rw [leafNode, generateProofRecursive_leaf]
      intro hfound
      exact (beq_iff_eq.mp (Bool.and_eq_true_iff.mp hfound).1).symm
  | @full h i l r hl hr ihl ihr =>
    rw [generateProofRecursive_parent]
    split_ifs
    · obtain ⟨steps, hsteps, hclimb⟩ := ihl (acc ++ [⟨r.hash, .right⟩]) cur
      refine ⟨⟨r.hash, .right⟩ :: steps, by rw [hsteps]; simp, fun hfound => ?_⟩
      rw [List.reverse_cons, climb_concat, hclimb hfound]
      rfl
    · obtain ⟨steps, hsteps, hclimb⟩ := ihr (acc ++ [⟨l.hash, .left⟩]) (cur + 2 ^ l.calculateDepth)
      refine ⟨⟨l.hash, .left⟩ :: steps, by rw [hsteps]; simp, fun hfound => ?_⟩
      rw [List.reverse_cons, climb_concat, hclimb hfound]
      rfl
  | @padded h i l hl hend ihl =>
    rw [generateProofRecursive_parent]
    split_ifs
    · obtain ⟨steps, hsteps, hclimb⟩ := ihl (acc ++ [⟨createEmptyNode.hash, .right⟩]) cur
      refine ⟨⟨createEmptyNode.hash, .right⟩ :: steps, by rw [hsteps]; simp, fun hfound => ?_⟩
      rw [List.reverse_cons, climb_concat, hclimb hfound]
      rfl
    · refine ⟨[⟨l.hash, .left⟩], ?_, ?_⟩
      · rw [createEmptyNode, generateProofRecursive_leaf]
      · rw [createEmptyNode, generateProofRecursive_leaf]
        intro hfound
        obtain rfl := beq_iff_eq.mp (Bool.and_eq_true_iff.mp hfound).1
        rfl

def Under (h i : ℕ) (idx : ℤ) : Prop := (i : ℤ) * 2 ^ h ≤ idx ∧ idx < ((i : ℤ) + 1) * 2 ^ h

theorem under_left {idx : ℤ} (hside : idx < (i : ℤ) * 2 ^ (h + 1) + 2 ^ h) :
    Under h (2 * i) idx ↔ Under (h + 1) i idx := by
  have hlow : ((2 * i : ℕ) : ℤ) * 2 ^ h = (i : ℤ) * 2 ^ (h + 1) := by push_cast; ring
  have hmid : (((2 * i : ℕ) : ℤ) + 1) * 2 ^ h = (i : ℤ) * 2 ^ (h + 1) + 2 ^ h := by push_cast; ring
  have hwide : ((i : ℤ) + 1) * 2 ^ (h + 1) = (i : ℤ) * 2 ^ (h + 1) + 2 ^ h + 2 ^ h := by ring
  have hpos : (0 : ℤ) < 2 ^ h := by positivity
  unfold Under
  rw [hlow, hmid, hwide]
  omega

theorem under_right {idx : ℤ} (hside : ¬ idx < (i : ℤ) * 2 ^ (h + 1) + 2 ^ h) :
    Under h (2 * i + 1) idx ↔ Under (h + 1) i idx := by
  have hlow : ((2 * i + 1 : ℕ) : ℤ) * 2 ^ h = (i : ℤ) * 2 ^ (h + 1) + 2 ^ h := by push_cast; ring
  have hhigh : (((2 * i + 1 : ℕ) : ℤ) + 1) * 2 ^ h = ((i : ℤ) + 1) * 2 ^ (h + 1) := by push_cast; ring
  have hpos : (0 : ℤ) < 2 ^ h := by positivity
  unfold Under
  rw [hlow, hhigh]
  omega

theorem generateProofRecursive_found (sha256 : Text → Text) {t : Text} (ht : t ≠ emptyHash) (idx : ℤ)
    (hc : Covers sha256 data h i node) (acc : List ProofStep) (cur : ℤ)
    (hcur : cur = (i : ℤ) * 2 ^ h) :
    (generateProofRecursive t idx node acc cur).1 = true ↔
      Under h i idx ∧ ∃ x, data[idx.toNat]? = some x ∧ sha256 x = t := by
  induction hc generalizing acc cur with
  | @leaf i x hx =>
    rw [leafNode, generateProofRecursive_leaf, Bool.and_eq_true, beq_iff_eq, beq_iff_eq, hcur]
    simp only [Under, pow_zero, mul_one]
    constructor
    · rintro ⟨hhash, rfl⟩
      exact ⟨⟨le_rfl, by omega⟩, x, by simpa using hx, hhash⟩
    · rintro ⟨⟨hlo, hhi⟩, y, hy, hhash⟩
      obtain rfl : idx = i := by omega
      obtain rfl : x = y := Option.some.inj (hx.symm.trans (by simpa using hy))
      exact ⟨hhash, rfl⟩
  | @full h i l r hl hr ihl ihr =>
    have hleft : cur = ((2 * i : ℕ) : ℤ) * 2 ^ h := by rw [hcur]; push_cast; ring
    have hright : cur + 2 ^ h = ((2 * i + 1 : ℕ) : ℤ) * 2 ^ h := by rw [hcur]; push_cast; ring
    rw [generateProofRecursive_parent, hl.depth]
    split_ifs with hside
    · rw [ihl _ _ hleft, under_left (hcur ▸ hside)]
    · rw [ihr _ _ hright, under_right (hcur ▸ hside)]
  | @padded h i l hl hend ihl =>
    have hleft : cur = ((2 * i : ℕ) : ℤ) * 2 ^ h := by rw [hcur]; push_cast; ring
    have hright : cur + 2 ^ h = (((2 * i + 1) * 2 ^ h : ℕ) : ℤ) := by rw [hcur]; push_cast; ring
    rw [generateProofRecursive_parent, hl.depth]
    split_ifs with hside
    · rw [ihl _ _ hleft, under_left (hcur ▸ hside)]
    · -- the padding has no leaf below it, and its hash is no digest
      rw [createEmptyNode, generateProofRecursive_leaf]
      constructor
      · intro hfound
        exact absurd (beq_iff_eq.mp (Bool.and_eq_true_iff.mp hfound).1).symm ht
      · rintro ⟨-, x, hx, -⟩
        have hlt := (List.getElem?_eq_some_iff.mp hx).1
        omega

/-- Proofs exist for the leaves of the tree and for nothing else, and they verify. -/
theorem generateProof_complete_exact (sha256 : Text → Text) (hinj : Function.Injective sha256)
    (hempty : ∀ s, sha256 s ≠ emptyHash) (data : List Text) (hne : data ≠ []) (i : ℤ) (x : Text) :
    ∃ r, buildTree sha256 data = .ok r ∧
      ((∃ p, generateProof sha256 r.tree x i = .ok p) ↔
        0 ≤ i ∧ i < data.length ∧ data[i.toNat]? = some x) ∧
      ∀ p, generateProof sha256 r.tree x i = .ok p → verifyProof sha256 p = true ∧ p.root = r.root := by
  obtain ⟨r, hr, hroot, hc⟩ := buildTree_covers sha256 hne
  refine ⟨r, hr, ?_, ?_⟩
  · have hfound := generateProofRecursive_found sha256 (hempty x) i hc [] 0 (by simp)
    have hiff : (∃ p, generateProof sha256 r.tree x i = .ok p) ↔
        (generateProofRecursive (sha256 x) i r.tree [] 0).1 = true := by
      simp only [generateProof]
      split_ifs with hf <;> simp [hf]
    have hcap : (data.length : ℤ) ≤ 2 ^ Nat.clog 2 data.length := by
      exact_mod_cast Nat.le_pow_clog (by norm_num) data.length
    rw [hiff, hfound]
    simp only [Under, Nat.cast_zero, zero_mul, zero_add, one_mul]
    constructor
    · rintro ⟨⟨hlo, -⟩, y, hy, hhash⟩
      obtain rfl := hinj hhash
      have hlt := (List.getElem?_eq_some_iff.mp hy).1
      exact ⟨hlo, by omega, hy⟩
    · rintro ⟨hlo, hlt, hx⟩
      exact ⟨⟨hlo, by omega⟩, x, hx, rfl⟩
  · intro p hp
    obtain ⟨steps, hsteps, hclimb⟩ := generateProofRecursive_climb sha256 (sha256 x) i hc [] 0
    simp only [generateProof] at hp
    split_ifs at hp with hf
    obtain rfl := Except.ok.inj hp
    rw [verifyProof_iff]
    refine ⟨?_, hroot.symm⟩
    rw [hsteps, List.nil_append]
    exact hclimb hf

theorem generateProof_complete_exact_three :
    ∃ r p, buildTree bracketed [['a'], ['b'], ['c']] = .ok r ∧
      generateProof bracketed r.tree ['c'] 2 = .ok p ∧ verifyProof bracketed p = true ∧ p.root = r.root := by
  obtain ⟨r, hr, hiff, hverify⟩ := generateProof_complete_exact bracketed bracketed_ideal.injective
    bracketed_ideal.ne_zero [['a'], ['b'], ['c']] (by simp) 2 ['c']
  obtain ⟨p, hp⟩ := hiff.mpr ⟨by norm_num, by norm_num, rfl⟩
  exact ⟨r, p, hr, hp, hverify p hp⟩

/-! ### Verification

A path is followed from the root: `left` names a left sibling, so it leads into the
right half. -/

def bit : Position → ℕ
  | .left => 1
  | .right => 0

/-- The first leaf under the node where a path from height `h` stops. -/
def landing : ℕ → List Position → ℕ
  | 0, _ => 0
  | _ + 1, [] => 0
  | h + 1, p :: ps => bit p * 2 ^ h + landing h ps

theorem landing_right (h : ℕ) (ps : List Position) : landing (h + 1) (.right :: ps) = landing h ps := by
  rw [landing, bit, Nat.zero_mul, Nat.zero_add]

theorem landing_left (h : ℕ) (ps : List Position) : landing (h + 1) (.left :: ps) = 2 ^ h + landing h ps := by
  rw [landing, bit, Nat.one_mul]

def climbDown (sha256 : Text → Text) (digest : Text) (steps : List ProofStep) : Text :=
  steps.foldr (fun step current => stepHash sha256 current step) digest

theorem climb_eq_climbDown (digest : Text) (steps : List ProofStep) :
    climb sha256 digest steps = climbDown sha256 digest steps.reverse := by
  rw [climb, climbDown, List.foldr_reverse]

theorem climbDown_cons (digest : Text) (step : ProofStep) (steps : List ProofStep) :
    climbDown sha256 digest (step :: steps) = stepHash sha256 (climbDown sha256 digest steps) step := rfl

theorem climbDown_digest (sha256 : Text → Text) (leaf : Text) (steps : List ProofStep) :
    ∃ y, climbDown sha256 (sha256 leaf) steps = sha256 y := by
  cases steps with
  | nil => exact ⟨leaf, rfl⟩
  | cons step steps =>
    simp only [climbDown_cons, stepHash, hashPair]
    split <;> exact ⟨_, rfl⟩

theorem Covers.digest (hc : Covers sha256 data h i node) :
    ∃ z, node.hash = sha256 z := by
  cases hc <;> exact ⟨_, rfl⟩

section
variable (hd : IdealDigest sha256)
include hd

theorem climbDown_right {z right : Text} (hp : step.position = .right)
    (h : climbDown sha256 (sha256 leaf) (step :: steps) = hashPair sha256 (sha256 z) right) :
    climbDown sha256 (sha256 leaf) steps = sha256 z := by
  obtain ⟨y, hy⟩ := climbDown_digest sha256 leaf steps
  rw [climbDown_cons, hy, stepHash, hp] at h
  rw [hy, (hd.append_left (hd.injective h)).1]

theorem climbDown_left {left z : Text} (hp : step.position = .left)
    (h : climbDown sha256 (sha256 leaf) (step :: steps) = hashPair sha256 left (sha256 z)) :
    climbDown sha256 (sha256 leaf) steps = sha256 z := by
  obtain ⟨y, hy⟩ := climbDown_digest sha256 leaf steps
  rw [climbDown_cons, hy, stepHash, hp] at h
  rw [hy, (hd.append_right (hd.injective h)).2]

theorem climbDown_left_ne_padding {left : Text}
    (hp : step.position = .left) :
    climbDown sha256 (sha256 leaf) (step :: steps) ≠ hashPair sha256 left emptyHash := by
  intro h
  obtain ⟨y, hy⟩ := climbDown_digest sha256 leaf steps
  rw [climbDown_cons, hy, stepHash, hp] at h
  exact hd.append_zero_ne (hd.injective h)

/-- Siblings that lead from a leaf's digest to a node of the tree follow a path of the
tree that stays clear of the padding, and one of full length ends at that leaf. -/
theorem Covers.trace (hc : Covers sha256 data h i node) (steps : List ProofStep)
    (hclimb : climbDown sha256 (sha256 leaf) steps = node.hash) :
    i * 2 ^ h + landing h (steps.map (·.position)) < data.length ∧
      (steps.length = h → data[i * 2 ^ h + landing h (steps.map (·.position))]? = some leaf) := by
  have hstart := hc.start_lt
  induction hc generalizing steps with
  | @leaf i x hx =>
    refine ⟨by simpa [landing] using hstart, fun hlen => ?_⟩
    obtain rfl := List.eq_nil_of_length_eq_zero hlen
    obtain rfl : leaf = x := hd.injective hclimb
    simpa [landing] using hx
  | @full h i l r hl hr ihl ihr =>
    cases steps with
    | nil => exact ⟨by simpa [landing] using hstart, fun hlen => absurd hlen (by simp)⟩
    | cons step steps =>
      obtain ⟨z, hz⟩ := hl.digest
      obtain ⟨z', hz'⟩ := hr.digest
      rw [parentNode, MerkleNode.hash, hz, hz'] at hclimb
      rcases hp : step.position
      · have ih := ihr steps ((climbDown_left hd hp hclimb).trans hz'.symm) hr.start_lt
        simp only [List.map_cons, hp, landing_left, ← Nat.add_assoc, start_right, List.length_cons,
          Nat.add_right_cancel_iff]
        exact ih
      · have ih := ihl steps ((climbDown_right hd hp hclimb).trans hz.symm) hl.start_lt
        simp only [List.map_cons, hp, landing_right, start_left, List.length_cons,
          Nat.add_right_cancel_iff]
        exact ih
  | @padded h i l hl hend ihl =>
    cases steps with
    | nil => exact ⟨by simpa [landing] using hstart, fun hlen => absurd hlen (by simp)⟩
    | cons step steps =>
      obtain ⟨z, hz⟩ := hl.digest
      rw [parentNode, MerkleNode.hash, hz] at hclimb
      rcases hp : step.position
      · exact absurd hclimb (climbDown_left_ne_padding hd hp)
      · have ih := ihl steps ((climbDown_right hd hp hclimb).trans hz.symm) hl.start_lt
        simp only [List.map_cons, hp, landing_right, start_left, List.length_cons,
          Nat.add_right_cancel_iff]
        exact ih

end

/-- A path from `node` can be opened: siblings for it lead up from some node below. -/
def Opens (sha256 : Text → Text) (data : List Text) (h i : ℕ) (node : MerkleNode) (ps : List Position) : Prop :=
  ∃ steps j node', steps.map (·.position) = ps ∧ Covers sha256 data (h - ps.length) j node' ∧
    climbDown sha256 node'.hash steps = node.hash ∧ j * 2 ^ (h - ps.length) = i * 2 ^ h + landing h ps

theorem Opens.right {l r : MerkleNode}
    (ho : Opens sha256 data h (2 * i) l ps) : Opens sha256 data (h + 1) i (parentNode sha256 l r) (.right :: ps) := by
  obtain ⟨steps, j, node', hps, hcov, hclimb, hj⟩ := ho
  refine ⟨⟨r.hash, .right⟩ :: steps, j, node', by rw [List.map_cons, hps], ?_, ?_, ?_⟩
  · rwa [List.length_cons, Nat.add_sub_add_right]
  · rw [climbDown_cons, hclimb]
    rfl
  · rw [List.length_cons, Nat.add_sub_add_right, hj, landing_right, start_left]

theorem Opens.left {l r : MerkleNode}
    (ho : Opens sha256 data h (2 * i + 1) r ps) :
    Opens sha256 data (h + 1) i (parentNode sha256 l r) (.left :: ps) := by
  obtain ⟨steps, j, node', hps, hcov, hclimb, hj⟩ := ho
  refine ⟨⟨l.hash, .left⟩ :: steps, j, node', by rw [List.map_cons, hps], ?_, ?_, ?_⟩
  · rwa [List.length_cons, Nat.add_sub_add_right]
  · rw [climbDown_cons, hclimb]
    rfl
  · rw [List.length_cons, Nat.add_sub_add_right, hj, landing_left, ← Nat.add_assoc, start_right]

theorem Covers.opening (hc : Covers sha256 data h i node)
    (ps : List Position) (hlen : ps.length ≤ h) (hreal : i * 2 ^ h + landing h ps < data.length) :
    Opens sha256 data h i node ps := by
  induction hc generalizing ps with
  | @leaf i x hx =>
    obtain rfl := List.eq_nil_of_length_eq_zero (Nat.le_zero.mp hlen)
    exact ⟨[], i, _, rfl, .leaf hx, rfl, rfl⟩
  | @full h i l r hl hr ihl ihr =>
    cases ps with
    | nil => exact ⟨[], i, _, rfl, .full hl hr, rfl, rfl⟩
    | cons p ps =>
      have hshort : ps.length ≤ h := Nat.le_of_succ_le_succ hlen
      cases p with
      | left =>
        rw [landing_left, ← Nat.add_assoc, start_right] at hreal
        exact (ihr ps hshort hreal).left
      | right =>
        rw [landing_right, start_left] at hreal
        exact (ihl ps hshort hreal).right
  | @padded h i l hl hend ihl =>
    cases ps with
    | nil => exact ⟨[], i, _, rfl, .padded hl hend, rfl, rfl⟩
    | cons p ps =>
      cases p with
      | left =>
        -- there is no leaf under the padding
        rw [landing_left, ← Nat.add_assoc, start_right] at hreal
        omega
      | right =>
        rw [landing_right, start_left] at hreal
        exact (ihl ps (Nat.le_of_succ_le_succ hlen) hreal).right

/-- The proof names a leaf of `data` at the index it states. -/
def ProofBinds (data : List Text) (p : MerkleProof) : Prop :=
  0 ≤ p.leafIndex ∧ p.leafIndex < data.length ∧ data[p.leafIndex.toNat]? = some p.leaf

/-- A verified proof with one step for each level names a leaf, at the index its
positions spell. -/
theorem verifyProof_leaf (hd : IdealDigest sha256) {r : MerkleTreeResult} {p : MerkleProof}
    (hr : buildTree sha256 data = .ok r) (hne : data ≠ []) (hroot : p.root = r.root)
    (hlen : p.proof.length = Nat.clog 2 data.length) (hv : verifyProof sha256 p = true) :
    data[landing (Nat.clog 2 data.length) (p.proof.map (·.position)).reverse]? = some p.leaf := by
  obtain ⟨r', hr', hroot', hc⟩ := buildTree_covers sha256 hne
  obtain rfl : r' = r := Except.ok.inj (hr'.symm.trans hr)
  rw [verifyProof_iff, climb_eq_climbDown, hroot, hroot'] at hv
  have htrace := (hc.trace hd _ hv).2 (by rw [List.length_reverse, hlen])
  rwa [Nat.zero_mul, Nat.zero_add, List.map_reverse] at htrace

theorem verifyProof_reaches (hd : IdealDigest sha256) {r : MerkleTreeResult} {p : MerkleProof}
    (hr : buildTree sha256 data = .ok r) (hne : data ≠ []) (hroot : p.root = r.root)
    (hv : verifyProof sha256 p = true) :
    landing (Nat.clog 2 data.length) (p.proof.map (·.position)).reverse < data.length := by
  obtain ⟨r', hr', hroot', hc⟩ := buildTree_covers sha256 hne
  obtain rfl : r' = r := Except.ok.inj (hr'.symm.trans hr)
  rw [verifyProof_iff, climb_eq_climbDown, hroot, hroot'] at hv
  have htrace := (hc.trace hd _ hv).1
  rwa [Nat.zero_mul, Nat.zero_add, List.map_reverse] at htrace

/-! ### Forgeries

Where the shape of a proof leaves room, some data is bound wrongly: an index that the
positions do not spell is never looked at, a short path ends at an inner node whose
preimage serves as the leaf, and a long one runs on through the preimage of a leaf. -/

theorem landing_take (h : ℕ) (ps : List Position) : landing h (ps.take h) = landing h ps := by
  induction h generalizing ps with
  | zero => rfl
  | succ h ih =>
    cases ps with
    | nil => rfl
    | cons p ps => rw [List.take_succ_cons, landing, landing, ih]

theorem Covers.forge {tree : MerkleNode} (hc : Covers sha256 data h 0 tree)
    (hreal : landing h ps < data.length) (good : Text → Prop)
    (hopen : ∀ j node, Covers sha256 data (h - ps.length) j node →
      j * 2 ^ (h - ps.length) = landing h ps → ∃ leaf extra, extra.map (·.position) = ps.drop h ∧
        climbDown sha256 (sha256 leaf) extra = node.hash ∧ good leaf) :
    ∃ leaf steps, steps.map (·.position) = ps ∧
      climbDown sha256 (sha256 leaf) steps = tree.hash ∧ good leaf := by
  have hsub : h - (ps.take h).length = h - ps.length := by
    rw [List.length_take]
    omega
  obtain ⟨steps, j, node, hps, hcov, hclimb, hj⟩ := hc.opening (ps.take h)
    (by rw [List.length_take]; omega) (by rw [landing_take]; omega)
  rw [hsub] at hcov hj
  rw [landing_take, Nat.zero_mul, Nat.zero_add] at hj
  obtain ⟨leaf, extra, hextra, hnode, hgood⟩ := hopen j node hcov hj
  refine ⟨leaf, steps ++ extra, ?_, ?_, hgood⟩
  · rw [List.map_append, hps, hextra, List.take_append_drop]
  · simp only [climbDown, List.foldr_append] at hclimb hnode ⊢
    rw [hnode, hclimb]

theorem Covers.leaf_hash {j : ℕ} (hc : Covers sha256 data 0 j node) :
    ∃ x, data[j]? = some x ∧ node.hash = sha256 x := by
  cases hc with
  | leaf hx => exact ⟨_, hx, rfl⟩

theorem Covers.inner_hash (hd : IdealDigest sha256) {j : ℕ}
    (hc : Covers sha256 data h j node) (hpos : h ≠ 0) : ∃ x, x ≠ [] ∧ node.hash = sha256 x := by
  cases hc with
  | leaf hx => exact absurd rfl hpos
  | full hl hr =>
    obtain ⟨z, hz⟩ := hl.digest
    exact ⟨_, by rw [hz]; simp [hd.ne_nil], rfl⟩
  | padded hl hend =>
    obtain ⟨z, hz⟩ := hl.digest
    exact ⟨_, by rw [hz]; simp [hd.ne_nil], rfl⟩

theorem climbDown_blank (sha256 : Text → Text) (ps : List Position) :
    climbDown sha256 (sha256 []) (ps.map fun p => ⟨[], p⟩) = sha256 (sha256^[ps.length] []) := by
  induction ps with
  | nil => rfl
  | cons p ps ih =>
    simp only [climbDown, List.map_cons, List.foldr_cons, List.length_cons] at ih ⊢
    rw [ih, Function.iterate_succ_apply']
    cases p <;> simp [stepHash, hashPair]

theorem exists_foreign_leaf (hd : IdealDigest sha256) {n : ℕ}
    (hreal : landing (Nat.clog 2 n) ps < n) (hlen : ps.length ≠ Nat.clog 2 n) :
    ∃ data : List Text, data.length = n ∧ ∀ tree, Covers sha256 data (Nat.clog 2 n) 0 tree →
      ∃ leaf steps, steps.map (·.position) = ps ∧ climbDown sha256 (sha256 leaf) steps = tree.hash ∧
        leaf ∉ data := by
  rcases lt_or_gt_of_ne hlen with hshort | hlong
  · -- a short path stops at an inner node; its preimage is not empty, all leaves are
    refine ⟨List.replicate n [], List.length_replicate, fun tree hc => ?_⟩
    refine hc.forge (by rwa [List.length_replicate]) (fun leaf => leaf ∉ List.replicate n [])
      (fun j node hcov _ => ?_)
    obtain ⟨x, hx, hhash⟩ := hcov.inner_hash hd (by omega)
    exact ⟨x, [], by rw [List.drop_eq_nil_of_le hshort.le]; rfl, hhash.symm,
      fun hmem => hx (List.eq_of_mem_replicate hmem)⟩
  · -- a long path runs on through the leaves, which are iterated digests of the empty string
    set e := (ps.drop (Nat.clog 2 n)).length with he
    have hpos : 0 < e := by
      rw [he, List.length_drop]
      omega
    refine ⟨List.replicate n (sha256^[e] []), List.length_replicate, fun tree hc => ?_⟩
    refine hc.forge (by rwa [List.length_replicate])
      (fun leaf => leaf ∉ List.replicate n (sha256^[e] [])) (fun j node hcov _ => ?_)
    rw [Nat.sub_eq_zero_of_le hlong.le] at hcov
    obtain ⟨x, hx, hhash⟩ := hcov.leaf_hash
    obtain rfl := List.eq_of_mem_replicate (List.mem_of_getElem? hx)
    refine ⟨[], (ps.drop (Nat.clog 2 n)).map fun p => ⟨[], p⟩,
      by rw [List.map_map]; exact List.map_id _, ?_, fun hmem => ?_⟩
    · rw [climbDown_blank, hhash]
    · have hnil := List.eq_of_mem_replicate hmem
      obtain ⟨k, hk⟩ := Nat.exists_eq_add_one.mpr hpos
      rw [hk, Function.iterate_succ_apply'] at hnil
      exact hd.ne_nil _ hnil.symm

theorem exists_forgery (hd : IdealDigest sha256) {n : ℕ} {leafIndex : ℤ}
    (hreal : landing (Nat.clog 2 n) ps < n)
    (hbad : ¬ (ps.length = Nat.clog 2 n ∧ leafIndex = landing (Nat.clog 2 n) ps)) :
    ∃ data : List Text, data.length = n ∧ ∀ tree, Covers sha256 data (Nat.clog 2 n) 0 tree →
      ∃ leaf steps, steps.map (·.position) = ps ∧ climbDown sha256 (sha256 leaf) steps = tree.hash ∧
        ¬ (0 ≤ leafIndex ∧ data[leafIndex.toNat]? = some leaf) := by
  by_cases hfull : ps.length = Nat.clog 2 n
  · -- all leaves differ, so only the spelled index holds the leaf
    set data := (List.range n).map fun k => List.replicate k 'a' with hdata
    have hlen : data.length = n := by simp [hdata]
    have hget : ∀ k x, data[k]? = some x → x = List.replicate k 'a' := by
      intro k x hx
      have hk : k < n := hlen ▸ (List.getElem?_eq_some_iff.mp hx).1
      simpa [hdata, List.getElem?_range hk, eq_comm] using hx
    refine ⟨data, hlen, fun tree hc => ?_⟩
    have hforge := hc.forge (by rw [hlen]; exact hreal)
      (fun leaf => leaf = List.replicate (landing (Nat.clog 2 n) ps) 'a')
      (fun j node hcov hj => ?_)
    · obtain ⟨leaf, steps, hps, hclimb, rfl⟩ := hforge
      refine ⟨_, steps, hps, hclimb, fun hbind => hbad ⟨hfull, ?_⟩⟩
      have hsame := congrArg List.length (hget _ _ hbind.2)
      simp only [List.length_replicate] at hsame
      omega
    · rw [hfull, Nat.sub_self] at hcov hj
      obtain ⟨x, hx, hhash⟩ := hcov.leaf_hash
      refine ⟨x, [], by rw [List.drop_eq_nil_of_le hfull.le]; rfl, hhash.symm, ?_⟩
      rw [hget _ _ hx, ← hj, pow_zero, mul_one]
  · obtain ⟨data, hlen, hforeign⟩ := exists_foreign_leaf hd hreal hfull
    refine ⟨data, hlen, fun tree hc => ?_⟩
    obtain ⟨leaf, steps, hps, hclimb, hnot⟩ := hforeign tree hc
    exact ⟨leaf, steps, hps, hclimb, fun hbind => hnot (List.mem_of_getElem? hbind.2)⟩

/-- For trees of `n` leaves and proofs with the given positions and index, a verified
proof binds its leaf exactly when the positions lead into padding, or there is one of
them for each level and they spell the index. -/
theorem verifyProof_binds_iff (hd : IdealDigest sha256) {n : ℕ} (hn : 0 < n)
    (positions : List Position) (leafIndex : ℤ) :
    (∀ data r p, data.length = n → buildTree sha256 data = .ok r → p.root = r.root →
      p.proof.map (·.position) = positions → p.leafIndex = leafIndex →
      verifyProof sha256 p = true → ProofBinds data p) ↔
    (landing (Nat.clog 2 n) positions.reverse < n → positions.length = Nat.clog 2 n ∧
      leafIndex = landing (Nat.clog 2 n) positions.reverse) := by
  constructor
  · intro hbinds hreal
    by_contra hbad
    obtain ⟨data, hlen, hforge⟩ := exists_forgery hd hreal (by simpa using hbad)
    have hne : data ≠ [] := by
      rintro rfl
      simp at hlen
      omega
    obtain ⟨r, hr, hroot, hc⟩ := buildTree_covers sha256 hne
    rw [hlen] at hc
    obtain ⟨leaf, steps, hps, hclimb, hnot⟩ := hforge r.tree hc
    have hbind := hbinds data r ⟨leaf, leafIndex, r.root, steps.reverse⟩ hlen hr rfl
      (by simp [hps]) rfl (by rw [verifyProof_iff, climb_eq_climbDown, List.reverse_reverse, hclimb, hroot])
    exact hnot ⟨hbind.1, hbind.2.2⟩
  · rintro hshape data r p rfl hr hroot rfl rfl hv
    have hne : data ≠ [] := List.ne_nil_of_length_pos hn
    obtain ⟨hlen, hidx⟩ := hshape (verifyProof_reaches hd hr hne hroot hv)
    have hleaf := verifyProof_leaf hd hr hne hroot (by simpa using hlen) hv
    have hlt := (List.getElem?_eq_some_iff.mp hleaf).1
    exact ⟨by omega, by omega, by rw [hidx, Int.toNat_natCast]; exact hleaf⟩

theorem buildTree_two (sha256 : Text → Text) (a b : Text) :
    buildTree sha256 [a, b] = .ok {
      root := hashPair sha256 (sha256 a) (sha256 b)
      tree := parentNode sha256 (leafNode sha256 0 a) (leafNode sha256 1 b)
      leaves := [a, b]
      depth := 1 } := by
  simp [buildTree, buildTreeRecursive, parentNodes, pairUp, parentNode, leafNode, MerkleNode.hash,
    MerkleNode.calculateDepth]

theorem verifyProof_binds_iff_two :
    ∃ r, buildTree bracketed [['a'], ['b']] = .ok r ∧
      ProofBinds [['a'], ['b']] ⟨['b'], 1, r.root, [⟨bracketed ['a'], .left⟩]⟩ := by
  have hbinds := (verifyProof_binds_iff bracketed_ideal (n := 2) (by norm_num) [.left] 1).mpr fun _ =>
    ⟨by decide, by decide⟩
  refine ⟨_, buildTree_two bracketed ['a'] ['b'], ?_⟩
  refine hbinds _ _ _ rfl (buildTree_two bracketed ['a'] ['b']) rfl rfl rfl ?_
  rw [verifyProof_iff]
  rfl

/-- A proof of the first of two leaves still verifies when it claims index 7. -/
theorem verifyProof_index_unchecked :
    ∃ r, buildTree bracketed [['a'], ['b']] = .ok r ∧
      verifyProof bracketed ⟨['a'], 7, r.root, [⟨bracketed ['b'], .right⟩]⟩ = true ∧
      ¬ ProofBinds [['a'], ['b']] ⟨['a'], 7, r.root, [⟨bracketed ['b'], .right⟩]⟩ := by
  refine ⟨_, buildTree_two bracketed ['a'] ['b'], ?_, ?_⟩
  · rw [verifyProof_iff]
    rfl
  · intro hbind
    have hlt := hbind.2.1
    norm_num at hlt

end OxScada.Integrity.MerkleTreeBuilder
