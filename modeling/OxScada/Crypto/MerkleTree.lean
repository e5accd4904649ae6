import OxScada.Hashing.Digest
import OxScada.Hashing.PerfectTree

/-! The Merkle trees of the crypto module. The leaves are padded to a power of two with the last hash. -/

namespace OxScada.Crypto
open OxScada.Bytes OxScada.Hashing

structure MerkleTree where
  root : Text
  leaves : List Text
  layers : List (List Text)

theorem lt_pow_clog {n : ℕ} (h : 1 < n ∧ n &&& (n - 1) ≠ 0) : n < 2 ^ Nat.clog 2 n := by
  have hpow : n ≠ 2 ^ Nat.clog 2 n := fun heq => h.2 ((Nat.and_sub_one_eq_zero_iff_isPowerOfTwo (by omega)).mpr ⟨_, heq⟩)
  exact lt_of_le_of_ne (Nat.le_pow_clog (by norm_num) n) hpow

theorem clog_succ {n : ℕ} (h : 1 < n ∧ n &&& (n - 1) ≠ 0) : Nat.clog 2 (n + 1) = Nat.clog 2 n :=
  (Nat.clog_le_of_le_pow (lt_pow_clog h)).antisymm (Nat.clog_mono_right 2 (Nat.le_succ n))

def padLeaves (leaves : List Text) : List Text :=
  if _h : 1 < leaves.length ∧ leaves.length &&& (leaves.length - 1) ≠ 0 then padLeaves (leaves ++ [leaves.getLastD []]) else leaves
termination_by 2 ^ Nat.clog 2 leaves.length - leaves.length
decreasing_by
  have hlt := lt_pow_clog _h
  rw [List.length_append, List.length_singleton, clog_succ _h]
  omega

section Tree
variable (sha256 : Text → Text)

def combine (left right : Text) : Text := sha256 (left ++ right)

def nextLayer (layer : List Text) : List Text :=
  pairUp (fun left right => combine sha256 left (if right = [] then left else right)) (fun left => combine sha256 left left) layer

def buildLayers (layer : List Text) : List (List Text) :=
  if 1 < layer.length then layer :: buildLayers (nextLayer sha256 layer) else [layer]
termination_by layer.length
decreasing_by
  rw [nextLayer, pairUp_length]
  omega

def buildMerkleTree (hashes : List Text) : MerkleTree :=
  if hashes = [] then ⟨sha256 [], [], [[]]⟩
  else
    let layers := buildLayers sha256 (padLeaves hashes)
    ⟨(layers.getLastD []).headD [], hashes, layers⟩

def proofLoop : List (List Text) → ℕ → List Text
  | layer :: next :: layers, idx =>
    let siblingIdx := if idx % 2 = 1 then idx - 1 else idx + 1
    (if siblingIdx < layer.length then [layer.getD siblingIdx []] else []) ++ proofLoop (next :: layers) (idx / 2)
  | _, _ => []

def getMerkleProof (tree : MerkleTree) (index : ℕ) : List Text := proofLoop tree.layers index

def verifyLoop : List Text → Text → ℕ → Text
  | [], hash, _ => hash
  | sibling :: proof, hash, idx =>
    verifyLoop proof (if idx % 2 = 1 then combine sha256 sibling hash else combine sha256 hash sibling) (idx / 2)

def verifyMerkleProof (leaf : Text) (proof : List Text) (root : Text) (index : ℕ) : Bool := verifyLoop sha256 proof leaf index == root

end Tree

def IsHash (s : Text) : Prop := s.length = 64 ∧ ∀ c ∈ s, c.toLower ∈ hexDigits

/-- SHA-256 in hexadecimal, idealised: injective on strings, with digests that behave like other strings of 64 digits. -/
structure WideDigest (sha256 : Text → Text) : Prop where
  injective : Function.Injective sha256
  bifixFree : BifixFree ({s | IsHash s} ∪ Set.range sha256)

def IsWide (sha256 : Text → Text) (s : Text) : Prop := IsHash s ∨ ∃ data, sha256 data = s

variable {sha256 : Text → Text} {hashes layer proof : List Text} {f : ℕ → Text} {d i j : ℕ} {leaf : Text}

/-! ### The layers -/

theorem padLeaves_spec (hne : hashes ≠ []) : (padLeaves hashes).length = 2 ^ Nat.clog 2 hashes.length ∧
    ∀ j < 2 ^ Nat.clog 2 hashes.length, (padLeaves hashes)[j]? = hashes[min j (hashes.length - 1)]? := by
  have hpos : 0 < hashes.length := List.length_pos_of_ne_nil hne
  fun_induction padLeaves hashes with
  | case1 leaves h ih =>
    obtain ⟨hlength, hget⟩ := ih (by simp) (by simp)
    rw [List.length_append, List.length_singleton, clog_succ h] at hlength hget
    refine ⟨hlength, fun j hj => (hget j hj).trans ?_⟩
    by_cases hlast : j < leaves.length
    · rw [Nat.add_sub_cancel, min_eq_left hlast.le, min_eq_left (by omega), List.getElem?_append_left hlast]
    · rw [Nat.add_sub_cancel, min_eq_right (by omega), min_eq_right (by omega), List.getElem?_concat_length, List.getLastD_eq_getLast?,
        List.getLast?_eq_getElem?, List.getElem?_eq_getElem (by omega), Option.getD_some]
  | case2 leaves h =>
    have hlength : leaves.length = 2 ^ Nat.clog 2 leaves.length := by
      by_cases hone : 1 < leaves.length
      · have hpow : leaves.length.isPowerOfTwo := (Nat.and_sub_one_eq_zero_iff_isPowerOfTwo (by omega)).mp (by tauto)
        obtain ⟨k, hk⟩ := hpow
        rw [hk, Nat.clog_pow 2 k (by norm_num)]
      · obtain hone : leaves.length = 1 := by omega
        rw [hone]
        rfl
    refine ⟨hlength, fun j hj => ?_⟩
    rw [min_eq_left (by omega)]

variable (hd : WideDigest sha256)
include hd

theorem WideDigest.ne_nil (s : Text) : sha256 s ≠ [] := by
  apply hd.bifixFree.ne_nil (.inr ⟨s, rfl⟩) (.inr ⟨'a' :: s, rfl⟩)
  intro heq
  exact List.cons_ne_self _ _ (hd.injective heq).symm

theorem WideDigest.wide_ne_nil {s : Text} (hs : IsWide sha256 s) : s ≠ [] := by
  rcases hs with hs | ⟨data, rfl⟩
  · rintro rfl
    cases hs.1
  · exact hd.ne_nil data

/-- The layers over a power of two of hashes are those of a perfect tree. -/
theorem buildLayers_spec (hlength : layer.length = 2 ^ d) (hlayer : ∀ j < 2 ^ d, layer[j]? = some (f j)) (hfull : ∀ j < 2 ^ d, f j ≠ []) :
    ((buildLayers sha256 layer).getLastD []).headD [] = perfect (combine sha256) d f ∧ (buildLayers sha256 layer).length = d + 1 ∧
      ∀ i < 2 ^ d, proofLoop (buildLayers sha256 layer) i = siblings (combine sha256) d f i := by
  induction d generalizing layer f with
  | zero =>
    obtain ⟨hash, rfl⟩ := List.length_eq_one_iff.mp hlength
    obtain rfl : hash = f 0 := Option.some.inj (hlayer 0 Nat.one_pos)
    rw [buildLayers, if_neg (by simp)]
    exact ⟨rfl, rfl, fun i _ => rfl⟩
  | succ d ih =>
    have hnext : ∀ j < 2 ^ d, (nextLayer sha256 layer)[j]? = some (combine sha256 (f (2 * j)) (f (2 * j + 1))) := by
      intro j hj
      have hpair := pairUp_getElem?_pair (fun left right => combine sha256 left (if right = [] then left else right))
        (fun left => combine sha256 left left) (hlayer (2 * j) (by omega)) (hlayer (2 * j + 1) (by omega))
      rwa [if_neg (hfull _ (by omega))] at hpair
    have hhalf : (nextLayer sha256 layer).length = 2 ^ d := by
      rw [nextLayer, pairUp_length]
      omega
    obtain ⟨hroot, hlayers, hproof⟩ := ih hhalf hnext fun j _ => hd.ne_nil _
    obtain ⟨next, rest, hbuilt⟩ := List.exists_cons_of_length_pos (show 0 < (buildLayers sha256 (nextLayer sha256 layer)).length by omega)
    have hpos : 0 < 2 ^ d := by positivity
    rw [buildLayers, if_pos (by omega)]
    rw [hbuilt] at hroot hlayers hproof ⊢
    refine ⟨hroot, congrArg (· + 1) hlayers, fun i hi => ?_⟩
    have hsibling : (if i % 2 = 1 then i - 1 else i + 1) = if i % 2 = 0 then i + 1 else i - 1 := by
      split_ifs <;> omega
    have hin : (if i % 2 = 0 then i + 1 else i - 1) < 2 ^ (d + 1) := by
      split_ifs <;> omega
    rw [proofLoop, siblings, ← hproof (i / 2) (by omega), hsibling, if_pos (by omega), List.getD_eq_getElem?_getD, hlayer _ hin]
    rfl

/-! ### Proofs -/

omit hd in
theorem verifyLoop_eq_ascend (proof : List Text) (hash : Text) (idx : ℕ) :
    verifyLoop sha256 proof hash idx = ascend (combine sha256) proof hash (idx % 2 ^ proof.length) := by
  induction proof generalizing hash idx with
  | nil => rfl
  | cons sibling proof ih =>
    have hparity : idx % 2 ^ (proof.length + 1) % 2 = idx % 2 := Nat.mod_mod_of_dvd _ (dvd_pow_self 2 (Nat.succ_ne_zero _))
    have hhalf : idx % 2 ^ (proof.length + 1) / 2 = idx / 2 % 2 ^ proof.length := by
      rw [pow_succ', Nat.mod_mul_right_div_self]
    rw [verifyLoop, ascend, ih, List.length_cons, hparity, hhalf]
    rcases Nat.mod_two_eq_zero_or_one idx with heven | hodd
    · simp [heven]
    · simp [hodd]

theorem combine_binding : Binding (combine sha256) (IsWide sha256) fun _ => False where
  digest_pair a b := .inr ⟨a ++ b, rfl⟩
  digest_leaf h := h.elim
  left ha hc heq := (hd.bifixFree.append_left ha hc (hd.injective heq)).1
  right ha hc heq := (hd.bifixFree.append_right ha hc (hd.injective heq)).2
  leaf_ne _ _ h := h

/-- Every hash of a list has a proof, which verifies at its index. A proof of the height of the tree that verifies for a
string of the width of a digest is one of the hash at that position, where the last hash fills the positions beyond the list. -/
theorem verifyMerkleProof_complete_sound (hne : hashes ≠ []) (hhash : ∀ hash ∈ hashes, IsWide sha256 hash) :
    (∀ i hash, hashes[i]? = some hash → verifyMerkleProof sha256 hash (getMerkleProof (buildMerkleTree sha256 hashes) i)
      (buildMerkleTree sha256 hashes).root i = true) ∧
    ∀ leaf proof j, IsWide sha256 leaf → proof.length + 1 = (buildMerkleTree sha256 hashes).layers.length → j < 2 ^ proof.length →
      verifyMerkleProof sha256 leaf proof (buildMerkleTree sha256 hashes).root j = true →
      hashes[min j (hashes.length - 1)]? = some leaf := by
  have hpos : 0 < hashes.length := List.length_pos_of_ne_nil hne
  have hheight : hashes.length ≤ 2 ^ Nat.clog 2 hashes.length := Nat.le_pow_clog (by norm_num) _
  obtain ⟨hlength, hpadded⟩ := padLeaves_spec hne
  have hfill : ∀ j, hashes[min j (hashes.length - 1)]? = some (hashes.getD (min j (hashes.length - 1)) []) := by
    intro j
    rw [List.getD_eq_getElem?_getD, List.getElem?_eq_getElem (by omega), Option.getD_some]
  have hfilled : ∀ j, IsWide sha256 (hashes.getD (min j (hashes.length - 1)) []) := fun j => hhash _ (List.mem_of_getElem? (hfill j))
  have hfull : ∀ j, hashes.getD (min j (hashes.length - 1)) [] ≠ [] := fun j => hd.wide_ne_nil (hfilled j)
  obtain ⟨hroot, hlayers, hproof⟩ := buildLayers_spec hd hlength (fun j hj => (hpadded j hj).trans (hfill j)) fun j _ => hfull j
  simp only [buildMerkleTree, if_neg hne, getMerkleProof, verifyMerkleProof, verifyLoop_eq_ascend, beq_iff_eq, hroot, hlayers]
  constructor
  · intro i hash hi
    have hlt := (List.getElem?_eq_some_iff.mp hi).1
    have hself := hfill i
    rw [min_eq_left (by omega), hi] at hself
    rw [hproof i (hlt.trans_le hheight), siblings_length, Nat.mod_eq_of_lt (hlt.trans_le hheight), Option.some.inj hself,
      ← ascend_siblings (combine sha256) _ _ (hlt.trans_le hheight), min_eq_left (by omega)]
  · intro leaf proof j hleaf hlast hj hverify
    have hproofs : proof.length = Nat.clog 2 hashes.length := Nat.succ.inj hlast
    -- equal roots have equal halves, down to the leaf at the position of `j`
    rw [Nat.mod_eq_of_lt hj] at hverify
    rw [hfill, (combine_binding hd).ascend_sound hfilled hproofs (hproofs ▸ hj) hleaf hverify]

/-! ### A concrete digest -/

omit hd

/-- No string of hexadecimal digits has a `g`, and the word between the two that mark its ends has none. -/
def marked (s : Text) : Text := 'g' :: (bracketed s ++ ['g'])

theorem IsHash.g_notMem {s : Text} (h : IsHash s) : 'g' ∉ s := fun hmem => absurd (h.2 _ hmem) (by decide)

theorem eq_of_start {f : Text → Text} (hf : ∀ s, 'g' ∉ f s) :
    ∀ u ∈ {s | IsHash s} ∪ Set.range fun s => 'g' :: (f s ++ ['g']), ∀ v ∈ {s | IsHash s} ∪ Set.range fun s => 'g' :: (f s ++ ['g']),
      u <+: v → u = v := by
  rintro u (hu | ⟨s, rfl⟩) v (hv | ⟨t, rfl⟩) h
  · exact h.eq_of_length (hu.1.trans hv.1.symm)
  · obtain ⟨x, hx⟩ := h
    cases u with
    | nil => cases hu.1
    | cons c u =>
      obtain rfl := (List.cons.inj hx).1
      exact absurd List.mem_cons_self hu.g_notMem
  · exact absurd (h.subset List.mem_cons_self) hv.g_notMem
  · obtain ⟨x, hx⟩ := h
    have htail : f s ++ 'g' :: x = f t ++ 'g' :: [] := by simpa using hx
    show 'g' :: (f s ++ ['g']) = 'g' :: (f t ++ ['g'])
    rw [((List.append_cons_inj_of_notMem (hf t) List.not_mem_nil).mp htail.symm).1]

theorem marked_wide : WideDigest marked where
  injective s t h := bracketed_injective (List.append_cancel_right (List.cons.inj h).2)
  bifixFree := by
    have hmiddle : ∀ s, 'g' ∉ bracketed s := fun s => bracketed_ideal.notMem (by decide)
    have hback : ∀ w ∈ {s | IsHash s} ∪ Set.range marked,
        w.reverse ∈ {s | IsHash s} ∪ Set.range fun s => 'g' :: ((bracketed s).reverse ++ ['g']) := by
      rintro w (hw | ⟨s, rfl⟩)
      · exact .inl ⟨by simpa using hw.1, fun c hc => hw.2 c (List.mem_reverse.mp hc)⟩
      · exact .inr ⟨s, by simp [marked]⟩
    refine ⟨eq_of_start hmiddle, fun u hu v hv h => List.reverse_injective ?_⟩
    have hmiddle' : ∀ s, 'g' ∉ (bracketed s).reverse := by simpa using hmiddle
    exact eq_of_start hmiddle' _ (hback u hu) _ (hback v hv) (List.reverse_prefix.mpr h)

def digits (c : Char) : Text := List.replicate 64 c

def threeHashes : List Text := [digits '0', digits '1', digits '2']

theorem threeHashes_isHash : ∀ hash ∈ threeHashes, IsHash hash := by
  have hdigits : ∀ c, c.toLower ∈ hexDigits → IsHash (digits c) := by
    intro c hc
    refine ⟨List.length_replicate, fun d hmem => ?_⟩
    rw [List.eq_of_mem_replicate hmem]
    exact hc
  intro hash hmem
  simp only [threeHashes, List.mem_cons, List.not_mem_nil, or_false] at hmem
  rcases hmem with rfl | rfl | rfl <;> exact hdigits _ (by decide)

theorem buildMerkleTree_three (hd : WideDigest sha256) {a b c : Text} (hb : b ≠ []) (hc : c ≠ []) :
    buildMerkleTree sha256 [a, b, c] = ⟨combine sha256 (combine sha256 a b) (combine sha256 c c), [a, b, c],
      [[a, b, c, c], [combine sha256 a b, combine sha256 c c], [combine sha256 (combine sha256 a b) (combine sha256 c c)]]⟩ := by
  have hpadded : padLeaves [a, b, c] = [a, b, c, c] := by
    rw [padLeaves, dif_pos (by simp), padLeaves, dif_neg (by simp)]
    rfl
  have hnode : combine sha256 c c ≠ [] := hd.ne_nil _
  simp [buildMerkleTree, hpadded, buildLayers, nextLayer, pairUp, hb, hc, hnode]

theorem buildMerkleTree_threeHashes :
    (buildMerkleTree marked threeHashes).root = combine marked (combine marked (digits '0') (digits '1')) (combine marked (digits '2') (digits '2')) ∧
      (buildMerkleTree marked threeHashes).layers.length = 3 := by
  have hbuilt := buildMerkleTree_three marked_wide (a := digits '0') (b := digits '1') (c := digits '2') (by simp [digits]) (by simp [digits])
  rw [threeHashes, hbuilt]
  exact ⟨rfl, rfl⟩

theorem verifyMerkleProof_complete_sound_three :
    verifyMerkleProof marked (digits '2') (getMerkleProof (buildMerkleTree marked threeHashes) 2) (buildMerkleTree marked threeHashes).root 2 = true ∧
      threeHashes[min 3 2]? = some (digits '2') := by
  have h := verifyMerkleProof_complete_sound marked_wide (show threeHashes ≠ [] from List.cons_ne_nil _ _) fun hash hmem => .inl (threeHashes_isHash hash hmem)
  obtain ⟨hroot, hlayers⟩ := buildMerkleTree_threeHashes
  refine ⟨h.1 2 (digits '2') rfl, h.2 (digits '2') [digits '2', combine marked (digits '0') (digits '1')] 3 (.inl (threeHashes_isHash _ (by simp [threeHashes]))) ?_ (by decide) ?_⟩
  · exact hlayers.symm
  · rw [hroot]
    exact beq_self_eq_true _

/-- The last hash verifies at a position beyond the list, a node does with what is left of a proof, and the empty string does beside
both halves of a node. -/
theorem verifyMerkleProof_exceptions :
    Function.Injective marked ∧ (∀ hash ∈ threeHashes, IsHash hash) ∧
    (verifyMerkleProof marked (digits '2') [digits '2', combine marked (digits '0') (digits '1')] (buildMerkleTree marked threeHashes).root 3 = true ∧
      ¬ 3 < threeHashes.length) ∧
    (verifyMerkleProof marked (buildMerkleTree marked threeHashes).root [] (buildMerkleTree marked threeHashes).root 0 = true ∧
      threeHashes[0]? ≠ some (buildMerkleTree marked threeHashes).root) ∧
    (verifyMerkleProof marked [] [combine marked (digits '0') (digits '1') ++ combine marked (digits '2') (digits '2')]
        (buildMerkleTree marked threeHashes).root 0 = true ∧ threeHashes[0]? ≠ some []) := by
  obtain ⟨hroot, -⟩ := buildMerkleTree_threeHashes
  refine ⟨marked_wide.injective, threeHashes_isHash, ⟨?_, by decide⟩, ⟨beq_self_eq_true _, ?_⟩, ?_, by simp [threeHashes, digits]⟩
  · rw [hroot]
    exact beq_self_eq_true _
  · intro hsame
    have hash : IsHash (buildMerkleTree marked threeHashes).root := threeHashes_isHash _ (List.mem_of_getElem? hsame)
    rw [hroot] at hash
    exact hash.g_notMem List.mem_cons_self
  · rw [hroot]
    exact beq_self_eq_true _

end OxScada.Crypto
