import OxScada.Hashing.Digest
import OxScada.Hashing.Levels

/-! The Merkle tree builder of the integrity pipeline: trees over event hashes,
inclusion proofs and their verification. SHA-256 (in hexadecimal) is a parameter. -/

namespace OxScada.Integrity
open OxScada.Bytes OxScada.Hashing

inductive MerkleNode where
  | mk (hash : Text) (left right : Option MerkleNode) (data : Option Text) (index : Option ℕ)

namespace MerkleNode

def hash : MerkleNode → Text
  | .mk hash _ _ _ _ => hash

/-- A node is a leaf when it has no child at all; one with a single child counts as deep. -/
def calculateDepth : MerkleNode → ℕ
  | .mk _ none none _ _ => 0
  | .mk _ (some left) none _ _ => 1 + max (calculateDepth left) 0
  | .mk _ none (some right) _ _ => 1 + max 0 (calculateDepth right)
  | .mk _ (some left) (some right) _ _ => 1 + max (calculateDepth left) (calculateDepth right)

end MerkleNode

inductive Position where
  | left | right
  deriving DecidableEq, Repr

structure ProofStep where
  hash : Text
  position : Position
  deriving DecidableEq, Repr

structure MerkleProof where
  leaf : Text
  leafIndex : ℤ
  root : Text
  proof : List ProofStep
  deriving DecidableEq, Repr

structure MerkleTreeResult where
  root : Text
  tree : MerkleNode
  leaves : List Text
  depth : ℕ

namespace MerkleTreeBuilder

def emptyHash : Text := zeroDigest

def createEmptyNode : MerkleNode := .mk emptyHash none none none none

section Build
variable (sha256 : Text → Text)

def hashPair (left right : Text) : Text := sha256 (left ++ right)

def leafNode (index : ℕ) (item : Text) : MerkleNode := .mk (sha256 item) none none (some item) (some index)

def parentNode (left right : MerkleNode) : MerkleNode :=
  .mk (hashPair sha256 left.hash right.hash) (some left) (some right) none none

/-- One round of pairing; a level of odd length is completed by a childless empty node. -/
def parentNodes (nodes : List MerkleNode) : List MerkleNode :=
  pairUp (parentNode sha256) (fun left => parentNode sha256 left createEmptyNode) nodes

/-- The recursion runs on a non-empty level, given by its first node and the others. -/
def buildTreeRecursive (node : MerkleNode) : List MerkleNode → MerkleNode
  | [] => node
  | next :: rest => buildTreeRecursive (parentNode sha256 node next) (parentNodes sha256 rest)
termination_by rest => rest.length
decreasing_by
  simp only [parentNodes, pairUp_length, List.length_cons]
  omega

def buildTree (data : List Text) : Except String MerkleTreeResult :=
  match data.mapIdx (leafNode sha256) with
  | [] => .error "Cannot build Merkle tree from empty data"
  | node :: rest =>
    let tree := buildTreeRecursive sha256 node rest
    .ok { root := tree.hash, tree, leaves := data, depth := tree.calculateDepth }

def buildFromEventHashes (eventHashes : List Text) : Except String MerkleTreeResult :=
  buildTree sha256 eventHashes

end Build

/-- The descent to leaf `targetIndex`: whether it is found, and the siblings passed. -/
def generateProofRecursive (targetHash : Text) (targetIndex : ℤ) :
    MerkleNode → List ProofStep → ℤ → Bool × List ProofStep
  | .mk hash none none _ _, proof, currentIndex =>
    (hash == targetHash && currentIndex == targetIndex, proof)
  | .mk _ (some left) (some right) _ _, proof, currentIndex =>
    let leftSubtreeSize := 2 ^ left.calculateDepth
    if targetIndex < currentIndex + leftSubtreeSize then
      generateProofRecursive targetHash targetIndex left (proof ++ [⟨right.hash, .right⟩]) currentIndex
    else
      generateProofRecursive targetHash targetIndex right (proof ++ [⟨left.hash, .left⟩])
        (currentIndex + leftSubtreeSize)
  -- a node with one child, which `buildTree` never makes
  | .mk _ _ _ _ _, proof, _ => (false, proof)

section Proofs
variable (sha256 : Text → Text)

def generateProof (tree : MerkleNode) (leafData : Text) (leafIndex : ℤ) : Except String MerkleProof :=
  let (found, proof) := generateProofRecursive (sha256 leafData) leafIndex tree [] 0
  if found then .ok { leaf := leafData, leafIndex, root := tree.hash, proof := proof.reverse }
  else
    let shown := String.ofList leafData
    .error s!"Leaf not found in tree: {shown} at index {leafIndex}"

/-- The loop of `verifyProof`. The index is carried along but never read. -/
def verifyLoop (state : Text × ℤ) (proof : List ProofStep) : Text × ℤ :=
  proof.foldl (fun (current : Text × ℤ) step =>
    match step.position with
    | .left => (hashPair sha256 step.hash current.1, current.2 / 2)
    | .right => (hashPair sha256 current.1 step.hash, current.2 / 2)) state

def verifyProof (proof : MerkleProof) : Bool :=
  (verifyLoop sha256 (sha256 proof.leaf, proof.leafIndex) proof.proof).1 == proof.root

def stepHash (current : Text) (step : ProofStep) : Text :=
  match step.position with
  | .left => hashPair sha256 step.hash current
  | .right => hashPair sha256 current step.hash

/-- The digest a list of siblings leads to, from the leaf upwards. -/
def climb (current : Text) (proof : List ProofStep) : Text := proof.foldl (stepHash sha256) current

theorem verifyLoop_fst (state : Text × ℤ) (proof : List ProofStep) :
    (verifyLoop sha256 state proof).1 = climb sha256 state.1 proof := by
  induction proof generalizing state with
  | nil => rfl
  | cons step proof ih =>
    simp only [verifyLoop, climb, List.foldl_cons] at ih ⊢
    rw [ih]
    rcases hp : step.position <;> simp [stepHash, hp]

theorem verifyProof_iff (p : MerkleProof) :
    verifyProof sha256 p = true ↔ climb sha256 (sha256 p.leaf) p.proof = p.root := by
  rw [verifyProof, beq_iff_eq, verifyLoop_fst]

theorem climb_concat (current : Text) (proof : List ProofStep) (step : ProofStep) :
    climb sha256 current (proof ++ [step]) = stepHash sha256 (climb sha256 current proof) step := by
  simp [climb]

end Proofs

/-! ### The shape of a built tree -/

/-- `node` is entry `i` of the level at height `h` over `data`: a leaf, a pair of
entries below, or an entry below next to padding with no leaf under it. -/
inductive Covers (sha256 : Text → Text) (data : List Text) : ℕ → ℕ → MerkleNode → Prop
  | leaf {i : ℕ} {x : Text} (hx : data[i]? = some x) : Covers sha256 data 0 i (leafNode sha256 i x)
  | full {h i : ℕ} {l r : MerkleNode} (hl : Covers sha256 data h (2 * i) l)
      (hr : Covers sha256 data h (2 * i + 1) r) : Covers sha256 data (h + 1) i (parentNode sha256 l r)
  | padded {h i : ℕ} {l : MerkleNode} (hl : Covers sha256 data h (2 * i) l)
      (hend : data.length ≤ (2 * i + 1) * 2 ^ h) :
      Covers sha256 data (h + 1) i (parentNode sha256 l createEmptyNode)

variable {sha256 : Text → Text} {data : List Text}

variable {h : ℕ} {node : MerkleNode}

theorem Covers.depth {i : ℕ} (hc : Covers sha256 data h i node) :
    node.calculateDepth = h := by
  induction hc with
  | leaf hx => rfl
  | full hl hr ihl ihr =>
    rw [parentNode, MerkleNode.calculateDepth, ihl, ihr, max_self, Nat.add_comm]
  | padded hl hend ihl =>
    rw [parentNode, MerkleNode.calculateDepth, ihl, createEmptyNode, MerkleNode.calculateDepth,
      Nat.max_eq_left (Nat.zero_le _), Nat.add_comm]

theorem start_left (h i : ℕ) : i * 2 ^ (h + 1) = 2 * i * 2 ^ h := by
  ring

theorem start_right (h i : ℕ) : i * 2 ^ (h + 1) + 2 ^ h = (2 * i + 1) * 2 ^ h := by
  ring

theorem Covers.start_lt {i : ℕ} (hc : Covers sha256 data h i node) :
    i * 2 ^ h < data.length := by
  induction hc with
  | leaf hx => simpa using (List.getElem?_eq_some_iff.mp hx).1
  | full hl hr ihl ihr => rw [start_left]; exact ihl
  | padded hl hend ihl => rw [start_left]; exact ihl

/-- A level of the tree: its entries, their reach and their distance from the root. -/
structure Level (sha256 : Text → Text) (data : List Text) (h : ℕ) (nodes : List MerkleNode) : Prop where
  covers : ∀ i node, nodes[i]? = some node → Covers sha256 data h i node
  reach : data.length ≤ nodes.length * 2 ^ h
  height : Nat.clog 2 nodes.length + h = Nat.clog 2 data.length

theorem level_leaves (sha256 : Text → Text) (data : List Text) :
    Level sha256 data 0 (data.mapIdx (leafNode sha256)) where
  covers := by
    intro i node hnode
    rw [List.getElem?_mapIdx] at hnode
    obtain ⟨x, hx, rfl⟩ := Option.map_eq_some_iff.mp hnode
    exact .leaf hx
  reach := by simp
  height := by simp

theorem Level.parents {nodes : List MerkleNode} (hl : Level sha256 data h nodes)
    (htwo : 2 ≤ nodes.length) : Level sha256 data (h + 1) (parentNodes sha256 nodes) where
  covers := by
    intro i node hnode
    obtain ⟨a, ha, ⟨b, hb, rfl⟩ | ⟨hnone, rfl⟩⟩ := pairUp_cases _ _ hnode
    · exact .full (hl.covers _ _ ha) (hl.covers _ _ hb)
    · have hlen : nodes.length ≤ 2 * i + 1 := List.getElem?_eq_none_iff.mp hnone
      exact .padded (hl.covers _ _ ha) (hl.reach.trans (Nat.mul_le_mul_right _ hlen))
  reach := by
    have hlen : nodes.length ≤ 2 * ((nodes.length + 1) / 2) := by omega
    calc data.length ≤ nodes.length * 2 ^ h := hl.reach
      _ ≤ 2 * ((nodes.length + 1) / 2) * 2 ^ h := Nat.mul_le_mul_right _ hlen
      _ = (parentNodes sha256 nodes).length * 2 ^ (h + 1) := by
        rw [parentNodes, pairUp_length]
        ring
  height := by
    rw [parentNodes, pairUp_length, ← hl.height, clog_halve htwo]
    ring

theorem buildTreeRecursive_covers {rest : List MerkleNode}
    (hl : Level sha256 data h (node :: rest)) :
    Covers sha256 data (Nat.clog 2 data.length) 0 (buildTreeRecursive sha256 node rest) := by
  induction node, rest using buildTreeRecursive.induct sha256 generalizing h with
  | case1 node =>
    have hheight : h = Nat.clog 2 data.length := by simpa using hl.height
    rw [buildTreeRecursive, ← hheight]
    exact hl.covers 0 node rfl
  | case2 node next rest ih =>
    rw [buildTreeRecursive]
    exact ih (hl.parents (by simp))

theorem buildTree_covers (sha256 : Text → Text) (hne : data ≠ []) :
    ∃ r, buildTree sha256 data = .ok r ∧ r.root = r.tree.hash ∧
      Covers sha256 data (Nat.clog 2 data.length) 0 r.tree := by
  have hlevel := level_leaves sha256 data
  rcases hm : data.mapIdx (leafNode sha256) with _ | ⟨node, rest⟩
  · exact absurd (List.mapIdx_eq_nil_iff.mp hm) hne
  · rw [hm] at hlevel
    exact ⟨_, by rw [buildTree, hm], rfl, buildTreeRecursive_covers hlevel⟩

end MerkleTreeBuilder

end OxScada.Integrity
