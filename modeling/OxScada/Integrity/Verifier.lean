import OxScada.Integrity.MerkleProofs

/-! The proof verification client. The anchoring contract is a parameter: it answers
a batch number with the stored anchor, or the call fails. -/

namespace OxScada.Integrity
open OxScada.Bytes OxScada.Hashing MerkleTreeBuilder

structure HashedEvent where
  id : Text
  hash : Text
  deriving DecidableEq, Repr

structure EventBatch where
  events : List HashedEvent
  batchHash : Text
  deriving DecidableEq, Repr

structure AnchorData where
  merkleRoot : Text
  present : Bool
  deriving DecidableEq, Repr

structure AnchoredEvent where
  blockNumber : ℕ
  transactionHash : Text
  deriving DecidableEq, Repr

structure AnchorContract where
  getAnchor : ℤ → Except String AnchorData
  queryAnchored : ℤ → Except String (List AnchoredEvent)

structure VerificationResult where
  valid : Bool
  eventHash : Text
  proof : Option MerkleProof := none
  anchored : Bool
  batchId : Option ℤ := none
  blockNumber : Option ℕ := none
  transactionHash : Option Text := none
  error : Option String := none
  verifiedAt : ℤ
  deriving DecidableEq, Repr

def hexPrefix : Text := ['0', 'x']

def normalizeRoot (root : Text) : Text := if hexPrefix <+: root then root else hexPrefix ++ root

section Client
variable (sha256 : Text → Text) (contract : AnchorContract) (verifiedAt : ℤ)

/-- The root as submitted on chain; building fails exactly on a batch without events. -/
def rootBytes32 (eventHashes : List Text) (emptyFallbackHex : Text) : Text :=
  match buildFromEventHashes sha256 eventHashes with
  | .ok r => normalizeRoot r.root
  | .error _ => normalizeRoot emptyFallbackHex

def generateProofForEventInBatch (event : HashedEvent) (batch : EventBatch) : Option MerkleProof :=
  match buildTree sha256 (batch.events.map (·.hash)) with
  | .error _ => none
  | .ok treeResult =>
    match batch.events.findIdx? (fun e => e.id == event.id) with
    | none => none
    | some eventIndex => (generateProof sha256 treeResult.tree event.hash eventIndex).toOption

def getAnchorTransactionDetails (batchId : ℤ) : Option ℕ × Option Text :=
  match contract.queryAnchored batchId with
  | .ok (event :: _) => (some event.blockNumber, some event.transactionHash)
  | _ => (none, none)

def verifyEvent (eventHash : Text) (proof : MerkleProof) (batchId : ℤ) : VerificationResult :=
  if verifyProof sha256 proof = false then
    { valid := false, eventHash, anchored := false, error := some "Invalid Merkle proof", verifiedAt }
  else
    match contract.getAnchor batchId with
    | .error message =>
      { valid := false, eventHash, anchored := false, batchId := some batchId,
        error := some s!"Verification failed: {message}", verifiedAt }
    | .ok anchorData =>
      if anchorData.present = false then
        { valid := false, eventHash, anchored := false, batchId := some batchId,
          error := some "Batch not anchored on blockchain", verifiedAt }
      else if proof.root ≠ anchorData.merkleRoot then
        { valid := false, eventHash, anchored := true, batchId := some batchId,
          error := some "Proof root does not match anchored root", verifiedAt }
      else
        let details := getAnchorTransactionDetails contract batchId
        { valid := true, eventHash, proof := some proof, anchored := true, batchId := some batchId,
          blockNumber := details.1, transactionHash := details.2, verifiedAt }

def verifyEventWithAnchor (eventHash : Text) (proof : MerkleProof) (batchId : ℤ)
    (anchorData : AnchorData) (blockNumber : Option ℕ) (transactionHash : Option Text) :
    VerificationResult :=
  if verifyProof sha256 proof = false then
    { valid := false, eventHash, anchored := false, batchId := some batchId,
      error := some "Invalid Merkle proof", verifiedAt }
  else if anchorData.present = false then
    { valid := false, eventHash, anchored := false, batchId := some batchId,
      error := some "Batch not anchored on blockchain", verifiedAt }
  else if proof.root ≠ anchorData.merkleRoot then
    { valid := false, eventHash, anchored := true, batchId := some batchId,
      error := some "Proof root does not match anchored root", verifiedAt }
  else
    { valid := true, eventHash, proof := some proof, anchored := true, batchId := some batchId,
      blockNumber, transactionHash, verifiedAt }

end Client

/-! ### What makes a verification succeed

The event hash that was asked about does not occur in it. -/

def Accepted (sha256 : Text → Text) (anchor : AnchorData) (p : MerkleProof) : Prop :=
  verifyProof sha256 p = true ∧ anchor.present = true ∧ p.root = anchor.merkleRoot

variable {sha256 : Text → Text} {contract : AnchorContract} {verifiedAt : ℤ} {batchId : ℤ}
  {anchor : AnchorData} {h : Text} {p : MerkleProof}

theorem verifyEvent_valid_iff (hanchor : contract.getAnchor batchId = .ok anchor) :
    (verifyEvent sha256 contract verifiedAt h p batchId).valid = true ↔ Accepted sha256 anchor p := by
  unfold verifyEvent Accepted
  rw [hanchor]
  cases hv : verifyProof sha256 p with
  | false => simp
  | true =>
    cases hp : anchor.present with
    | false => simp [hp]
    | true =>
      by_cases hroot : p.root = anchor.merkleRoot
      · simp [hp, hroot]
      · simp [hp, hroot]

theorem verifyEventWithAnchor_valid_iff {blockNumber : Option ℕ} {transactionHash : Option Text} :
    (verifyEventWithAnchor sha256 verifiedAt h p batchId anchor blockNumber transactionHash).valid = true ↔
      Accepted sha256 anchor p := by
  unfold verifyEventWithAnchor Accepted
  cases hv : verifyProof sha256 p with
  | false => simp
  | true =>
    cases hp : anchor.present with
    | false => simp
    | true =>
      by_cases hroot : p.root = anchor.merkleRoot
      · simp [hroot]
      · simp [hroot]

theorem verifyProof_root_digest (hv : verifyProof sha256 p = true) : ∃ y, p.root = sha256 y := by
  rw [verifyProof_iff, climb_eq_climbDown] at hv
  obtain ⟨y, hy⟩ := climbDown_digest sha256 p.leaf p.proof.reverse
  exact ⟨y, hv.symm.trans hy⟩

theorem hexPrefix_normalizeRoot (root : Text) : hexPrefix <+: normalizeRoot root := by
  unfold normalizeRoot
  split_ifs with hpre
  · exact hpre
  · exact List.prefix_append ..

/-- A digest has no `x`, so nothing is accepted against a root that is spelled with its prefix. -/
theorem not_accepted_of_hexPrefix (hhex : ∀ s, ∀ c ∈ sha256 s, c ∈ hexDigits) (hroot : hexPrefix <+: anchor.merkleRoot) :
    ¬ Accepted sha256 anchor p := by
  rintro ⟨hv, -, hmatch⟩
  obtain ⟨y, hy⟩ := verifyProof_root_digest hv
  rw [← hmatch, hy] at hroot
  have hx : 'x' ∈ sha256 y := hroot.subset (by decide)
  exact absurd (hhex y _ hx) (by decide)

theorem hexPrefix_rootBytes32 (sha256 : Text → Text) (data : List Text) (fallback : Text) :
    hexPrefix <+: rootBytes32 sha256 data fallback := by
  unfold rootBytes32
  split <;> exact hexPrefix_normalizeRoot _

/-- Against the root the anchor pipeline submits no proof is ever accepted, so no event
of the batch can be verified. -/
theorem verifyEvent_anchored_root_fails (hhex : ∀ s, ∀ c ∈ sha256 s, c ∈ hexDigits) {batch : EventBatch}
    {event : HashedEvent} (_hevent : event ∈ batch.events)
    (hanchor : contract.getAnchor batchId = .ok anchor)
    (hroot : anchor.merkleRoot = rootBytes32 sha256 (batch.events.map (·.hash)) batch.batchHash) :
    (∀ proof, (verifyEvent sha256 contract verifiedAt event.hash proof batchId).valid = false) ∧
    ¬ ∃ proof, generateProofForEventInBatch sha256 event batch = some proof ∧
      (verifyEvent sha256 contract verifiedAt event.hash proof batchId).valid = true ∧
      (verifyEvent sha256 contract verifiedAt event.hash proof batchId).anchored = true := by
  have hpre : hexPrefix <+: anchor.merkleRoot := hroot ▸ hexPrefix_rootBytes32 ..
  have hinvalid : ∀ proof, (verifyEvent sha256 contract verifiedAt event.hash proof batchId).valid = false := by
    intro proof
    rw [← Bool.not_eq_true, verifyEvent_valid_iff hanchor]
    exact not_accepted_of_hexPrefix hhex hpre
  refine ⟨hinvalid, ?_⟩
  rintro ⟨proof, -, hvalid, -⟩
  rw [hinvalid proof] at hvalid
  cases hvalid

def sampleEvent : HashedEvent := ⟨['e', '1'], ['a']⟩

def sampleBatch : EventBatch := ⟨[sampleEvent], ['b']⟩

def storing (root : Text) : AnchorContract where
  getAnchor := fun _ => .ok ⟨root, true⟩
  queryAnchored := fun _ => .ok []

def sampleContract : AnchorContract :=
  storing (rootBytes32 bracketed (sampleBatch.events.map (·.hash)) sampleBatch.batchHash)

theorem verifyEvent_anchored_root_fails_sample :
    (∀ proof, (verifyEvent bracketed sampleContract 0 ['a'] proof 1).valid = false) ∧
    ¬ ∃ proof, generateProofForEventInBatch bracketed sampleEvent sampleBatch = some proof ∧
      (verifyEvent bracketed sampleContract 0 ['a'] proof 1).valid = true ∧
      (verifyEvent bracketed sampleContract 0 ['a'] proof 1).anchored = true := by
  have hmem : sampleEvent ∈ sampleBatch.events := List.mem_singleton.mpr rfl
  have hanchor : sampleContract.getAnchor 1 =
      .ok ⟨rootBytes32 bracketed (sampleBatch.events.map (·.hash)) sampleBatch.batchHash, true⟩ := rfl
  exact verifyEvent_anchored_root_fails bracketed_ideal.hex hmem hanchor rfl

theorem buildTree_one (sha256 : Text → Text) (a : Text) :
    buildTree sha256 [a] =
      .ok { root := sha256 a, tree := leafNode sha256 0 a, leaves := [a], depth := 0 } := by
  simp [buildTree, buildTreeRecursive, leafNode, MerkleNode.hash, MerkleNode.calculateDepth]

theorem generateProofForEventInBatch_one (sha256 : Text → Text) (event : HashedEvent) (batchHash : Text) :
    generateProofForEventInBatch sha256 event ⟨[event], batchHash⟩ =
      some ⟨event.hash, 0, sha256 event.hash, []⟩ := by
  have hidx : [event].findIdx? (fun e => e.id == event.id) = some 0 := by simp
  rw [generateProofForEventInBatch, List.map_singleton, buildTree_one]
  simp only [hidx, generateProof, leafNode, generateProofRecursive_leaf]
  simp [MerkleNode.hash, Except.toOption]

/-- The honest proof of the only event of a batch is refused for its root's spelling. -/
theorem verifyEvent_refuses_honest_proof :
    generateProofForEventInBatch bracketed sampleEvent sampleBatch =
      some ⟨['a'], 0, bracketed ['a'], []⟩ ∧
    sampleContract.getAnchor 1 = .ok ⟨rootBytes32 bracketed [['a']] ['b'], true⟩ ∧
    (verifyEvent bracketed sampleContract 0 ['a'] ⟨['a'], 0, bracketed ['a'], []⟩ 1).valid = false := by
  refine ⟨generateProofForEventInBatch_one bracketed sampleEvent ['b'], rfl, ?_⟩
  have hanchor : sampleContract.getAnchor 1 = .ok ⟨rootBytes32 bracketed [['a']] ['b'], true⟩ := rfl
  rw [← Bool.not_eq_true, verifyEvent_valid_iff hanchor]
  exact not_accepted_of_hexPrefix bracketed_ideal.hex (hexPrefix_rootBytes32 _ [['a']] ['b'])

/-- Whatever is accepted against the root of a batch, as it is spelled on chain, is a hash of the batch: nothing is. -/
theorem verifyEvent_sound (hhex : ∀ s, ∀ c ∈ sha256 s, c ∈ hexDigits) {hs : List Text}
    (hroot : ∃ r, buildTree sha256 hs = .ok r ∧ anchor.merkleRoot = normalizeRoot r.root)
    (blockNumber : Option ℕ) (transactionHash : Option Text) :
    (contract.getAnchor batchId = .ok anchor → (verifyEvent sha256 contract verifiedAt h p batchId).valid = true → h ∈ hs) ∧
    ((verifyEventWithAnchor sha256 verifiedAt h p batchId anchor blockNumber transactionHash).valid = true → h ∈ hs) := by
  obtain ⟨r, -, hroot⟩ := hroot
  -- the root that the proof leads to is bare, and the anchored one is not
  have hnone : ¬ Accepted sha256 anchor p := not_accepted_of_hexPrefix hhex (hroot ▸ hexPrefix_normalizeRoot r.root)
  constructor
  · intro hanchor hvalid
    exact absurd ((verifyEvent_valid_iff hanchor).mp hvalid) hnone
  · intro hvalid
    exact absurd (verifyEventWithAnchor_valid_iff.mp hvalid) hnone

/-- A hash that is in no batch, with the honest proof of one that is. -/
theorem verifyEvent_sound_two :
    ∃ r, buildTree bracketed [['a'], ['b']] = .ok r ∧
      ((verifyEvent bracketed (storing (normalizeRoot r.root)) 0 ['z'] ⟨['a'], 0, r.root, [⟨bracketed ['b'], .right⟩]⟩ 1).valid = true →
        (['z'] : Text) ∈ [['a'], ['b']]) := by
  refine ⟨_, buildTree_two bracketed ['a'] ['b'], ?_⟩
  exact (verifyEvent_sound bracketed_ideal.hex ⟨_, buildTree_two bracketed ['a'] ['b'], rfl⟩ none none).1 rfl

end OxScada.Integrity
