import OxScada.Integrity.Verifier
import OxScada.Order.Keys
import OxScada.Order.StableSort

/-! The verification of many requests at once. It looks every batch up once, so the results come batch by batch, and they are those of
one verification after the other in so far as this order is that of the requests. -/

namespace OxScada.Integrity
open OxScada.Bytes OxScada.Hashing OxScada.Order MerkleTreeBuilder

structure BatchRequest where
  eventHash : Text
  proof : MerkleProof
  batchId : ℤ

/-! ### The groups -/

def addToGroup (batchGroups : List (ℤ × List BatchRequest)) (request : BatchRequest) : List (ℤ × List BatchRequest) :=
  if batchGroups.any fun group => group.1 = request.batchId then
    batchGroups.map fun group => if group.1 = request.batchId then (group.1, group.2 ++ [request]) else group
  else batchGroups ++ [(request.batchId, [request])]

variable (requests : List BatchRequest)

def groupByBatch : List (ℤ × List BatchRequest) := requests.foldl addToGroup []

section Client
variable (sha256 : Text → Text) (contract : AnchorContract)

def verifyGrouped (verifiedAt : ℤ) (request : BatchRequest) : VerificationResult :=
  match contract.getAnchor request.batchId with
  | .ok anchorData =>
    let details := getAnchorTransactionDetails contract request.batchId
    verifyEventWithAnchor sha256 verifiedAt request.eventHash request.proof request.batchId anchorData details.1 details.2
  | .error message =>
    { valid := false, eventHash := request.eventHash, anchored := false, batchId := some request.batchId,
      error := some s!"Batch verification failed: {message}", verifiedAt }

def pushResult (now : ℕ → ℤ) (results : List VerificationResult) (request : BatchRequest) : List VerificationResult :=
  results ++ [verifyGrouped sha256 contract (now results.length) request]

def verifyEventBatch (now : ℕ → ℤ) (verificationRequests : List BatchRequest) : List VerificationResult :=
  (groupByBatch verificationRequests).foldl (fun results group => group.2.foldl (pushResult sha256 contract now) results) []

end Client

/-! ### The order of the results -/

def batchIds : List ℤ := (requests.map (·.batchId)).eraseDups

def byBatch : List BatchRequest := dealt (·.batchId) (batchIds requests) requests

theorem mem_batchIds {requests : List BatchRequest} {id : ℤ} : id ∈ batchIds requests ↔ ∃ request ∈ requests, request.batchId = id := by
  simp [batchIds, List.mem_eraseDups]

theorem batchIds_snoc (request : BatchRequest) :
    batchIds (requests ++ [request]) = if request.batchId ∈ batchIds requests then batchIds requests else batchIds requests ++ [request.batchId] := by
  unfold batchIds
  rw [List.map_append, List.map_singleton, List.eraseDups_append, List.removeAll]
  by_cases hmem : request.batchId ∈ requests.map (·.batchId)
  · rw [if_pos (List.mem_eraseDups.mpr hmem), List.filter_cons_of_neg (by simpa using hmem)]
    simp
  · rw [if_neg (mt List.mem_eraseDups.mp hmem), List.filter_cons_of_pos (by simpa using hmem)]
    simp [List.eraseDups_cons]

theorem batchIds_nodup : (batchIds requests).Nodup := by
  induction requests using List.reverseRecOn with
  | nil => exact List.nodup_nil
  | append_singleton requests request ih =>
    rw [batchIds_snoc]
    split_ifs with hmem
    · exact ih
    · refine List.nodup_append.mpr ⟨ih, List.nodup_singleton _, fun id hid other hother => ?_⟩
      rw [List.mem_singleton.mp hother]
      exact fun hsame => hmem (hsame ▸ hid)

theorem groupByBatch_eq :
    groupByBatch requests = (batchIds requests).map fun id => (id, requests.filter fun request => request.batchId = id) := by
  induction requests using List.reverseRecOn with
  | nil => rfl
  | append_singleton requests request ih =>
    have hknown : ((batchIds requests).map fun id => (id, requests.filter fun r => r.batchId = id)).any (fun group => group.1 = request.batchId) =
        decide (request.batchId ∈ batchIds requests) := by
      rw [List.any_map, Bool.eq_iff_iff]
      simp
    rw [groupByBatch, List.foldl_concat, ← groupByBatch, ih, addToGroup, hknown, batchIds_snoc]
    by_cases hmem : request.batchId ∈ batchIds requests
    · rw [if_pos (decide_eq_true hmem), if_pos hmem, List.map_map]
      apply List.map_congr_left
      intro id _
      by_cases hid : id = request.batchId
      · simp [hid, List.filter_append]
      · simp [hid, List.filter_append, Ne.symm hid]
    · have hnone : requests.filter (fun r => r.batchId = request.batchId) = [] := by
        refine List.filter_eq_nil_iff.mpr fun r hr hsame => hmem ?_
        exact mem_batchIds.mpr ⟨r, hr, by simpa using hsame⟩
      rw [if_neg (by simpa using hmem), if_neg hmem, List.map_append]
      congr 1
      · apply List.map_congr_left
        intro id hid
        have hne : request.batchId ≠ id := fun hsame => hmem (hsame ▸ hid)
        simp [List.filter_append, hne]
      · simp [List.filter_append, hnone]

/-! ### What a verification says -/

section Outcomes
variable {sha256 : Text → Text} {contract : AnchorContract}

/-- Whether a request is valid, and whether its batch is anchored. A proof that does not verify hides the anchor. -/
def standing (sha256 : Text → Text) (contract : AnchorContract) (request : BatchRequest) : Bool × Bool :=
  match verifyProof sha256 request.proof, contract.getAnchor request.batchId with
  | true, .ok anchor => (anchor.present && decide (request.proof.root = anchor.merkleRoot), anchor.present)
  | _, _ => (false, false)

theorem verifyEvent_standing (verifiedAt : ℤ) (request : BatchRequest) :
    let result := verifyEvent sha256 contract verifiedAt request.eventHash request.proof request.batchId
    result.eventHash = request.eventHash ∧ (result.valid, result.anchored) = standing sha256 contract request := by
  unfold verifyEvent standing
  cases verifyProof sha256 request.proof with
  | false => exact ⟨rfl, rfl⟩
  | true =>
    cases contract.getAnchor request.batchId with
    | error message => exact ⟨rfl, rfl⟩
    | ok anchor =>
      cases hpresent : anchor.present with
      | false => simp [hpresent]
      | true =>
        by_cases hroot : request.proof.root = anchor.merkleRoot
        · simp [hpresent, hroot]
        · simp [hpresent, hroot]

theorem verifyGrouped_standing (verifiedAt : ℤ) (request : BatchRequest) :
    (verifyGrouped sha256 contract verifiedAt request).eventHash = request.eventHash ∧
      ((verifyGrouped sha256 contract verifiedAt request).valid, (verifyGrouped sha256 contract verifiedAt request).anchored) =
        standing sha256 contract request := by
  unfold verifyGrouped verifyEventWithAnchor standing
  cases contract.getAnchor request.batchId with
  | error message => cases verifyProof sha256 request.proof <;> exact ⟨rfl, rfl⟩
  | ok anchor =>
    cases verifyProof sha256 request.proof with
    | false => exact ⟨rfl, rfl⟩
    | true =>
      cases hpresent : anchor.present with
      | false => simp [hpresent]
      | true =>
        by_cases hroot : request.proof.root = anchor.merkleRoot
        · simp [hpresent, hroot]
        · simp [hpresent, hroot]

def VerificationResult.outcome (result : VerificationResult) : Text × Bool × Bool := (result.eventHash, result.valid, result.anchored)

def BatchRequest.outcome (sha256 : Text → Text) (contract : AnchorContract) (request : BatchRequest) : Text × Bool × Bool :=
  (request.eventHash, standing sha256 contract request)

theorem pushResults_outcome (now : ℕ → ℤ) (requests : List BatchRequest) (results : List VerificationResult) :
    (requests.foldl (pushResult sha256 contract now) results).map (·.outcome) =
      results.map (·.outcome) ++ requests.map (BatchRequest.outcome sha256 contract) := by
  induction requests generalizing results with
  | nil => simp
  | cons request rest ih =>
    obtain ⟨hhash, hstanding⟩ := @verifyGrouped_standing sha256 contract (now results.length) request
    have houtcome : (verifyGrouped sha256 contract (now results.length) request).outcome = request.outcome sha256 contract :=
      Prod.ext hhash hstanding
    rw [List.foldl_cons, ih, pushResult, List.map_append, List.map_singleton, houtcome, List.append_assoc]
    rfl

theorem verifyEventBatch_outcome (now : ℕ → ℤ) (requests : List BatchRequest) :
    (verifyEventBatch sha256 contract now requests).map (·.outcome) = (byBatch requests).map (BatchRequest.outcome sha256 contract) := by
  have hgroups : ∀ (groups : List (ℤ × List BatchRequest)) (results : List VerificationResult),
      (groups.foldl (fun results group => group.2.foldl (pushResult sha256 contract now) results) results).map (·.outcome) =
        results.map (·.outcome) ++ (groups.flatMap (·.2)).map (BatchRequest.outcome sha256 contract) := by
    intro groups
    induction groups with
    | nil => simp
    | cons group rest ih =>
      intro results
      rw [List.foldl_cons, ih, pushResults_outcome, List.flatMap_cons, List.map_append, List.append_assoc]
  rw [verifyEventBatch, hgroups, groupByBatch_eq, List.flatMap_map]
  rfl

/-- A result has the event hash of the request, and says of it what the single verification says at any time. -/
def Agrees (sha256 : Text → Text) (contract : AnchorContract) (request : BatchRequest) (result : VerificationResult) : Prop :=
  result.eventHash = request.eventHash ∧ ∀ verifiedAt,
    result.valid = (verifyEvent sha256 contract verifiedAt request.eventHash request.proof request.batchId).valid ∧
    result.anchored = (verifyEvent sha256 contract verifiedAt request.eventHash request.proof request.batchId).anchored

theorem agrees_iff {request : BatchRequest} {result : VerificationResult} :
    Agrees sha256 contract request result ↔ result.outcome = request.outcome sha256 contract := by
  have hsingle := fun verifiedAt => (@verifyEvent_standing sha256 contract verifiedAt request).2
  unfold Agrees VerificationResult.outcome BatchRequest.outcome
  rw [Prod.mk.injEq]
  refine and_congr_right fun _ => ?_
  constructor
  · intro h
    rw [← hsingle 0]
    exact Prod.ext (h 0).1 (h 0).2
  · intro h verifiedAt
    have hsame := h.trans (hsingle verifiedAt).symm
    exact Prod.mk.inj hsame

theorem forall₂_map_iff {α β γ : Type} {f : α → γ} {g : β → γ} {l : List α} {m : List β} :
    List.Forall₂ (fun x y => g y = f x) l m ↔ m.map g = l.map f := by
  rw [eq_comm, ← List.forall₂_eq_eq_eq, List.forall₂_map_left_iff, List.forall₂_map_right_iff]
  simp only [eq_comm]

theorem forall₂_agrees_iff {requests : List BatchRequest} {results : List VerificationResult} :
    List.Forall₂ (Agrees sha256 contract) requests results ↔ results.map (·.outcome) = requests.map (BatchRequest.outcome sha256 contract) := by
  have hagrees : Agrees sha256 contract = fun request result => result.outcome = request.outcome sha256 contract := by
    funext request result
    exact propext agrees_iff
  rw [hagrees, forall₂_map_iff]

theorem verifyEventBatch_agrees_of_sorted (now : ℕ → ℤ) {requests : List BatchRequest}
    (hsorted : requests.Pairwise fun x y => (batchIds requests).idxOf x.batchId ≤ (batchIds requests).idxOf y.batchId) :
    List.Forall₂ (Agrees sha256 contract) requests (verifyEventBatch sha256 contract now requests) := by
  have hparts : ∀ request ∈ requests, request.batchId ∈ batchIds requests := fun request h => mem_batchIds.mpr ⟨request, h, rfl⟩
  have hsame : byBatch requests = requests := (dealt_eq_iff (batchIds_nodup requests) hparts).mpr hsorted
  rw [forall₂_agrees_iff, verifyEventBatch_outcome, hsame]

/-- As many results as requests, each in its place, if and only if what the order by batches puts in a place has the hash and the
standing of the request there. -/
theorem verifyEventBatch_agrees_iff (now : ℕ → ℤ) (requests : List BatchRequest) :
    List.Forall₂ (Agrees sha256 contract) requests (verifyEventBatch sha256 contract now requests) ↔
      List.Forall₂ (fun request moved => moved.eventHash = request.eventHash ∧ standing sha256 contract moved = standing sha256 contract request)
        requests (byBatch requests) := by
  rw [forall₂_agrees_iff, verifyEventBatch_outcome, ← forall₂_map_iff]
  simp only [BatchRequest.outcome, Prod.mk.injEq]

def single (leaf : Text) (batchId : ℤ) : BatchRequest := ⟨leaf, ⟨leaf, 0, bracketed leaf, []⟩, batchId⟩

def interleaved : List BatchRequest := [single ['a'] 1, single ['b'] 2, single ['c'] 1]

/-- The result of the second request stands in the third place. -/
theorem verifyEventBatch_misplaces :
    ¬ List.Forall₂ (Agrees bracketed (storing (bracketed ['b']))) interleaved
      (verifyEventBatch bracketed (storing (bracketed ['b'])) (fun _ => 0) interleaved) := by
  rw [forall₂_agrees_iff, verifyEventBatch_outcome]
  intro hsame
  have hhashes := congrArg (List.map Prod.fst) hsame
  rw [List.map_map, List.map_map] at hhashes
  have hmoved : (byBatch interleaved).map (·.eventHash) = [['a'], ['c'], ['b']] := by decide
  have hgiven : interleaved.map (·.eventHash) = [['a'], ['b'], ['c']] := rfl
  exact absurd (hmoved.symm.trans (hhashes.trans hgiven)) (by decide)

end Outcomes

end OxScada.Integrity
