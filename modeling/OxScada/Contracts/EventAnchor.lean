import OxScada.Contracts.BountyAccounting

/-! The contract that anchors batches, over the type in which the caller writes its roots. Its
batches are the calls that it has accepted, in order, and the reverse mapping leads from a root to
the last batch that anchored it. -/

namespace OxScada.Contracts
open OxScada.Runs

abbrev Bytes32 := BitVec 256

instance : Zero Bytes32 := ⟨0#256⟩

structure AnchorData (Root : Type) where
  merkleRoot : Root
  eventCount : ℕ
  timestamp : ℕ
  /-- `exists` -/
  present : Bool
  deriving DecidableEq

structure Anchored (Root : Type) where
  batchId : ℕ
  merkleRoot : Root
  eventCount : ℕ
  timestamp : ℕ

/-- The storage of the contract, with the log of its `Anchored` events. -/
structure EventAnchor (Root : Type) where
  owner : Address
  anchors : ℕ → AnchorData Root
  rootToBatch : Root → ℕ
  nextBatchId : ℕ
  anchored : List (Anchored Root)

structure AnchorCall (Root : Type) where
  sender : Address
  merkleRoot : Root
  batchId : ℕ
  eventCount : ℕ
  timestamp : ℕ

variable {Root : Type}

def AnchorCall.data (call : AnchorCall Root) : AnchorData Root := ⟨call.merkleRoot, call.eventCount, call.timestamp, true⟩

def AnchorCall.event (call : AnchorCall Root) : Anchored Root := ⟨call.batchId, call.merkleRoot, call.eventCount, call.timestamp⟩

namespace EventAnchor

def deployed [Zero Root] (initialOwner : Address) : EventAnchor Root where
  owner := initialOwner
  anchors := fun _ => ⟨0, 0, 0, false⟩
  rootToBatch := fun _ => 0
  nextBatchId := 1
  anchored := []

section Functions
variable [DecidableEq Root] [Zero Root] (c : EventAnchor Root)

def onlyOwner (sender : Address) : Except Revert Unit := if sender = c.owner then .ok () else .error .unauthorized

def anchor (call : AnchorCall Root) : Except Revert (EventAnchor Root) := do
  c.onlyOwner call.sender
  require (call.merkleRoot ≠ 0) "EventAnchor: Merkle root cannot be zero"
  require (0 < call.eventCount) "EventAnchor: Event count must be greater than zero"
  require (call.batchId = c.nextBatchId) "EventAnchor: Invalid batch ID, must be sequential"
  require ((c.anchors call.batchId).present = false) "EventAnchor: Batch already anchored"
  let nextBatchId ← checkedAdd c.nextBatchId 1
  return { c with
    anchors := Function.update c.anchors call.batchId call.data
    rootToBatch := Function.update c.rootToBatch call.merkleRoot call.batchId
    nextBatchId
    anchored := c.anchored ++ [call.event] }

def verify (merkleRoot : Root) : Bool × ℕ :=
  let batchId := c.rootToBatch merkleRoot
  (batchId ≠ 0 && (c.anchors batchId).present, batchId)

def getAnchor (batchId : ℕ) : AnchorData Root := c.anchors batchId

def isBatchAnchored (batchId : ℕ) : Bool := (c.anchors batchId).present

def getAnchoredBatchCount : ℕ := c.nextBatchId - 1

/-- The storage after a call. A call that reverts leaves it as it was. -/
def after (call : AnchorCall Root) : EventAnchor Root :=
  match c.anchor call with
  | .ok c => c
  | .error _ => c

def run (c : EventAnchor Root) (calls : List (AnchorCall Root)) : EventAnchor Root := calls.foldl after c

def accepted (c : EventAnchor Root) : List (AnchorCall Root) → List (AnchorCall Root)
  | [] => []
  | call :: rest =>
    match c.anchor call with
    | .ok c' => call :: accepted c' rest
    | .error _ => accepted c rest

end Functions

structure Latest (log : List (AnchorCall Root)) (merkleRoot : Root) (id : ℕ) : Prop where
  mem : 0 < id → ∃ call, log[id - 1]? = some call ∧ call.merkleRoot = merkleRoot
  last : ∀ i call, log[i]? = some call → call.merkleRoot = merkleRoot → i + 1 ≤ id

structure Holds (c : EventAnchor Root) (log : List (AnchorCall Root)) : Prop where
  next : c.nextBatchId = log.length + 1
  batch : ∀ i call, log[i]? = some call → c.anchors (i + 1) = call.data
  absent : ∀ id, id = 0 ∨ log.length < id → (c.anchors id).present = false
  latest : ∀ merkleRoot, Latest log merkleRoot (c.rootToBatch merkleRoot)
  logged : c.anchored = log.map (·.event)

theorem holds_deployed [Zero Root] (owner : Address) : (deployed owner : EventAnchor Root).Holds [] where
  next := rfl
  batch i call h := by cases h
  absent id h := rfl
  latest merkleRoot := ⟨fun h => absurd h (lt_irrefl 0), fun i call h => by cases h⟩
  logged := rfl

theorem getElem?_concat {log : List (AnchorCall Root)} {call x : AnchorCall Root} {i : ℕ} :
    (log ++ [call])[i]? = some x ↔ log[i]? = some x ∨ i = log.length ∧ call = x := by
  rcases lt_trichotomy i log.length with hlt | heq | hgt
  · rw [List.getElem?_append_left hlt]
    exact ⟨.inl, fun h => h.resolve_right fun h => hlt.ne h.1⟩
  · rw [heq, List.getElem?_concat_length, List.getElem?_eq_none le_rfl, Option.some.injEq]
    simp
  · rw [List.getElem?_eq_none (by simpa using hgt), List.getElem?_eq_none hgt.le]
    simp [hgt.ne']

variable {c c' : EventAnchor Root} {call : AnchorCall Root} {log : List (AnchorCall Root)}

theorem anchor_ok [DecidableEq Root] [Zero Root] (h : c.anchor call = .ok c') : call.batchId = c.nextBatchId ∧
    c' = { c with
      anchors := Function.update c.anchors call.batchId call.data
      rootToBatch := Function.update c.rootToBatch call.merkleRoot call.batchId
      nextBatchId := c.nextBatchId + 1
      anchored := c.anchored ++ [call.event] } := by
  obtain ⟨-, h⟩ := bind_unit_ok.mp h
  obtain ⟨-, h⟩ := bind_unit_ok.mp h
  obtain ⟨-, h⟩ := bind_unit_ok.mp h
  obtain ⟨hbatch, h⟩ := bind_unit_ok.mp h
  obtain ⟨-, h⟩ := bind_unit_ok.mp h
  obtain ⟨next, hnext, h⟩ := bind_ok.mp h
  refine ⟨require_ok.mp hbatch, ?_⟩
  rw [← Except.ok.inj h, checkedAdd_ok hnext]

theorem Latest.concat [DecidableEq Root] {merkleRoot : Root} {id : ℕ} (h : Latest log merkleRoot id) (call : AnchorCall Root) :
    Latest (log ++ [call]) merkleRoot (if merkleRoot = call.merkleRoot then log.length + 1 else id) := by
  split_ifs with hsame
  · constructor
    · intro _
      exact ⟨call, getElem?_concat.mpr (.inr ⟨rfl, rfl⟩), hsame.symm⟩
    · intro i x hx _
      rcases getElem?_concat.mp hx with hx | ⟨rfl, -⟩
      · have hlt := (List.getElem?_eq_some_iff.mp hx).1
        omega
      · exact le_rfl
  · constructor
    · intro hpos
      obtain ⟨x, hx, hroot⟩ := h.mem hpos
      exact ⟨x, getElem?_concat.mpr (.inl hx), hroot⟩
    · intro i x hx hroot
      rcases getElem?_concat.mp hx with hx | ⟨-, rfl⟩
      · exact h.last i x hx hroot
      · exact absurd hroot.symm hsame

section
variable (hc : c.Holds log)
include hc

theorem Holds.anchor [DecidableEq Root] [Zero Root] (h : c.anchor call = .ok c') : c'.Holds (log ++ [call]) := by
  obtain ⟨hbatch, rfl⟩ := anchor_ok h
  have hid : call.batchId = log.length + 1 := hbatch.trans hc.next
  constructor
  case next =>
    show c.nextBatchId + 1 = _
    rw [hc.next, List.length_append]
    rfl
  case batch =>
    intro i x hx
    show Function.update c.anchors call.batchId call.data (i + 1) = _
    rcases getElem?_concat.mp hx with hx | ⟨rfl, rfl⟩
    · have hlt := (List.getElem?_eq_some_iff.mp hx).1
      rw [Function.update_of_ne (by omega)]
      exact hc.batch i x hx
    · rw [← hid, Function.update_self]
  case absent =>
    intro id hid'
    show (Function.update c.anchors call.batchId call.data id).present = false
    rw [List.length_append, List.length_singleton] at hid'
    rw [Function.update_of_ne (by omega)]
    exact hc.absent id (by omega)
  case latest =>
    intro merkleRoot
    show Latest _ _ (Function.update c.rootToBatch call.merkleRoot call.batchId merkleRoot)
    rw [Function.update_apply, hid]
    exact (hc.latest merkleRoot).concat call
  case logged =>
    show c.anchored ++ [call.event] = _
    rw [hc.logged, List.map_append, List.map_singleton]

theorem Holds.run [DecidableEq Root] [Zero Root] (calls : List (AnchorCall Root)) : (c.run calls).Holds (log ++ c.accepted calls) := by
  induction calls generalizing c log with
  | nil =>
    rw [accepted, List.append_nil]
    exact hc
  | cons call rest ih =>
    show ((c.after call).run rest).Holds _
    unfold after accepted
    cases hcall : c.anchor call with
    | error _ => exact ih hc
    | ok c' =>
      have hrest := ih (hc.anchor hcall)
      rwa [List.append_assoc, List.singleton_append] at hrest

/-! ### What the views say of the log -/

theorem Holds.isBatchAnchored (id : ℕ) : c.isBatchAnchored id = true ↔ 1 ≤ id ∧ id < c.nextBatchId := by
  rw [hc.next]
  constructor
  · intro hpresent
    by_contra hnot
    have habsent := hc.absent id (by omega)
    rw [EventAnchor.isBatchAnchored, habsent] at hpresent
    cases hpresent
  · rintro ⟨hpos, hlt⟩
    obtain ⟨i, rfl⟩ := Nat.exists_eq_add_of_le' hpos
    have hi : i < log.length := by omega
    rw [EventAnchor.isBatchAnchored, hc.batch i log[i] (List.getElem?_eq_getElem hi)]
    rfl

theorem Holds.getAnchor {id : ℕ} (h : c.isBatchAnchored id = true) :
    ∃ call, log[id - 1]? = some call ∧ c.getAnchor id = call.data := by
  obtain ⟨hpos, hlt⟩ := (hc.isBatchAnchored id).mp h
  rw [hc.next] at hlt
  obtain ⟨i, rfl⟩ := Nat.exists_eq_add_of_le' hpos
  have hi : i < log.length := by omega
  exact ⟨log[i], List.getElem?_eq_getElem hi, hc.batch i _ (List.getElem?_eq_getElem hi)⟩

theorem Holds.verify (merkleRoot : Root) :
    ((c.verify merkleRoot).1 = true ↔ ∃ call ∈ log, call.merkleRoot = merkleRoot) ∧
      ((c.verify merkleRoot).1 = true → (c.getAnchor (c.verify merkleRoot).2).merkleRoot = merkleRoot ∧
        ∀ id, c.isBatchAnchored id = true → (c.getAnchor id).merkleRoot = merkleRoot → id ≤ (c.verify merkleRoot).2) := by
  have hlatest := hc.latest merkleRoot
  have hverify : (c.verify merkleRoot).1 = true → 0 < c.rootToBatch merkleRoot := by
    intro h
    simp only [EventAnchor.verify, Bool.and_eq_true, decide_eq_true_eq] at h
    exact Nat.pos_of_ne_zero h.1
  refine ⟨⟨fun h => ?_, ?_⟩, fun h => ⟨?_, fun id hid hroot => ?_⟩⟩
  · obtain ⟨call, hcall, hroot⟩ := hlatest.mem (hverify h)
    exact ⟨call, List.mem_of_getElem? hcall, hroot⟩
  · rintro ⟨call, hmem, hroot⟩
    obtain ⟨i, hi⟩ := List.getElem?_of_mem hmem
    have hpos : 0 < c.rootToBatch merkleRoot := Nat.lt_of_lt_of_le (Nat.succ_pos i) (hlatest.last i call hi hroot)
    obtain ⟨latest, hlast, -⟩ := hlatest.mem hpos
    have hpresent := hc.batch _ latest hlast
    rw [Nat.sub_add_cancel hpos] at hpresent
    simp only [EventAnchor.verify, hpresent, AnchorCall.data, Bool.and_true, decide_eq_true_eq]
    exact hpos.ne'
  · obtain ⟨call, hcall, hroot⟩ := hlatest.mem (hverify h)
    have hbatch := hc.batch _ call hcall
    rw [Nat.sub_add_cancel (hverify h)] at hbatch
    rw [EventAnchor.getAnchor, EventAnchor.verify, hbatch]
    exact hroot
  · obtain ⟨call, hcall, hdata⟩ := hc.getAnchor hid
    have hpos := ((hc.isBatchAnchored id).mp hid).1
    rw [hdata] at hroot
    have hle := hlatest.last _ call hcall hroot
    rw [Nat.sub_add_cancel hpos] at hle
    exact hle

end

/-- The batches are those up to the counter and stay what they were, and a root is verified if
and only if a batch has anchored it. It leads to the last one. -/
theorem anchor_history (owner : Address) (calls : List (AnchorCall Bytes32)) :
    (∀ id, ((deployed owner).run calls).isBatchAnchored id = true ↔ 1 ≤ id ∧ id < ((deployed owner).run calls).nextBatchId) ∧
    (∀ i call, ((deployed owner).accepted calls)[i]? = some call → ((deployed owner).run calls).getAnchor (i + 1) = call.data) ∧
    ((deployed owner).run calls).getAnchoredBatchCount = ((deployed owner).accepted calls).length ∧
    ((deployed owner).run calls).anchored = ((deployed owner).accepted calls).map (·.event) ∧
    (∀ later id, ((deployed owner).run calls).isBatchAnchored id = true →
      ((deployed owner).run (calls ++ later)).getAnchor id = ((deployed owner).run calls).getAnchor id) ∧
    (∀ merkleRoot,
      ((((deployed owner).run calls).verify merkleRoot).1 = true ↔
        ∃ call ∈ (deployed owner).accepted calls, call.merkleRoot = merkleRoot) ∧
      ((((deployed owner).run calls).verify merkleRoot).1 = true →
        (((deployed owner).run calls).getAnchor (((deployed owner).run calls).verify merkleRoot).2).merkleRoot = merkleRoot ∧
        ∀ id, ((deployed owner).run calls).isBatchAnchored id = true → (((deployed owner).run calls).getAnchor id).merkleRoot = merkleRoot →
          id ≤ (((deployed owner).run calls).verify merkleRoot).2)) ∧
    ∀ call error, ((deployed owner).run calls).anchor call = .error error →
      (deployed owner).run (calls ++ [call]) = (deployed owner).run calls := by
  have hc : ((deployed owner).run calls).Holds ((deployed owner).accepted calls) := (holds_deployed owner).run calls
  have happend : ∀ later, (deployed owner).run (calls ++ later) = ((deployed owner).run calls).run later :=
    fun later => List.foldl_append
  refine ⟨hc.isBatchAnchored, hc.batch, ?_, hc.logged, fun later id hid => ?_, hc.verify, fun call error herror => ?_⟩
  · rw [getAnchoredBatchCount, hc.next, Nat.add_sub_cancel]
  · obtain ⟨call, hcall, hdata⟩ := hc.getAnchor hid
    have hpos := ((hc.isBatchAnchored id).mp hid).1
    have hlater := (hc.run later).batch (id - 1) call (List.getElem?_append_left (List.getElem?_eq_some_iff.mp hcall).1 ▸ hcall)
    rw [Nat.sub_add_cancel hpos] at hlater
    rw [happend, hdata]
    exact hlater
  · rw [happend]
    show ((deployed owner).run calls).after call = _
    rw [after, herror]

def anchoredTwice : List (AnchorCall Bytes32) := [⟨1, 7, 1, 10, 100⟩, ⟨1, 7, 2, 10, 200⟩]

theorem root_leads_to_second : ((deployed 1).accepted anchoredTwice).map (·.merkleRoot) = [7, 7] ∧
    (((deployed 1).run anchoredTwice).getAnchor 1).merkleRoot = 7 ∧ ((deployed 1).run anchoredTwice).verify 7 = (true, 2) := by
  decide

end EventAnchor

end OxScada.Contracts
