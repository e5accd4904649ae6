import OxScada.Hashing.Digest
import OxScada.Hashing.PerfectTree

/-! The Merkle roots and inclusion proofs of the event batcher. SHA-256, the text of a
sequence number and the timestamp check of the schema library are parameters. -/

namespace OxScada.Batcher
open OxScada.Bytes OxScada.Hashing

@[ext]
structure Event where
  timestamp : Text
  sourceId : Text
  eventType : Text
  payloadHash : Text
  sequenceNumber : ℕ
  deriving DecidableEq, Repr

def eventSchema (datetime : Text → Bool) (e : Event) : Bool :=
  datetime e.timestamp && 1 ≤ e.sourceId.length && 1 ≤ e.eventType.length && 1 ≤ e.payloadHash.length

def serialized (numberText : ℕ → Text) (e : Event) : Text :=
  e.sourceId ++ ':' :: (e.timestamp ++ ':' :: (e.eventType ++ ':' :: (e.payloadHash ++
    ':' :: numberText e.sequenceNumber)))

section Tree
variable (sha256 : Text → Text)

def combined (left right : Text) : Text := sha256 (left ++ right)

/-- The pairing loop. A right neighbour that is missing or the empty string is replaced by
the left one. -/
def nextLevel (hashes : List Text) : List Text :=
  pairUp (fun left right => combined sha256 left (if right = [] then left else right))
    (fun left => combined sha256 left left) hashes

theorem nextLevel_length (hashes : List Text) :
    (nextLevel sha256 hashes).length = (hashes.length + 1) / 2 := pairUp_length ..

def buildMerkleTree (hashes : List Text) : Text :=
  match hashes with
  | [] => sha256 []
  | [hash] => hash
  | first :: second :: rest => buildMerkleTree (nextLevel sha256 (first :: second :: rest))
termination_by hashes.length
decreasing_by
  rw [nextLevel_length]
  simp only [List.length_cons]
  omega

def proofLoop (hashes : List Text) (index : ℕ) : List Text :=
  if 1 < hashes.length then
    let siblingIndex := if index % 2 = 0 then index + 1 else index - 1
    let sibling :=
      if siblingIndex < hashes.length then hashes.getD siblingIndex [] else hashes.getD index []
    sibling :: proofLoop (nextLevel sha256 hashes) (index / 2)
  else []
termination_by hashes.length
decreasing_by
  rw [nextLevel_length]
  omega

def generateMerkleProof (leaves : List Text) (targetIndex : ℕ) : List Text :=
  if leaves.length = 0 ∨ leaves.length ≤ targetIndex then []
  else if leaves.length = 1 then []
  else proofLoop sha256 leaves targetIndex

def verifyLoop : List Text → Text → ℤ → Text
  | [], hash, _ => hash
  | proofElement :: proof, hash, index =>
    verifyLoop proof
      (if index % 2 = 0 then combined sha256 hash proofElement else combined sha256 proofElement hash)
      (index / 2)

def verifyMerkleProof (targetHash : Text) (targetIndex : ℤ) (proof : List Text) (expectedRoot : Text) : Bool :=
  if targetIndex < 0 ∨ 2 ^ proof.length ≤ targetIndex then false
  else verifyLoop sha256 proof targetHash targetIndex == expectedRoot

variable (numberText : ℕ → Text)

def hashEvent (e : Event) : Text := sha256 (serialized numberText e)

def calculateMerkleRoot (events : List Event) : Text :=
  if events.length = 0 then sha256 [] else buildMerkleTree sha256 (events.map (hashEvent sha256 numberText))

def generateProof (events : List Event) (eventIndex : ℤ) : Except String (List Text) :=
  if eventIndex < 0 ∨ events.length ≤ eventIndex then .error "Event index out of bounds"
  else .ok (generateMerkleProof sha256 (events.map (hashEvent sha256 numberText)) eventIndex.toNat)

def verifyProof (e : Event) (eventIndex : ℤ) (proof : List Text) (merkleRoot : Text) : Bool :=
  verifyMerkleProof sha256 (hashEvent sha256 numberText e) eventIndex proof merkleRoot

end Tree

/-! ### The tree is perfect over its padded leaves -/

section Perfect
variable {sha256 : Text → Text}

variable {hashes : List Text}

theorem nextLevel_eq (hne : ∀ x ∈ hashes, x ≠ []) :
    nextLevel sha256 hashes = pairUp (combined sha256) (fun a => combined sha256 a a) hashes := by
  apply pairUp_congr
  · intro a _ b hb
    rw [if_neg (hne b hb)]
  · intro a _
    rfl

theorem verifyLoop_eq_ascend (proof : List Text) (hash : Text) (index : ℕ) :
    verifyLoop sha256 proof hash index = ascend (combined sha256) proof hash index := by
  induction proof generalizing hash index with
  | nil => rfl
  | cons proofElement proof ih =>
    have hhalf : (index : ℤ) / 2 = ((index / 2 : ℕ) : ℤ) := by norm_cast
    have hpar : ((index : ℤ) % 2 = 0) = (index % 2 = 0) := by
      apply propext
      omega
    rw [verifyLoop, ascend, hhalf, ih]
    simp only [hpar]

theorem verifyMerkleProof_iff {targetHash : Text} {targetIndex : ℤ} {proof : List Text}
    {expectedRoot : Text} :
    verifyMerkleProof sha256 targetHash targetIndex proof expectedRoot = true ↔
      ∃ j : ℕ, targetIndex = j ∧ j < 2 ^ proof.length ∧
        ascend (combined sha256) proof targetHash j = expectedRoot := by
  unfold verifyMerkleProof
  have hcast : ((2 ^ proof.length : ℕ) : ℤ) = 2 ^ proof.length := by norm_cast
  split_ifs with hrange
  · constructor
    · intro hfalse
      cases hfalse
    · rintro ⟨j, rfl, hj, -⟩
      omega
  · rw [beq_iff_eq]
    constructor
    · intro hroot
      have hj : targetIndex = targetIndex.toNat := by omega
      rw [hj, verifyLoop_eq_ascend] at hroot
      exact ⟨targetIndex.toNat, hj, by omega, hroot⟩
    · rintro ⟨j, rfl, -, hroot⟩
      rwa [verifyLoop_eq_ascend]

theorem getD_eq_padded {l : List Text} {j : ℕ} (hj : j < l.length) : l.getD j [] = padded l j := by
  rw [List.getD_eq_getElem?_getD, padded_of_lt hj, Option.getD_some]

theorem sibling_eq_padded {l : List Text} (h2 : 2 ≤ l.length) {i : ℕ} (hi : i < l.length) :
    (if (if i % 2 = 0 then i + 1 else i - 1) < l.length
      then l.getD (if i % 2 = 0 then i + 1 else i - 1) [] else l.getD i []) =
      padded l (if i % 2 = 0 then i + 1 else i - 1) := by
  by_cases hin : (if i % 2 = 0 then i + 1 else i - 1) < l.length
  · rw [if_pos hin, getD_eq_padded hin]
  · have heven : i % 2 = 0 := by
      by_contra hodd
      rw [if_neg hodd] at hin
      omega
    rw [if_neg hin, if_pos heven]
    rw [if_pos heven] at hin
    have hlast : i + 1 = l.length := by omega
    rw [hlast, padded, origin_length h2 (by omega), ← hlast, Nat.add_sub_cancel]
    rfl

variable (hd : HexDigest sha256)
include hd

theorem combined_ne_nil (a b : Text) : combined sha256 a b ≠ [] := hd.ne_nil _

theorem buildMerkleTree_eq_perfect (hne : hashes ≠ []) (hfull : ∀ x ∈ hashes, x ≠ []) :
    buildMerkleTree sha256 hashes =
      perfect (combined sha256) (Nat.clog 2 hashes.length) (padded hashes) := by
  apply root_eq_perfect (combined sha256) (combined_ne_nil hd) _ _ hne hfull
  · intro a
    rw [buildMerkleTree]
  · intro l h2 hl
    match l, h2 with
    | first :: second :: rest, _ => rw [buildMerkleTree, nextLevel_eq hl]

theorem proofLoop_eq_siblings (hne : hashes ≠ []) (hfull : ∀ x ∈ hashes, x ≠ [])
    {index : ℕ} (hindex : index < hashes.length) :
    proofLoop sha256 hashes index =
      siblings (combined sha256) (Nat.clog 2 hashes.length) (padded hashes) index := by
  revert hfull index
  refine levels_induction (combined sha256) (fun a => combined sha256 a a)
    (motive := fun l => (∀ x ∈ l, x ≠ []) → ∀ {i : ℕ}, i < l.length → proofLoop sha256 l i =
      siblings (combined sha256) (Nat.clog 2 l.length) (padded l) i) ?single ?level hashes hne
  case single =>
    intro a _ i _
    rw [proofLoop, if_neg (by simp)]
    simp [siblings]
  case level =>
    intro l h2 ih hl i hi
    have hpaired : ∀ x ∈ pairUp (combined sha256) (fun a => combined sha256 a a) l, x ≠ [] :=
      forall_mem_pairUp (P := (· ≠ [])) _ _ (combined_ne_nil hd) (fun a => combined_ne_nil hd a a) l
    have htail := ih hpaired (i := i / 2) (by rw [pairUp_length]; omega)
    rw [pairUp_length, funext fun j => padded_pairUp (combined sha256) h2 j] at htail
    rw [proofLoop, if_pos (by omega), nextLevel_eq hl, htail, clog_halve h2, siblings]
    dsimp only
    rw [sibling_eq_padded h2 hi]

theorem generateMerkleProof_eq_siblings {leaves : List Text} (hfull : ∀ x ∈ leaves, x ≠ [])
    {targetIndex : ℕ} (hindex : targetIndex < leaves.length) :
    generateMerkleProof sha256 leaves targetIndex =
      siblings (combined sha256) (Nat.clog 2 leaves.length) (padded leaves) targetIndex := by
  have hne : leaves ≠ [] := List.ne_nil_of_length_pos (Nat.zero_lt_of_lt hindex)
  rw [generateMerkleProof, if_neg (by omega)]
  split_ifs with hone
  · simp [hone, siblings]
  · exact proofLoop_eq_siblings hd hne hfull hindex

theorem combined_binding : Binding (combined sha256) (fun x => ∃ s, sha256 s = x)
    (fun x => ∃ s, ':' ∈ s ∧ sha256 s = x) where
  digest_pair := fun a b => ⟨a ++ b, rfl⟩
  digest_leaf := by
    rintro a ⟨s, -, hs⟩
    exact ⟨s, hs⟩
  left := by
    rintro a b c d ⟨s, rfl⟩ ⟨t, rfl⟩ he
    rw [(hd.append_left (hd.injective he)).1]
  right := by
    rintro a b c d ⟨s, rfl⟩ ⟨t, rfl⟩ he
    rw [(hd.append_right (hd.injective he)).2]
  leaf_ne := by
    rintro a b ⟨s, rfl⟩ ⟨t, rfl⟩ ⟨u, hcolon, hu⟩
    rw [hd.injective hu] at hcolon
    rcases List.mem_append.mp hcolon with hmem | hmem
    · exact hd.notMem (by decide) hmem
    · exact hd.notMem (by decide) hmem

end Perfect

/-! ### Batches -/

section Batch
variable {sha256 : Text → Text} {numberText : ℕ → Text}

theorem colon_mem_serialized (e : Event) : ':' ∈ serialized numberText e := by
  unfold serialized
  exact List.mem_append_right _ (List.mem_cons_self ..)

variable {events : List Event}

theorem leaf_padded_hashEvent (hne : events ≠ []) (j : ℕ) :
    ∃ s, ':' ∈ s ∧ sha256 s = padded (events.map (hashEvent sha256 numberText)) j := by
  have hmem := padded_mem (l := events.map (hashEvent sha256 numberText)) (by simpa using hne) j
  obtain ⟨e, -, he⟩ := List.mem_map.mp hmem
  exact ⟨_, colon_mem_serialized e, he⟩

theorem getElem?_origin (sha256 : Text → Text) (numberText : ℕ → Text) (hne : events ≠ []) (j : ℕ) :
    (events[origin events.length j]?).map (hashEvent sha256 numberText) =
      some (padded (events.map (hashEvent sha256 numberText)) j) := by
  have hget := getElem?_padded (l := events.map (hashEvent sha256 numberText)) (by simpa using hne) j
  rwa [List.length_map, List.getElem?_map] at hget

variable (hd : HexDigest sha256)
include hd

theorem hashEvent_ne_nil (events : List Event) : ∀ x ∈ events.map (hashEvent sha256 numberText), x ≠ [] := by
  intro x hx
  obtain ⟨e, -, rfl⟩ := List.mem_map.mp hx
  exact hd.ne_nil _

theorem calculateMerkleRoot_eq_perfect (hne : events ≠ []) :
    calculateMerkleRoot sha256 numberText events =
      perfect (combined sha256) (Nat.clog 2 events.length)
        (padded (events.map (hashEvent sha256 numberText))) := by
  have hlen : ¬ events.length = 0 := by simpa using hne
  rw [calculateMerkleRoot, if_neg hlen,
    buildMerkleTree_eq_perfect hd (by simpa using hne) (hashEvent_ne_nil hd events), List.length_map]

theorem generateProof_ok {i : ℤ} {p : List Text}
    (hp : generateProof sha256 numberText events i = .ok p) :
    ∃ k : ℕ, i = k ∧ k < events.length ∧ p = siblings (combined sha256) (Nat.clog 2 events.length)
      (padded (events.map (hashEvent sha256 numberText))) k := by
  unfold generateProof at hp
  split_ifs at hp with hrange
  refine ⟨i.toNat, by omega, by omega, ?_⟩
  rw [← Except.ok.inj hp, generateMerkleProof_eq_siblings hd (hashEvent_ne_nil hd events)
    (by rw [List.length_map]; omega), List.length_map]

theorem verifyProof_complete {i : ℕ} {e : Event} (he : events[i]? = some e) :
    ∃ p, generateProof sha256 numberText events i = .ok p ∧
      verifyProof sha256 numberText e i p (calculateMerkleRoot sha256 numberText events) = true := by
  have hi : i < events.length := (List.getElem?_eq_some_iff.mp he).1
  have hne : events ≠ [] := List.ne_nil_of_length_pos (Nat.zero_lt_of_lt hi)
  have hgen : generateProof sha256 numberText events i =
      .ok (generateMerkleProof sha256 (events.map (hashEvent sha256 numberText)) i) := by
    rw [generateProof, if_neg (by omega), Int.toNat_natCast]
  obtain ⟨k, hk, hlt, hp⟩ := generateProof_ok hd hgen
  obtain rfl : k = i := by omega
  have hpow : k < 2 ^ Nat.clog 2 events.length := hlt.trans_le (Nat.le_pow_clog (by norm_num) _)
  have hleaf : hashEvent sha256 numberText e = padded (events.map (hashEvent sha256 numberText)) k := by
    have horigin := getElem?_origin sha256 numberText hne k
    rw [origin_self hlt, he] at horigin
    exact Option.some.inj horigin
  refine ⟨_, hgen, ?_⟩
  rw [hp, verifyProof, verifyMerkleProof_iff]
  refine ⟨k, rfl, by rwa [siblings_length], ?_⟩
  rw [hleaf, ascend_siblings _ _ _ hpow, calculateMerkleRoot_eq_perfect hd hne]

theorem verifyProof_position {e : Event} {i j : ℤ} {p : List Text}
    (hp : generateProof sha256 numberText events i = .ok p)
    (hv : verifyProof sha256 numberText e j p (calculateMerkleRoot sha256 numberText events) = true) :
    0 ≤ j ∧ j < 2 ^ p.length ∧ ∃ e', events[origin events.length j.toNat]? = some e' ∧
      serialized numberText e = serialized numberText e' := by
  obtain ⟨k, rfl, hlt, rfl⟩ := generateProof_ok hd hp
  have hne : events ≠ [] := List.ne_nil_of_length_pos (Nat.zero_lt_of_lt hlt)
  rw [verifyProof, verifyMerkleProof_iff] at hv
  obtain ⟨m, rfl, hm, hroot⟩ := hv
  rw [calculateMerkleRoot_eq_perfect hd hne] at hroot
  rw [siblings_length] at hm ⊢
  have hb := combined_binding hd
  -- every generated proof has the height of the tree, so the index is all that is left open
  have hbound := hb.ascend_sound
    (fun j => hb.digest_leaf (leaf_padded_hashEvent hne j)) (siblings_length ..) hm ⟨_, rfl⟩ hroot
  have horigin := getElem?_origin sha256 numberText hne m
  rw [← hbound] at horigin
  obtain ⟨e', he', hhash⟩ := Option.map_eq_some_iff.mp horigin
  exact ⟨by omega, by exact_mod_cast hm, e', he', (hd.injective hhash).symm⟩

omit hd in
/-- Two batches have one root exactly when their trees have one height and are filled with
the same serialised events at every position. -/
theorem calculateMerkleRoot_eq_iff (numberText : ℕ → Text) (hd : HexDigest sha256)
    {events' : List Event} (hne : events ≠ []) (hne' : events' ≠ []) :
    calculateMerkleRoot sha256 numberText events = calculateMerkleRoot sha256 numberText events' ↔
      Nat.clog 2 events.length = Nat.clog 2 events'.length ∧ ∀ j < 2 ^ Nat.clog 2 events.length,
        (events[origin events.length j]?).map (serialized numberText) =
          (events'[origin events'.length j]?).map (serialized numberText) := by
  have hb := combined_binding hd
  have hfill : ∀ j, (events[origin events.length j]?).map (serialized numberText) =
      (events'[origin events'.length j]?).map (serialized numberText) ↔
      padded (events.map (hashEvent sha256 numberText)) j =
        padded (events'.map (hashEvent sha256 numberText)) j := by
    intro j
    have hcomp : hashEvent sha256 numberText = sha256 ∘ serialized numberText := rfl
    have hleft := getElem?_origin sha256 numberText hne j
    have hright := getElem?_origin sha256 numberText hne' j
    rw [hcomp, ← Option.map_map] at hleft hright
    rw [← (Option.map_injective hd.injective).eq_iff, hleft, hright, Option.some_inj, hcomp]
  rw [calculateMerkleRoot_eq_perfect hd hne, calculateMerkleRoot_eq_perfect hd hne']
  simp only [hfill]
  constructor
  · intro hroot
    have hheight := hb.height_eq (leaf_padded_hashEvent hne) (leaf_padded_hashEvent hne') hroot
    rw [← hheight] at hroot
    refine ⟨hheight, fun j hj => hb.perfect_inj ?_ ?_ hroot hj⟩
    · exact fun j => hb.digest_leaf (leaf_padded_hashEvent hne j)
    · exact fun j => hb.digest_leaf (leaf_padded_hashEvent hne' j)
  · rintro ⟨hheight, hsame⟩
    rw [← hheight]
    exact perfect_congr _ hsame

end Batch

/-! ### Reading the fields back

A colon in the event type or the payload hash moves the border between the two, and an event type
with a timestamp between colons moves the borders before it. The sequence number is always told apart. -/

/-- The fields that no rule keeps free of the separator are free of it. -/
def Event.Plain (e : Event) : Prop := ':' ∉ e.eventType ∧ ':' ∉ e.payloadHash

instance (e : Event) : Decidable e.Plain := inferInstanceAs (Decidable (_ ∧ _))

/-- The text of a number tells the number, and has no colon. -/
structure NumberFormat (numberText : ℕ → Text) : Prop where
  injective : Function.Injective numberText
  colon : ∀ n, ':' ∉ numberText n

/-- An accepted timestamp is a date without colons, the letter `T`, and a time without it. -/
def DatetimeFormat (datetime : Text → Bool) : Prop :=
  ∀ s, datetime s = true → ∃ date time, s = date ++ 'T' :: time ∧ ':' ∉ date ∧ 'T' ∉ time

theorem append_cons_last {c : Char} {x y a b : Text} (ha : c ∉ a) (hb : c ∉ b)
    (e : x ++ c :: a = y ++ c :: b) : x = y ∧ a = b := by
  rcases List.append_eq_append_iff.mp e with ⟨m, rfl, hm⟩ | ⟨m, rfl, hm⟩
  · cases m with
    | nil => exact ⟨by simp, (List.cons.inj hm).2⟩
    | cons d m =>
      rw [(List.cons.inj hm).2] at ha
      exact absurd (List.mem_append_right m (List.mem_cons_self ..)) ha
  · cases m with
    | nil => exact ⟨by simp, (List.cons.inj hm).2.symm⟩
    | cons d m =>
      rw [(List.cons.inj hm).2] at hb
      exact absurd (List.mem_append_right m (List.mem_cons_self ..)) hb

theorem serialized_injective {numberText : ℕ → Text} {datetime : Text → Bool}
    (hnum : NumberFormat numberText) (hdate : DatetimeFormat datetime) {e e' : Event}
    (hv : eventSchema datetime e = true) (hv' : eventSchema datetime e' = true)
    (hplain : e.Plain) (hplain' : e'.Plain)
    (he : serialized numberText e = serialized numberText e') : e = e' := by
  have hflat : ∀ f : Event, serialized numberText f =
      (((f.sourceId ++ ':' :: f.timestamp) ++ ':' :: f.eventType) ++ ':' :: f.payloadHash) ++
        ':' :: numberText f.sequenceNumber := by
    intro f
    simp [serialized]
  have hstamp : ∀ f : Event, eventSchema datetime f = true → datetime f.timestamp = true := by
    intro f hf
    simp only [eventSchema, Bool.and_eq_true] at hf
    exact hf.1.1.1
  rw [hflat, hflat] at he
  obtain ⟨he, hseq⟩ := append_cons_last (hnum.colon _) (hnum.colon _) he
  obtain ⟨he, hpayload⟩ := append_cons_last hplain.2 hplain'.2 he
  obtain ⟨he, htype⟩ := append_cons_last hplain.1 hplain'.1 he
  -- the last `T` ends the date, and the last colon before it ends the source
  obtain ⟨date, time, hts, hcolon, hT⟩ := hdate _ (hstamp e hv)
  obtain ⟨date', time', hts', hcolon', hT'⟩ := hdate _ (hstamp e' hv')
  rw [hts, hts', ← List.cons_append, ← List.cons_append, ← List.append_assoc, ← List.append_assoc] at he
  obtain ⟨he, htime⟩ := append_cons_last hT hT' he
  obtain ⟨hsource, hday⟩ := append_cons_last hcolon hcolon' he
  have hstamps : e.timestamp = e'.timestamp := by rw [hts, hts', hday, htime]
  exact Event.ext hstamps hsource htype hpayload (hnum.injective hseq)

/-! ### What a root and a proof say about the events -/

section Guarantees
variable {sha256 : Text → Text} {numberText : ℕ → Text} {datetime : Text → Bool}

/-- Batches of one root have trees of one height, filled alike at every position, so that the
events they both have at an index serialise alike, and are the same when no colon blurs
their fields. -/
theorem calculateMerkleRoot_commits (hd : HexDigest sha256) (hnum : NumberFormat numberText)
    (hdate : DatetimeFormat datetime) {events events' : List Event} (hne : events ≠ []) (hne' : events' ≠ [])
    (hv : ∀ e ∈ events, eventSchema datetime e = true) (hv' : ∀ e ∈ events', eventSchema datetime e = true) :
    (calculateMerkleRoot sha256 numberText events = calculateMerkleRoot sha256 numberText events' ↔
      Nat.clog 2 events.length = Nat.clog 2 events'.length ∧ ∀ j < 2 ^ Nat.clog 2 events.length,
        (events[origin events.length j]?).map (serialized numberText) =
          (events'[origin events'.length j]?).map (serialized numberText)) ∧
    (calculateMerkleRoot sha256 numberText events = calculateMerkleRoot sha256 numberText events' →
      ∀ (j : ℕ) (e e' : Event), events[j]? = some e → events'[j]? = some e' →
        serialized numberText e = serialized numberText e' ∧ (e.Plain → e'.Plain → e = e')) := by
  have hiff := calculateMerkleRoot_eq_iff numberText hd hne hne'
  refine ⟨hiff, fun hroot j e e' he he' => ?_⟩
  obtain ⟨-, hfill⟩ := hiff.mp hroot
  have hj : j < events.length := (List.getElem?_eq_some_iff.mp he).1
  have hj' : j < events'.length := (List.getElem?_eq_some_iff.mp he').1
  have hsame := hfill j (hj.trans_le (Nat.le_pow_clog (by norm_num) _))
  rw [origin_self hj, origin_self hj', he, he', Option.map_some, Option.map_some] at hsame
  have hser : serialized numberText e = serialized numberText e' := Option.some.inj hsame
  refine ⟨hser, fun hplain hplain' => ?_⟩
  exact serialized_injective hnum hdate (hv e (List.mem_of_getElem? he)) (hv' e' (List.mem_of_getElem? he'))
    hplain hplain' hser

def decimal (n : ℕ) : Text := Nat.toDigits 10 n

theorem decimal_format : NumberFormat decimal where
  injective := by
    intro n m h
    have hvalue := congrArg (fun l => Nat.ofDigitChars 10 l 0) h
    simpa only [decimal, Nat.ofDigitChars_ten_toDigits] using hvalue
  colon := by
    intro n hmem
    exact absurd (Nat.isDigit_of_mem_toDigits (by norm_num) (by norm_num) hmem) (by decide)

def sampleDate : Text := ['2', '0', '2', '6', '-', '0', '1', '-', '0', '2']

def sampleTime : Text := ['0', '3', ':', '0', '4', ':', '0', '5', 'Z']

def sampleDatetime (s : Text) : Bool := s == sampleDate ++ 'T' :: sampleTime

theorem sampleDatetime_format : DatetimeFormat sampleDatetime := by
  intro s hs
  exact ⟨sampleDate, sampleTime, beq_iff_eq.mp hs, by decide, by decide⟩

def sampleEvent (eventType payloadHash : Text) (sequenceNumber : ℕ) : Event :=
  ⟨sampleDate ++ 'T' :: sampleTime, ['p', 'l', 'c'], eventType, payloadHash, sequenceNumber⟩

theorem calculateMerkleRoot_commits_pair :
    calculateMerkleRoot bracketed decimal [sampleEvent ['a'] ['b'] 0, sampleEvent ['a'] ['b'] 1] ≠
      calculateMerkleRoot bracketed decimal [sampleEvent ['a'] ['b'] 0, sampleEvent ['a'] ['c'] 1] := by
  intro hroot
  have hcommit := (calculateMerkleRoot_commits bracketed_ideal.toHexDigest decimal_format
    sampleDatetime_format (List.cons_ne_nil _ _) (List.cons_ne_nil _ _) (by decide) (by decide)).2 hroot
  have hsame := (hcommit 1 _ _ rfl rfl).2 (by decide) (by decide)
  exact absurd hsame (by decide)

theorem calculateMerkleRoot_singleton (sha256 : Text → Text) (numberText : ℕ → Text) (e : Event) :
    calculateMerkleRoot sha256 numberText [e] = hashEvent sha256 numberText e := by
  simp [calculateMerkleRoot, buildMerkleTree]

theorem calculateMerkleRoot_repeat (sha256 : Text → Text) (numberText : ℕ → Text) (a b c : Event) :
    calculateMerkleRoot sha256 numberText [a, b, c] = calculateMerkleRoot sha256 numberText [a, b, c, c] := by
  simp [calculateMerkleRoot, buildMerkleTree, nextLevel, pairUp]

/-- A batch of three has the root of the batch in which its last event stands twice, and a
colon may belong to the event type or to the payload hash. -/
theorem calculateMerkleRoot_collides :
    (∃ a b c : Event, (∀ e ∈ [a, b, c], eventSchema sampleDatetime e = true) ∧
      calculateMerkleRoot bracketed decimal [a, b, c] = calculateMerkleRoot bracketed decimal [a, b, c, c]) ∧
    ∃ e e' : Event, eventSchema sampleDatetime e = true ∧ eventSchema sampleDatetime e' = true ∧
      calculateMerkleRoot bracketed decimal [e] = calculateMerkleRoot bracketed decimal [e'] ∧
      e.eventType ≠ e'.eventType := by
  refine ⟨⟨sampleEvent ['a'] ['b'] 0, sampleEvent ['a'] ['b'] 1, sampleEvent ['a'] ['b'] 2, by decide, ?_⟩,
    sampleEvent ['a', ':', 'b'] ['c'] 0, sampleEvent ['a'] ['b', ':', 'c'] 0, by decide, by decide, ?_,
    by decide⟩
  · exact calculateMerkleRoot_repeat bracketed decimal _ _ _
  · rw [calculateMerkleRoot_singleton, calculateMerkleRoot_singleton, hashEvent, hashEvent]
    exact congrArg bracketed (by simp [serialized, sampleEvent])

/-- Every event of a batch has a proof, and it verifies at the event's own index. A proof of
the batch that verifies at any index belongs to the event that fills that position of the
tree, which for the indices of the batch is the event at that index. -/
theorem verifyProof_complete_sound (hd : HexDigest sha256) (hnum : NumberFormat numberText)
    (hdate : DatetimeFormat datetime) (events : List Event) :
    (∀ (i : ℕ) (e : Event), events[i]? = some e → ∃ p, generateProof sha256 numberText events i = .ok p ∧
      verifyProof sha256 numberText e i p (calculateMerkleRoot sha256 numberText events) = true) ∧
    ∀ (e : Event) (i j : ℤ) (p : List Text), generateProof sha256 numberText events i = .ok p →
      verifyProof sha256 numberText e j p (calculateMerkleRoot sha256 numberText events) = true →
      0 ≤ j ∧ j < 2 ^ p.length ∧ ∃ e', events[origin events.length j.toNat]? = some e' ∧
        (j < events.length → events[j.toNat]? = some e') ∧
        serialized numberText e = serialized numberText e' ∧
        (eventSchema datetime e = true → eventSchema datetime e' = true → e.Plain → e'.Plain → e = e') := by
  refine ⟨fun i e he => verifyProof_complete hd he, fun e i j p hp hverify => ?_⟩
  obtain ⟨hlo, hhi, e', he', hser⟩ := verifyProof_position hd hp hverify
  refine ⟨hlo, hhi, e', he', fun hj => ?_, hser, fun hv hv' hplain hplain' => ?_⟩
  · rwa [origin_self (by omega)] at he'
  · exact serialized_injective hnum hdate hv hv' hplain hplain' hser

theorem verifyProof_complete_sound_three :
    ∃ p, generateProof bracketed decimal
        [sampleEvent ['a'] ['b'] 0, sampleEvent ['a'] ['b'] 1, sampleEvent ['a'] ['b'] 2] 2 = .ok p ∧
      verifyProof bracketed decimal (sampleEvent ['a'] ['b'] 2) 2 p (calculateMerkleRoot bracketed decimal
        [sampleEvent ['a'] ['b'] 0, sampleEvent ['a'] ['b'] 1, sampleEvent ['a'] ['b'] 2]) = true :=
  (verifyProof_complete_sound bracketed_ideal.toHexDigest decimal_format sampleDatetime_format _).1 2 _ rfl

theorem verifyProof_repeat (hd : HexDigest sha256) (numberText : ℕ → Text) (a b c : Event) :
    ∃ p, generateProof sha256 numberText [a, b, c] 2 = .ok p ∧
      verifyProof sha256 numberText c 3 p (calculateMerkleRoot sha256 numberText [a, b, c]) = true := by
  refine ⟨[hashEvent sha256 numberText c,
    combined sha256 (hashEvent sha256 numberText a) (hashEvent sha256 numberText b)], ?_, ?_⟩
  · simp [generateProof, generateMerkleProof, proofLoop, nextLevel, pairUp, hashEvent, hd.ne_nil]
  · simp [verifyProof, verifyMerkleProof, verifyLoop, calculateMerkleRoot, buildMerkleTree, nextLevel,
      pairUp, hashEvent, combined, hd.ne_nil]

/-- The proof of the last of three events also verifies at the index after it. -/
theorem verifyProof_past_end :
    ∃ (events : List Event) (e : Event) (p : List Text), events.length = 3 ∧ events[2]? = some e ∧
      generateProof bracketed decimal events 2 = .ok p ∧
      verifyProof bracketed decimal e 3 p (calculateMerkleRoot bracketed decimal events) = true := by
  obtain ⟨p, hp, hv⟩ := verifyProof_repeat bracketed_ideal.toHexDigest decimal (sampleEvent ['a'] ['b'] 0)
    (sampleEvent ['a'] ['b'] 1) (sampleEvent ['a'] ['b'] 2)
  exact ⟨_, _, p, rfl, rfl, hp, hv⟩

end Guarantees

end OxScada.Batcher
