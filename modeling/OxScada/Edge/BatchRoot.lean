import OxScada.Edge.Records
import OxScada.Hashing.Digest
import OxScada.Hashing.PerfectTree

/-! What the root of a batch says about the batch. A level of odd length joins its last entry with
itself, so the root tells the height of the tree and what fills each of its positions, and not
the length of the list. -/

namespace OxScada.Edge
open OxScada.Bytes OxScada.Js OxScada.Hashing

/-- SHA-256 on octets, idealised: the octets of the hexadecimal digests tell what was hashed, and
behave like words of one width. -/
structure OctetDigest (sha256Hex : Buffer → Text) : Prop where
  injective : Function.Injective fun octets => fromHex (sha256Hex octets)
  bifixFree : BifixFree (Set.range fun octets => fromHex (sha256Hex octets))

/-! ### Texts and their octets -/

theorem utf8_injective : Function.Injective utf8 := by
  intro s t h
  have hbytes : (String.ofList s).toByteArray = (String.ofList t).toByteArray := by
    rw [String.toByteArray_ofList, String.toByteArray_ofList]
    exact congrArg List.toByteArray h
  exact String.ofList_injective (String.toByteArray_inj.mp hbytes)

theorem utf8_eq_nil {s : Text} (h : utf8 s = []) : s = [] := utf8_injective h

section Texts
variable (localeCompare : Text → Text → ℤ)

theorem canonicalJson_ne_nil (value : Json) : canonicalJson localeCompare value ≠ [] := by
  cases value with
  | null | array | object => simp [canonicalJson]
  | bool b => cases b <;> simp [canonicalJson]
  | number n => simpa [canonicalJson] using n.nonempty
  | string s => simp [canonicalJson, quote]

end Texts

/-! ### The tree -/

section Tree
variable {sha256Hex : Buffer → Text}

def leafHash (localeCompare : Text → Text → ℤ) (sha256Hex : Buffer → Text) (value : Json) : Text :=
  sha256Hex (0 :: utf8 (canonicalJson localeCompare value))

theorem merkleRounds_length {rounds : ℕ} {level : List Text} (h : level.length ≤ rounds) :
    merkleRounds sha256Hex rounds level = merkleRounds sha256Hex level.length level := by
  induction hn : level.length using Nat.strong_induction_on generalizing rounds level with
  | _ n ih =>
    rcases Nat.lt_or_ge 1 level.length with hlong | hshort
    · obtain ⟨rounds, rfl⟩ : ∃ k, rounds = k + 1 := ⟨rounds - 1, by omega⟩
      obtain ⟨n, rfl⟩ : ∃ k, n = k + 1 := ⟨n - 1, by omega⟩
      have hpaired := pairUp_length (merkleBranch sha256Hex) (fun left => merkleBranch sha256Hex left left) level
      have hshorter : (pairUp (merkleBranch sha256Hex) (fun left => merkleBranch sha256Hex left left) level).length ≤ n := by omega
      have hleft := ih _ (by omega) (hshorter.trans (by omega : n ≤ rounds)) hpaired
      have hright := ih _ (by omega) hshorter hpaired
      rw [merkleRounds, merkleRounds, if_pos hlong, if_pos hlong, hleft, hright]
    · have hone : ∀ k, merkleRounds sha256Hex k level = level.headD [] := by
        intro k
        cases k with
        | zero => rfl
        | succ k => rw [merkleRounds, if_neg (by omega)]
      rw [hone, hone]

def levelRoot (sha256Hex : Buffer → Text) (level : List Text) : Text := merkleRounds sha256Hex level.length level

theorem levelRoot_eq_perfect (sha256Hex : Buffer → Text) {level : List Text} (hne : level ≠ []) :
    levelRoot sha256Hex level =
      perfect (merkleBranch sha256Hex) (Nat.clog 2 level.length) (padded level) := by
  have hgood : ∀ left right : Text, (fun _ : Text => True) (merkleBranch sha256Hex left right) := fun _ _ => trivial
  refine root_eq_perfect (merkleBranch sha256Hex) hgood ?_ ?_ hne fun _ _ => trivial
  · intro a
    rfl
  · intro l h2 _
    have hpaired := pairUp_length (merkleBranch sha256Hex) (fun left => merkleBranch sha256Hex left left) l
    obtain ⟨n, hn⟩ : ∃ k, l.length = k + 1 := ⟨l.length - 1, by omega⟩
    rw [levelRoot, hn, merkleRounds, if_pos (by omega)]
    exact merkleRounds_length (by omega)

theorem perfect_branch (sha256Hex : Buffer → Text) (height : ℕ) (f : ℕ → Text) :
    ∃ octets, perfect (merkleBranch sha256Hex) (height + 1) f = sha256Hex (1 :: octets) := by
  induction height generalizing f with
  | zero => exact ⟨_, rfl⟩
  | succ height ih => exact ih fun j => merkleBranch sha256Hex (f (2 * j)) (f (2 * j + 1))

variable (hd : OctetDigest sha256Hex)
include hd

theorem OctetDigest.hash_injective : Function.Injective sha256Hex :=
  fun _ _ h => hd.injective (congrArg fromHex h)

theorem merkleBranch_binding : Binding (merkleBranch sha256Hex) (fun x => ∃ octets, sha256Hex octets = x)
    (fun x => ∃ octets, sha256Hex (0 :: octets) = x) where
  digest_pair := fun a b => ⟨_, rfl⟩
  digest_leaf := by
    rintro a ⟨octets, h⟩
    exact ⟨_, h⟩
  left := by
    rintro a b c d ⟨s, rfl⟩ ⟨t, rfl⟩ h
    have hoctets := (List.cons.inj (hd.hash_injective h)).2
    rw [hd.injective (hd.bifixFree.append_left ⟨s, rfl⟩ ⟨t, rfl⟩ hoctets).1]
  right := by
    rintro a b c d ⟨s, rfl⟩ ⟨t, rfl⟩ h
    have hoctets := (List.cons.inj (hd.hash_injective h)).2
    rw [hd.injective (hd.bifixFree.append_right ⟨s, rfl⟩ ⟨t, rfl⟩ hoctets).2]
  leaf_ne := by
    rintro a b - - ⟨octets, h⟩
    exact absurd (List.cons.inj (hd.hash_injective h)).1 (by decide)

end Tree

/-! ### Batches -/

section Batch
variable {localeCompare : Text → Text → ℤ} {sha256Hex : Buffer → Text} {xs ys : List Json}

theorem merkleRoot_eq_perfect (hne : xs ≠ []) :
    merkleRoot localeCompare sha256Hex xs =
      perfect (merkleBranch sha256Hex) (Nat.clog 2 xs.length) (padded (xs.map (leafHash localeCompare sha256Hex))) := by
  have hlevel : xs.map (leafHash localeCompare sha256Hex) ≠ [] := by simpa using hne
  have hperfect := levelRoot_eq_perfect sha256Hex hlevel
  rw [levelRoot, List.length_map] at hperfect
  rw [merkleRoot, if_neg hne]
  exact hperfect

theorem leaf_padded_leafHash (hne : xs ≠ []) (j : ℕ) :
    ∃ octets, sha256Hex (0 :: octets) = padded (xs.map (leafHash localeCompare sha256Hex)) j := by
  have hmem := padded_mem (l := xs.map (leafHash localeCompare sha256Hex)) (by simpa using hne) j
  obtain ⟨value, -, h⟩ := List.mem_map.mp hmem
  exact ⟨_, h⟩

theorem getElem?_origin_leafHash (localeCompare : Text → Text → ℤ) (sha256Hex : Buffer → Text) (hne : xs ≠ []) (j : ℕ) :
    (xs[origin xs.length j]?).map (leafHash localeCompare sha256Hex) = some (padded (xs.map (leafHash localeCompare sha256Hex)) j) := by
  have hget := getElem?_padded (l := xs.map (leafHash localeCompare sha256Hex)) (by simpa using hne) j
  rwa [List.length_map, List.getElem?_map] at hget

variable (hd : OctetDigest sha256Hex)
include hd

theorem leaf_injective : Function.Injective fun text => sha256Hex (0 :: utf8 text) := by
  intro s t h
  exact utf8_injective (List.cons.inj (hd.hash_injective h)).2

theorem merkleRoot_ne_nil (hne : xs ≠ []) : merkleRoot localeCompare sha256Hex xs ≠ merkleRoot localeCompare sha256Hex [] := by
  intro h
  rw [merkleRoot_eq_perfect hne, merkleRoot, if_pos rfl] at h
  cases hheight : Nat.clog 2 xs.length with
  | zero =>
    rw [hheight, perfect] at h
    have hmem := padded_mem (l := xs.map (leafHash localeCompare sha256Hex)) (by simpa using hne) 0
    obtain ⟨value, -, hvalue⟩ := List.mem_map.mp hmem
    rw [← hvalue, leafHash] at h
    exact canonicalJson_ne_nil localeCompare value (utf8_eq_nil (List.cons.inj (hd.hash_injective h)).2)
  | succ height =>
    obtain ⟨octets, hoctets⟩ := perfect_branch sha256Hex height (padded (xs.map (leafHash localeCompare sha256Hex)))
    rw [hheight, hoctets] at h
    exact absurd (List.cons.inj (hd.hash_injective h)).1 (by decide)

omit hd in
/-- Two batches of at least one value have one root exactly when their trees have one height and the
same texts at every position. -/
theorem merkleRoot_eq_iff (localeCompare : Text → Text → ℤ) (hd : OctetDigest sha256Hex) (hxs : xs ≠ []) (hys : ys ≠ []) :
    merkleRoot localeCompare sha256Hex xs = merkleRoot localeCompare sha256Hex ys ↔
      Nat.clog 2 xs.length = Nat.clog 2 ys.length ∧ ∀ j < 2 ^ Nat.clog 2 xs.length,
        (xs[origin xs.length j]?).map (canonicalJson localeCompare) = (ys[origin ys.length j]?).map (canonicalJson localeCompare) := by
  have hb := merkleBranch_binding hd
  have hfill : ∀ j, (xs[origin xs.length j]?).map (canonicalJson localeCompare) =
      (ys[origin ys.length j]?).map (canonicalJson localeCompare) ↔
      padded (xs.map (leafHash localeCompare sha256Hex)) j = padded (ys.map (leafHash localeCompare sha256Hex)) j := by
    intro j
    have hcomp : leafHash localeCompare sha256Hex = (fun text => sha256Hex (0 :: utf8 text)) ∘ canonicalJson localeCompare := rfl
    have hleft := getElem?_origin_leafHash localeCompare sha256Hex hxs j
    have hright := getElem?_origin_leafHash localeCompare sha256Hex hys j
    rw [hcomp, ← Option.map_map] at hleft hright
    rw [← (Option.map_injective (leaf_injective hd)).eq_iff, hleft, hright, Option.some_inj, hcomp]
  rw [merkleRoot_eq_perfect hxs, merkleRoot_eq_perfect hys]
  simp only [hfill]
  constructor
  · intro hroot
    have hheight := hb.height_eq (leaf_padded_leafHash hxs) (leaf_padded_leafHash hys) hroot
    rw [← hheight] at hroot
    refine ⟨hheight, fun j hj => hb.perfect_inj ?_ ?_ hroot hj⟩
    · exact fun j => hb.digest_leaf (leaf_padded_leafHash hxs j)
    · exact fun j => hb.digest_leaf (leaf_padded_leafHash hys j)
  · rintro ⟨hheight, hsame⟩
    rw [← hheight]
    exact perfect_congr _ hsame

omit hd in
/-- Lists of one root are both empty or neither, have trees of one height with the same texts at every
position, and so the same texts at every index that both have. -/
theorem merkleRoot_commits (localeCompare : Text → Text → ℤ) (hd : OctetDigest sha256Hex) (xs ys : List Json) :
    (merkleRoot localeCompare sha256Hex xs = merkleRoot localeCompare sha256Hex ys ↔
      (xs = [] ↔ ys = []) ∧ Nat.clog 2 xs.length = Nat.clog 2 ys.length ∧ ∀ j < 2 ^ Nat.clog 2 xs.length,
        (xs[origin xs.length j]?).map (canonicalJson localeCompare) = (ys[origin ys.length j]?).map (canonicalJson localeCompare)) ∧
    (merkleRoot localeCompare sha256Hex xs = merkleRoot localeCompare sha256Hex ys →
      (∀ (j : ℕ) (x y : Json), xs[j]? = some x → ys[j]? = some y → canonicalJson localeCompare x = canonicalJson localeCompare y) ∧
      (xs.length = ys.length → xs.map (canonicalJson localeCompare) = ys.map (canonicalJson localeCompare))) := by
  have hiff : merkleRoot localeCompare sha256Hex xs = merkleRoot localeCompare sha256Hex ys ↔
      (xs = [] ↔ ys = []) ∧ Nat.clog 2 xs.length = Nat.clog 2 ys.length ∧ ∀ j < 2 ^ Nat.clog 2 xs.length,
        (xs[origin xs.length j]?).map (canonicalJson localeCompare) = (ys[origin ys.length j]?).map (canonicalJson localeCompare) := by
    by_cases hxs : xs = []
    · by_cases hys : ys = []
      · simp [hxs, hys]
      · have hne : merkleRoot localeCompare sha256Hex ys ≠ merkleRoot localeCompare sha256Hex [] := merkleRoot_ne_nil hd hys
        simp [hxs, hys, hne.symm]
    · by_cases hys : ys = []
      · have hne : merkleRoot localeCompare sha256Hex xs ≠ merkleRoot localeCompare sha256Hex [] := merkleRoot_ne_nil hd hxs
        simp [hxs, hys, hne]
      · rw [merkleRoot_eq_iff localeCompare hd hxs hys]
        simp [hxs, hys]
  have hcommon : merkleRoot localeCompare sha256Hex xs = merkleRoot localeCompare sha256Hex ys →
      ∀ (j : ℕ) (x y : Json), xs[j]? = some x → ys[j]? = some y → canonicalJson localeCompare x = canonicalJson localeCompare y := by
    intro hroot j x y hx hy
    obtain ⟨-, -, hfill⟩ := hiff.mp hroot
    have hj : j < xs.length := (List.getElem?_eq_some_iff.mp hx).1
    have hj' : j < ys.length := (List.getElem?_eq_some_iff.mp hy).1
    have hsame := hfill j (hj.trans_le (Nat.le_pow_clog (by norm_num) _))
    rw [origin_self hj, origin_self hj', hx, hy, Option.map_some, Option.map_some] at hsame
    exact Option.some.inj hsame
  refine ⟨hiff, fun hroot => ⟨hcommon hroot, fun hlength => ?_⟩⟩
  apply List.ext_getElem (by simpa using hlength)
  intro j hx hy
  rw [List.length_map] at hx hy
  rw [List.getElem_map, List.getElem_map]
  exact hcommon hroot j _ _ (List.getElem?_eq_getElem hx) (List.getElem?_eq_getElem hy)

end Batch

/-! ### A concrete digest

Every octet becomes its two halves, and the word is put between two octets that are no halves. -/

def halves (octet : UInt8) : Buffer := [octet / 16, octet % 16]

variable (octets : Buffer)

def framed : Buffer := 255 :: (octets.flatMap halves ++ [255])

def toHex : Text := octets.flatMap fun octet => [hexDigit (octet.toNat / 16), hexDigit (octet.toNat % 16)]

theorem fromHex_toHex : fromHex (toHex octets) = octets := by
  have hdigit : ∀ n : Fin 16, hexValue (hexDigit n) = some n.val := by decide
  induction octets with
  | nil => rfl
  | cons octet rest ih =>
    have hlt := octet.toNat_lt
    have hhigh := hdigit ⟨octet.toNat / 16, by omega⟩
    have hlow := hdigit ⟨octet.toNat % 16, by omega⟩
    have hsum : 16 * (octet.toNat / 16) + octet.toNat % 16 = octet.toNat := by omega
    have hcons : toHex (octet :: rest) = hexDigit (octet.toNat / 16) :: hexDigit (octet.toNat % 16) :: toHex rest := rfl
    rw [hcons, fromHex]
    dsimp only at hhigh hlow
    rw [hhigh, hlow]
    dsimp only
    rw [hsum, ih, UInt8.ofNat_toNat]

theorem halves_injective {a b : UInt8} (h : halves a = halves b) : a = b := by
  have hparts := (List.cons.inj h)
  have hhigh := congrArg UInt8.toNat hparts.1
  have hlow := congrArg UInt8.toNat (List.cons.inj hparts.2).1
  have hsixteen : (16 : UInt8).toNat = 16 := rfl
  rw [UInt8.toNat_div, UInt8.toNat_div, hsixteen] at hhigh
  rw [UInt8.toNat_mod, UInt8.toNat_mod, hsixteen] at hlow
  exact UInt8.toNat_inj.mp (by omega)

theorem flatMap_halves_injective : Function.Injective (List.flatMap halves) := by
  intro s
  induction s with
  | nil =>
    intro t h
    cases t with
    | nil => rfl
    | cons b t => simp [halves] at h
  | cons a s ih =>
    intro t h
    cases t with
    | nil => simp [halves] at h
    | cons b t =>
      simp only [List.flatMap_cons] at h
      obtain ⟨hfirst, hrest⟩ := List.append_inj h rfl
      rw [halves_injective hfirst, ih hrest]

theorem frame_notMem (s : Buffer) : 255 ∉ s.flatMap halves := by
  intro h
  obtain ⟨octet, -, hoctet⟩ := List.mem_flatMap.mp h
  have hlt := octet.toNat_lt
  have hframe : (255 : UInt8).toNat = 255 := rfl
  have hsixteen : (16 : UInt8).toNat = 16 := rfl
  rcases List.mem_pair.mp hoctet with hhalf | hhalf
  · have hvalue := congrArg UInt8.toNat hhalf
    rw [UInt8.toNat_div, hframe, hsixteen] at hvalue
    omega
  · have hvalue := congrArg UInt8.toNat hhalf
    rw [UInt8.toNat_mod, hframe, hsixteen] at hvalue
    omega

theorem framed_eq_of_start {s t : Buffer} (h : framed s <+: framed t) : s = t := by
  obtain ⟨x, hx⟩ := h
  have htail : s.flatMap halves ++ 255 :: x = t.flatMap halves ++ 255 :: [] := by
    simpa [framed] using hx
  obtain ⟨hinner, -, -⟩ := (List.append_cons_inj_of_notMem (frame_notMem t) List.not_mem_nil).mp htail.symm
  exact (flatMap_halves_injective hinner).symm

theorem framed_eq_of_end {s t : Buffer} (h : framed s <:+ framed t) : s = t := by
  obtain ⟨x, hx⟩ := List.reverse_prefix.mpr h
  have htail : (s.flatMap halves).reverse ++ 255 :: x = (t.flatMap halves).reverse ++ 255 :: [] := by
    simpa [framed] using hx
  have hnot : 255 ∉ (t.flatMap halves).reverse := by
    rw [List.mem_reverse]
    exact frame_notMem t
  obtain ⟨hinner, -, -⟩ := (List.append_cons_inj_of_notMem hnot List.not_mem_nil).mp htail.symm
  exact (flatMap_halves_injective (List.reverse_injective hinner)).symm

def framedHex : Text := toHex (framed octets)

theorem framedHex_ideal : OctetDigest framedHex where
  injective := by
    intro s t h
    simp only [framedHex, fromHex_toHex] at h
    exact framed_eq_of_start (h ▸ List.prefix_refl _)
  bifixFree := by
    simp only [framedHex, fromHex_toHex]
    constructor
    · rintro u ⟨s, rfl⟩ v ⟨t, rfl⟩ hp
      rw [framed_eq_of_start hp]
    · rintro u ⟨s, rfl⟩ v ⟨t, rfl⟩ hs
      rw [framed_eq_of_end hs]

theorem merkleRoot_commits_pair : merkleRoot (fun _ _ => 0) framedHex [.null, .bool true] ≠ merkleRoot (fun _ _ => 0) framedHex [.null, .bool false] := by
  intro hroot
  have hsame := ((merkleRoot_commits (fun _ _ => 0) framedHex_ideal _ _).2 hroot).1 1 _ _ rfl rfl
  exact absurd hsame (by decide)

/-- A batch of three has the root of the batch in which its last value stands twice. -/
theorem merkleRoot_collides : ∃ xs ys : List Json, merkleRoot (fun _ _ => 0) framedHex xs = merkleRoot (fun _ _ => 0) framedHex ys ∧
    xs.length ≠ ys.length :=
  ⟨[.null, .bool false, .bool true], [.null, .bool false, .bool true, .bool true], rfl, by decide⟩

end OxScada.Edge
