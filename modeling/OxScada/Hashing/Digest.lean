import Mathlib.Data.Set.Insert
import OxScada.Bytes.Buffer

/-! Ideal hexadecimal digests. An injective function on all strings cannot have
outputs of bounded width, so what the fixed width of a real digest buys is stated
as such: no digest is a proper prefix or a proper suffix of another one. -/

namespace OxScada.Hashing
open OxScada.Bytes

section Code
variable {α : Type*}

/-- No word of the code is a proper prefix or a proper suffix of another. -/
def BifixFree (C : Set (List α)) : Prop :=
  (∀ u ∈ C, ∀ v ∈ C, u <+: v → u = v) ∧ ∀ u ∈ C, ∀ v ∈ C, u <:+ v → u = v

variable {C : Set (List α)} {u v x y : List α}

theorem BifixFree.append_left (h : BifixFree C) (hu : u ∈ C) (hv : v ∈ C)
    (e : u ++ x = v ++ y) : u = v ∧ x = y := by
  have hpre : u <+: v ++ y := ⟨x, e⟩
  have huv : u = v := by
    rcases List.prefix_or_prefix_of_prefix hpre (List.prefix_append v y) with hp | hp
    · exact h.1 u hu v hv hp
    · exact (h.1 v hv u hu hp).symm
  subst huv
  exact ⟨rfl, List.append_cancel_left e⟩

theorem BifixFree.append_right (h : BifixFree C) (hu : u ∈ C) (hv : v ∈ C)
    (e : x ++ u = y ++ v) : x = y ∧ u = v := by
  have hsuf : u <:+ y ++ v := ⟨x, e⟩
  have huv : u = v := by
    rcases List.suffix_or_suffix_of_suffix hsuf (List.suffix_append y v) with hs | hs
    · exact h.2 u hu v hv hs
    · exact (h.2 v hv u hu hs).symm
  subst huv
  exact ⟨List.append_cancel_right e, rfl⟩

theorem BifixFree.ne_nil (h : BifixFree C) (hu : u ∈ C) (hv : v ∈ C) (hne : u ≠ v) : u ≠ [] := by
  rintro rfl
  exact hne (h.1 _ hu _ hv (List.nil_prefix ..))

end Code

def zeroDigest : Text := List.replicate 64 '0'

def hexDigits : Text := ['0', '1', '2', '3', '4', '5', '6', '7', '8', '9', 'a', 'b', 'c', 'd', 'e', 'f']

/-- SHA-256 in hexadecimal, idealised: injective on strings, with digests over the sixteen
lower-case digits that behave like words of one width. -/
structure HexDigest (sha256 : Text → Text) : Prop where
  injective : Function.Injective sha256
  bifixFree : BifixFree (Set.range sha256)
  hex : ∀ s, ∀ c ∈ sha256 s, c ∈ hexDigits

/-- In addition the word of 64 zeros behaves like one of that width, and is no digest. -/
structure IdealDigest (sha256 : Text → Text) : Prop extends HexDigest sha256 where
  bifixFree_zero : BifixFree (insert zeroDigest (Set.range sha256))
  ne_zero : ∀ s, sha256 s ≠ zeroDigest

namespace HexDigest
variable {sha256 : Text → Text} (h : HexDigest sha256)
include h

theorem append_left {s t x y : Text} (e : sha256 s ++ x = sha256 t ++ y) : s = t ∧ x = y := by
  have he := h.bifixFree.append_left ⟨s, rfl⟩ ⟨t, rfl⟩ e
  exact ⟨h.injective he.1, he.2⟩

theorem append_right {s t x y : Text} (e : x ++ sha256 s = y ++ sha256 t) : x = y ∧ s = t := by
  have he := h.bifixFree.append_right ⟨s, rfl⟩ ⟨t, rfl⟩ e
  exact ⟨he.1, h.injective he.2⟩

theorem ne_nil (s : Text) : sha256 s ≠ [] := by
  apply h.bifixFree.ne_nil ⟨s, rfl⟩ ⟨'a' :: s, rfl⟩
  intro he
  exact List.cons_ne_self _ _ (h.injective he).symm

theorem notMem {s : Text} {c : Char} (hc : c ∉ hexDigits) : c ∉ sha256 s :=
  fun hmem => hc (h.hex s c hmem)

end HexDigest

theorem IdealDigest.append_zero_ne {sha256 : Text → Text} (h : IdealDigest sha256) {s x y : Text} :
    x ++ sha256 s ≠ y ++ zeroDigest := by
  intro e
  have he := h.bifixFree_zero.append_right (.inr ⟨s, rfl⟩) (.inl rfl) e
  exact h.ne_zero s he.2

/-! ### A concrete ideal digest

Every character becomes 32 binary digits and the word is put between two `f`, which
makes decoding unique from either end. -/

def charBits (c : Char) : Text := (List.range 32).map fun i => if c.toNat.testBit i then '1' else '0'

def bracketed (s : Text) : Text := 'f' :: (s.flatMap charBits ++ ['f'])

theorem charBits_length (c : Char) : (charBits c).length = 32 := by
  simp [charBits]

theorem mem_charBits {c d : Char} (h : d ∈ charBits c) : d = '0' ∨ d = '1' := by
  obtain ⟨i, -, rfl⟩ := List.mem_map.mp h
  split_ifs
  · exact .inr rfl
  · exact .inl rfl

theorem charBits_injective : Function.Injective charBits := by
  intro c d h
  have hlt : ∀ e : Char, e.toNat < 2 ^ 32 := fun e => e.val.toNat_lt
  have hbits : c.toNat = d.toNat := by
    apply Nat.eq_of_testBit_eq
    intro i
    by_cases hi : i < 32
    · have hget := congrArg (fun l : Text => l[i]?) h
      simp only [charBits, List.getElem?_map, List.getElem?_range hi, Option.map_some,
        Option.some.injEq] at hget
      cases hc : c.toNat.testBit i <;> cases hd : d.toNat.testBit i <;> simp_all
    · have hle : (2 : ℕ) ^ 32 ≤ 2 ^ i := Nat.pow_le_pow_right (by norm_num) (by omega)
      rw [Nat.testBit_lt_two_pow ((hlt c).trans_le hle), Nat.testBit_lt_two_pow ((hlt d).trans_le hle)]
  exact Char.toNat_inj.mp hbits

theorem flatMap_charBits_injective : Function.Injective (List.flatMap charBits) := by
  intro s
  induction s with
  | nil =>
    intro t h
    cases t with
    | nil => rfl
    | cons d t =>
      have hlen := congrArg List.length h
      simp [charBits_length] at hlen
      omega
  | cons c s ih =>
    intro t h
    cases t with
    | nil =>
      have hlen := congrArg List.length h
      simp [charBits_length] at hlen
    | cons d t =>
      simp only [List.flatMap_cons] at h
      obtain ⟨hc, hs⟩ := List.append_inj h (by rw [charBits_length, charBits_length])
      rw [charBits_injective hc, ih hs]

theorem f_notMem_flatMap (s : Text) : 'f' ∉ s.flatMap charBits := by
  intro h
  obtain ⟨c, -, hc⟩ := List.mem_flatMap.mp h
  rcases mem_charBits hc with he | he <;> exact absurd he (by decide)

theorem bracketed_injective : Function.Injective bracketed := by
  intro s t h
  have hinner := List.append_cancel_right (List.cons.inj h).2
  exact flatMap_charBits_injective hinner

theorem bracketed_eq_of_start {s t : Text} (h : bracketed s <+: bracketed t) : s = t := by
  obtain ⟨x, hx⟩ := h
  have htail : s.flatMap charBits ++ 'f' :: x = t.flatMap charBits ++ 'f' :: [] := by
    simpa [bracketed] using hx
  obtain ⟨hinner, -, -⟩ :=
    (List.append_cons_inj_of_notMem (f_notMem_flatMap t) (List.not_mem_nil)).mp htail.symm
  exact (flatMap_charBits_injective hinner).symm

theorem bracketed_eq_of_end {s t : Text} (h : bracketed s <:+ bracketed t) : s = t := by
  have hrev : (bracketed s).reverse <+: (bracketed t).reverse := List.reverse_prefix.mpr h
  obtain ⟨x, hx⟩ := hrev
  have htail : (s.flatMap charBits).reverse ++ 'f' :: x = (t.flatMap charBits).reverse ++ 'f' :: [] := by
    simpa [bracketed] using hx
  have hnot : 'f' ∉ (t.flatMap charBits).reverse := by
    intro hw
    exact f_notMem_flatMap t (List.mem_reverse.mp hw)
  obtain ⟨hinner, -, -⟩ := (List.append_cons_inj_of_notMem hnot List.not_mem_nil).mp htail.symm
  exact (flatMap_charBits_injective (List.reverse_injective hinner)).symm

theorem f_mem_bracketed (s : Text) : 'f' ∈ bracketed s := List.mem_cons_self ..

theorem f_notMem_zeroDigest : 'f' ∉ zeroDigest := by
  intro h
  exact absurd (List.eq_of_mem_replicate h) (by decide)

theorem zeroDigest_not_start (s : Text) : ¬ zeroDigest <+: bracketed s := by
  rintro ⟨x, hx⟩
  exact absurd (List.cons.inj hx).1 (by decide)

theorem zeroDigest_not_end (s : Text) : ¬ zeroDigest <:+ bracketed s := by
  rintro ⟨x, hx⟩
  have hlast := congrArg List.getLast? hx
  rw [bracketed, ← List.cons_append, List.getLast?_concat, List.getLast?_append,
    show zeroDigest.getLast? = some '0' from rfl] at hlast
  exact absurd (Option.some.inj hlast) (by decide)

theorem bracketed_ideal : IdealDigest bracketed where
  injective := bracketed_injective
  bifixFree := by
    constructor
    · rintro u ⟨s, rfl⟩ v ⟨t, rfl⟩ hp
      rw [bracketed_eq_of_start hp]
    · rintro u ⟨s, rfl⟩ v ⟨t, rfl⟩ hs
      rw [bracketed_eq_of_end hs]
  bifixFree_zero := by
    constructor
    · rintro u (rfl | ⟨s, rfl⟩) v (rfl | ⟨t, rfl⟩) hp
      · rfl
      · exact absurd hp (zeroDigest_not_start t)
      · exact absurd (hp.subset (f_mem_bracketed s)) f_notMem_zeroDigest
      · rw [bracketed_eq_of_start hp]
    · rintro u (rfl | ⟨s, rfl⟩) v (rfl | ⟨t, rfl⟩) hs
      · rfl
      · exact absurd hs (zeroDigest_not_end t)
      · exact absurd (hs.subset (f_mem_bracketed s)) f_notMem_zeroDigest
      · rw [bracketed_eq_of_end hs]
  ne_zero := by
    intro s h
    exact f_notMem_zeroDigest (h ▸ f_mem_bracketed s)
  hex := by
    intro s c hc
    simp only [bracketed, List.mem_cons, List.mem_append, List.not_mem_nil, or_false] at hc
    rcases hc with rfl | hc | rfl
    · decide
    · obtain ⟨d, -, hd⟩ := List.mem_flatMap.mp hc
      rcases mem_charBits hd with rfl | rfl <;> decide
    · decide

end OxScada.Hashing
