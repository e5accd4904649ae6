import Mathlib.Data.Char
import Mathlib.Data.List.Lex
import Mathlib.Data.List.Sort
import OxScada.Bytes.Buffer

/-! Strings as JavaScript compares, trims and splits them. The order of `sort()` is that of
the UTF-16 code units. -/

namespace OxScada.Js
open OxScada.Bytes

def utf16 (c : Char) : List ℕ :=
  if c.toNat < 0x10000 then [c.toNat]
  else [0xd800 + (c.toNat - 0x10000) / 0x400, 0xdc00 + (c.toNat - 0x10000) % 0x400]

def codeUnits (s : Text) : List ℕ := s.flatMap utf16

def sortTexts (texts : List Text) : List Text := texts.insertionSort fun s t => codeUnits s ≤ codeUnits t

/-- White space and line terminators, as `trim()` knows them. -/
def isSpace (c : Char) : Bool :=
  c.toNat ∈ [0x09, 0x0a, 0x0b, 0x0c, 0x0d, 0x20, 0xa0, 0x1680, 0x2028, 0x2029, 0x202f, 0x205f, 0x3000, 0xfeff] ∨
    (0x2000 ≤ c.toNat ∧ c.toNat ≤ 0x200a)

def isBlank (s : Text) : Bool := s.all isSpace

def splitDots (path : Text) : List Text := path.splitOn '.'

def dotted (segments : List Text) : Text := ['.'].intercalate segments

/-! ### Code units -/

theorem utf16_append {c d : Char} {r s : List ℕ} (h : utf16 c ++ r = utf16 d ++ s) : c = d ∧ r = s := by
  have hvalid : ∀ c : Char, c.toNat < 0xd800 ∨ 0xdfff < c.toNat ∧ c.toNat < 0x110000 := fun c => c.valid
  have hc := hvalid c
  have hd := hvalid d
  have heq : c.toNat = d.toNat → c = d := Char.toNat_inj.mp
  unfold utf16 at h
  -- a code unit of the surrogate range is never a character of its own
  split_ifs at h with hsmall hsmall'
  · obtain ⟨hunit, hrest⟩ := List.cons.inj h
    exact ⟨heq hunit, hrest⟩
  · have hunit := (List.cons.inj h).1
    omega
  · have hunit := (List.cons.inj h).1
    omega
  · obtain ⟨hhigh, hrest⟩ := List.cons.inj h
    obtain ⟨hlow, hrest⟩ := List.cons.inj hrest
    exact ⟨heq (by omega), hrest⟩

theorem codeUnits_injective : Function.Injective codeUnits := by
  have hne : ∀ c : Char, utf16 c ≠ [] := by
    intro c
    unfold utf16
    split_ifs <;> exact List.cons_ne_nil _ _
  intro s
  induction s with
  | nil =>
    intro t h
    cases t with
    | nil => rfl
    | cons d t =>
      rw [codeUnits, codeUnits, List.flatMap_nil, List.flatMap_cons] at h
      exact absurd (List.append_eq_nil_iff.mp h.symm).1 (hne d)
  | cons c s ih =>
    intro t h
    cases t with
    | nil =>
      rw [codeUnits, codeUnits, List.flatMap_nil, List.flatMap_cons] at h
      exact absurd (List.append_eq_nil_iff.mp h).1 (hne c)
    | cons d t =>
      rw [codeUnits, codeUnits, List.flatMap_cons, List.flatMap_cons] at h
      obtain ⟨rfl, hrest⟩ := utf16_append h
      rw [ih hrest]

/-! ### Sorting -/

theorem sortTexts_perm (texts : List Text) : (sortTexts texts).Perm texts := List.perm_insertionSort ..

theorem sortTexts_sorted (texts : List Text) : (sortTexts texts).Pairwise fun s t => codeUnits s ≤ codeUnits t := by
  have : Std.Total fun s t : Text => codeUnits s ≤ codeUnits t := ⟨fun s t => le_total _ _⟩
  have : IsTrans Text fun s t => codeUnits s ≤ codeUnits t := ⟨fun _ _ _ => le_trans⟩
  exact List.pairwise_insertionSort _ texts

theorem sortTexts_strict {texts : List Text} (h : texts.Nodup) :
    (sortTexts texts).Pairwise fun s t => codeUnits s < codeUnits t := by
  have hnodup := (sortTexts_perm texts).nodup_iff.mpr h
  exact (sortTexts_sorted texts).imp₂ (fun s t hle hne => lt_of_le_of_ne hle (codeUnits_injective.ne hne)) hnodup

theorem sortTexts_congr {texts texts' : List Text} (h : texts.Perm texts') : sortTexts texts = sortTexts texts' := by
  have hperm : (sortTexts texts).Perm (sortTexts texts') :=
    (sortTexts_perm texts).trans (h.trans (sortTexts_perm texts').symm)
  refine hperm.eq_of_pairwise (fun s t _ _ hst hts => ?_) (sortTexts_sorted texts) (sortTexts_sorted texts')
  exact codeUnits_injective (le_antisymm hst hts)

/-! ### Paths -/

theorem codeUnits_lt_of_front {s t : Text} (h : s <+: t) (hne : s ≠ t) : codeUnits s < codeUnits t := by
  obtain ⟨rest, rfl⟩ := h
  have hrest : codeUnits rest ≠ [] := by
    intro hnil
    have hempty : rest = [] := codeUnits_injective hnil
    rw [hempty, List.append_nil] at hne
    exact hne rfl
  have hsplit : codeUnits (s ++ rest) = codeUnits s ++ codeUnits rest := List.flatMap_append
  rw [hsplit]
  generalize codeUnits s = units
  induction units with
  | nil =>
    obtain ⟨unit, units, hunits⟩ := List.exists_cons_of_ne_nil hrest
    rw [hunits]
    exact List.nil_lt_cons unit units
  | cons unit units ih => exact List.cons_lt_cons_iff.mpr (.inr ⟨rfl, ih⟩)

variable {segments : List Text}

theorem splitDots_dotted (hdots : ∀ segment ∈ segments, '.' ∉ segment) (hne : segments ≠ []) :
    splitDots (dotted segments) = segments := List.splitOn_intercalate '.' hdots hne

theorem dotted_splitDots (path : Text) : dotted (splitDots path) = path := List.intercalate_splitOn '.'

theorem dot_not_mem_segment {path segment : Text} (h : segment ∈ splitDots path) : '.' ∉ segment := by
  induction path generalizing segment with
  | nil =>
    obtain rfl : segment = [] := by simpa [splitDots] using h
    exact List.not_mem_nil
  | cons c rest ih =>
    rw [splitDots, List.splitOn_cons_eq_if_modifyHead] at h
    obtain ⟨first, segments, hrest⟩ := List.exists_cons_of_ne_nil (List.splitOn_ne_nil '.' rest)
    have hih : ∀ s ∈ first :: segments, '.' ∉ s := fun s hs => ih (show s ∈ rest.splitOn '.' from hrest ▸ hs)
    rw [hrest] at h
    split_ifs at h with hdot
    · rcases List.mem_cons.mp h with rfl | h
      · exact List.not_mem_nil
      · exact hih segment h
    · rcases List.mem_cons.mp h with rfl | h
      · rw [List.mem_cons, not_or]
        exact ⟨fun heq => hdot (by rw [← heq]; rfl), hih first List.mem_cons_self⟩
      · exact hih segment (List.mem_cons_of_mem _ h)

theorem splitDots_ne_nil (path : Text) : splitDots path ≠ [] := List.splitOn_ne_nil '.' path

theorem dotted_singleton (segment : Text) : dotted [segment] = segment := by simp [dotted, List.intercalate]

theorem dotted_cons {segment : Text} (hne : segments ≠ []) :
    dotted (segment :: segments) = segment ++ '.' :: dotted segments := by
  obtain ⟨next, rest, rfl⟩ := List.exists_cons_of_ne_nil hne
  rfl

theorem dotted_append_singleton (hne : segments ≠ []) (segment : Text) :
    dotted (segments ++ [segment]) = dotted segments ++ '.' :: segment := by
  induction segments with
  | nil => exact absurd rfl hne
  | cons first rest ih =>
    cases rest with
    | nil => rw [List.singleton_append, dotted_cons (List.cons_ne_nil _ _), dotted_singleton, dotted_singleton]
    | cons next rest =>
      have hrest := ih (List.cons_ne_nil next rest)
      rw [List.cons_append, List.cons_append, dotted_cons (List.cons_ne_nil _ _), dotted_cons (List.cons_ne_nil _ _),
        ← List.cons_append, hrest, List.append_assoc, List.cons_append]

theorem dotted_front {segments' : List Text} (h : segments <+: segments') :
    dotted segments <+: dotted segments' := by
  obtain ⟨rest, rfl⟩ := h
  induction segments with
  | nil => exact List.nil_prefix
  | cons segment segments ih =>
    cases segments with
    | nil =>
      cases rest with
      | nil => exact List.prefix_refl _
      | cons next rest =>
        rw [List.singleton_append, dotted_cons (List.cons_ne_nil _ _), dotted_singleton]
        exact List.prefix_append segment _
    | cons next segments =>
      rw [List.cons_append, List.cons_append, dotted_cons (List.cons_ne_nil _ _), dotted_cons (List.cons_ne_nil _ _)]
      exact (List.prefix_append_right_inj segment).mpr (List.cons_prefix_cons.mpr ⟨rfl, ih⟩)

end OxScada.Js
