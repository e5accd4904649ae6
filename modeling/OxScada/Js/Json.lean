import Mathlib.Data.Char
import Mathlib.Data.List.Lex
import Mathlib.Data.List.Sort
import OxScada.Bytes.Buffer

/-! JSON values, and the text with sorted keys that is hashed for them. An object is kept as
the list of its fields in the order of their keys, so that equal objects are equal lists. -/

namespace OxScada.Js
open OxScada.Bytes

def numberChars : Text := ['0', '1', '2', '3', '4', '5', '6', '7', '8', '9', '-', '+', '.', 'e']

/-- A finite number, as `JSON.stringify` writes it. The text determines the number up to the
sign of zero. -/
structure JsonNumber where
  text : Text
  nonempty : text ≠ [] := by decide
  chars : ∀ c ∈ text, c ∈ numberChars := by decide
  deriving DecidableEq

inductive Json where
  | null
  | bool (value : Bool)
  | number (value : JsonNumber)
  | string (value : Text)
  | array (items : List Json)
  | object (fields : List (Text × Json))

theorem Json.induction {motive : Json → Prop} (null : motive .null) (bool : ∀ value, motive (.bool value))
    (number : ∀ value, motive (.number value)) (string : ∀ value, motive (.string value))
    (array : ∀ items, (∀ j ∈ items, motive j) → motive (.array items))
    (object : ∀ fields, (∀ field ∈ fields, motive field.2) → motive (.object fields)) (j : Json) : motive j := by
  refine @Json.rec motive (fun items => ∀ j ∈ items, motive j) (fun fields => ∀ field ∈ fields, motive field.2)
    (fun field => motive field.2) null bool number string array object ?_ ?_ ?_ ?_ ?_ j
  · simp
  · intro head tail hhead htail j hj
    rcases List.mem_cons.mp hj with rfl | hj
    · exact hhead
    · exact htail j hj
  · simp
  · intro head tail hhead htail field hfield
    rcases List.mem_cons.mp hfield with rfl | hfield
    · exact hhead
    · exact htail field hfield
  · intro key value hvalue
    exact hvalue

abbrev Fields := List (Text × Json)

def Fields.keys (fields : Fields) : List Text := fields.map (·.1)

/-- Every object in a value has its keys in order, and so without repetition. -/
inductive Json.WellFormed : Json → Prop
  | null : WellFormed .null
  | bool (value : Bool) : WellFormed (.bool value)
  | number (value : JsonNumber) : WellFormed (.number value)
  | string (value : Text) : WellFormed (.string value)
  | array {items : List Json} (h : ∀ j ∈ items, WellFormed j) : WellFormed (.array items)
  | object {fields : Fields} (hsorted : (Fields.keys fields).Pairwise (· < ·))
      (h : ∀ field ∈ fields, WellFormed field.2) : WellFormed (.object fields)

theorem Json.WellFormed.items {items : List Json} (h : (Json.array items).WellFormed) : ∀ j ∈ items, j.WellFormed := by
  cases h with
  | array h => exact h

theorem Json.WellFormed.sorted {fields : Fields} (h : (Json.object fields).WellFormed) :
    fields.keys.Pairwise (· < ·) := by
  cases h with
  | object hsorted h => exact hsorted

theorem Json.WellFormed.fields {fields : Fields} (h : (Json.object fields).WellFormed) :
    ∀ field ∈ fields, field.2.WellFormed := by
  cases h with
  | object hsorted h => exact h

/-! ### Text -/

def hexDigit (n : ℕ) : Char := ['0', '1', '2', '3', '4', '5', '6', '7', '8', '9', 'a', 'b', 'c', 'd', 'e', 'f'].getD n '0'

/-- How `JSON.stringify` writes a character inside a string. -/
def escape (c : Char) : Text :=
  if c = '"' then ['\\', '"']
  else if c = '\\' then ['\\', '\\']
  else if c.toNat = 8 then ['\\', 'b']
  else if c.toNat = 9 then ['\\', 't']
  else if c.toNat = 10 then ['\\', 'n']
  else if c.toNat = 12 then ['\\', 'f']
  else if c.toNat = 13 then ['\\', 'r']
  else if c.toNat < 32 then ['\\', 'u', '0', '0', hexDigit (c.toNat / 16), hexDigit (c.toNat % 16)]
  else [c]

def quote (s : Text) : Text := '"' :: s.flatMap escape ++ ['"']

def joinComma : List Text → Text
  | [] => []
  | [t] => t
  | t :: rest => t ++ ',' :: joinComma rest

section
variable (localeCompare : Text → Text → ℤ)

/-- The order `(left, right) => left.localeCompare(right)` sorts entries by. -/
def entryLe {α : Type*} (x y : Text × α) : Prop := localeCompare x.1 y.1 ≤ 0

instance {α : Type*} : DecidableRel (entryLe localeCompare (α := α)) :=
  fun x y => inferInstanceAs (Decidable (localeCompare x.1 y.1 ≤ 0))

def sortEntries {α : Type*} (entries : List (Text × α)) : List (Text × α) :=
  entries.insertionSort (entryLe localeCompare)

mutual

def canonicalJson : Json → Text
  | .null => ['n', 'u', 'l', 'l']
  | .bool true => ['t', 'r', 'u', 'e']
  | .bool false => ['f', 'a', 'l', 's', 'e']
  | .number value => value.text
  | .string value => quote value
  | .array items => '[' :: joinComma (itemTexts items) ++ [']']
  | .object fields =>
    '{' :: joinComma ((sortEntries localeCompare (fieldTexts fields)).map fun entry => quote entry.1 ++ ':' :: entry.2) ++
      ['}']

def itemTexts : List Json → List Text
  | [] => []
  | j :: rest => canonicalJson j :: itemTexts rest

def fieldTexts : List (Text × Json) → List (Text × Text)
  | [] => []
  | (key, j) :: rest => (key, canonicalJson j) :: fieldTexts rest

end

theorem itemTexts_eq (items : List Json) : itemTexts localeCompare items = items.map (canonicalJson localeCompare) := by
  induction items with
  | nil => rfl
  | cons j rest ih => rw [itemTexts, ih, List.map_cons]

theorem fieldTexts_eq (fields : Fields) :
    fieldTexts localeCompare fields = fields.map fun field => (field.1, canonicalJson localeCompare field.2) := by
  induction fields with
  | nil => rfl
  | cons field rest ih =>
    obtain ⟨key, j⟩ := field
    rw [fieldTexts, ih, List.map_cons]

end

/-! ### Fields -/

def Fields.get? (fields : Fields) (key : Text) : Option Json := (fields.find? fun field => field.1 = key).map (·.2)

def Fields.set : Fields → Text → Json → Fields
  | [], key, value => [(key, value)]
  | (k, v) :: rest, key, value =>
    if key < k then (key, value) :: (k, v) :: rest
    else if key = k then (key, value) :: rest
    else (k, v) :: Fields.set rest key value

section Fields
variable {fields fields' : Fields} {key : Text} {value : Json}

theorem Fields.get?_cons (k : Text) (v : Json) (rest : Fields) (key : Text) :
    Fields.get? ((k, v) :: rest) key = if k = key then some v else Fields.get? rest key := by
  unfold Fields.get?
  by_cases h : k = key
  · rw [List.find?_cons_of_pos (by simpa using h), if_pos h]
    rfl
  · rw [List.find?_cons_of_neg (by simpa using h), if_neg h]

theorem Fields.mem_of_get? (h : fields.get? key = some value) : (key, value) ∈ fields := by
  obtain ⟨⟨k, v⟩, hfind, rfl⟩ := Option.map_eq_some_iff.mp h
  have hkey : k = key := by simpa using List.find?_some hfind
  rw [← hkey]
  exact List.mem_of_find?_eq_some hfind

theorem Fields.get?_of_mem (hsorted : fields.keys.Pairwise (· < ·)) (h : (key, value) ∈ fields) :
    fields.get? key = some value := by
  induction fields with
  | nil => exact absurd h List.not_mem_nil
  | cons field rest ih =>
    obtain ⟨k, v⟩ := field
    obtain ⟨hfirst, hrest⟩ := List.pairwise_cons.mp hsorted
    rw [Fields.get?_cons]
    rcases List.mem_cons.mp h with heq | hmem
    · obtain ⟨rfl, rfl⟩ := Prod.mk.inj heq
      exact if_pos rfl
    · have hlt : k < key := hfirst key (List.mem_map_of_mem hmem)
      rw [if_neg hlt.ne, ih hrest hmem]

theorem Fields.ext_get? (hsorted : fields.keys.Pairwise (· < ·)) (hsorted' : fields'.keys.Pairwise (· < ·))
    (h : ∀ key, fields.get? key = fields'.get? key) : fields = fields' := by
  have hnodup : ∀ {l : Fields}, l.keys.Pairwise (· < ·) → l.Nodup :=
    fun hl => List.Nodup.of_map _ (hl.imp fun hlt => hlt.ne)
  have hperm : fields.Perm fields' := by
    refine (List.perm_ext_iff_of_nodup (hnodup hsorted) (hnodup hsorted')).mpr fun field => ⟨fun hmem => ?_, fun hmem => ?_⟩
    · exact Fields.mem_of_get? ((h field.1).symm.trans (Fields.get?_of_mem hsorted hmem))
    · exact Fields.mem_of_get? ((h field.1).trans (Fields.get?_of_mem hsorted' hmem))
  refine hperm.eq_of_pairwise (fun x y _ _ hxy hyx => ?_) (List.pairwise_map.mp hsorted) (List.pairwise_map.mp hsorted')
  exact absurd (lt_trans hxy hyx) (lt_irrefl _)

theorem Fields.get?_set (fields : Fields) (key : Text) (value : Json) (k : Text) :
    (fields.set key value).get? k = if key = k then some value else fields.get? k := by
  induction fields with
  | nil => rw [Fields.set, Fields.get?_cons]
  | cons field rest ih =>
    obtain ⟨k', v⟩ := field
    unfold Fields.set
    by_cases hlt : key < k'
    · rw [if_pos hlt, Fields.get?_cons]
    · by_cases heq : key = k'
      · rw [if_neg hlt, if_pos heq, Fields.get?_cons, Fields.get?_cons, ← heq]
        split_ifs <;> rfl
      · rw [if_neg hlt, if_neg heq, Fields.get?_cons, Fields.get?_cons, ih]
        by_cases hk : key = k
        · rw [if_pos hk, if_neg (fun h => heq (hk.trans h.symm)), if_pos hk]
        · rw [if_neg hk, if_neg hk]

theorem Fields.mem_set {field : Text × Json} (h : field ∈ fields.set key value) : field = (key, value) ∨ field ∈ fields := by
  induction fields with
  | nil => exact .inl (List.mem_singleton.mp h)
  | cons first rest ih =>
    obtain ⟨k, v⟩ := first
    unfold Fields.set at h
    split_ifs at h with hlt heq
    · exact List.mem_cons.mp h
    · exact (List.mem_cons.mp h).imp_right (List.mem_cons_of_mem _)
    · rcases List.mem_cons.mp h with rfl | hrest
      · exact .inr List.mem_cons_self
      · exact (ih hrest).imp_right (List.mem_cons_of_mem _)

theorem Fields.set_ne_nil (fields : Fields) (key : Text) (value : Json) : fields.set key value ≠ [] := by
  cases fields with
  | nil => exact List.cons_ne_nil _ _
  | cons first rest =>
    unfold Fields.set
    split_ifs <;> exact List.cons_ne_nil _ _

theorem Fields.set_sorted (hsorted : fields.keys.Pairwise (· < ·)) (key : Text) (value : Json) :
    (fields.set key value).keys.Pairwise (· < ·) := by
  induction fields with
  | nil => exact List.pairwise_singleton _ _
  | cons first rest ih =>
    obtain ⟨k, v⟩ := first
    obtain ⟨hfirst, hrest⟩ := List.pairwise_cons.mp hsorted
    unfold Fields.set
    split_ifs with hlt heq
    · refine List.pairwise_cons.mpr ⟨fun k' hk' => ?_, hsorted⟩
      rcases List.mem_cons.mp hk' with rfl | hmem
      · exact hlt
      · exact lt_trans hlt (hfirst k' hmem)
    · rw [heq]
      exact hsorted
    · refine List.pairwise_cons.mpr ⟨fun k' hk' => ?_, ih hrest⟩
      obtain ⟨field, hfield, rfl⟩ := List.mem_map.mp hk'
      rcases Fields.mem_set hfield with rfl | hmem
      · exact lt_of_le_of_ne (not_lt.mp hlt) (Ne.symm heq)
      · exact hfirst field.1 (List.mem_map_of_mem hmem)

theorem Fields.set_wellFormed (h : (Json.object fields).WellFormed) (hvalue : value.WellFormed) :
    (Json.object (fields.set key value)).WellFormed := by
  refine .object (Fields.set_sorted h.sorted key value) fun field hfield => ?_
  rcases Fields.mem_set hfield with rfl | hmem
  · exact hvalue
  · exact h.fields field hmem

end Fields

end OxScada.Js
