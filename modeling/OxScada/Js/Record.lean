import Mathlib
import OxScada.Js.Text

/-! Objects as records of their own properties. -/

namespace OxScada.Js
open OxScada.Bytes

/-- The own properties of an object, each with a key of its own. -/
structure Record (α : Type*) where
  entries : List (Text × α)
  nodup : (entries.map (·.1)).Nodup

def protoKey : Text := "__proto__".toList

namespace Record

variable {α β ε : Type*}

def empty : Record α := ⟨[], List.nodup_nil⟩

def replace (entries : List (Text × α)) (key : Text) (value : α) : List (Text × α) :=
  entries.map fun entry => if entry.1 = key then (key, value) else entry

theorem replace_keys (entries : List (Text × α)) (key : Text) (value : α) : (replace entries key value).map (·.1) = entries.map (·.1) := by
  rw [replace, List.map_map]
  apply List.map_congr_left
  intro entry _
  by_cases hkey : entry.1 = key
  · simp [hkey]
  · simp [hkey]

theorem nodup_append (record : Record α) {key : Text} (value : α) (h : key ∉ record.entries.map (·.1)) :
    ((record.entries ++ [(key, value)]).map (·.1)).Nodup := by
  rw [List.map_append]
  refine List.nodup_append.mpr ⟨record.nodup, List.nodup_singleton _, ?_⟩
  intro k hk k' hk' hsame
  obtain rfl := List.mem_singleton.mp hk'
  exact h (hsame ▸ hk)

/-- `record[key] = value`. The key `__proto__` sets the prototype and no property. -/
def assign (record : Record α) (key : Text) (value : α) : Record α :=
  if key = protoKey then record
  else if h : key ∈ record.entries.map (·.1) then ⟨replace record.entries key value, by rw [replace_keys]; exact record.nodup⟩
  else ⟨record.entries ++ [(key, value)], record.nodup_append value h⟩

/-- The loop that assigns what it makes of every property to a new object. -/
def mapEntries (f : α → Except ε β) (record : Record α) : Except ε (Record β) :=
  record.entries.foldlM (fun made entry => (f entry.2).map (made.assign entry.1)) empty

variable {record : Record α}

theorem assign_new {key : Text} (value : α) (hkey : key ≠ protoKey) (h : key ∉ record.entries.map (·.1)) :
    (record.assign key value).entries = record.entries ++ [(key, value)] := by
  rw [assign, if_neg hkey, dif_neg h]

theorem assign_protoKey (record : Record α) (value : α) : record.assign protoKey value = record := by rw [assign, if_pos rfl]

variable {f : α → Except ε β}

theorem foldlM_assign {entries : List (Text × α)} (hnodup : (entries.map (·.1)).Nodup) (f : α → Except ε β) {made made' : Record β}
    (hnew : ∀ entry ∈ entries, entry.1 ∉ made.entries.map (·.1))
    (h : entries.foldlM (fun made entry => (f entry.2).map (made.assign entry.1)) made = .ok made') :
    (∀ entry ∈ entries, ∃ value, f entry.2 = .ok value) ∧
      ∃ added, made'.entries = made.entries ++ added ∧
        List.Forall₂ (fun entry entry' => entry'.1 = entry.1 ∧ f entry.2 = .ok entry'.2) (entries.filter (·.1 ≠ protoKey)) added := by
  induction entries generalizing made with
  | nil =>
    obtain rfl := Except.ok.inj h
    exact ⟨by simp, [], by simp, .nil⟩
  | cons entry rest ih =>
    obtain ⟨key, old⟩ := entry
    obtain ⟨hfirst, hrest⟩ := List.nodup_cons.mp hnodup
    rw [List.foldlM_cons] at h
    cases hvalue : f old with
    | error e =>
      rw [hvalue] at h
      cases h
    | ok value =>
      rw [hvalue] at h
      by_cases hkey : key = protoKey
      · subst hkey
        have hloop : rest.foldlM (fun made entry => (f entry.2).map (made.assign entry.1)) made = .ok made' := by
          rw [← assign_protoKey made value]
          exact h
        obtain ⟨hall, added, hadded, hmade⟩ := ih hrest (fun entry hentry => hnew entry (List.mem_cons_of_mem _ hentry)) hloop
        refine ⟨?_, added, hadded, ?_⟩
        · exact List.forall_mem_cons.mpr ⟨⟨value, hvalue⟩, hall⟩
        · rw [List.filter_cons_of_neg (by simp)]
          exact hmade
      · have hassign := assign_new value hkey (hnew (key, old) List.mem_cons_self)
        have hnew' : ∀ entry ∈ rest, entry.1 ∉ (made.assign key value).entries.map (·.1) := by
          intro entry hentry hmem
          rw [hassign, List.map_append] at hmem
          rcases List.mem_append.mp hmem with hmem | hmem
          · exact hnew entry (List.mem_cons_of_mem _ hentry) hmem
          · have hsame : entry.1 = key := List.mem_singleton.mp hmem
            exact hfirst (List.mem_map.mpr ⟨entry, hentry, hsame⟩)
        obtain ⟨hall, added, hadded, hmade⟩ := ih hrest hnew' h
        refine ⟨?_, (key, value) :: added, ?_, ?_⟩
        · exact List.forall_mem_cons.mpr ⟨⟨value, hvalue⟩, hall⟩
        · rw [hadded, hassign, List.append_assoc]
          rfl
        · rw [List.filter_cons_of_pos (by simpa using hkey)]
          exact .cons ⟨rfl, hvalue⟩ hmade

theorem mapEntries_ok {made : Record β} (h : record.mapEntries f = .ok made) :
    (∀ entry ∈ record.entries, ∃ value, f entry.2 = .ok value) ∧
      List.Forall₂ (fun entry entry' => entry'.1 = entry.1 ∧ f entry.2 = .ok entry'.2) (record.entries.filter (·.1 ≠ protoKey)) made.entries := by
  have hnew : ∀ entry ∈ record.entries, entry.1 ∉ (empty : Record β).entries.map (·.1) := by simp [empty]
  obtain ⟨hall, added, hadded, hmade⟩ := foldlM_assign record.nodup f hnew h
  refine ⟨hall, ?_⟩
  rw [hadded]
  exact hmade

theorem mapEntries_exists (h : ∀ entry ∈ record.entries, ∃ value, f entry.2 = .ok value) :
    ∃ made, record.mapEntries f = .ok made := by
  unfold mapEntries
  generalize record.entries = entries at h
  generalize empty = made
  induction entries generalizing made with
  | nil => exact ⟨made, rfl⟩
  | cons entry rest ih =>
    obtain ⟨value, hvalue⟩ := h entry List.mem_cons_self
    obtain ⟨made', hmade⟩ := ih (fun entry hentry => h entry (List.mem_cons_of_mem _ hentry)) (made.assign entry.1 value)
    refine ⟨made', ?_⟩
    rw [List.foldlM_cons, hvalue]
    exact hmade

end Record

end OxScada.Js
