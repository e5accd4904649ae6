import OxScada.Js.JsonParse

/-! What a canonical text stands for. It is read as a value that is equal up to the order of keys, and which has the same canonical
text; two values that are equal up to the order of keys have one text where the keys that `localeCompare` calls equal agree. -/

namespace OxScada.Js
open OxScada.Bytes OxScada.Order

/-! ### Enumerations -/

section Enumerations
variable {α : Type} {localeCompare : Text → Text → ℤ}

theorem enumerate_filter (keep : Text × α → Bool) (fields : List (Text × α)) : (enumerate fields).filter keep = enumerate (fields.filter keep) := by
  have htotal : Std.Total fun x y : Text × α => indexValue x.1 ≤ indexValue y.1 := ⟨fun x y => le_total _ _⟩
  have htrans : IsTrans (Text × α) fun x y => indexValue x.1 ≤ indexValue y.1 := ⟨fun _ _ _ => le_trans⟩
  unfold enumerate
  rw [List.filter_append, filter_insertionSort, List.filter_comm, List.filter_comm fun field : Text × α => decide ¬ isIndex field.1]

theorem enumerate_idem (fields : List (Text × α)) : enumerate (enumerate fields) = enumerate fields := by
  have hsorted : ∀ m : List (Text × α), (m.insertionSort fun x y => indexValue x.1 ≤ indexValue y.1).Pairwise fun x y => indexValue x.1 ≤ indexValue y.1 := by
    intro m
    have : Std.Total fun x y : Text × α => indexValue x.1 ≤ indexValue y.1 := ⟨fun x y => le_total _ _⟩
    have : IsTrans (Text × α) fun x y => indexValue x.1 ≤ indexValue y.1 := ⟨fun _ _ _ => le_trans⟩
    exact List.pairwise_insertionSort _ m
  have hindices : (enumerate fields).filter (fun field => isIndex field.1) =
      (fields.filter fun field => isIndex field.1).insertionSort fun x y => indexValue x.1 ≤ indexValue y.1 := by
    rw [enumerate_filter]
    simp [enumerate, List.filter_filter]
  have hothers : (enumerate fields).filter (fun field => ¬ isIndex field.1) = fields.filter fun field => ¬ isIndex field.1 := by
    rw [enumerate_filter]
    simp [enumerate, List.filter_filter]
  rw [enumerate, hindices, hothers, (hsorted _).insertionSort_eq]
  rfl

theorem sortEntries_perm (fields : List (Text × α)) : (sortEntries localeCompare fields).Perm fields := List.perm_insertionSort _ _

theorem sortEntries_keysOnly : KeysOnly (sortEntries localeCompare) :=
  fun other fields => sortEntries_map localeCompare (f := rebuildField other) (fun _ => rfl) fields

/-- Sorting an object that was sorted, written and read changes nothing: keys that are called equal kept their order. -/
theorem sortEntries_enumerate (hcompare : Compares localeCompare) {fields : List (Text × α)} (h : enumerate fields = fields) :
    sortEntries localeCompare (enumerate (sortEntries localeCompare fields)) = sortEntries localeCompare fields := by
  have htotal : Std.Total (entryLe localeCompare (α := α)) := ⟨fun x y => (hcompare.comap fun entry : Text × α => entry.1).total.total x y⟩
  have htrans : IsTrans (Text × α) (entryLe localeCompare) := ⟨fun x y z => hcompare.trans x.1 y.1 z.1⟩
  have hperm := (enumerate_perm (sortEntries localeCompare fields)).trans (sortEntries_perm fields)
  refine (insertionSort_eq_iff hperm).mpr fun x _ => ?_
  have hclass := insertionSort_class (r := entryLe localeCompare) x fields
  rw [enumerate_filter, sortEntries, hclass, ← enumerate_filter, h]

end Enumerations

/-! ### Canonical texts -/

section Canonical
variable {localeCompare : Text → Text → ℤ} {x y : Json}

theorem ordered_of_canonicalJson (hx : x.Proper) (hy : y.Proper) (h : canonicalJson localeCompare x = canonicalJson localeCompare y) :
    x.ordered = y.ordered := by
  rw [canonicalJson_eq, canonicalJson_eq] at h
  have hsame := stringify_injective h
  rw [← ordered_rebuild sortEntries_perm hx, hsame, ordered_rebuild sortEntries_perm hy]

def Json.reread (localeCompare : Text → Text → ℤ) (x : Json) : Json := (x.rebuild (sortEntries localeCompare)).rebuild enumerate

theorem parse_reread (hx : x.Proper) : parse (canonicalJson localeCompare x) = some (x.reread localeCompare) := by
  rw [canonicalJson_eq, parse_stringify (hx.rebuild sortEntries_perm)]
  rfl

theorem ordered_reread (hx : x.Proper) : (x.reread localeCompare).ordered = x.ordered := by
  rw [Json.reread, ordered_rebuild enumerate_perm (hx.rebuild sortEntries_perm), ordered_rebuild sortEntries_perm hx]

theorem parse_canonicalJson (hx : x.Proper) : ∃ z, parse (canonicalJson localeCompare x) = some z ∧ z.Proper ∧ z.ordered = x.ordered :=
  ⟨x.reread localeCompare, parse_reread hx, (hx.rebuild sortEntries_perm).rebuild enumerate_perm, ordered_reread hx⟩

theorem reread_object {α : Type} {f : Text × α → Text × Json} (hkey : ∀ entry, (f entry).1 = entry.1) (entries : List (Text × α)) :
    (Json.object (entries.map f)).reread localeCompare =
      .object ((enumerate (sortEntries localeCompare entries)).map fun entry => (entry.1, (f entry).2.reread localeCompare)) := by
  have hsort := sortEntries_map localeCompare (f := rebuildField (sortEntries localeCompare) ∘ f) hkey entries
  have henumerate := enumerate_map (f := rebuildField enumerate ∘ rebuildField (sortEntries localeCompare) ∘ f) hkey (sortEntries localeCompare entries)
  rw [Json.reread, Json.rebuild_object, Json.rebuild_object, List.map_map, hsort, List.map_map, henumerate]
  refine congrArg Json.object (List.map_congr_left fun entry _ => ?_)
  exact congrArg (·, ((f entry).2.rebuild (sortEntries localeCompare)).rebuild enumerate) (hkey entry)

def Fields.reread (localeCompare : Text → Text → ℤ) (fields : Fields) : Fields :=
  (enumerate (sortEntries localeCompare fields)).map fun field => (field.1, field.2.reread localeCompare)

theorem reread_fields (fields : Fields) : (Json.object fields).reread localeCompare = .object (fields.reread localeCompare) := by
  have hread := @reread_object localeCompare Json (fun field => field) (fun _ => rfl) fields
  rw [List.map_id'] at hread
  exact hread

theorem get?_reread {fields : Fields} (hnodup : fields.keys.Nodup) (key : Text) :
    Fields.get? (fields.reread localeCompare) key = (fields.get? key).map (Json.reread localeCompare) := by
  have hperm : fields.Perm (enumerate (sortEntries localeCompare fields)) := ((enumerate_perm _).trans (sortEntries_perm fields)).symm
  rw [← Fields.get?_perm hnodup hperm key]
  unfold Fields.reread Fields.get?
  rw [List.find?_map, Option.map_map, Option.map_map]
  rfl

theorem sort_read (hcompare : Compares localeCompare) (hx : x.rebuild enumerate = x) :
    (x.reread localeCompare).rebuild (sortEntries localeCompare) = x.rebuild (sortEntries localeCompare) := by
  let sorting : Fields → Fields := sortEntries localeCompare
  have hsorting : KeysOnly sorting := sortEntries_keysOnly
  have hsort : sorting ∘ (enumerate ∘ sorting ∘ enumerate) = sorting ∘ enumerate := by
    funext fields
    exact sortEntries_enumerate hcompare (enumerate_idem fields)
  have hvalue : x.rebuild sorting = x.rebuild (sorting ∘ enumerate) := by
    rw [← rebuild_rebuild enumerate_keysOnly, hx]
  show ((x.rebuild sorting).rebuild enumerate).rebuild sorting = x.rebuild sorting
  rw [hvalue, rebuild_rebuild (hsorting.comp enumerate_keysOnly), rebuild_rebuild (enumerate_keysOnly.comp (hsorting.comp enumerate_keysOnly)), hsort]

/-- The canonical text stands for a value up to the order of keys, in so far as the keys that `localeCompare` calls equal agree. -/
theorem canonicalJson_canonical (hcompare : Compares localeCompare) (hx : x.Proper) (hy : y.Proper) :
    ((canonicalJson localeCompare x = canonicalJson localeCompare y ↔ x.ordered = y.ordered) ∧
        ∃ z, parse (canonicalJson localeCompare x) = some z ∧ z.ordered = x.ordered) ↔
      (x.ordered = y.ordered → TiesAgree localeCompare x y) := by
  have hparse : ∃ z, parse (canonicalJson localeCompare x) = some z ∧ z.ordered = x.ordered := by
    obtain ⟨z, hz, -, hordered⟩ := parse_canonicalJson hx
    exact ⟨z, hz, hordered⟩
  constructor
  · rintro ⟨hiff, -⟩ hordered
    have hsame := hiff.mpr hordered
    rw [canonicalJson_eq, canonicalJson_eq] at hsame
    exact (rebuild_sort_iff hcompare hx hy hordered).mp (stringify_injective hsame)
  · intro hties
    refine ⟨⟨ordered_of_canonicalJson hx hy, fun hordered => ?_⟩, hparse⟩
    rw [canonicalJson_eq, canonicalJson_eq, (rebuild_sort_iff hcompare hx hy hordered).mpr (hties hordered)]

/-- The angstrom sign is another spelling of the letter U+00C5. -/
def composed (c : Char) : Char := if c = Char.ofNat 0x212b then Char.ofNat 0xc5 else c

/-- A comparator that calls the two spellings equal, as `localeCompare` does. -/
def composedCompare (s t : Text) : ℤ := orderCompare (s.map composed) (t.map composed)

theorem compares_composedCompare : Compares composedCompare := compares_orderCompare.comap (List.map composed)

def letterFirst : Json := .object [([Char.ofNat 0xc5], .bool true), ([Char.ofNat 0x212b], .bool false)]

def signFirst : Json := .object [([Char.ofNat 0x212b], .bool false), ([Char.ofNat 0xc5], .bool true)]

theorem proper_letterFirst : letterFirst.Proper := by
  refine .object (by decide) fun field hfield => ?_
  simp only [List.mem_cons, List.not_mem_nil, or_false] at hfield
  obtain rfl | rfl := hfield
  · exact .bool true
  · exact .bool false

theorem proper_signFirst : signFirst.Proper := by
  refine .object (by decide) fun field hfield => ?_
  simp only [List.mem_cons, List.not_mem_nil, or_false] at hfield
  obtain rfl | rfl := hfield
  · exact .bool false
  · exact .bool true

theorem canonicalJson_canonical_tied :
    ((canonicalJson composedCompare letterFirst = canonicalJson composedCompare signFirst ↔ letterFirst.ordered = signFirst.ordered) ∧
        ∃ z, parse (canonicalJson composedCompare letterFirst) = some z ∧ z.ordered = letterFirst.ordered) ↔
      (letterFirst.ordered = signFirst.ordered → TiesAgree composedCompare letterFirst signFirst) :=
  canonicalJson_canonical compares_composedCompare proper_letterFirst proper_signFirst

/-- Two values that are equal up to the order of keys have two canonical texts. -/
theorem canonicalJson_insertion_order : Compares composedCompare ∧ letterFirst.Proper ∧ signFirst.Proper ∧
    letterFirst.ordered = signFirst.ordered ∧ canonicalJson composedCompare letterFirst ≠ canonicalJson composedCompare signFirst :=
  ⟨compares_composedCompare, proper_letterFirst, proper_signFirst, rfl, by decide +kernel⟩

end Canonical

end OxScada.Js
