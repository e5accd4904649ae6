import OxScada.Edge.Flatten
import OxScada.Scaling.ReplicatedConfiguration

/-! The values of several paths put into one object, one after the other. When a path comes
before the paths that it is a front of, what is found in the object is what the longest path
has there. -/

namespace OxScada.Scaling
open OxScada.Bytes OxScada.Js OxScada.Edge

/-- What is found at a path of a value. An array has nothing below it. -/
def found : Json → List Text → Option Json
  | j, [] => some j
  | .object fields, key :: rest => (Fields.get? fields key).bind fun child => found child rest
  | _, _ :: _ => none

theorem found_leaf {j : Json} (h : isLeaf j = true) {path : List Text} (hne : path ≠ []) : found j path = none := by
  obtain ⟨key, rest, rfl⟩ := List.exists_cons_of_ne_nil hne
  cases j with
  | object fields =>
    have hnil : fields = [] := List.isEmpty_iff.mp h
    rw [hnil]
    rfl
  | null | bool | number | string | array => rfl

theorem found_set (fields : Fields) (segment : Text) (child : Json) (key : Text) (below : List Text) :
    found (.object (fields.set segment child)) (key :: below) =
      if segment = key then found child below else found (.object fields) (key :: below) := by
  rw [found, found, Fields.get?_set]
  split_ifs <;> rfl

theorem found_childFields {fields : Fields} {segment : Text} {path : List Text} (hne : path ≠ []) :
    found (.object (childFields fields segment)) path = found (.object fields) (segment :: path) := by
  obtain ⟨key, rest, rfl⟩ := List.exists_cons_of_ne_nil hne
  rw [found.eq_def (.object fields), childFields]
  dsimp only
  rcases fields.get? segment with _ | (_ | _ | _ | _ | _ | child) <;> rfl

/-! ### One value -/

variable (root : Fields)

theorem setNestedValue_cons (segment : Text) {rest : List Text} (hne : rest ≠ []) (value : Json) :
    setNestedValue root (segment :: rest) value =
      root.set segment (.object (setNestedValue (childFields root segment) rest value)) := by
  obtain ⟨next, segments, rfl⟩ := List.exists_cons_of_ne_nil hne
  rw [setNestedValue, childFields]
  rcases root.get? segment with _ | (_ | _ | _ | _ | _ | child) <;> rfl

theorem setNestedValue_eq_set (segment : Text) (rest : List Text) (value : Json) :
    ∃ child, setNestedValue root (segment :: rest) value = root.set segment child := by
  by_cases hne : rest = []
  · rw [hne, setNestedValue]
    exact ⟨value, rfl⟩
  · exact ⟨_, setNestedValue_cons root segment hne value⟩

theorem found_setNestedValue {path : List Text} (hne : path ≠ []) (value : Json) (below : List Text) :
    found (.object (setNestedValue root path value)) (path ++ below) = found value below := by
  induction path generalizing root with
  | nil => exact absurd rfl hne
  | cons segment rest ih =>
    rw [List.cons_append]
    by_cases hrest : rest = []
    · rw [hrest, setNestedValue, found_set, if_pos rfl, List.nil_append]
    · rw [setNestedValue_cons _ _ hrest, found_set, if_pos rfl, ih _ hrest]

theorem found_setNestedValue_above (path : List Text) {below : List Text} (hne : below ≠ []) (value : Json) :
    ∃ fields : Fields, fields ≠ [] ∧ found (.object (setNestedValue root (path ++ below) value)) path = some (.object fields) := by
  induction path generalizing root with
  | nil =>
    obtain ⟨segment, rest, rfl⟩ := List.exists_cons_of_ne_nil hne
    obtain ⟨child, hset⟩ := setNestedValue_eq_set root segment rest value
    rw [List.nil_append, hset]
    exact ⟨_, Fields.set_ne_nil _ _ _, rfl⟩
  | cons segment rest ih =>
    have hrest : rest ++ below ≠ [] := List.append_ne_nil_of_right_ne_nil rest hne
    rw [List.cons_append, setNestedValue_cons _ _ hrest, found_set, if_pos rfl]
    exact ih _

theorem found_setNestedValue_beside {path : List Text} (hne : path ≠ []) (value : Json) {other : List Text}
    (h : ¬ path <+: other) (h' : ¬ other <+: path) :
    found (.object (setNestedValue root path value)) other = found (.object root) other := by
  induction path generalizing root other with
  | nil => exact absurd rfl hne
  | cons segment rest ih =>
    cases other with
    | nil => exact absurd List.nil_prefix h'
    | cons key below =>
      rw [List.cons_prefix_cons] at h h'
      by_cases hkey : segment = key
      · have hdiverge : ¬ rest <+: below := fun hfront => h ⟨hkey, hfront⟩
        have hdiverge' : ¬ below <+: rest := fun hfront => h' ⟨hkey.symm, hfront⟩
        have hrest : rest ≠ [] := fun hnil => hdiverge (hnil ▸ List.nil_prefix)
        have hbelow : below ≠ [] := fun hnil => hdiverge' (hnil ▸ List.nil_prefix)
        rw [setNestedValue_cons _ _ hrest, found_set, if_pos hkey, ih _ hrest hdiverge hdiverge', found_childFields hbelow, hkey]
      · obtain ⟨child, hset⟩ := setNestedValue_eq_set root segment rest value
        rw [hset, found_set, if_neg hkey]

/-! ### Several values -/

variable (values : List (List Text × Json))

def replay : Fields :=
  values.foldl (fun result value => setNestedValue result value.1 value.2) []

theorem replay_append (value : List Text × Json) :
    replay (values ++ [value]) = setNestedValue (replay values) value.1 value.2 := List.foldl_append

/-- Nothing that comes later is at the same path, or at one above it. -/
def FrontsFirst : Prop := values.Pairwise fun value later => ¬ later.1 <+: value.1

/-- Of the values at a front of the path, the one with the longest path. -/
structure Supplies (values : List (List Text × Json)) (value : List Text × Json) (path : List Text) : Prop where
  mem : value ∈ values
  front : value.1 <+: path
  longest : ∀ other ∈ values, other.1 <+: path → other.1 <+: value.1

def NoneBelow (values : List (List Text × Json)) (path : List Text) : Prop := ∀ value ∈ values, path <+: value.1 → path = value.1

section
variable {values : List (List Text × Json)} {value : List Text × Json} {path : List Text}

theorem exists_supplies (hsome : ∃ value ∈ values, value.1 <+: path) : ∃ value, Supplies values value path := by
  induction values with
  | nil =>
    obtain ⟨value, hmem, -⟩ := hsome
    cases hmem
  | cons first rest ih =>
    by_cases hrest : ∃ value ∈ rest, value.1 <+: path
    · obtain ⟨value, hvalue⟩ := ih hrest
      by_cases hfirst : first.1 <+: path
      · rcases List.prefix_or_prefix_of_prefix hfirst hvalue.front with hshort | hlong
        · exact ⟨value, List.mem_cons_of_mem _ hvalue.mem, hvalue.front, List.forall_mem_cons.mpr ⟨fun _ => hshort, hvalue.longest⟩⟩
        · refine ⟨first, List.mem_cons_self, hfirst, List.forall_mem_cons.mpr ⟨fun _ => List.prefix_refl _, ?_⟩⟩
          exact fun other hother hfront => (hvalue.longest other hother hfront).trans hlong
      · exact ⟨value, List.mem_cons_of_mem _ hvalue.mem, hvalue.front,
          List.forall_mem_cons.mpr ⟨fun hfront => absurd hfront hfirst, hvalue.longest⟩⟩
    · obtain ⟨value, hmem, hfront⟩ := hsome
      have hnone : ∀ other ∈ rest, ¬ other.1 <+: path := fun other hother h => hrest ⟨other, hother, h⟩
      rcases List.mem_cons.mp hmem with rfl | hmem
      · exact ⟨value, List.mem_cons_self, hfront,
          List.forall_mem_cons.mpr ⟨fun _ => List.prefix_refl _, fun other hother h => absurd h (hnone other hother)⟩⟩
      · exact absurd hfront (hnone value hmem)

variable (hne : ∀ value ∈ values, value.1 ≠ []) (hfirst : FrontsFirst values)
include hne hfirst

theorem found_replay_above (hvalue : value ∈ values) (habove : path <+: value.1) (hpath : path ≠ value.1) :
    ∃ fields : Fields, fields ≠ [] ∧ found (.object (replay values)) path = some (.object fields) := by
  induction values using List.reverseRecOn with
  | nil => cases hvalue
  | append_singleton values last ih =>
    rw [replay_append]
    obtain ⟨hvalues, -, hlast⟩ := List.pairwise_append.mp hfirst
    have hlastne := hne last (by simp)
    have hbelow : ∀ {other : List Text × Json}, path <+: other.1 → path ≠ other.1 → ∃ below ≠ [], other.1 = path ++ below := by
      rintro ⟨-, json⟩ ⟨below, rfl⟩ hother
      exact ⟨below, fun hnil => hother (by rw [hnil, List.append_nil]), rfl⟩
    by_cases hlastabove : path <+: last.1 ∧ path ≠ last.1
    · obtain ⟨below, hbelow, heq⟩ := hbelow hlastabove.1 hlastabove.2
      rw [heq]
      exact found_setNestedValue_above _ path hbelow last.2
    · rcases List.mem_append.mp hvalue with hvalue | hvalue
      · -- nothing later is above the value
        have hnot : ¬ last.1 <+: path := fun hfront => hlast value hvalue last (List.mem_singleton_self last) (hfront.trans habove)
        have hnot' : ¬ path <+: last.1 := fun hfront => hlastabove ⟨hfront, fun heq => hnot (heq ▸ List.prefix_refl _)⟩
        rw [found_setNestedValue_beside _ hlastne _ hnot hnot']
        exact ih (fun x hx => hne x (List.mem_append_left _ hx)) hvalues hvalue
      · obtain rfl := List.mem_singleton.mp hvalue
        exact absurd ⟨habove, hpath⟩ hlastabove

theorem found_replay_supplied (hvalue : Supplies values value path) (hbelow : NoneBelow values path) :
    found (.object (replay values)) path = found value.2 (path.drop value.1.length) := by
  induction values using List.reverseRecOn with
  | nil => cases hvalue.mem
  | append_singleton values last ih =>
    rw [replay_append]
    obtain ⟨hvalues, -, hlast⟩ := List.pairwise_append.mp hfirst
    have hlastmem : last ∈ values ++ [last] := by simp
    have hlastne := hne last hlastmem
    rcases List.mem_append.mp hvalue.mem with hmem | hmem
    · have hnot : ¬ last.1 <+: path :=
        fun hfront => hlast value hmem last (List.mem_singleton_self last) (hvalue.longest last hlastmem hfront)
      have hnot' : ¬ path <+: last.1 := fun hfront => hnot (hbelow last hlastmem hfront ▸ List.prefix_refl _)
      rw [found_setNestedValue_beside _ hlastne _ hnot hnot']
      exact ih (fun x hx => hne x (List.mem_append_left _ hx)) hvalues
        ⟨hmem, hvalue.front, fun x hx => hvalue.longest x (List.mem_append_left _ hx)⟩
        (fun x hx => hbelow x (List.mem_append_left _ hx))
    · obtain rfl := List.mem_singleton.mp hmem
      obtain ⟨below, hpath⟩ := hvalue.front
      rw [← hpath, found_setNestedValue _ hlastne, List.drop_left]

omit hfirst in
theorem found_replay_none (hpath : path ≠ []) (hnone : ∀ value ∈ values, ¬ value.1 <+: path) (hbelow : NoneBelow values path) :
    found (.object (replay values)) path = none := by
  induction values using List.reverseRecOn with
  | nil => exact found_leaf rfl hpath
  | append_singleton values last ih =>
    have hlastmem : last ∈ values ++ [last] := by simp
    have hnot' : ¬ path <+: last.1 := fun hfront => hnone last hlastmem (hbelow last hlastmem hfront ▸ List.prefix_refl _)
    rw [replay_append, found_setNestedValue_beside _ (hne last hlastmem) _ (hnone last hlastmem) hnot']
    exact ih (fun x hx => hne x (List.mem_append_left _ hx)) (fun x hx => hnone x (List.mem_append_left _ hx))
      (fun x hx => hbelow x (List.mem_append_left _ hx))

theorem found_replay_leaf (hpath : path ≠ []) {leaf : Json} (hleaf : isLeaf leaf = true) :
    found (.object (replay values)) path = some leaf ↔
      NoneBelow values path ∧ ∃ value, Supplies values value path ∧ found value.2 (path.drop value.1.length) = some leaf := by
  constructor
  · intro hfound
    have hbelow : NoneBelow values path := by
      intro value hvalue habove
      by_contra hne'
      obtain ⟨fields, hfields, hobject⟩ := found_replay_above hne hfirst hvalue habove hne'
      obtain rfl := Option.some.inj (hfound.symm.trans hobject)
      exact hfields (List.isEmpty_iff.mp hleaf)
    refine ⟨hbelow, ?_⟩
    by_cases hsome : ∃ value ∈ values, value.1 <+: path
    · obtain ⟨value, hvalue⟩ := exists_supplies hsome
      exact ⟨value, hvalue, (found_replay_supplied hne hfirst hvalue hbelow).symm.trans hfound⟩
    · have hnone := found_replay_none hne hpath (fun value hvalue h => hsome ⟨value, hvalue, h⟩) hbelow
      rw [hnone] at hfound
      cases hfound
  · rintro ⟨hbelow, value, hvalue, hleaf⟩
    rw [found_replay_supplied hne hfirst hvalue hbelow, hleaf]

end

end OxScada.Scaling
