import OxScada.Edge.Replica
import OxScada.Runs.Reachable

/-! The leaves of a configuration. Flattening lists them by their dotted paths, and building
a configuration from flat fields gives back the fields that have no field below them. -/

namespace OxScada.Edge
open OxScada.Bytes OxScada.Js OxScada.Runs

theorem forM_ok {α : Type} {f : α → Except EdgeError Unit} {l : List α} :
    l.forM f = .ok () ↔ ∀ x ∈ l, f x = .ok () := by
  induction l with
  | nil => exact ⟨fun _ x hx => absurd hx List.not_mem_nil, fun _ => rfl⟩
  | cons x l ih =>
    have hcons : (x :: l).forM f = (f x >>= fun _ => l.forM f) := rfl
    rw [hcons, bind_unit_ok, ih, List.forall_mem_cons]

/-! ### Valid keys -/

variable {key : Text} {segments rest path : List Text} {fields : Fields} {j v j' value : Json} {flat : Flat}

theorem validateConfigurationKey_ok : validateConfigurationKey key = .ok () ↔ isValidKey key = true := by
  unfold validateConfigurationKey fail
  by_cases h : isValidKey key = true
  · rw [if_pos h]
    exact ⟨fun _ => h, fun _ => rfl⟩
  · rw [if_neg h]
    exact ⟨fun herror => (by cases herror), fun hvalid => absurd hvalid h⟩

theorem isValidKey_iff :
    isValidKey key = true ↔ key ≠ [] ∧ '.' ∉ key ∧ key ∉ forbiddenConfigurationKeys := decide_eq_true_iff

def ValidPath (segments : List Text) : Prop := ∀ segment ∈ segments, isValidKey segment = true

theorem splitDots_dotted_valid (h : ValidPath segments) (hne : segments ≠ []) :
    splitDots (dotted segments) = segments :=
  splitDots_dotted (fun segment hsegment => (isValidKey_iff.mp (h segment hsegment)).2.1) hne

theorem dotted_eq_nil (h : ValidPath segments) : dotted segments = [] ↔ segments = [] := by
  refine ⟨fun hnil => ?_, fun hnil => by rw [hnil]; rfl⟩
  cases segments with
  | nil => rfl
  | cons segment rest =>
    have hsegment : segment ≠ [] := (isValidKey_iff.mp (h segment List.mem_cons_self)).1
    cases rest with
    | nil =>
      rw [dotted_singleton] at hnil
      exact absurd hnil hsegment
    | cons next rest =>
      rw [dotted_cons (List.cons_ne_nil next rest)] at hnil
      exact absurd (List.append_eq_nil_iff.mp hnil).1 hsegment

theorem childPath_dotted (h : ValidPath segments) (key : Text) :
    childPath (dotted segments) key = dotted (segments ++ [key]) := by
  unfold childPath
  by_cases hnil : segments = []
  · rw [if_pos ((dotted_eq_nil h).mpr hnil), hnil, List.nil_append, dotted_singleton]
  · rw [if_neg (fun hd => hnil ((dotted_eq_nil h).mp hd)), dotted_append_singleton hnil]

theorem validateFields_ok :
    validateFields fields = .ok () ↔
      ∀ field ∈ fields, isValidKey field.1 = true ∧ validateConfigurationObject field.2 = .ok () := by
  induction fields with
  | nil => exact ⟨fun _ field hfield => absurd hfield List.not_mem_nil, fun _ => rfl⟩
  | cons field rest ih =>
    obtain ⟨key, child⟩ := field
    rw [validateFields, bind_unit_ok, bind_unit_ok, validateConfigurationKey_ok, ih, List.forall_mem_cons, and_assoc]

theorem validateItems_ok {items : List Json} :
    validateItems items = .ok () ↔ ∀ j ∈ items, validateConfigurationObject j = .ok () := by
  induction items with
  | nil => exact ⟨fun _ j hj => absurd hj List.not_mem_nil, fun _ => rfl⟩
  | cons j rest ih => rw [validateItems, bind_unit_ok, ih, List.forall_mem_cons]

theorem assertJsonSafe_of_valid (h : validateConfigurationObject j = .ok ()) (path : Text) :
    assertJsonSafe path j = .ok () := by
  induction j using Json.induction generalizing path with
  | null | bool | number | string => rfl
  | array items ih =>
    have hitems : ∀ j ∈ items, validateConfigurationObject j = .ok () := validateItems_ok.mp h
    rw [assertJsonSafe]
    generalize 0 = index
    induction items generalizing index with
    | nil => rfl
    | cons j rest ihrest =>
      rw [List.forall_mem_cons] at ih hitems
      rw [assertItemsSafe, bind_unit_ok]
      exact ⟨ih.1 hitems.1 _, ihrest ih.2 (validateItems_ok.mpr hitems.2) hitems.2 (index + 1)⟩
  | object fields ih =>
    have hfields := validateFields_ok.mp h
    rw [assertJsonSafe]
    clear h
    induction fields with
    | nil => rfl
    | cons field rest ihrest =>
      obtain ⟨key, child⟩ := field
      rw [List.forall_mem_cons] at ih hfields
      rw [assertFieldsSafe, if_neg (isValidKey_iff.mp hfields.1.1).2.2]
      exact bind_unit_ok.mpr ⟨ih.1 hfields.1.2 _, ihrest ih.2 hfields.2⟩

/-! ### Leaves -/

def isLeaf : Json → Bool
  | .object fields => fields.isEmpty
  | _ => true

def leafAt : Json → List Text → Option Json
  | j, [] => if isLeaf j then some j else none
  | .object fields, key :: rest => (Fields.get? fields key).bind fun child => leafAt child rest
  | _, _ :: _ => none

theorem leafAt_nil : leafAt j [] = some v ↔ isLeaf j = true ∧ j = v := by
  rw [leafAt]
  split_ifs with h
  · exact ⟨fun heq => ⟨h, Option.some.inj heq⟩, fun heq => congrArg some heq.2⟩
  · exact ⟨fun heq => (by cases heq), fun heq => absurd heq.1 h⟩

theorem leafAt_cons :
    leafAt (.object fields) (key :: rest) = some v ↔ ∃ child, fields.get? key = some child ∧ leafAt child rest = some v := by
  rw [leafAt]
  exact Option.bind_eq_some_iff

theorem exists_child (h : leafAt j (key :: rest) = some v) :
    ∃ fields : Fields, ∃ child, j = .object fields ∧ fields.get? key = some child ∧ leafAt child rest = some v := by
  cases j with
  | object fields =>
    obtain ⟨child, hget, hchild⟩ := leafAt_cons.mp h
    exact ⟨fields, child, rfl, hget, hchild⟩
  | null | bool | number | string | array => cases h

theorem leafAt_cons_leaf (h : isLeaf j = true) (key : Text) (rest : List Text) : leafAt j (key :: rest) = none := by
  cases j with
  | object fields =>
    have hnil : fields = [] := List.isEmpty_iff.mp h
    rw [hnil]
    rfl
  | null | bool | number | string | array => rfl

theorem leafAt_induction {P : Json → Prop} (hfields : ∀ fields, P (.object fields) → ∀ field ∈ fields, P field.2)
    (hj : P j) (h : leafAt j path = some v) : P v ∧ isLeaf v = true := by
  induction path generalizing j with
  | nil =>
    obtain ⟨hleaf, rfl⟩ := leafAt_nil.mp h
    exact ⟨hj, hleaf⟩
  | cons key rest ih =>
    obtain ⟨fields, child, rfl, hget, hchild⟩ := exists_child h
    exact ih (hfields fields hj (key, child) (Fields.mem_of_get? hget)) hchild

theorem leafAt_isLeaf (h : leafAt j path = some v) : isLeaf v = true :=
  (leafAt_induction (P := fun _ => True) (fun _ _ _ _ => trivial) trivial h).2

theorem leafAt_wellFormed (hj : j.WellFormed) (h : leafAt j path = some v) : v.WellFormed :=
  (leafAt_induction (fun _ => Json.WellFormed.fields) hj h).1

theorem leafAt_valid (hj : validateConfigurationObject j = .ok ())
    (h : leafAt j path = some v) : validateConfigurationObject v = .ok () :=
  (leafAt_induction (P := fun j => validateConfigurationObject j = .ok ())
    (fun _ hfields field hfield => (validateFields_ok.mp hfields field hfield).2) hj h).1

theorem leafAt_validPath (hj : validateConfigurationObject j = .ok ())
    (h : leafAt j path = some v) : ValidPath path := by
  induction path generalizing j with
  | nil => exact fun segment hsegment => absurd hsegment List.not_mem_nil
  | cons key rest ih =>
    obtain ⟨fields, child, rfl, hget, hchild⟩ := exists_child h
    have hfield := validateFields_ok.mp hj (key, child) (Fields.mem_of_get? hget)
    exact List.forall_mem_cons.mpr ⟨hfield.1, ih hfield.2 hchild⟩

theorem leafAt_antichain (h : leafAt j path = some v) {below : List Text} (hne : below ≠ []) :
    leafAt j (path ++ below) = none := by
  induction path generalizing j with
  | nil =>
    obtain ⟨key, rest, rfl⟩ := List.exists_cons_of_ne_nil hne
    exact leafAt_cons_leaf (leafAt_nil.mp h).1 key rest
  | cons key rest ih =>
    obtain ⟨fields, child, rfl, hget, hchild⟩ := exists_child h
    rw [List.cons_append, leafAt, hget]
    exact ih hchild

theorem exists_leafAt (hj : j.WellFormed) : ∃ path v, leafAt j path = some v := by
  induction j using Json.induction with
  | object fields ih =>
    cases fields with
    | nil => exact ⟨[], _, leafAt_nil.mpr ⟨rfl, rfl⟩⟩
    | cons field rest =>
      obtain ⟨key, child⟩ := field
      obtain ⟨path, v, hleaf⟩ := ih (key, child) List.mem_cons_self (hj.fields _ List.mem_cons_self)
      have hget : Fields.get? ((key, child) :: rest) key = some child := Fields.get?_of_mem hj.sorted List.mem_cons_self
      exact ⟨key :: path, v, leafAt_cons.mpr ⟨child, hget, hleaf⟩⟩
  | null | bool | number | string | array => exact ⟨[], _, leafAt_nil.mpr ⟨rfl, rfl⟩⟩

theorem eq_of_isLeaf (hleaf : isLeaf j = true) (h : ∀ path, leafAt j path = leafAt j' path) : j = j' := by
  have hnil := h []
  rw [leafAt_nil.mpr ⟨hleaf, rfl⟩] at hnil
  exact (leafAt_nil.mp hnil.symm).2.symm

theorem exists_get? (hj : (Json.object fields).WellFormed)
    (h : ∀ path, leafAt (.object fields) path = leafAt j' path) {child : Json}
    (hget : fields.get? key = some child) : ∃ fields' : Fields, ∃ child', j' = .object fields' ∧
      fields'.get? key = some child' ∧ ∀ path, leafAt child path = leafAt child' path := by
  obtain ⟨rest, v, hrest⟩ := exists_leafAt (hj.fields _ (Fields.mem_of_get? hget))
  have hleaf := (h (key :: rest)).symm.trans (leafAt_cons.mpr ⟨child, hget, hrest⟩)
  obtain ⟨fields', child', rfl, hget', -⟩ := exists_child hleaf
  refine ⟨fields', child', rfl, hget', fun path => ?_⟩
  have hpath := h (key :: path)
  rw [leafAt, leafAt, hget, hget'] at hpath
  exact hpath

theorem eq_of_leafAt (hj : j.WellFormed) (hj' : j'.WellFormed)
    (h : ∀ path, leafAt j path = leafAt j' path) : j = j' := by
  induction j using Json.induction generalizing j' with
  | object fields ih =>
    cases hfields : fields with
    | nil => exact eq_of_isLeaf rfl (hfields ▸ h)
    | cons first rest =>
      have hfirst : Fields.get? fields first.1 = some first.2 := by
        apply Fields.get?_of_mem hj.sorted
        rw [hfields]
        exact List.mem_cons_self
      obtain ⟨fields', _, rfl, -, -⟩ := exists_get? hj h hfirst
      rw [← hfields]
      refine congrArg Json.object (Fields.ext_get? hj.sorted hj'.sorted fun key => ?_)
      cases hget : Fields.get? fields key with
      | none =>
        cases hget' : Fields.get? fields' key with
        | none => rfl
        | some child' =>
          obtain ⟨_, child, heq, hsome, -⟩ := exists_get? hj' (fun path => (h path).symm) hget'
          obtain rfl := Json.object.inj heq
          rw [hget] at hsome
          cases hsome
      | some child =>
        obtain ⟨_, child', heq, hget', hbelow⟩ := exists_get? hj h hget
        obtain rfl := Json.object.inj heq
        have hmem := Fields.mem_of_get? hget
        have hsame : child = child' :=
          ih (key, child) hmem (hj.fields _ hmem) (hj'.fields _ (Fields.mem_of_get? hget')) hbelow
        rw [hget', hsame]
  | null | bool | number | string | array => exact eq_of_isLeaf rfl h

def leafBelow (j : Json) (segments : List Text) : Option Json := if segments = [] then none else leafAt j segments

theorem leafBelow_some :
    leafBelow j segments = some v ↔ segments ≠ [] ∧ leafAt j segments = some v := by
  unfold leafBelow
  split_ifs with hnil
  · exact ⟨fun h => (by cases h), fun h => absurd hnil h.1⟩
  · exact ⟨fun h => ⟨hnil, h⟩, fun h => h.2⟩

theorem eq_of_leafBelow {fields' : Fields} (hj : (Json.object fields).WellFormed) (hj' : (Json.object fields').WellFormed)
    (h : ∀ segments, leafBelow (.object fields) segments = leafBelow (.object fields') segments) :
    Json.object fields = .object fields' := by
  have hbelow : ∀ segments ≠ [], leafAt (.object fields) segments = leafAt (.object fields') segments := by
    intro segments hne
    have hsegments := h segments
    rw [leafBelow, leafBelow, if_neg hne, if_neg hne] at hsegments
    exact hsegments
  -- an object with a leaf below it is not empty
  have hempty : ∀ {fields fields' : Fields}, (Json.object fields).WellFormed →
      (∀ segments ≠ [], leafAt (.object fields) segments = leafAt (.object fields') segments) →
      isLeaf (.object fields') = true → isLeaf (.object fields) = true := by
    intro fields fields' hj hbelow hleaf'
    obtain ⟨segments, v, hv⟩ := exists_leafAt hj
    cases segments with
    | nil => exact (leafAt_nil.mp hv).1
    | cons key rest =>
      rw [hbelow _ (List.cons_ne_nil key rest), leafAt_cons_leaf hleaf'] at hv
      cases hv
  by_cases hleaf : isLeaf (.object fields) = true
  · have hleaf' := hempty hj' (fun segments hne => (hbelow segments hne).symm) hleaf
    have hnil : fields = [] := List.isEmpty_iff.mp hleaf
    have hnil' : fields' = [] := List.isEmpty_iff.mp hleaf'
    rw [hnil, hnil']
  · refine eq_of_leafAt hj hj' fun segments => ?_
    by_cases hne : segments = []
    · have hleaf' : ¬ isLeaf (.object fields') = true := fun hleaf' => hleaf (hempty hj hbelow hleaf')
      rw [hne, leafAt, leafAt, if_neg hleaf, if_neg hleaf']
    · exact hbelow segments hne

/-! ### Building from flat fields -/

def childFields (fields : Fields) (segment : Text) : Fields :=
  match fields.get? segment with
  | some (.object child) => child
  | _ => []

theorem insertAt_cons (fields : Fields) (segment : Text) (hne : rest ≠ []) (value : Json) :
    insertAt fields (segment :: rest) value = fields.set segment (.object (insertAt (childFields fields segment) rest value)) := by
  obtain ⟨next, segments, rfl⟩ := List.exists_cons_of_ne_nil hne
  rw [insertAt, childFields]
  rcases fields.get? segment with _ | (_ | _ | _ | _ | _ | child) <;> rfl

theorem leafAt_childFields {segment : Text} (hne : path ≠ []) :
    leafAt (.object (childFields fields segment)) path = leafAt (.object fields) (segment :: path) := by
  obtain ⟨key, rest, rfl⟩ := List.exists_cons_of_ne_nil hne
  rw [leafAt.eq_def (.object fields), childFields]
  dsimp only
  rcases fields.get? segment with _ | (_ | _ | _ | _ | _ | child) <;> rfl

theorem insertAt_ne_nil (fields : Fields) (hne : segments ≠ []) (value : Json) :
    insertAt fields segments value ≠ [] := by
  obtain ⟨segment, rest, rfl⟩ := List.exists_cons_of_ne_nil hne
  by_cases hrest : rest = []
  · rw [hrest, insertAt]
    exact Fields.set_ne_nil _ _ _
  · rw [insertAt_cons _ _ hrest]
    exact Fields.set_ne_nil _ _ _

theorem leafAt_set (fields : Fields) (segment : Text) (child : Json) (key : Text) (below : List Text) :
    leafAt (.object (fields.set segment child)) (key :: below) =
      if segment = key then leafAt child below else leafAt (.object fields) (key :: below) := by
  rw [leafAt, leafAt, Fields.get?_set]
  split_ifs <;> rfl

theorem leafAt_insertAt (hleaf : isLeaf value = true) (hne : segments ≠ [])
    (fields : Fields) (hpath : path ≠ []) :
    leafAt (.object (insertAt fields segments value)) path =
      if path = segments then some value
      else if path <+: segments ∨ segments <+: path then none
      else leafAt (.object fields) path := by
  induction segments generalizing fields path with
  | nil => exact absurd rfl hne
  | cons segment rest ih =>
    obtain ⟨key, below, rfl⟩ := List.exists_cons_of_ne_nil hpath
    simp only [List.cons.injEq, List.cons_prefix_cons]
    by_cases hkey : segment = key
    · subst hkey
      by_cases hrest : rest = []
      · rw [hrest, insertAt, leafAt_set, if_pos rfl]
        cases below with
        | nil => simp [leafAt_nil.mpr ⟨hleaf, rfl⟩]
        | cons k below => simp [leafAt_cons_leaf hleaf]
      · rw [insertAt_cons _ _ hrest, leafAt_set, if_pos rfl]
        by_cases hbelow : below = []
        · have hobject : isLeaf (.object (insertAt (childFields fields segment) rest value)) = false :=
            List.isEmpty_eq_false_iff.mpr (insertAt_ne_nil _ hrest _)
          rw [hbelow, leafAt, hobject]
          simp [Ne.symm hrest]
        · rw [ih hrest _ hbelow, leafAt_childFields hbelow]
          simp
    · have hset : ∃ child, insertAt fields (segment :: rest) value = fields.set segment child := by
        by_cases hrest : rest = []
        · rw [hrest, insertAt]
          exact ⟨value, rfl⟩
        · exact ⟨_, insertAt_cons _ _ hrest _⟩
      obtain ⟨child, hset⟩ := hset
      rw [hset, leafAt_set, if_neg hkey]
      simp [hkey, Ne.symm hkey]

theorem insertAt_induction {P : Json → Prop} (hset : ∀ (fields : Fields) key value, P (.object fields) →
    isValidKey key = true → P value → P (.object (fields.set key value))) (hnil : P (.object []))
    (hchild : ∀ fields, P (.object fields) → ∀ field ∈ fields, P field.2)
    (hsegments : ValidPath segments) (hvalue : P value) (h : P (.object fields)) :
    P (.object (insertAt fields segments value)) := by
  induction segments generalizing fields with
  | nil => exact h
  | cons segment rest ih =>
    obtain ⟨hsegment, hrest⟩ := List.forall_mem_cons.mp hsegments
    by_cases hne : rest = []
    · rw [hne, insertAt]
      exact hset fields segment value h hsegment hvalue
    · rw [insertAt_cons _ _ hne]
      refine hset fields segment _ h hsegment (ih hrest ?_)
      unfold childFields
      split
      · rename_i child hget
        exact hchild fields h _ (Fields.mem_of_get? hget)
      · exact hnil

theorem insertAt_wellFormed (hsegments : ValidPath segments)
    (hvalue : value.WellFormed) (h : (Json.object fields).WellFormed) :
    (Json.object (insertAt fields segments value)).WellFormed := by
  refine insertAt_induction (fun fields key value hfields _ hvalue => Fields.set_wellFormed hfields hvalue) ?_
    (fun _ => Json.WellFormed.fields) hsegments hvalue h
  exact .object List.Pairwise.nil fun field hfield => absurd hfield List.not_mem_nil

theorem insertAt_valid (hsegments : ValidPath segments)
    (hvalue : validateConfigurationObject value = .ok ())
    (h : validateConfigurationObject (.object fields) = .ok ()) :
    validateConfigurationObject (.object (insertAt fields segments value)) = .ok () := by
  refine insertAt_induction (P := fun j => validateConfigurationObject j = .ok ()) ?_ rfl
    (fun _ hfields field hfield => (validateFields_ok.mp hfields field hfield).2) hsegments hvalue h
  intro fields key value hfields hkey hvalue
  refine validateFields_ok.mpr fun field hfield => ?_
  rcases Fields.mem_set hfield with rfl | hmem
  · exact ⟨hkey, hvalue⟩
  · exact validateFields_ok.mp hfields field hmem

def build (flat : Flat) : Fields := flat.foldl (fun result field => insertAt result (splitDots field.1) field.2) []

theorem unflattenFrom_eq (h : ∀ field ∈ flat, ValidPath (splitDots field.1)) (result : Fields) :
    unflattenFrom result flat =
      .ok (flat.foldl (fun result field => insertAt result (splitDots field.1) field.2) result) := by
  induction flat generalizing result with
  | nil => rfl
  | cons field rest ih =>
    obtain ⟨hfield, hrest⟩ := List.forall_mem_cons.mp h
    have hkeys : (splitDots field.1).forM validateConfigurationKey = .ok () :=
      forM_ok.mpr fun segment hsegment => validateConfigurationKey_ok.mpr (hfield segment hsegment)
    rw [unflattenFrom, hkeys, List.foldl_cons]
    exact ih hrest _

theorem unflatten_eq (h : ∀ field ∈ flat, ValidPath (splitDots field.1)) : unflatten flat = .ok (build flat) :=
  unflattenFrom_eq h []

theorem build_append (flat : Flat) (field : Text × Json) :
    build (flat ++ [field]) = insertAt (build flat) (splitDots field.1) field.2 := List.foldl_concat ..

theorem build_induction {P : Fields → Prop} (hnil : P [])
    (hinsert : ∀ fields, ∀ field ∈ flat, P fields → P (insertAt fields (splitDots field.1) field.2)) : P (build flat) :=
  List.foldlRecOn flat _ hnil fun fields hfields field hfield => hinsert fields field hfield hfields

/-- In the order of their paths a path that is a front of another one comes first. -/
theorem later_of_sorted (hsorted : flat.Pairwise fun field later => codeUnits field.1 < codeUnits later.1) :
    flat.Pairwise fun field later => splitDots later.1 <+: splitDots field.1 → later = field := by
  refine hsorted.imp fun {field later} hlt hprefix => ?_
  have htext : later.1 <+: field.1 := by
    rw [← dotted_splitDots later.1, ← dotted_splitDots field.1]
    exact dotted_front hprefix
  by_cases heq : later.1 = field.1
  · rw [heq] at hlt
    exact absurd hlt (lt_irrefl _)
  · exact absurd hlt (lt_asymm (codeUnits_lt_of_front htext heq))

/-- What a later path is below of is overwritten, so the fields that stay are those without a field
below. -/
theorem leafAt_build (hleaf : ∀ field ∈ flat, isLeaf field.2 = true)
    (hlater : flat.Pairwise fun field later => splitDots later.1 <+: splitDots field.1 → later = field) (hne : path ≠ []) :
    leafAt (.object (build flat)) path = some v ↔ (∃ field ∈ flat, splitDots field.1 = path ∧ field.2 = v) ∧
      ∀ field ∈ flat, path <+: splitDots field.1 → path = splitDots field.1 := by
  induction flat using List.reverseRecOn with
  | nil =>
    obtain ⟨key, rest, rfl⟩ := List.exists_cons_of_ne_nil hne
    refine ⟨fun h => (by cases h), ?_⟩
    rintro ⟨⟨field, hfield, -⟩, -⟩
    exact absurd hfield List.not_mem_nil
  | append_singleton flat last ih =>
    obtain ⟨hbefore, -, hlast⟩ := List.pairwise_append.mp hlater
    have hsame : ∀ field ∈ flat, splitDots last.1 <+: splitDots field.1 → last = field :=
      fun field hfield => hlast field hfield last List.mem_cons_self
    have hih := ih (fun field hfield => hleaf field (List.mem_append_left _ hfield)) hbefore
    rw [build_append, leafAt_insertAt (hleaf last (List.mem_append_right _ List.mem_cons_self)) (splitDots_ne_nil _) _ hne]
    simp only [List.mem_append, List.mem_singleton]
    by_cases heq : path = splitDots last.1
    · rw [if_pos heq]
      constructor
      · intro h
        refine ⟨⟨last, .inr rfl, heq.symm, Option.some.inj h⟩, ?_⟩
        rintro field (hfield | rfl) hprefix
        · rw [← hsame field hfield (heq ▸ hprefix)]
          exact heq
        · exact heq
      · rintro ⟨⟨field, hfield | rfl, hpath, rfl⟩, -⟩
        · rw [hsame field hfield (heq ▸ hpath ▸ List.prefix_refl _)]
        · rfl
    · rw [if_neg heq]
      by_cases hcomparable : path <+: splitDots last.1 ∨ splitDots last.1 <+: path
      · rw [if_pos hcomparable]
        refine ⟨fun h => (by cases h), ?_⟩
        rintro ⟨⟨field, hfield | rfl, hpath, rfl⟩, hmax⟩
        · rcases hcomparable with habove | hbelow
          · exact absurd (hmax last (.inr rfl) habove) heq
          · rw [← hsame field hfield (hpath ▸ hbelow)] at hpath
            exact absurd hpath.symm heq
        · exact absurd hpath.symm heq
      · rw [if_neg hcomparable, hih]
        constructor
        · rintro ⟨⟨field, hfield, hpath, rfl⟩, hmax⟩
          refine ⟨⟨field, .inl hfield, hpath, rfl⟩, ?_⟩
          rintro field (hfield | rfl) hprefix
          · exact hmax field hfield hprefix
          · exact absurd (.inl hprefix) hcomparable
        · rintro ⟨⟨field, hfield | rfl, hpath, rfl⟩, hmax⟩
          · exact ⟨⟨field, hfield, hpath, rfl⟩, fun field hfield => hmax field (.inl hfield)⟩
          · exact absurd hpath.symm heq

theorem build_wellFormed (h : ∀ field ∈ flat, ValidPath (splitDots field.1) ∧ field.2.WellFormed) :
    (Json.object (build flat)).WellFormed := by
  refine build_induction (P := fun fields => (Json.object fields).WellFormed) ?_ fun fields field hmem hfields => ?_
  · exact .object List.Pairwise.nil fun field hmem => absurd hmem List.not_mem_nil
  · exact insertAt_wellFormed (h field hmem).1 (h field hmem).2 hfields

/-! ### Flattening -/

theorem collect_ok {entries : List (Text × Except EdgeError Flat)} (h : ∀ entry ∈ entries, ∃ leaves, entry.2 = .ok leaves) :
    ∃ flat, collect entries = .ok flat ∧ ∀ x, x ∈ flat ↔ ∃ entry ∈ entries, ∃ leaves, entry.2 = .ok leaves ∧ x ∈ leaves := by
  induction entries with
  | nil =>
    refine ⟨[], rfl, fun x => ⟨fun hx => absurd hx List.not_mem_nil, ?_⟩⟩
    rintro ⟨entry, hentry, -⟩
    exact absurd hentry List.not_mem_nil
  | cons entry rest ih =>
    obtain ⟨path, result⟩ := entry
    obtain ⟨⟨leaves, rfl⟩, hrest⟩ := List.forall_mem_cons.mp h
    obtain ⟨flat, hflat, hmem⟩ := ih hrest
    refine ⟨leaves ++ flat, bind_ok.mpr ⟨leaves, rfl, bind_ok.mpr ⟨flat, hflat, rfl⟩⟩, fun x => ?_⟩
    rw [List.mem_append, hmem, List.exists_mem_cons_iff]
    refine or_congr_left ⟨fun hx => ⟨leaves, rfl, hx⟩, ?_⟩
    rintro ⟨leaves', heq, hx⟩
    rw [Except.ok.inj heq]
    exact hx

section Flatten
variable {localeCompare : Text → Text → ℤ}

variable (localeCompare) in
def flattenEntry (path : Text) (field : Text × Json) : Except EdgeError Flat := do
  validateConfigurationKey field.1
  flattenChild localeCompare (childPath path field.1) field.2

theorem flattenEntries_eq (path : Text) (fields : Fields) :
    flattenEntries localeCompare path fields =
      fields.map fun field => (field.1, flattenEntry localeCompare path field) := by
  induction fields with
  | nil => rfl
  | cons field rest ih =>
    obtain ⟨key, child⟩ := field
    rw [flattenEntries, ih, List.map_cons]
    rfl

def Lists (flat : Flat) (front : List Text) (leaf : List Text → Option Json) : Prop :=
  ∀ path v, (path, v) ∈ flat ↔ ∃ segments, path = dotted (front ++ segments) ∧ leaf segments = some v

theorem collect_flattenEntries {front : List Text} (hfront : ValidPath front) {fields : Fields}
    (hj : (Json.object fields).WellFormed) (hkeys : ∀ field ∈ fields, isValidKey field.1 = true)
    (hchild : ∀ field ∈ fields, ∀ front, ValidPath front → front ≠ [] →
      ∃ flat, flattenChild localeCompare (dotted front) field.2 = .ok flat ∧ Lists flat front (leafAt field.2)) :
    ∃ flat, collect (sortEntries localeCompare (flattenEntries localeCompare (dotted front) fields)) = .ok flat ∧
      Lists flat front (leafBelow (.object fields)) := by
  have hentry : ∀ field ∈ fields, ∃ flat, flattenEntry localeCompare (dotted front) field = .ok flat ∧
      Lists flat (front ++ [field.1]) (leafAt field.2) := by
    intro field hfield
    have hvalid : ValidPath (front ++ [field.1]) := by
      intro segment hsegment
      rcases List.mem_append.mp hsegment with hmem | hmem
      · exact hfront segment hmem
      · rw [List.mem_singleton.mp hmem]
        exact hkeys field hfield
    obtain ⟨flat, hflat, hlists⟩ := hchild field hfield _ hvalid (List.append_ne_nil_of_right_ne_nil _ (List.cons_ne_nil _ _))
    rw [flattenEntry, childPath_dotted hfront, validateConfigurationKey_ok.mpr (hkeys field hfield)]
    exact ⟨flat, hflat, hlists⟩
  have hsort : ∀ entry, entry ∈ sortEntries localeCompare (flattenEntries localeCompare (dotted front) fields) ↔
      entry ∈ flattenEntries localeCompare (dotted front) fields := fun entry => (List.perm_insertionSort _ _).mem_iff
  have hok : ∀ entry ∈ sortEntries localeCompare (flattenEntries localeCompare (dotted front) fields),
      ∃ leaves, entry.2 = .ok leaves := by
    intro entry hmem
    rw [hsort, flattenEntries_eq] at hmem
    obtain ⟨field, hfield, rfl⟩ := List.mem_map.mp hmem
    obtain ⟨flat, hflat, -⟩ := hentry field hfield
    exact ⟨flat, hflat⟩
  obtain ⟨flat, hcollect, hmem⟩ := collect_ok hok
  refine ⟨flat, hcollect, fun path v => ?_⟩
  rw [hmem]
  constructor
  · rintro ⟨entry, hentry', leaves, hleaves, hx⟩
    rw [hsort, flattenEntries_eq] at hentry'
    obtain ⟨field, hfield, rfl⟩ := List.mem_map.mp hentry'
    obtain ⟨flat', hflat', hlists⟩ := hentry field hfield
    obtain rfl := Except.ok.inj (hflat'.symm.trans hleaves)
    obtain ⟨segments, rfl, hleaf⟩ := (hlists path v).mp hx
    refine ⟨field.1 :: segments, ?_, ?_⟩
    · rw [List.append_assoc, List.singleton_append]
    · have hcons := leafAt_cons.mpr ⟨field.2, Fields.get?_of_mem hj.sorted hfield, hleaf⟩
      exact leafBelow_some.mpr ⟨List.cons_ne_nil _ _, hcons⟩
  · rintro ⟨segments, rfl, hleaf⟩
    obtain ⟨hne, hleaf⟩ := leafBelow_some.mp hleaf
    obtain ⟨key, rest, rfl⟩ := List.exists_cons_of_ne_nil hne
    obtain ⟨child, hget, hleaf⟩ := leafAt_cons.mp hleaf
    have hfield := Fields.mem_of_get? hget
    obtain ⟨flat', hflat', hlists⟩ := hentry (key, child) hfield
    have hmem : (key, flattenEntry localeCompare (dotted front) (key, child)) ∈
        flattenEntries localeCompare (dotted front) fields := by
      rw [flattenEntries_eq]
      exact List.mem_map_of_mem hfield
    refine ⟨_, (hsort _).mpr hmem, flat', hflat', (hlists _ v).mpr ⟨rest, ?_, hleaf⟩⟩
    rw [List.append_assoc, List.singleton_append]

theorem lists_leaf (hleaf : isLeaf j = true) (front : List Text) : Lists [(dotted front, j)] front (leafAt j) := by
  intro path v
  rw [List.mem_singleton, Prod.mk.injEq]
  constructor
  · rintro ⟨rfl, rfl⟩
    exact ⟨[], by rw [List.append_nil], leafAt_nil.mpr ⟨hleaf, rfl⟩⟩
  · rintro ⟨segments, rfl, hv⟩
    cases segments with
    | nil => exact ⟨by rw [List.append_nil], (leafAt_nil.mp hv).2.symm⟩
    | cons key rest =>
      rw [leafAt_cons_leaf hleaf] at hv
      cases hv

theorem flattenChild_ok (hj : j.WellFormed) (h : validateConfigurationObject j = .ok ()) {front : List Text}
    (hfront : ValidPath front) (hne : front ≠ []) :
    ∃ flat, flattenChild localeCompare (dotted front) j = .ok flat ∧ Lists flat front (leafAt j) := by
  induction j using Json.induction generalizing front with
  | object fields ih =>
    have hfields := validateFields_ok.mp h
    by_cases hempty : fields.isEmpty = true
    · have hleaf : isLeaf (.object fields) = true := hempty
      refine ⟨_, ?_, lists_leaf hleaf front⟩
      rw [flattenChild, if_pos hempty]
    · obtain ⟨flat, hflat, hlists⟩ := collect_flattenEntries hfront hj (fun field hfield => (hfields field hfield).1)
        fun field hfield _ hfront hne => ih field hfield (hj.fields field hfield) (hfields field hfield).2 hfront hne
      refine ⟨flat, ?_, fun path v => (hlists path v).trans (exists_congr fun segments => and_congr_right fun _ => ?_)⟩
      · rw [flattenChild, if_neg hempty]
        exact hflat
      · rw [leafBelow_some, and_iff_right_iff_imp]
        rintro hleaf rfl
        exact hempty (leafAt_nil.mp hleaf).1
  | null | bool | number | string | array => exact ⟨_, rfl, lists_leaf rfl front⟩

theorem flatten_ok {fields : Fields} (hj : (Json.object fields).WellFormed)
    (h : validateConfigurationObject (.object fields) = .ok ()) :
    ∃ flat, flatten localeCompare fields = .ok flat ∧ ∀ path v, (path, v) ∈ flat ↔
      ValidPath (splitDots path) ∧ leafAt (.object fields) (splitDots path) = some v := by
  have hfields := validateFields_ok.mp h
  have hfront : ValidPath [] := fun segment hsegment => absurd hsegment List.not_mem_nil
  obtain ⟨flat, hflat, hlists⟩ := @collect_flattenEntries localeCompare [] hfront fields hj
    (fun field hfield => (hfields field hfield).1)
    fun field hfield _ hfront hne => flattenChild_ok (hj.fields field hfield) (hfields field hfield).2 hfront hne
  refine ⟨flat, hflat, fun path v => (hlists path v).trans ⟨?_, ?_⟩⟩
  · rintro ⟨segments, rfl, hleaf⟩
    obtain ⟨hne, hleaf⟩ := leafBelow_some.mp hleaf
    have hvalid := leafAt_validPath h hleaf
    rw [List.nil_append, splitDots_dotted_valid hvalid hne]
    exact ⟨hvalid, hleaf⟩
  · rintro ⟨-, hleaf⟩
    refine ⟨splitDots path, ?_, leafBelow_some.mpr ⟨splitDots_ne_nil path, hleaf⟩⟩
    rw [List.nil_append, dotted_splitDots]

end Flatten

end OxScada.Edge
