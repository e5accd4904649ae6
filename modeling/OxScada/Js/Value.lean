import OxScada.Js.CanonicalForm

/-! Values as a program has them, where they need not be what JSON can say: an array may lack elements and may have properties with
names, an object may have properties that it does not enumerate, and a zero may be negative. -/

namespace OxScada.Js
open OxScada.Bytes

/-- A value of null, booleans, finite numbers, strings, arrays and plain objects. `named` says that an array has more properties than
its elements, and each property of an object comes with its being enumerable. -/
inductive Value where
  | null
  | bool (value : Bool)
  | number (value : JsonNumber)
  | negativeZero
  | string (value : Text)
  | array (items : List (Option Value)) (named : Bool)
  | object (properties : List (Text × Bool × Value))

theorem Value.induction {motive : Value → Prop} (null : motive .null) (bool : ∀ value, motive (.bool value))
    (number : ∀ value, motive (.number value)) (negativeZero : motive .negativeZero) (string : ∀ value, motive (.string value))
    (array : ∀ items named, (∀ v, some v ∈ items → motive v) → motive (.array items named))
    (object : ∀ properties, (∀ property ∈ properties, motive property.2.2) → motive (.object properties)) (v : Value) : motive v := by
  refine @Value.rec motive (fun items => ∀ v, some v ∈ items → motive v) (fun properties => ∀ property ∈ properties, motive property.2.2)
    (fun item => ∀ v, item = some v → motive v) (fun property => motive property.2.2) (fun described => motive described.2)
    null bool number negativeZero string (fun items named => array items named) object ?_ ?_ ?_ ?_ ?_ ?_ ?_ ?_ v
  · simp
  · intro head tail hhead htail v hv
    rcases List.mem_cons.mp hv with hv | hv
    · exact hhead v hv.symm
    · exact htail v hv
  · simp
  · intro head tail hhead htail property hproperty
    rcases List.mem_cons.mp hproperty with rfl | hproperty
    · exact hhead
    · exact htail property hproperty
  · simp
  · intro v hv w hw
    obtain rfl := Option.some.inj hw
    exact hv
  · intro key described hdescribed
    exact hdescribed
  · intro enumerable v hv
    exact hv

/-! ### What a program does with a value -/

mutual

/-- `structuredClone(value)`, which copies what is enumerable. -/
def Value.clone : Value → Value
  | .array items named => .array (Value.cloneItems items) named
  | .object properties => .object (Value.cloneProperties properties)
  | value => value

def Value.cloneItems : List (Option Value) → List (Option Value)
  | [] => []
  | none :: rest => none :: Value.cloneItems rest
  | some value :: rest => some value.clone :: Value.cloneItems rest

def Value.cloneProperties : List (Text × Bool × Value) → List (Text × Bool × Value)
  | [] => []
  | (key, true, value) :: rest => (key, true, value.clone) :: Value.cloneProperties rest
  | (_, false, _) :: rest => Value.cloneProperties rest

end

section Texts
variable (localeCompare : Text → Text → ℤ)

mutual

/-- `canonicalJson(value)`. What an array lacks is joined as nothing, and a zero is written without a sign. -/
def Value.canonicalJson : Value → Text
  | .null => ['n', 'u', 'l', 'l']
  | .bool true => ['t', 'r', 'u', 'e']
  | .bool false => ['f', 'a', 'l', 's', 'e']
  | .number value => value.text
  | .negativeZero => ['0']
  | .string value => quote value
  | .array items _ => '[' :: joinComma (Value.itemTexts items) ++ [']']
  | .object properties =>
    '{' :: joinComma ((sortEntries localeCompare (Value.propertyTexts properties)).map fun entry => quote entry.1 ++ ':' :: entry.2) ++ ['}']

def Value.itemTexts : List (Option Value) → List Text
  | [] => []
  | none :: rest => [] :: Value.itemTexts rest
  | some value :: rest => value.canonicalJson :: Value.itemTexts rest

def Value.propertyTexts : List (Text × Bool × Value) → List (Text × Text)
  | [] => []
  | (key, true, value) :: rest => (key, value.canonicalJson) :: Value.propertyTexts rest
  | (_, false, _) :: rest => Value.propertyTexts rest

end

end Texts

/-! ### Values that JSON can say -/

mutual

def Json.value : Json → Value
  | .null => .null
  | .bool value => .bool value
  | .number value => .number value
  | .string value => .string value
  | .array items => .array (Json.itemValues items) false
  | .object fields => .object (Json.propertyValues fields)

def Json.itemValues : List Json → List (Option Value)
  | [] => []
  | j :: rest => some j.value :: Json.itemValues rest

def Json.propertyValues : List (Text × Json) → List (Text × Bool × Value)
  | [] => []
  | (key, j) :: rest => (key, true, j.value) :: Json.propertyValues rest

end

mutual

/-- No array lacks an element or has other properties, and every property of an object is enumerable. -/
def Value.isJson : Value → Bool
  | .array items named => !named && Value.itemsJson items
  | .object properties => Value.propertiesJson properties
  | _ => true

def Value.itemsJson : List (Option Value) → Bool
  | [] => true
  | none :: _ => false
  | some value :: rest => value.isJson && Value.itemsJson rest

def Value.propertiesJson : List (Text × Bool × Value) → Bool
  | [] => true
  | (_, enumerable, value) :: rest => enumerable && value.isJson && Value.propertiesJson rest

end

def zero : JsonNumber where
  text := ['0']
  chars := by simp [numberChars]

mutual

def Value.json : Value → Json
  | .null => .null
  | .bool value => .bool value
  | .number value => .number value
  | .negativeZero => .number zero
  | .string value => .string value
  | .array items _ => .array (Value.jsonItems items)
  | .object properties => .object (Value.jsonFields properties)

def Value.jsonItems : List (Option Value) → List Json
  | [] => []
  | none :: rest => Value.jsonItems rest
  | some value :: rest => value.json :: Value.jsonItems rest

def Value.jsonFields : List (Text × Bool × Value) → Fields
  | [] => []
  | (key, true, value) :: rest => (key, value.json) :: Value.jsonFields rest
  | (_, false, _) :: rest => Value.jsonFields rest

end

/-! ### Equal values -/

mutual

/-- The value with the properties of every object in the order of their keys, and without the sign of zero. -/
def Value.ordered : Value → Value
  | .negativeZero => .number zero
  | .array items named => .array (Value.orderedItems items) named
  | .object properties => .object ((Value.orderedProperties properties).insertionSort fun x y => x.1 ≤ y.1)
  | value => value

def Value.orderedItems : List (Option Value) → List (Option Value)
  | [] => []
  | none :: rest => none :: Value.orderedItems rest
  | some value :: rest => some value.ordered :: Value.orderedItems rest

def Value.orderedProperties : List (Text × Bool × Value) → List (Text × Bool × Value)
  | [] => []
  | (key, enumerable, value) :: rest => (key, enumerable, value.ordered) :: Value.orderedProperties rest

end

/-- Values are equal when they have the same elements and properties, in whatever order, with `===` for what is no object. -/
def Value.Same (v w : Value) : Prop := v.ordered = w.ordered

section Helpers

theorem Json.itemValues_eq (items : List Json) : Json.itemValues items = items.map fun j => some j.value := by
  induction items with
  | nil => rfl
  | cons j rest ih => rw [Json.itemValues, ih, List.map_cons]

theorem Json.propertyValues_eq (fields : Fields) : Json.propertyValues fields = fields.map fun field => (field.1, true, field.2.value) := by
  induction fields with
  | nil => rfl
  | cons field rest ih =>
    obtain ⟨key, j⟩ := field
    rw [Json.propertyValues, ih, List.map_cons]

theorem Value.itemsJson_iff (items : List (Option Value)) : Value.itemsJson items = true ↔ none ∉ items ∧ ∀ v, some v ∈ items → v.isJson = true := by
  induction items with
  | nil => simp [Value.itemsJson]
  | cons item rest ih =>
    cases item with
    | none => simp [Value.itemsJson]
    | some v =>
      rw [Value.itemsJson, Bool.and_eq_true, ih]
      simp only [List.mem_cons, reduceCtorEq, false_or, Option.some.injEq]
      constructor
      · intro ⟨hv, hnone, hrest⟩
        exact ⟨hnone, fun w hw => hw.elim (fun h => h ▸ hv) (hrest w)⟩
      · intro ⟨hnone, hall⟩
        exact ⟨hall v (.inl rfl), hnone, fun w hw => hall w (.inr hw)⟩

variable (properties : List (Text × Bool × Value))

theorem Value.propertiesJson_iff :
    Value.propertiesJson properties = true ↔ ∀ property ∈ properties, property.2.1 = true ∧ property.2.2.isJson = true := by
  induction properties with
  | nil => simp [Value.propertiesJson]
  | cons property rest ih =>
    obtain ⟨key, enumerable, v⟩ := property
    rw [Value.propertiesJson, Bool.and_eq_true, Bool.and_eq_true, ih, List.forall_mem_cons]

theorem Value.isJson_array {items : List (Option Value)} {named : Bool} :
    (Value.array items named).isJson = true ↔ named = false ∧ none ∉ items ∧ ∀ v, some v ∈ items → v.isJson = true := by
  rw [Value.isJson, Bool.and_eq_true, Value.itemsJson_iff, Bool.not_eq_true']

theorem Value.orderedItems_eq (items : List (Option Value)) : Value.orderedItems items = items.map (Option.map Value.ordered) := by
  induction items with
  | nil => rfl
  | cons item rest ih => cases item <;> simp [Value.orderedItems, ih]

theorem Value.orderedProperties_eq :
    Value.orderedProperties properties = properties.map fun property => (property.1, property.2.1, property.2.2.ordered) := by
  induction properties with
  | nil => rfl
  | cons property rest ih =>
    obtain ⟨key, enumerable, v⟩ := property
    rw [Value.orderedProperties, ih, List.map_cons]

theorem Value.exists_items {items : List (Option Value)} (h : none ∉ items) : ∃ values : List Value, items = values.map some := by
  induction items with
  | nil => exact ⟨[], rfl⟩
  | cons item rest ih =>
    obtain ⟨hitem, hrest⟩ := not_or.mp fun hor => h (List.mem_cons.mpr hor)
    obtain ⟨values, rfl⟩ := ih hrest
    obtain ⟨v, rfl⟩ := Option.ne_none_iff_exists'.mp (Ne.symm hitem)
    exact ⟨v :: values, rfl⟩

theorem Value.jsonItems_map (values : List Value) : Value.jsonItems (values.map some) = values.map Value.json := by
  induction values with
  | nil => rfl
  | cons v rest ih => rw [List.map_cons, Value.jsonItems, ih, List.map_cons]

theorem Value.itemTexts_map (localeCompare : Text → Text → ℤ) (values : List Value) :
    Value.itemTexts localeCompare (values.map some) = values.map (Value.canonicalJson localeCompare) := by
  induction values with
  | nil => rfl
  | cons v rest ih => rw [List.map_cons, Value.itemTexts, ih, List.map_cons]

theorem Value.jsonFields_eq {properties : List (Text × Bool × Value)} (h : ∀ property ∈ properties, property.2.1 = true) :
    Value.jsonFields properties = properties.map fun property => (property.1, property.2.2.json) := by
  induction properties with
  | nil => rfl
  | cons property rest ih =>
    obtain ⟨key, enumerable, v⟩ := property
    obtain ⟨hfirst, hrest⟩ := List.forall_mem_cons.mp h
    obtain rfl : enumerable = true := hfirst
    rw [Value.jsonFields, ih hrest, List.map_cons]

theorem Value.propertyTexts_eq (localeCompare : Text → Text → ℤ) {properties : List (Text × Bool × Value)} (h : ∀ property ∈ properties, property.2.1 = true) :
    Value.propertyTexts localeCompare properties = properties.map fun property => (property.1, property.2.2.canonicalJson localeCompare) := by
  induction properties with
  | nil => rfl
  | cons property rest ih =>
    obtain ⟨key, enumerable, v⟩ := property
    obtain ⟨hfirst, hrest⟩ := List.forall_mem_cons.mp h
    obtain rfl : enumerable = true := hfirst
    rw [Value.propertyTexts, ih hrest, List.map_cons]

end Helpers

section Json
variable {v : Value}

theorem isJson_value (j : Json) : j.value.isJson = true := by
  induction j using Json.induction with
  | array items ih =>
    rw [Json.value, Value.isJson_array, Json.itemValues_eq]
    refine ⟨rfl, by simp, fun v hv => ?_⟩
    obtain ⟨j, hj, heq⟩ := List.mem_map.mp hv
    rw [← Option.some.inj heq]
    exact ih j hj
  | object fields ih =>
    rw [Json.value, Value.isJson, Value.propertiesJson_iff, Json.propertyValues_eq]
    intro property hproperty
    obtain ⟨field, hfield, rfl⟩ := List.mem_map.mp hproperty
    exact ⟨rfl, ih field hfield⟩
  | _ => rfl

theorem json_value (j : Json) : j.value.json = j := by
  induction j using Json.induction with
  | array items ih =>
    have hitems : Json.itemValues items = (items.map Json.value).map some := by simp [Json.itemValues_eq]
    rw [Json.value, Value.json, hitems, Value.jsonItems_map, List.map_map]
    exact congrArg Json.array ((List.map_congr_left ih).trans (List.map_id _))
  | object fields ih =>
    have hall : ∀ property ∈ Json.propertyValues fields, property.2.1 = true := by simp [Json.propertyValues_eq]
    rw [Json.value, Value.json, Value.jsonFields_eq hall, Json.propertyValues_eq, List.map_map]
    refine congrArg Json.object ((List.map_congr_left fun field hfield => ?_).trans (List.map_id _))
    rw [Function.comp_apply, ih field hfield]
    rfl
  | _ => rfl

theorem canonicalJson_json (localeCompare : Text → Text → ℤ) (h : v.isJson = true) :
    v.canonicalJson localeCompare = canonicalJson localeCompare v.json := by
  induction v using Value.induction with
  | bool value => cases value <;> rfl
  | array items named ih =>
    obtain ⟨-, hnone, hall⟩ := Value.isJson_array.mp h
    obtain ⟨values, rfl⟩ := Value.exists_items hnone
    have htexts : values.map (Value.canonicalJson localeCompare) = (values.map Value.json).map (canonicalJson localeCompare) := by
      rw [List.map_map]
      exact List.map_congr_left fun w hw => ih w (List.mem_map_of_mem hw) (hall w (List.mem_map_of_mem hw))
    rw [Value.canonicalJson, Value.json, canonicalJson, Value.itemTexts_map, Value.jsonItems_map, itemTexts_eq, htexts]
  | object properties ih =>
    rw [Value.isJson, Value.propertiesJson_iff] at h
    have htexts : (properties.map fun property => (property.1, property.2.2.canonicalJson localeCompare)) =
        (properties.map fun property => (property.1, property.2.2.json)).map fun field => (field.1, canonicalJson localeCompare field.2) := by
      rw [List.map_map]
      refine List.map_congr_left fun property hproperty => ?_
      rw [Function.comp_apply, ih property hproperty (h property hproperty).2]
    have hall : ∀ property ∈ properties, property.2.1 = true := fun property hproperty => (h property hproperty).1
    rw [Value.canonicalJson, Value.json, canonicalJson, Value.propertyTexts_eq localeCompare hall, Value.jsonFields_eq hall, fieldTexts_eq, htexts]
  | _ => rfl

theorem clone_json (h : v.isJson = true) : v.clone = v := by
  induction v using Value.induction with
  | array items named ih =>
    obtain ⟨-, hnone, hall⟩ := Value.isJson_array.mp h
    obtain ⟨values, rfl⟩ := Value.exists_items hnone
    have hitems : ∀ m : List Value, (∀ w ∈ m, w.clone = w) → Value.cloneItems (m.map some) = m.map some := by
      intro m hm
      induction m with
      | nil => rfl
      | cons w rest ihrest =>
        obtain ⟨hw, hrest⟩ := List.forall_mem_cons.mp hm
        rw [List.map_cons, Value.cloneItems, hw, ihrest hrest]
    rw [Value.clone, hitems values fun w hw => ih w (List.mem_map_of_mem hw) (hall w (List.mem_map_of_mem hw))]
  | object properties ih =>
    rw [Value.isJson, Value.propertiesJson_iff] at h
    have hproperties : ∀ m : List (Text × Bool × Value), (∀ property ∈ m, property.2.1 = true ∧ property.2.2.clone = property.2.2) →
        Value.cloneProperties m = m := by
      intro m hm
      induction m with
      | nil => rfl
      | cons property rest ihrest =>
        obtain ⟨key, enumerable, w⟩ := property
        obtain ⟨⟨henumerable, hw⟩, hrest⟩ := List.forall_mem_cons.mp hm
        obtain rfl : enumerable = true := henumerable
        rw [Value.cloneProperties, hw, ihrest hrest]
    rw [Value.clone, hproperties properties fun property hproperty =>
      ⟨(h property hproperty).1, ih property hproperty (h property hproperty).2⟩]
  | _ => rfl

theorem isJson_ordered (v : Value) : v.ordered.isJson = v.isJson := by
  induction v using Value.induction with
  | array items named ih =>
    rw [Bool.eq_iff_iff, Value.ordered, Value.isJson_array, Value.isJson_array, Value.orderedItems_eq]
    refine and_congr_right fun _ => and_congr (by simp [Option.map_eq_none_iff]) ?_
    constructor
    · intro hall v hv
      rw [← ih v hv]
      exact hall v.ordered (List.mem_map.mpr ⟨some v, hv, rfl⟩)
    · intro hall w hw
      obtain ⟨item, hitem, heq⟩ := List.mem_map.mp hw
      obtain ⟨v, rfl, rfl⟩ := Option.map_eq_some_iff.mp heq
      rw [ih v hitem]
      exact hall v hitem
  | object properties ih =>
    rw [Bool.eq_iff_iff, Value.ordered, Value.isJson, Value.isJson, Value.propertiesJson_iff, Value.propertiesJson_iff, Value.orderedProperties_eq]
    have hperm := List.perm_insertionSort (fun x y : Text × Bool × Value => x.1 ≤ y.1) (properties.map fun property => (property.1, property.2.1, property.2.2.ordered))
    simp only [hperm.mem_iff, List.forall_mem_map]
    refine forall₂_congr fun property hproperty => ?_
    rw [ih property hproperty]
  | _ => rfl

theorem ordered_json (h : v.isJson = true) : v.ordered = v.json.ordered.value := by
  induction v using Value.induction with
  | array items named ih =>
    obtain ⟨rfl, hnone, hall⟩ := Value.isJson_array.mp h
    obtain ⟨values, rfl⟩ := Value.exists_items hnone
    rw [Value.ordered, Value.json, Json.ordered, Json.rebuild_array, Json.value, Value.orderedItems_eq, Value.jsonItems_map, Json.itemValues_eq,
      List.map_map, List.map_map, List.map_map]
    refine congrArg (Value.array · false) (List.map_congr_left fun w hw => ?_)
    exact congrArg some (ih w (List.mem_map_of_mem hw) (hall w (List.mem_map_of_mem hw)))
  | object properties ih =>
    rw [Value.isJson, Value.propertiesJson_iff] at h
    have hall : ∀ property ∈ properties, property.2.1 = true := fun property hproperty => (h property hproperty).1
    let written : Text × Json → Text × Bool × Value := fun field => (field.1, true, field.2.value)
    have hfields : (properties.map fun property => (property.1, property.2.1, property.2.2.ordered)) =
        (properties.map fun property => rebuildField sortKeys (property.1, property.2.2.json)).map written := by
      rw [List.map_map]
      refine List.map_congr_left fun property hproperty => ?_
      obtain ⟨henumerable, hjson⟩ := h property hproperty
      rw [henumerable, ih property hproperty hjson]
      rfl
    have hsort := List.map_insertionSort (fun x y : Text × Json => x.1 ≤ y.1) (fun x y : Text × Bool × Value => x.1 ≤ y.1) written
      (properties.map fun property => rebuildField sortKeys (property.1, property.2.2.json)) fun a _ b _ => Iff.rfl
    rw [Value.ordered, Value.json, Json.ordered, Json.rebuild_object, Json.value, Value.orderedProperties_eq, Value.jsonFields_eq hall,
      Json.propertyValues_eq, List.map_map, hfields, ← hsort]
    rfl
  | _ => rfl

/-- A value is equal to one that was read if and only if JSON can say it and says the same, up to the order of keys. -/
theorem same_value {j : Json} : v.Same j.value ↔ v.isJson = true ∧ v.json.ordered.value = j.ordered.value := by
  have hread : j.value.ordered = j.ordered.value := by
    rw [ordered_json (isJson_value j), json_value]
  unfold Value.Same
  rw [hread]
  constructor
  · intro hsame
    have hjson : v.isJson = true := by rw [← isJson_ordered, hsame, isJson_value]
    exact ⟨hjson, (ordered_json hjson).symm.trans hsame⟩
  · intro ⟨hjson, hsame⟩
    exact (ordered_json hjson).trans hsame

end Json

/-! ### Values that there are -/

/-- Numbers are spelled as numbers are, and an object has each property once, in the order in which it enumerates them. -/
inductive Value.WellFormed : Value → Prop
  | null : WellFormed .null
  | bool (value : Bool) : WellFormed (.bool value)
  | number (value : JsonNumber) (h : isNumberText value.text = true) : WellFormed (.number value)
  | negativeZero : WellFormed .negativeZero
  | string (value : Text) : WellFormed (.string value)
  | array {items : List (Option Value)} {named : Bool} (h : ∀ v, some v ∈ items → WellFormed v) : WellFormed (.array items named)
  | object {properties : List (Text × Bool × Value)} (hnodup : (properties.map Prod.fst).Nodup) (henumerate : enumerate properties = properties)
      (h : ∀ property ∈ properties, WellFormed property.2.2) : WellFormed (.object properties)

theorem Value.WellFormed.json {v : Value} (hv : v.WellFormed) (h : v.isJson = true) : v.json.Proper ∧ v.json.rebuild enumerate = v.json := by
  induction v using Value.induction with
  | null => exact ⟨.null, rfl⟩
  | bool value => exact ⟨.bool value, rfl⟩
  | number value =>
    cases hv with
    | number _ hvalue => exact ⟨.number value hvalue, rfl⟩
  | negativeZero => exact ⟨.number zero (by decide), rfl⟩
  | string value => exact ⟨.string value, rfl⟩
  | array items named ih =>
    obtain ⟨-, hnone, hall⟩ := Value.isJson_array.mp h
    obtain ⟨values, rfl⟩ := Value.exists_items hnone
    have hitems : ∀ w, some w ∈ values.map some → w.WellFormed := by
      cases hv with
      | array hitems => exact hitems
    have hvalues : ∀ w ∈ values, w.json.Proper ∧ w.json.rebuild enumerate = w.json := by
      intro w hw
      have hmem : some w ∈ values.map some := List.mem_map_of_mem hw
      exact ih w hmem (hitems w hmem) (hall w hmem)
    rw [Value.json, Value.jsonItems_map]
    refine ⟨.array (List.forall_mem_map.mpr fun w hw => (hvalues w hw).1), ?_⟩
    rw [Json.rebuild_array, List.map_map]
    exact congrArg Json.array (List.map_congr_left fun w hw => (hvalues w hw).2)
  | object properties ih =>
    rw [Value.isJson, Value.propertiesJson_iff] at h
    have hall : ∀ property ∈ properties, property.2.1 = true := fun property hproperty => (h property hproperty).1
    obtain ⟨hnodup, henumerate, hwell⟩ : (properties.map Prod.fst).Nodup ∧ enumerate properties = properties ∧
        ∀ property ∈ properties, property.2.2.WellFormed := by
      cases hv with
      | object hnodup henumerate hwell => exact ⟨hnodup, henumerate, hwell⟩
    have hvalues := fun property hproperty => ih property hproperty (hwell property hproperty) (h property hproperty).2
    rw [Value.json, Value.jsonFields_eq hall]
    refine ⟨.object ?_ (List.forall_mem_map.mpr fun property hproperty => (hvalues property hproperty).1), ?_⟩
    · rw [Fields.keys, List.map_map]
      exact hnodup
    · have hfields : (properties.map fun property => (property.1, property.2.2.json)).map (rebuildField enumerate) =
          properties.map fun property => (property.1, property.2.2.json) := by
        rw [List.map_map]
        refine List.map_congr_left fun property hproperty => ?_
        rw [Function.comp_apply, rebuildField, (hvalues property hproperty).2]
      have hsame := enumerate_map (f := fun property : Text × Bool × Value => (property.1, property.2.2.json)) (fun _ => rfl) properties
      rw [Json.rebuild_object, hfields, hsame, henumerate]

end OxScada.Js
