import OxScada.Edge.QueueFile

/-! A record that was written to the file of the durable queue comes back as it was, with its checksum, if JSON can say its data. -/

namespace OxScada.Edge
open OxScada.Bytes OxScada.Js OxScada.Runs

/-! ### What is written of a record -/

theorem toDigits_head (n : ℕ) : Nat.toDigits 10 n = ['0'] ∨ (Nat.toDigits 10 n).head? ≠ some '0' := by
  induction n using Nat.strongRecOn with
  | ind n ih =>
    by_cases hsmall : n < 10
    · rw [Nat.toDigits_of_lt_base hsmall]
      interval_cases n <;> decide
    · have hten : 10 ≤ n := by omega
      have hdigits := Nat.toDigits_of_base_le (by norm_num) hten
      rw [hdigits, List.head?_append_of_ne_nil _ Nat.toDigits_ne_nil]
      refine .inr ((ih (n / 10) (by omega)).resolve_left fun hzero => ?_)
      have hvalue := @Nat.ofDigitChars_ten_toDigits (n / 10)
      rw [hzero] at hvalue
      have hnone : n / 10 = 0 := hvalue.symm
      omega

theorem ofNat_digits (n : ℕ) : ∀ c ∈ (JsonNumber.ofNat n).text, c.isDigit = true :=
  fun _ hc => Nat.isDigit_of_mem_toDigits (by norm_num) (by norm_num) hc

theorem isNumberText_ofNat (n : ℕ) : isNumberText (JsonNumber.ofNat n).text = true := by
  have hdigits := ofNat_digits n
  have hhead : (JsonNumber.ofNat n).text = ['0'] ∨ (JsonNumber.ofNat n).text.head? ≠ some '0' := toDigits_head n
  have hne := (JsonNumber.ofNat n).nonempty
  generalize (JsonNumber.ofNat n).text = text at *
  have htake : text.takeWhile Char.isDigit = text := List.takeWhile_eq_self_iff.mpr hdigits
  have hdrop : text.dropWhile Char.isDigit = [] := List.dropWhile_eq_nil_iff.mpr hdigits
  have hminus : text.head? ≠ some '-' := by
    intro hfirst
    exact absurd (hdigits '-' (List.mem_of_head? hfirst)) (by decide)
  unfold isNumberText
  simp only [if_neg hminus, htake, hdrop]
  simpa [hne] using hhead

/-- `JSON.stringify` writes all the properties, as these fields. -/
def Written (properties : List (Text × Bool × Value)) (fields : Fields) : Prop :=
  (∀ property ∈ properties, property.2.1 = true ∧ property.2.2.isJson = true) ∧ properties.map (fun property => (property.1, property.2.2.json)) = fields

namespace Written
variable {properties properties' : List (Text × Bool × Value)} {fields fields' : Fields} {value : Value}

theorem nil : Written [] [] := ⟨fun _ h => absurd h List.not_mem_nil, rfl⟩

theorem cons (key : Text) (hvalue : value.isJson = true) (h : Written properties fields) : Written ((key, true, value) :: properties) ((key, value.json) :: fields) :=
  ⟨List.forall_mem_cons.mpr ⟨⟨rfl, hvalue⟩, h.1⟩, congrArg ((key, value.json) :: ·) h.2⟩

theorem append (h : Written properties fields) (h' : Written properties' fields') : Written (properties ++ properties') (fields ++ fields') := by
  refine ⟨fun property hproperty => ?_, by rw [List.map_append, h.2, h'.2]⟩
  exact (List.mem_append.mp hproperty).elim (h.1 property) (h'.1 property)

theorem optionalText (key : Text) (text : Option Text) : Written (optionalProperty key (text.map .string)) (optionalField key (text.map .string)) := by
  cases text with
  | none => exact nil
  | some text => exact cons key rfl nil

theorem object (h : Written properties fields) : (Value.object properties).isJson = true ∧ (Value.object properties).json = .object fields := by
  refine ⟨(Value.propertiesJson_iff properties).mpr h.1, ?_⟩
  rw [Value.json, Value.jsonFields_eq fun property hproperty => (h.1 property hproperty).1, h.2]

end Written

variable (version : FieldVersion)

def versionFields : Fields :=
  ("timestamp".toList, .string (toISOString (version.timestamp.getD 0))) :: optionalField "origin".toList (version.origin.map .string)

def versionField (entry : Text × FieldVersion) : Text × Json := (entry.1, .object (versionFields entry.2))

variable (record : QueuedRecord)

/-- What is written of a record that has been validated, but for its checksum. -/
def QueuedRecord.fields : Fields :=
  [("id".toList, .string record.id), ("timestamp".toList, .string (toISOString (record.timestamp.getD 0))), ("data".toList, record.data.json),
      ("attempts".toList, .number (JsonNumber.ofNat record.attempts))] ++
    optionalField "driverId".toList (record.driverId.map .string) ++ [("kind".toList, .string record.kind)] ++
    optionalField "origin".toList (record.origin.map .string) ++
    optionalField "fieldVersions".toList (record.fieldVersions.map fun versions => .object (versions.map versionField))

theorem versionProperties_written {versions : VersionMap} (h : ∀ entry ∈ versions, entry.2.timestamp.isSome = true) :
    ∃ properties, versions.mapM versionProperty = Except.ok (ε := EdgeError) properties ∧ Written properties (versions.map versionField) := by
  induction versions with
  | nil => exact ⟨[], rfl, .nil⟩
  | cons entry rest ih =>
    obtain ⟨path, timestamp, origin⟩ := entry
    obtain ⟨hfirst, hrest⟩ := List.forall_mem_cons.mp h
    obtain ⟨time, rfl⟩ : ∃ time, timestamp = some time := Option.isSome_iff_exists.mp hfirst
    obtain ⟨properties, hproperties, hwritten⟩ := ih hrest
    have hversion : Written (("timestamp".toList, true, .string (toISOString time)) :: optionalProperty "origin".toList (origin.map .string))
        (versionFields ⟨some time, origin⟩) := .cons _ rfl (.optionalText _ _)
    refine ⟨(path, true, .object (("timestamp".toList, true, .string (toISOString time)) :: optionalProperty "origin".toList (origin.map .string))) :: properties,
      ?_, ?_⟩
    · rw [List.mapM_cons, hproperties]
      rfl
    · have hcons := hwritten.cons path hversion.object.1
      rw [hversion.object.2] at hcons
      exact hcons

theorem payload_written {record : QueuedRecord} (htime : record.timestamp.isSome = true) (hdata : record.data.isJson = true)
    (hversions : ∀ versions, record.fieldVersions = some versions → ∀ entry ∈ versions, entry.2.timestamp.isSome = true) :
    ∃ properties, record.payload = .ok properties ∧ Written properties record.fields := by
  obtain ⟨id, timestamp, data, attempts, driverId, kind, origin, fieldVersions, checksum⟩ := record
  obtain ⟨time, rfl⟩ : ∃ time, timestamp = some time := Option.isSome_iff_exists.mp htime
  dsimp only at hdata hversions
  have hstart : Written [("id".toList, true, .string id), ("timestamp".toList, true, .string (toISOString time)), ("data".toList, true, data),
      ("attempts".toList, true, .number (JsonNumber.ofNat attempts))] _ := .cons _ rfl (.cons _ rfl (.cons _ hdata (.cons _ rfl .nil)))
  have hkind : Written [("kind".toList, true, .string kind)] _ := .cons _ rfl .nil
  have hnames := ((hstart.append (.optionalText "driverId".toList driverId)).append hkind).append (.optionalText "origin".toList origin)
  cases fieldVersions with
  | none => exact ⟨_, rfl, hnames.append .nil⟩
  | some versions =>
    obtain ⟨properties, hproperties, hwritten⟩ := versionProperties_written (hversions versions rfl)
    have hfield : Written [("fieldVersions".toList, true, .object properties)] [("fieldVersions".toList, .object (versions.map versionField))] := by
      have hcons := Written.nil.cons "fieldVersions".toList hwritten.object.1
      rw [hwritten.object.2] at hcons
      exact hcons
    refine ⟨_, ?_, hnames.append hfield⟩
    unfold QueuedRecord.payload
    dsimp only [dateValue]
    simp only [Option.mapM, hproperties]
    rfl

/-! ### The fields of a record -/

def presentFields (entries : List (Text × Option Json)) : Fields := entries.flatMap fun entry => optionalField entry.1 entry.2

theorem presentFields_keys (entries : List (Text × Option Json)) : (Fields.keys (presentFields entries)).Sublist (entries.map Prod.fst) := by
  induction entries with
  | nil => exact List.Sublist.refl _
  | cons entry rest ih =>
    obtain ⟨key, value⟩ := entry
    cases value with
    | none => exact ih.cons key
    | some j => exact ih.cons_cons key

theorem presentFields_get? {entries : List (Text × Option Json)} (hnodup : (entries.map Prod.fst).Nodup) {key : Text} {value : Option Json}
    (h : (key, value) ∈ entries) : Fields.get? (presentFields entries) key = value := by
  have hkeys : (Fields.keys (presentFields entries)).Nodup := (presentFields_keys entries).nodup hnodup
  cases value with
  | some j =>
    refine (Fields.get?_eq_some hkeys).mpr (List.mem_flatMap.mpr ⟨(key, some j), h, ?_⟩)
    exact List.mem_singleton_self _
  | none =>
    cases hget : Fields.get? (presentFields entries) key with
    | none => rfl
    | some j =>
      -- the entry with the value is the entry without one
      obtain ⟨⟨name, value⟩, hentry, hmem⟩ := List.mem_flatMap.mp (Fields.mem_of_get? hget)
      obtain ⟨v, hv, heq⟩ := List.mem_map.mp hmem
      obtain ⟨rfl, rfl⟩ := Prod.mk.inj heq
      have hsame := entry_unique hnodup h hentry
      rw [← hsame] at hv
      cases hv

namespace QueuedRecord

def entries : List (Text × Option Json) :=
  [("id".toList, some (.string record.id)), ("timestamp".toList, some (.string (toISOString (record.timestamp.getD 0)))),
    ("data".toList, some record.data.json), ("attempts".toList, some (.number (JsonNumber.ofNat record.attempts))),
    ("driverId".toList, record.driverId.map .string), ("kind".toList, some (.string record.kind)), ("origin".toList, record.origin.map .string),
    ("fieldVersions".toList, record.fieldVersions.map fun versions => .object (versions.map versionField))]

theorem fields_eq : record.fields = presentFields record.entries := by
  simp [fields, presentFields, entries, optionalField]

def allEntries : List (Text × Option Json) := record.entries ++ [("checksum".toList, some (.string record.checksum))]

def allFields : Fields := record.fields ++ [("checksum".toList, .string record.checksum)]

theorem allFields_eq : record.allFields = presentFields record.allEntries := by
  rw [allFields, fields_eq, allEntries, presentFields, presentFields, List.flatMap_append]
  rfl

theorem allEntries_nodup : (record.allEntries.map Prod.fst).Nodup := by
  have hnames : record.allEntries.map Prod.fst = ["id".toList, "timestamp".toList, "data".toList, "attempts".toList, "driverId".toList, "kind".toList,
      "origin".toList, "fieldVersions".toList, "checksum".toList] := rfl
  rw [hnames]
  decide

theorem allFields_nodup : (Fields.keys record.allFields).Nodup := by
  rw [allFields_eq]
  exact (presentFields_keys _).nodup (allEntries_nodup record)

theorem allFields_get? {key : Text} {value : Option Json} (h : (key, value) ∈ record.allEntries) : Fields.get? record.allFields key = value := by
  rw [allFields_eq]
  exact presentFields_get? (allEntries_nodup record) h

end QueuedRecord

/-! ### What is read -/

section Reading
variable {localeCompare : Text → Text → ℤ} {fields : Fields} (hnodup : fields.keys.Nodup) {key : Text}
include hnodup

theorem optionalText_reread {text : Option Text} (h : fields.get? key = text.map .string) : optionalText (fields.reread localeCompare) key = some text := by
  unfold optionalText
  rw [get?_reread hnodup, h]
  cases text <;> rfl

theorem readText_reread {text : Text} (h : fields.get? key = some (.string text)) : readText (fields.reread localeCompare) key = some text := by
  have hread : optionalText (fields.reread localeCompare) key = some (some text) := optionalText_reread hnodup h
  rw [readText, hread]
  rfl

theorem readNat_reread {n : ℕ} (h : fields.get? key = some (.number (JsonNumber.ofNat n))) : readNat (fields.reread localeCompare) key = some n := by
  have hdigits : (JsonNumber.ofNat n).text.all Char.isDigit = true := List.all_eq_true.mpr (ofNat_digits n)
  have hvalue : Nat.ofDigitChars 10 (JsonNumber.ofNat n).text 0 = n := Nat.ofDigitChars_ten_toDigits
  have hread : (some (Json.number (JsonNumber.ofNat n))).map (Json.reread localeCompare) = some (.number (JsonNumber.ofNat n)) := rfl
  unfold readNat
  rw [get?_reread hnodup, h, hread]
  dsimp only
  rw [if_pos hdigits, hvalue]

end Reading

theorem mapM_of_pure {m : Type → Type} [Monad m] [LawfulMonad m] {α β : Type} {f : α → m β} {g : α → β} {l : List α} (h : ∀ x ∈ l, f x = pure (g x)) :
    l.mapM f = pure (l.map g) := by
  induction l with
  | nil => exact List.mapM_nil
  | cons x rest ih =>
    obtain ⟨hx, hrest⟩ := List.forall_mem_cons.mp h
    rw [List.mapM_cons, hx, pure_bind, ih hrest, pure_bind, List.map_cons]

def rereadVersions (localeCompare : Text → Text → ℤ) (versions : VersionMap) : VersionMap := enumerate (sortEntries localeCompare versions)

theorem rereadVersions_perm (localeCompare : Text → Text → ℤ) (versions : VersionMap) : (rereadVersions localeCompare versions).Perm versions :=
  (enumerate_perm _).trans (sortEntries_perm versions)

def serializedVersion (entry : Text × FieldVersion) : Text × SerializedVersion :=
  (entry.1, ⟨toISOString (entry.2.timestamp.getD 0), entry.2.origin⟩)

section Versions
variable {localeCompare : Text → Text → ℤ}

theorem versionFields_eq : versionFields version =
    presentFields [("timestamp".toList, some (.string (toISOString (version.timestamp.getD 0)))), ("origin".toList, version.origin.map .string)] := by
  simp [versionFields, presentFields, optionalField]

theorem versionNames_nodup :
    ([("timestamp".toList, some (Json.string (toISOString (version.timestamp.getD 0)))), ("origin".toList, version.origin.map .string)].map Prod.fst).Nodup := by
  show ["timestamp".toList, "origin".toList].Nodup
  decide

theorem versionFields_nodup : (Fields.keys (versionFields version)).Nodup := by
  rw [versionFields_eq]
  exact (presentFields_keys _).nodup (versionNames_nodup version)

theorem ofField_reread (entry : Text × FieldVersion) :
    SerializedVersion.ofField (entry.1, (versionField entry).2.reread localeCompare) = some (serializedVersion entry) := by
  have hnodup := versionFields_nodup entry.2
  have hget : ∀ {key : Text} {value : Option Json}, (key, value) ∈ [("timestamp".toList, some (Json.string (toISOString (entry.2.timestamp.getD 0)))),
      ("origin".toList, entry.2.origin.map .string)] → Fields.get? (versionFields entry.2) key = value := by
    intro key value h
    rw [versionFields_eq]
    exact presentFields_get? (versionNames_nodup entry.2) h
  have htime := @readText_reread localeCompare _ hnodup _ _ (hget List.mem_cons_self)
  have horigin := @optionalText_reread localeCompare _ hnodup _ _ (hget (List.mem_cons_of_mem _ List.mem_cons_self))
  unfold SerializedVersion.ofField versionField
  dsimp only
  rw [reread_fields]
  dsimp only
  rw [htime, horigin]
  rfl

theorem readVersions_reread (record : QueuedRecord) : readVersions (record.allFields.reread localeCompare) =
    some (record.fieldVersions.map fun versions => (rereadVersions localeCompare versions).map serializedVersion) := by
  have hmem : ("fieldVersions".toList, record.fieldVersions.map fun versions => Json.object (versions.map versionField)) ∈ record.allEntries := by
    simp [QueuedRecord.allEntries, QueuedRecord.entries]
  have hget := record.allFields_get? hmem
  unfold readVersions
  rw [get?_reread record.allFields_nodup, hget]
  cases record.fieldVersions with
  | none => rfl
  | some versions =>
    have hobject : (some (Json.object (versions.map versionField))).map (Json.reread localeCompare) =
        some (.object ((rereadVersions localeCompare versions).map fun entry => (entry.1, (versionField entry).2.reread localeCompare))) :=
      congrArg some (@reread_object localeCompare FieldVersion versionField (fun _ => rfl) versions)
    let written : Text × FieldVersion → Text × Json := fun entry => (entry.1, (versionField entry).2.reread localeCompare)
    have hread : (rereadVersions localeCompare versions).mapM (SerializedVersion.ofField ∘ written) =
        pure ((rereadVersions localeCompare versions).map serializedVersion) := mapM_of_pure fun entry _ => ofField_reread entry
    rw [Option.map_some, hobject]
    dsimp only
    rw [List.mapM_map, hread]
    rfl

end Versions

/-! ### A record that is written and read -/

/-- A record that there is: a date has a time in range, and the versions are an object, in the order in which it enumerates its properties. -/
structure QueuedRecord.WellFormed (record : QueuedRecord) : Prop where
  data : record.data.WellFormed
  timestamp : ∀ time, record.timestamp = some time → |time| ≤ dateLimit
  nodup : ∀ versions, record.fieldVersions = some versions → (versions.map Prod.fst).Nodup
  enumerated : ∀ versions, record.fieldVersions = some versions → enumerate versions = versions
  dates : ∀ versions, record.fieldVersions = some versions → ∀ entry ∈ versions, ∀ time, entry.2.timestamp = some time → |time| ≤ dateLimit

section RoundTrip
variable {localeCompare : Text → Text → ℤ} {sha256Hex : Buffer → Text} {record back : QueuedRecord}

theorem versionFields_proper : (Json.object (versionFields version)).Proper := by
  refine .object (versionFields_nodup version) ?_
  unfold versionFields
  refine List.forall_mem_cons.mpr ⟨.string _, fun field hfield => ?_⟩
  obtain ⟨j, hj, rfl⟩ := List.mem_map.mp hfield
  obtain ⟨text, -, rfl⟩ := Option.map_eq_some_iff.mp (Option.mem_toList.mp hj)
  exact .string text

theorem allFields_proper (hwell : record.WellFormed) (hjson : record.data.isJson = true) : (Json.object record.allFields).Proper := by
  have hentries : ∀ entry ∈ record.allEntries, ∀ j, entry.2 = some j → j.Proper := by
    have hdata := (hwell.data.json hjson).1
    have hversions : ∀ versions, record.fieldVersions = some versions → (Json.object (versions.map versionField)).Proper := by
      intro versions hversions
      refine .object ?_ (List.forall_mem_map.mpr fun entry _ => versionFields_proper entry.2)
      rw [Fields.keys, List.map_map]
      exact hwell.nodup versions hversions
    simp only [QueuedRecord.allEntries, QueuedRecord.entries, List.cons_append, List.nil_append, List.forall_mem_cons, Option.some.injEq, forall_eq']
    refine ⟨.string _, .string _, hdata, .number _ (isNumberText_ofNat _), fun j hj => ?_, .string _, fun j hj => ?_, fun j hj => ?_, .string _,
      fun entry hentry => absurd hentry List.not_mem_nil⟩
    · obtain ⟨text, -, rfl⟩ := Option.map_eq_some_iff.mp hj
      exact .string text
    · obtain ⟨text, -, rfl⟩ := Option.map_eq_some_iff.mp hj
      exact .string text
    · obtain ⟨versions, hsome, rfl⟩ := Option.map_eq_some_iff.mp hj
      exact hversions versions hsome
  refine .object record.allFields_nodup fun field hfield => ?_
  rw [QueuedRecord.allFields_eq] at hfield
  obtain ⟨entry, hentry, hmem⟩ := List.mem_flatMap.mp hfield
  obtain ⟨j, hj, rfl⟩ := List.mem_map.mp hmem
  exact hentries entry hentry j (Option.mem_toList.mp hj)

theorem ofJson_reread {origin : Text} (horigin : record.origin = some origin) :
    SerializedRecord.ofJson ((Json.object record.allFields).reread localeCompare) = some
      { id := record.id
        timestamp := toISOString (record.timestamp.getD 0)
        data := record.data.json.reread localeCompare
        attempts := record.attempts
        driverId := record.driverId
        kind := record.kind
        origin := origin
        fieldVersions := record.fieldVersions.map fun versions => (rereadVersions localeCompare versions).map serializedVersion
        checksum := record.checksum } := by
  have hnodup := record.allFields_nodup
  have hget : ∀ {key : Text} {value : Option Json}, (key, value) ∈ record.allEntries → Fields.get? record.allFields key = value :=
    fun h => record.allFields_get? h
  have htext : ∀ {key text : Text}, (key, some (.string text)) ∈ record.allEntries → readText (record.allFields.reread localeCompare) key = some text :=
    fun h => readText_reread hnodup (hget h)
  have hid : readText (record.allFields.reread localeCompare) "id".toList = some record.id :=
    htext (by simp [QueuedRecord.allEntries, QueuedRecord.entries])
  have htime : readText (record.allFields.reread localeCompare) "timestamp".toList = some (toISOString (record.timestamp.getD 0)) :=
    htext (by simp [QueuedRecord.allEntries, QueuedRecord.entries])
  have hdata : Fields.get? (record.allFields.reread localeCompare) "data".toList = some (record.data.json.reread localeCompare) := by
    have hmem : ("data".toList, some record.data.json) ∈ record.allEntries := by simp [QueuedRecord.allEntries, QueuedRecord.entries]
    rw [get?_reread hnodup, hget hmem]
    rfl
  have hattempts : readNat (record.allFields.reread localeCompare) "attempts".toList = some record.attempts :=
    readNat_reread hnodup (hget (by simp [QueuedRecord.allEntries, QueuedRecord.entries]))
  have hdriver : optionalText (record.allFields.reread localeCompare) "driverId".toList = some record.driverId :=
    optionalText_reread hnodup (hget (by simp [QueuedRecord.allEntries, QueuedRecord.entries]))
  have hkind : readText (record.allFields.reread localeCompare) "kind".toList = some record.kind :=
    htext (by simp [QueuedRecord.allEntries, QueuedRecord.entries])
  have hplace : readText (record.allFields.reread localeCompare) "origin".toList = some origin :=
    htext (by simp [QueuedRecord.allEntries, QueuedRecord.entries, horigin])
  have hversions := @readVersions_reread localeCompare record
  have hchecksum : readText (record.allFields.reread localeCompare) "checksum".toList = some record.checksum :=
    htext (by simp [QueuedRecord.allEntries, QueuedRecord.entries])
  rw [reread_fields, SerializedRecord.ofJson, hid, htime, hdata, hattempts, hdriver, hkind, hplace, hversions, hchecksum]
  rfl

def QueuedRecord.reread (localeCompare : Text → Text → ℤ) (record : QueuedRecord) : QueuedRecord :=
  { record with
    data := (record.data.json.reread localeCompare).value
    fieldVersions := record.fieldVersions.map (rereadVersions localeCompare) }

theorem reread_isJson (record : QueuedRecord) : (record.reread localeCompare).data.isJson = true := isJson_value _

theorem validate_reread (hvalid : record.validate = .ok ()) (hjson : record.data.isJson = true) : (record.reread localeCompare).validate = .ok () := by
  obtain ⟨hid, hattempts, hkind, horigin, hchecksum, htime, hsafe, hobject, hversions⟩ := validate_ok.mp hvalid
  refine validate_ok.mpr ⟨hid, hattempts, hkind, horigin, hchecksum, htime, ?_, fun hconfiguration => ?_, fun versions hsome entry hentry => ?_⟩
  · rw [assertValueSafe_json hjson] at hsafe
    rw [assertValueSafe_json (reread_isJson record), QueuedRecord.reread, json_value]
    have hsorted := @assertJsonSafe_rebuild (sortEntries localeCompare) sortEntries_perm _ _ hsafe "$.data".toList
    exact assertJsonSafe_rebuild enumerate_perm hsorted _
  · obtain ⟨⟨properties, hproperties⟩, hvisit⟩ := hobject hconfiguration
    rw [validateConfigurationValue_json hjson] at hvisit
    rw [validateConfigurationValue_json (reread_isJson record), QueuedRecord.reread, json_value]
    have hread : (record.data.json.reread localeCompare).value = .object (Json.propertyValues ((Value.jsonFields properties).reread localeCompare)) := by
      rw [hproperties, Value.json, reread_fields, Json.value]
    exact ⟨⟨_, hread⟩, validateConfigurationObject_rebuild enumerate_perm (validateConfigurationObject_rebuild sortEntries_perm hvisit)⟩
  · obtain ⟨written, hwritten, rfl⟩ := Option.map_eq_some_iff.mp hsome
    exact hversions written hwritten entry ((rereadVersions_perm localeCompare written).mem_iff.mp hentry)

theorem timestamps_of_valid (hvalid : record.validate = .ok ()) : record.timestamp.isSome = true ∧
    ∀ versions, record.fieldVersions = some versions → ∀ entry ∈ versions, entry.2.timestamp.isSome = true := by
  obtain ⟨-, -, -, -, -, htime, -, -, hversions⟩ := validate_ok.mp hvalid
  exact ⟨htime, fun versions hsome entry hentry => (hversions versions hsome entry hentry).2.1⟩

theorem hash_eq (hvalid : record.validate = .ok ()) (hjson : record.data.isJson = true) :
    record.hash localeCompare sha256Hex = .ok (sha256Hex (utf8 (canonicalJson localeCompare (.object record.fields)))) := by
  obtain ⟨htime, hversions⟩ := timestamps_of_valid hvalid
  obtain ⟨properties, hproperties, hwritten⟩ := payload_written htime hjson hversions
  obtain ⟨hobject, hfields⟩ := hwritten.object
  rw [QueuedRecord.hash, hproperties, ← hfields, ← canonicalJson_json localeCompare hobject]
  rfl

theorem sort_rereadVersions (hcompare : Compares localeCompare) {versions : VersionMap} (henumerate : enumerate versions = versions) :
    (Json.object ((rereadVersions localeCompare versions).map versionField)).rebuild (sortEntries localeCompare) =
      (Json.object (versions.map versionField)).rebuild (sortEntries localeCompare) := by
  have hsort : ∀ entries : VersionMap, sortEntries localeCompare (entries.map (rebuildField (sortEntries localeCompare) ∘ versionField)) =
      (sortEntries localeCompare entries).map (rebuildField (sortEntries localeCompare) ∘ versionField) :=
    fun entries => sortEntries_map localeCompare (f := rebuildField (sortEntries localeCompare) ∘ versionField) (fun _ => rfl) entries
  rw [Json.rebuild_object, Json.rebuild_object, List.map_map, List.map_map, hsort, hsort, rereadVersions, sortEntries_enumerate hcompare henumerate]

theorem hash_reread (hcompare : Compares localeCompare) (hwell : record.WellFormed) (hvalid : record.validate = .ok ()) (hjson : record.data.isJson = true) :
    (record.reread localeCompare).hash localeCompare sha256Hex = record.hash localeCompare sha256Hex := by
  have hdata : (record.reread localeCompare).data.json.rebuild (sortEntries localeCompare) = record.data.json.rebuild (sortEntries localeCompare) := by
    rw [QueuedRecord.reread, json_value, sort_read hcompare (hwell.data.json hjson).2]
  have hfields : (record.reread localeCompare).fields.map (rebuildField (sortEntries localeCompare)) =
      record.fields.map (rebuildField (sortEntries localeCompare)) := by
    have hversions := fun versions hsome => sort_rereadVersions hcompare (hwell.enumerated versions hsome)
    unfold QueuedRecord.fields
    simp only [List.map_append, List.map_cons, rebuildField, hdata]
    simp only [QueuedRecord.reread]
    cases hsome : record.fieldVersions with
    | none => rfl
    | some versions => simp only [Option.map_some, optionalField, Option.toList_some, List.map_cons, List.map_nil, rebuildField, hversions versions hsome]
  rw [hash_eq (validate_reread hvalid hjson) (reread_isJson record), hash_eq hvalid hjson, canonicalJson_eq, canonicalJson_eq, Json.rebuild_object,
    Json.rebuild_object, hfields]

theorem deserialize_reread (hwell : record.WellFormed) (hvalid : record.validate = .ok ()) (hjson : record.data.isJson = true) {origin : Text}
    (horigin : record.origin = some origin) {serialized : SerializedRecord}
    (hread : SerializedRecord.ofJson ((Json.object record.allFields).reread localeCompare) = some serialized) :
    deserializeRecord serialized = .ok (record.reread localeCompare) := by
  rw [ofJson_reread horigin] at hread
  obtain rfl := Option.some.inj hread
  obtain ⟨hid, -, hkind, hmissing, hchecksum, htime, -, -, -⟩ := validate_ok.mp hvalid
  obtain ⟨time, htime⟩ := Option.isSome_iff_exists.mp htime
  have hdate : parseDate (toISOString (record.timestamp.getD 0)) = record.timestamp := by
    rw [htime]
    exact parseDate_toISOString (hwell.timestamp time htime)
  have hpresent : ¬ (record.id = [] ∨ record.checksum = [] ∨ record.kind = [] ∨ origin = []) := by
    rintro (hnil | hnil | hnil | hnil)
    · rw [hnil] at hid
      cases hid
    · rw [hnil] at hchecksum
      cases hchecksum
    · rw [hnil] at hkind
      exact absurd hkind (by decide)
    · rw [horigin, hnil] at hmissing
      cases hmissing
  have hversions : (record.fieldVersions.map fun versions => (rereadVersions localeCompare versions).map serializedVersion).mapM
      (fun versions => versions.mapM (SerializedVersion.deserialize record.id)) =
        Except.ok (record.fieldVersions.map (rereadVersions localeCompare)) := by
    cases hsome : record.fieldVersions with
    | none => rfl
    | some versions =>
      have hentry : ∀ entry ∈ rereadVersions localeCompare versions, (SerializedVersion.deserialize record.id ∘ serializedVersion) entry = pure (id entry) := by
        intro entry hentry
        have hmem := (rereadVersions_perm localeCompare versions).mem_iff.mp hentry
        obtain ⟨fieldTime, hfieldTime⟩ := Option.isSome_iff_exists.mp ((timestamps_of_valid hvalid).2 versions hsome entry hmem)
        have hfieldDate := parseDate_toISOString (hwell.dates versions hsome entry hmem fieldTime hfieldTime)
        obtain ⟨path, _, place⟩ := entry
        obtain rfl : _ = some fieldTime := hfieldTime
        unfold Function.comp SerializedVersion.deserialize serializedVersion
        dsimp only [Option.getD_some]
        rw [hfieldDate]
        rfl
      have hall : ((rereadVersions localeCompare versions).map serializedVersion).mapM (SerializedVersion.deserialize record.id) =
          Except.ok (rereadVersions localeCompare versions) := by
        rw [List.mapM_map, mapM_of_pure hentry, List.map_id]
        rfl
      rw [Option.map_some, Option.map_some]
      simp only [Option.mapM, hall]
      rfl
  have haccepted := @validate_reread localeCompare record hvalid hjson
  unfold QueuedRecord.reread at haccepted ⊢
  rw [horigin] at haccepted ⊢
  unfold deserializeRecord
  dsimp only
  rw [if_neg hpresent, hdate, htime, if_neg (by simp), hversions]
  rw [htime] at haccepted
  exact congrArg (· >>= fun _ => _) haccepted

theorem reload_data (h : reload localeCompare record = .ok back) : ∃ j : Json, back.data = j.value := by
  have hdeserialize : ∀ {serialized : SerializedRecord}, deserializeRecord serialized = .ok back → back.data = serialized.data.value := by
    intro serialized h
    unfold deserializeRecord at h
    rw [ite_fail_ok, ite_fail_ok] at h
    obtain ⟨-, -, h⟩ := h
    obtain ⟨versions, -, h⟩ := bind_ok.mp h
    obtain ⟨-, -, h⟩ := bind_ok.mp h
    cases h
    rfl
  unfold reload at h
  split at h
  · cases h
  · split at h
    · cases h
    · split at h
      · cases h
      · rename_i serialized _
        cases hback : deserializeRecord serialized with
        | error error =>
          rw [hback] at h
          cases h
        | ok found =>
          rw [hback] at h
          obtain rfl : found = back := Except.ok.inj h
          exact ⟨_, hdeserialize hback⟩

theorem reload_reread (hwell : record.WellFormed) (hvalid : record.validate = .ok ()) (hjson : record.data.isJson = true) :
    reload localeCompare record = .ok (record.reread localeCompare) := by
  obtain ⟨htime, hversions⟩ := timestamps_of_valid hvalid
  obtain ⟨properties, hproperties, hwritten⟩ := payload_written htime hjson hversions
  have hall : Written (properties ++ [("checksum".toList, true, .string record.checksum)]) record.allFields := hwritten.append (.cons _ rfl .nil)
  obtain ⟨hobject, hfields⟩ := hall.object
  have hserialize : serializeRecord record = .ok (.object (properties ++ [("checksum".toList, true, .string record.checksum)])) := by
    rw [serializeRecord, hvalid, clone_json hjson, hproperties]
    rfl
  have hparse : parse ((Value.object (properties ++ [("checksum".toList, true, .string record.checksum)])).canonicalJson localeCompare) =
      some ((Json.object record.allFields).reread localeCompare) := by
    rw [canonicalJson_json localeCompare hobject, hfields, parse_reread (allFields_proper hwell hjson)]
  obtain ⟨-, -, -, hmissing, -⟩ := validate_ok.mp hvalid
  obtain ⟨origin, horigin, -⟩ := isMissing_eq_false.mp hmissing
  have hread := @ofJson_reread localeCompare record origin horigin
  have hback := deserialize_reread hwell hvalid hjson horigin hread
  unfold reload
  rw [hserialize]
  dsimp only
  rw [hparse]
  dsimp only
  rw [hread]
  dsimp only
  rw [hback]
  rfl

theorem same_reread (hwell : record.WellFormed) (hjson : record.data.isJson = true) : record.Same (record.reread localeCompare) where
  id := rfl
  timestamp := rfl
  data := same_value.mpr ⟨hjson, congrArg Json.value (ordered_reread (hwell.data.json hjson).1).symm⟩
  attempts := rfl
  driverId := rfl
  kind := rfl
  origin := rfl
  fieldVersions := by
    unfold QueuedRecord.reread
    cases record.fieldVersions with
    | none => exact .none
    | some versions => exact .some (rereadVersions_perm localeCompare versions).symm
  checksum := rfl

/-- An accepted record with its checksum comes back from the queue as it was, and with its checksum, if and only if its data are what
JSON can say. -/
theorem reload_same_iff (hcompare : Compares localeCompare) (hwell : record.WellFormed) (hvalid : record.validate = .ok ())
    (hchecksum : record.hash localeCompare sha256Hex = .ok record.checksum) :
    (∃ back, reload localeCompare record = .ok back ∧ record.Same back ∧ back.assertIntegrity localeCompare sha256Hex = .ok ()) ↔
      record.data.isJson = true := by
  constructor
  · intro ⟨back, hreload, hsame, _⟩
    obtain ⟨j, hj⟩ := reload_data hreload
    have hdata := hsame.data
    rw [hj] at hdata
    exact (same_value.mp hdata).1
  · intro hjson
    refine ⟨record.reread localeCompare, reload_reread hwell hvalid hjson, same_reread hwell hjson, ?_⟩
    have hsum := (@hash_reread localeCompare sha256Hex record hcompare hwell hvalid hjson).trans hchecksum
    rw [QueuedRecord.assertIntegrity, validate_reread hvalid hjson, hsum]
    exact if_neg (not_not.mpr rfl)

end RoundTrip

/-- A configuration with an index for a property, and a negative zero. -/
def edgeRecord : QueuedRecord where
  id := "r".toList
  timestamp := some 0
  data := .object [("10".toList, true, .array [some (.bool true)] false), ("b".toList, true, .negativeZero)]
  attempts := 0
  driverId := none
  kind := EdgeRecordKind.configuration.text
  origin := some "edge".toList
  fieldVersions := some [("b".toList, ⟨some 5, some "edge".toList⟩)]
  checksum := "c70d9c366f8cadefe79332c5f68ae3935dba88e65614c1a6a72359d023754028".toList

theorem edgeRecord_wellFormed : edgeRecord.WellFormed where
  data := by
    refine .object (by decide) rfl (List.forall_mem_cons.mpr ⟨.array fun v hv => ?_, List.forall_mem_cons.mpr ⟨.negativeZero, by simp⟩⟩)
    obtain rfl : v = .bool true := by simpa using hv
    exact .bool true
  timestamp := by
    rintro time ⟨⟩
    decide
  nodup := by
    rintro versions ⟨⟩
    decide
  enumerated := by
    rintro versions ⟨⟩
    decide
  dates := by
    rintro versions ⟨⟩ entry hentry time htime
    obtain rfl := List.mem_singleton.mp hentry
    obtain rfl := Option.some.inj htime
    decide

theorem reload_same_iff_configuration :
    (∃ back, reload orderCompare edgeRecord = .ok back ∧ edgeRecord.Same back ∧
        back.assertIntegrity orderCompare (fun _ => edgeRecord.checksum) = .ok ()) ↔ edgeRecord.data.isJson = true :=
  reload_same_iff compares_orderCompare edgeRecord_wellFormed (by decide +kernel) (by decide +kernel)

/-- A record with an array that lacks its first element, as `[, true]` does. -/
def sparseRecord : QueuedRecord where
  id := "r".toList
  timestamp := some 0
  data := .array [none, some (.bool true)] false
  attempts := 0
  driverId := none
  kind := EdgeRecordKind.telemetry.text
  origin := some "edge".toList
  fieldVersions := none
  checksum := "7190bb7e2f16830e015aa0ef1f6301bed23409f1a66277d8c82ec44374c24efe".toList

theorem sparseRecord_wellFormed : sparseRecord.WellFormed where
  data := by
    refine .array fun v hv => ?_
    obtain rfl : v = .bool true := by simpa using hv
    exact .bool true
  timestamp := by
    rintro time ⟨⟩
    decide
  nodup := by rintro versions ⟨⟩
  enumerated := by rintro versions ⟨⟩
  dates := by rintro versions ⟨⟩

/-- A record is accepted with its checksum, and the text that it is written as is not read. -/
theorem reload_sparse : sparseRecord.WellFormed ∧ sparseRecord.validate = .ok () ∧
    sparseRecord.hash orderCompare (fun _ => sparseRecord.checksum) = .ok sparseRecord.checksum ∧ ¬ ∃ back, reload orderCompare sparseRecord = .ok back := by
  refine ⟨sparseRecord_wellFormed, by decide +kernel, by decide +kernel, ?_⟩
  intro ⟨back, hback⟩
  have hfails : (reload orderCompare sparseRecord).isOk = false := by decide +kernel
  rw [hback] at hfails
  cases hfails

end OxScada.Edge
