import OxScada.Js.Integers
import OxScada.Js.Schema

/-! Register maps: which tag is at which address, and how its value is laid out in registers. A map that
is built has no two entries at one address. -/

namespace OxScada.Modbus
open OxScada.Bytes OxScada.Js Float.Model

inductive RegisterArea where
  | coil | discreteInput | holdingRegister | inputRegister
  deriving DecidableEq

inductive ModbusDataType where
  | bool | uint16 | int16 | uint32 | int32 | float32
  deriving DecidableEq

inductive WordOrder where
  | big | little
  deriving DecidableEq

structure RegisterMapEntry where
  tagId : Text
  area : RegisterArea
  address : ℕ
  dataType : ModbusDataType
  scale : Option Float := none
  wordOrder : Option WordOrder := none
  writable : Bool := false
  deriving DecidableEq

structure RegisterMapConfig where
  siteId : Text
  unitId : ℕ := 1
  entries : List RegisterMapEntry
  deriving DecidableEq

def RegisterArea.text : RegisterArea → Text
  | .coil => "coil".toList
  | .discreteInput => "discreteInput".toList
  | .holdingRegister => "holdingRegister".toList
  | .inputRegister => "inputRegister".toList

def ModbusDataType.text : ModbusDataType → Text
  | .bool => "bool".toList
  | .uint16 => "uint16".toList
  | .int16 => "int16".toList
  | .uint32 => "uint32".toList
  | .int32 => "int32".toList
  | .float32 => "float32".toList

def WordOrder.text : WordOrder → Text
  | .big => "big".toList
  | .little => "little".toList

/-! ### Schemas -/

open Schema

def registerMapEntrySchema : Schema RegisterMapEntry := fun value => do
  let fields ← object value
  let tagId ← required fields "tagId".toList nonempty
  let area ← required fields "area".toList (enum [.coil, .discreteInput, .holdingRegister, .inputRegister] RegisterArea.text)
  let address ← required fields "address".toList (intBetween 0 0xffff)
  let dataType ← required fields "dataType".toList (enum [.bool, .uint16, .int16, .uint32, .int32, .float32] ModbusDataType.text)
  let scale ← optional fields "scale".toList number
  let wordOrder ← optional fields "wordOrder".toList (enum [.big, .little] WordOrder.text)
  let writable ← optional fields "writable".toList boolean
  return { tagId, area, address, dataType, scale, wordOrder, writable := writable.getD false }

def registerMapSchema : Schema RegisterMapConfig := fun value => do
  let fields ← object value
  let siteId ← required fields "siteId".toList nonempty
  let unitId ← optional fields "unitId".toList (intBetween 0 255)
  let entries ← required fields "entries".toList (arrayOf registerMapEntrySchema)
  return { siteId, unitId := unitId.getD 1, entries }

/-! ### Maps -/

def registerWidth : ModbusDataType → ℕ
  | .bool => 0
  | .uint16 | .int16 => 1
  | .uint32 | .int32 | .float32 => 2

def RegisterArea.isBitArea : RegisterArea → Bool
  | .coil | .discreteInput => true
  | .holdingRegister | .inputRegister => false

def RegisterMapEntry.width (entry : RegisterMapEntry) : ℕ := if entry.area.isBitArea then 1 else registerWidth entry.dataType

inductive RegisterMapError where
  | schema
  | mustUseBool (area : RegisterArea) (address : ℕ)
  | cannotUseBool (area : RegisterArea) (address : ℕ)
  | duplicate (area : RegisterArea) (address : ℕ)
  | overlapping (area : RegisterArea) (address : ℕ)
  deriving DecidableEq

def RegisterMapError.message : RegisterMapError → String
  | schema => ""
  | mustUseBool area address => s!"Entry {String.ofList area.text}:{address} must use dataType \"bool\""
  | cannotUseBool area address => s!"Entry {String.ofList area.text}:{address} (register area) cannot use dataType \"bool\""
  | duplicate area address => s!"Duplicate Modbus entry at {String.ofList area.text}:{address}"
  | overlapping area address => s!"Overlapping Modbus entries at {String.ofList area.text}:{address}"

abbrev AddressMap := RegisterArea × ℕ → Option RegisterMapEntry

structure RegisterMap where
  siteId : Text
  unitId : ℕ
  entries : List RegisterMapEntry
  byStart : AddressMap
  byOccupied : AddressMap

def assertEntryConsistent (entry : RegisterMapEntry) : Except RegisterMapError Unit :=
  if entry.area.isBitArea ∧ entry.dataType ≠ .bool then .error (.mustUseBool entry.area entry.address)
  else if ¬entry.area.isBitArea ∧ entry.dataType = .bool then .error (.cannotUseBool entry.area entry.address)
  else .ok ()

/-- The loop over the addresses of an entry that are left, from the one at `i` on. -/
def occupy (entry : RegisterMapEntry) (i : ℕ) (byOccupied : AddressMap) : ℕ → Except RegisterMapError AddressMap
  | 0 => .ok byOccupied
  | left + 1 =>
    let key := (entry.area, entry.address + i)
    if (byOccupied key).isSome then .error (.overlapping entry.area (entry.address + i))
    else occupy entry (i + 1) (Function.update byOccupied key (some entry)) left

def indexEntries (byStart byOccupied : AddressMap) : List RegisterMapEntry → Except RegisterMapError (AddressMap × AddressMap)
  | [] => .ok (byStart, byOccupied)
  | entry :: rest =>
    match assertEntryConsistent entry with
    | .error e => .error e
    | .ok () =>
      let startKey := (entry.area, entry.address)
      if (byStart startKey).isSome then .error (.duplicate entry.area entry.address)
      else
        match occupy entry 0 byOccupied entry.width with
        | .error e => .error e
        | .ok byOccupied => indexEntries (Function.update byStart startKey (some entry)) byOccupied rest

namespace RegisterMap

def fromConfig (raw : Untrusted) : Except RegisterMapError RegisterMap :=
  match registerMapSchema raw with
  | none => .error .schema
  | some config =>
    match indexEntries (fun _ => none) (fun _ => none) config.entries with
    | .error e => .error e
    | .ok (byStart, byOccupied) => .ok ⟨config.siteId, config.unitId, config.entries, byStart, byOccupied⟩

def entryStartingAt (map : RegisterMap) (area : RegisterArea) (address : ℕ) : Option RegisterMapEntry := map.byStart (area, address)

def entryOccupying (map : RegisterMap) (area : RegisterArea) (address : ℕ) : Option RegisterMapEntry := map.byOccupied (area, address)

def rangeIsFullyMapped (map : RegisterMap) (area : RegisterArea) (address quantity : ℕ) : Bool :=
  (List.range quantity).all fun i => (map.byOccupied (area, address + i)).isSome

end RegisterMap

/-! ### Values in registers -/

inductive Rounded where
  | notANumber
  | infinity (negative : Bool)
  | integer (n : ℤ)
  deriving DecidableEq

def mathRound (value : Float) : Rounded :=
  match value.toModel.unpack with
  | .notANumber => .notANumber
  | .infinity .positive => .infinity false
  | .infinity .negative => .infinity true
  | .zero _ => .integer 0
  | .finite sign mantissa exponent _ =>
    -- The number is `m / 2 ^ d`, with `d` zero unless the exponent is negative.
    let m := sign.apply (mantissa * 2 ^ exponent.toNat : ℕ)
    let d := (-exponent).toNat
    .integer ((2 * m + 2 ^ d) / 2 ^ (d + 1))

/-- The low bits of a number, as `& 0xffff` and `>>> 0` take them. -/
def Rounded.lowBits (bits : ℕ) : Rounded → ℕ
  | .integer n => (n % 2 ^ bits).toNat
  | _ => 0

def Rounded.clampInt (low high : ℤ) : Rounded → ℤ
  | .notANumber => 0
  | .infinity negative => if negative then low else high
  | .integer n => max low (min high n)

/-- What `writeUInt32BE` and `writeInt32BE` leave for `splitWords`. -/
def splitWords (octets : ℕ) (wordOrder : WordOrder) : List ℕ :=
  match wordOrder with
  | .big => [octets / 2 ^ 16, octets % 2 ^ 16]
  | .little => [octets % 2 ^ 16, octets / 2 ^ 16]

def joinWords (words : List ℕ) (wordOrder : WordOrder) : ℕ :=
  let first := words.getD 0 0 % 2 ^ 16
  let second := words.getD 1 0 % 2 ^ 16
  match wordOrder with
  | .big => first * 2 ^ 16 + second
  | .little => second * 2 ^ 16 + first

def unsigned (bits : ℕ) (n : ℤ) : ℕ := (n % 2 ^ bits).toNat

def signed (bits n : ℕ) : ℤ := if n < 2 ^ (bits - 1) then n else n - 2 ^ bits

variable (entry : RegisterMapEntry)

def RegisterMapEntry.scaled (op : Float → Float → Float) (value : Float) : Float :=
  match entry.scale with
  | none => value
  | some scale => if scale.isNaN || scale == 0 then value else op value scale

/-- The register words of a value. An entry for a bit has none, and throws. -/
def encodeValueToRegisters (value : Float) : Option (List ℕ) :=
  let scaled := entry.scaled (· / ·) value
  let wordOrder := entry.wordOrder.getD .big
  match entry.dataType with
  | .uint16 => some [(mathRound scaled).lowBits 16]
  | .int16 => some [unsigned 16 ((mathRound scaled).clampInt (-0x8000) 0x7fff)]
  | .uint32 => some (splitWords ((mathRound scaled).lowBits 32) wordOrder)
  | .int32 => some (splitWords (unsigned 32 ((mathRound scaled).clampInt (-0x80000000) 0x7fffffff)) wordOrder)
  | .float32 => some (splitWords (readUIntLE (writeFloatLE scaled)) wordOrder)
  | .bool => none

def decodeRegistersToValue (words : List ℕ) : Option Float :=
  let wordOrder := entry.wordOrder.getD .big
  let raw : Option Float :=
    match entry.dataType with
    | .uint16 => some (ofInteger (words.getD 0 0 % 2 ^ 16 : ℕ))
    | .int16 => some (ofInteger (signed 16 (words.getD 0 0 % 2 ^ 16)))
    | .uint32 => some (ofInteger (joinWords words wordOrder : ℕ))
    | .int32 => some (ofInteger (signed 32 (joinWords words wordOrder)))
    | .float32 => some (readFloatLE (writeUIntLE 4 (joinWords words wordOrder)))
    | .bool => none
  raw.map (entry.scaled (· * ·))

example : encodeValueToRegisters ⟨['t'], .holdingRegister, 0, .int32, none, some .little, true⟩ (-2.5) = some [65534, 65535] := by decide +kernel

/-! ### What a map finds -/

variable {entry other : RegisterMapEntry} {area : RegisterArea} {a i left : ℕ} {done entries : List RegisterMapEntry}
  {byStart byOccupied after : AddressMap} {map : RegisterMap} {raw : Untrusted}

def RegisterMapEntry.Occupies (entry : RegisterMapEntry) (area : RegisterArea) (a : ℕ) : Prop :=
  entry.area = area ∧ entry.address ≤ a ∧ a < entry.address + entry.width

def RegisterMapEntry.Consistent (entry : RegisterMapEntry) : Prop := entry.area.isBitArea ↔ entry.dataType = .bool

structure Indexed (byStart byOccupied : AddressMap) (entries : List RegisterMapEntry) : Prop where
  starts : ∀ area a entry, byStart (area, a) = some entry ↔ entry ∈ entries ∧ entry.area = area ∧ entry.address = a
  occupied : ∀ area a entry, byOccupied (area, a) = some entry ↔ entry ∈ entries ∧ entry.Occupies area a
  consistent : ∀ entry ∈ entries, entry.Consistent

theorem RegisterMapEntry.Consistent.width_pos (h : entry.Consistent) : 0 < entry.width := by
  unfold RegisterMapEntry.width
  split_ifs with harea
  · exact Nat.one_pos
  · have hbool : entry.dataType ≠ .bool := fun htype => harea (h.mpr htype)
    revert hbool
    cases entry.dataType <;> decide

theorem assertEntryConsistent_ok (h : assertEntryConsistent entry = .ok ()) : entry.Consistent := by
  unfold assertEntryConsistent at h
  split_ifs at h with hbits hregisters
  unfold RegisterMapEntry.Consistent
  by_cases harea : entry.area.isBitArea
  · simpa [harea] using hbits
  · simpa [harea] using hregisters

theorem occupy_ok (h : occupy entry i byOccupied left = .ok after) (area : RegisterArea) (a : ℕ) :
    (entry.area = area ∧ entry.address + i ≤ a ∧ a < entry.address + i + left → byOccupied (area, a) = none ∧ after (area, a) = some entry) ∧
      (¬(entry.area = area ∧ entry.address + i ≤ a ∧ a < entry.address + i + left) → after (area, a) = byOccupied (area, a)) := by
  induction left generalizing i byOccupied with
  | zero =>
    obtain rfl := Except.ok.inj h
    refine ⟨fun hin => ?_, fun _ => rfl⟩
    omega
  | succ left ih =>
    rw [occupy] at h
    split_ifs at h with hfree
    obtain ⟨hin, hout⟩ := ih h
    have hnone : byOccupied (entry.area, entry.address + i) = none := Option.not_isSome_iff_eq_none.mp hfree
    by_cases hkey : (area, a) = (entry.area, entry.address + i)
    · obtain ⟨rfl, rfl⟩ := Prod.mk.inj hkey
      have hafter := hout (by omega)
      rw [Function.update_self] at hafter
      exact ⟨fun _ => ⟨hnone, hafter⟩, fun hnot => absurd ⟨rfl, le_rfl, by omega⟩ hnot⟩
    · rw [Function.update_of_ne hkey] at hin hout
      have hne : entry.area = area → a ≠ entry.address + i := by
        rintro rfl rfl
        exact hkey rfl
      refine ⟨fun ⟨harea, hle, hlt⟩ => ?_, fun hnot => ?_⟩
      · have hother := hne harea
        exact hin ⟨harea, by omega, by omega⟩
      · exact hout fun ⟨harea, hle, hlt⟩ => hnot ⟨harea, by omega, by omega⟩

theorem Indexed.add (h : Indexed byStart byOccupied done) (hconsistent : entry.Consistent)
    (hstart : byStart (entry.area, entry.address) = none) (hoccupy : occupy entry 0 byOccupied entry.width = .ok after) :
    Indexed (Function.update byStart (entry.area, entry.address) (some entry)) after (done ++ [entry]) := by
  have hmem : ∀ other, other ∈ done ++ [entry] ↔ other ∈ done ∨ other = entry := by simp
  refine ⟨fun area a other => ?_, fun area a other => ?_, fun other hother => ?_⟩
  · rw [hmem]
    by_cases hkey : (area, a) = (entry.area, entry.address)
    · obtain ⟨rfl, rfl⟩ := Prod.mk.inj hkey
      have hnone : ¬(other ∈ done ∧ other.area = entry.area ∧ other.address = entry.address) := by
        rw [← h.starts, hstart]
        simp
      rw [Function.update_self, Option.some.injEq]
      constructor
      · rintro rfl
        exact ⟨.inr rfl, rfl, rfl⟩
      · rintro ⟨hdone | rfl, hsame⟩
        · exact absurd ⟨hdone, hsame⟩ hnone
        · rfl
    · rw [Function.update_of_ne hkey, h.starts]
      constructor
      · exact fun ⟨hdone, hsame⟩ => ⟨.inl hdone, hsame⟩
      · rintro ⟨hdone | rfl, rfl, rfl⟩
        · exact ⟨hdone, rfl, rfl⟩
        · exact absurd rfl hkey
  · obtain ⟨hin, hout⟩ := occupy_ok hoccupy area a
    rw [hmem]
    by_cases hoccupies : entry.Occupies area a
    · obtain ⟨hnone, hafter⟩ := hin hoccupies
      have hfree : ¬(other ∈ done ∧ other.Occupies area a) := by
        rw [← h.occupied, hnone]
        simp
      rw [hafter, Option.some.injEq]
      constructor
      · rintro rfl
        exact ⟨.inr rfl, hoccupies⟩
      · rintro ⟨hdone | rfl, hother⟩
        · exact absurd ⟨hdone, hother⟩ hfree
        · rfl
    · rw [hout hoccupies, h.occupied]
      constructor
      · exact fun ⟨hdone, hother⟩ => ⟨.inl hdone, hother⟩
      · rintro ⟨hdone | rfl, hother⟩
        · exact ⟨hdone, hother⟩
        · exact absurd hother hoccupies
  · rcases (hmem other).mp hother with hdone | rfl
    · exact h.consistent other hdone
    · exact hconsistent

theorem Indexed.nodup_add (h : Indexed byStart byOccupied done) (hstart : byStart (entry.area, entry.address) = none)
    (hnodup : done.Nodup) : (done ++ [entry]).Nodup := by
  rw [List.nodup_append_comm, List.singleton_append, List.nodup_cons]
  refine ⟨fun hdone => ?_, hnodup⟩
  rw [(h.starts _ _ entry).mpr ⟨hdone, rfl, rfl⟩] at hstart
  cases hstart

theorem indexEntries_ok {maps : AddressMap × AddressMap} (hdone : Indexed byStart byOccupied done) (hnodup : done.Nodup)
    (h : indexEntries byStart byOccupied entries = .ok maps) :
    Indexed maps.1 maps.2 (done ++ entries) ∧ (done ++ entries).Nodup := by
  induction entries generalizing byStart byOccupied done with
  | nil =>
    obtain rfl := Except.ok.inj h
    rw [List.append_nil]
    exact ⟨hdone, hnodup⟩
  | cons entry rest ih =>
    rw [indexEntries] at h
    split at h
    next => cases h
    next _ hassert =>
      dsimp only at h
      split_ifs at h with hstart
      split at h
      next => cases h
      next after hoccupy =>
        have hfree := Option.not_isSome_iff_eq_none.mp hstart
        have hnext := hdone.add (assertEntryConsistent_ok hassert) hfree hoccupy
        have hrest := ih hnext (hdone.nodup_add hfree hnodup) h
        rwa [List.append_assoc] at hrest

theorem fromConfig_spec (h : RegisterMap.fromConfig raw = .ok map) :
    (∃ config, registerMapSchema raw = some config ∧ config.entries = map.entries) ∧
      Indexed map.byStart map.byOccupied map.entries ∧ map.entries.Nodup := by
  unfold RegisterMap.fromConfig at h
  cases hconfig : registerMapSchema raw with
  | none =>
    rw [hconfig] at h
    cases h
  | some config =>
    rw [hconfig] at h
    dsimp only at h
    split at h
    next => cases h
    next maps hindex =>
      obtain rfl := Except.ok.inj h
      have hempty : Indexed (fun _ => none) (fun _ => none) [] := ⟨by simp, by simp, by simp⟩
      exact ⟨⟨config, rfl, rfl⟩, indexEntries_ok hempty List.nodup_nil hindex⟩

theorem fromConfig_ok (h : RegisterMap.fromConfig raw = .ok map) : Indexed map.byStart map.byOccupied map.entries :=
  (fromConfig_spec h).2.1

/-! ### The addresses of a map -/

/-- What a map finds is what its entries occupy, and no two of them share an address. -/
structure RegisterMap.Exact (map : RegisterMap) : Prop where
  occupying : ∀ area a entry, map.entryOccupying area a = some entry ↔ entry ∈ map.entries ∧ entry.Occupies area a
  unique : ∀ area a, ∀ entry ∈ map.entries, ∀ other ∈ map.entries, entry.Occupies area a → other.Occupies area a → entry = other
  starting : ∀ area a entry, map.entryStartingAt area a = some entry ↔ entry ∈ map.entries ∧ entry.area = area ∧ entry.address = a
  agrees : ∀ entry ∈ map.entries, map.entryStartingAt entry.area entry.address = map.entryOccupying entry.area entry.address
  mapped : ∀ area a n, map.rangeIsFullyMapped area a n = true ↔ ∀ i < n, ∃ entry ∈ map.entries, entry.Occupies area (a + i)
  disjoint : map.entries.Pairwise fun entry other => ∀ area a, ¬(entry.Occupies area a ∧ other.Occupies area a)

def RegisterMap.Addressable (map : RegisterMap) : Prop := ∀ entry ∈ map.entries, entry.address + entry.width ≤ 2 ^ 16

theorem Indexed.exact (h : Indexed map.byStart map.byOccupied map.entries) (hnodup : map.entries.Nodup) : map.Exact := by
  have hunique : ∀ area a, ∀ entry ∈ map.entries, ∀ other ∈ map.entries,
      entry.Occupies area a → other.Occupies area a → entry = other := by
    intro area a entry hentry other hother hhere hthere
    have hfound := (h.occupied area a entry).mpr ⟨hentry, hhere⟩
    exact Option.some.inj (hfound.symm.trans ((h.occupied area a other).mpr ⟨hother, hthere⟩))
  refine ⟨h.occupied, hunique, h.starts, fun entry hentry => ?_, fun area a n => ?_, ?_⟩
  · have hwidth := (h.consistent entry hentry).width_pos
    have hstart := (h.starts _ _ entry).mpr ⟨hentry, rfl, rfl⟩
    have hfirst := (h.occupied _ _ entry).mpr ⟨hentry, rfl, le_rfl, Nat.lt_add_of_pos_right hwidth⟩
    exact hstart.trans hfirst.symm
  · simp only [RegisterMap.rangeIsFullyMapped, List.all_eq_true, List.mem_range, Option.isSome_iff_exists, h.occupied]
  · refine hnodup.imp_of_mem fun hentry hother hne area a => ?_
    rintro ⟨hhere, hthere⟩
    exact hne (hunique area a _ hentry _ hother hhere hthere)

theorem arrayOf_mem {α : Type} {item : Schema α} {value : Untrusted} {found : List α} (h : arrayOf item value = some found) :
    ∀ a ∈ found, ∃ value, item value = some a := by
  cases value with
  | array items =>
    replace h : items.mapM item = some found := h
    induction items generalizing found with
    | nil =>
      obtain rfl := Option.some.inj h
      simp
    | cons first rest ih =>
      simp only [List.mapM_cons, Option.bind_eq_bind, Option.bind_eq_some_iff] at h
      obtain ⟨a, ha, others, hothers, hfound⟩ := h
      obtain rfl := Option.some.inj hfound
      exact List.forall_mem_cons.mpr ⟨⟨first, ha⟩, ih hothers⟩
  | null | bool | number | string | object => cases h

theorem intBetween_le {low high n : ℕ} {value : Untrusted} (hle : low ≤ high) (h : intBetween low high value = some n) : n ≤ high := by
  cases value with
  | number value =>
    unfold intBetween at h
    dsimp only at h
    split_ifs at h
    obtain rfl := Option.some.inj h
    have hclamp : clampInt value low high ≤ high := max_le (Int.ofNat_le.mpr hle) (min_le_left _ _)
    omega
  | null | bool | string | array | object => cases h

theorem registerMapEntrySchema_address {value : Untrusted} (h : registerMapEntrySchema value = some entry) : entry.address ≤ 0xffff := by
  simp only [registerMapEntrySchema, Option.bind_eq_bind, Option.bind_eq_some_iff, required] at h
  obtain ⟨_, _, _, _, _, _, address, ⟨value, -, haddress⟩, _, _, _, _, _, _, _, _, hentry⟩ := h
  obtain rfl := Option.some.inj hentry
  exact intBetween_le (Nat.zero_le _) haddress

theorem registerMapSchema_address {config : RegisterMapConfig} (h : registerMapSchema raw = some config) :
    ∀ entry ∈ config.entries, entry.address ≤ 0xffff := by
  simp only [registerMapSchema, Option.bind_eq_bind, Option.bind_eq_some_iff, required] at h
  obtain ⟨_, _, _, _, _, _, entries, ⟨value, -, hentries⟩, hconfig⟩ := h
  obtain rfl := Option.some.inj hconfig
  intro entry hentry
  obtain ⟨item, hitem⟩ := arrayOf_mem hentries entry hentry
  exact registerMapEntrySchema_address hitem

/-- What is accepted is exact, and addressable unless an entry of two registers begins at the last address. -/
theorem fromConfig_exact (h : RegisterMap.fromConfig raw = .ok map) :
    map.Exact ∧ map.Addressable ↔ ∀ entry ∈ map.entries, entry.address = 0xffff → registerWidth entry.dataType < 2 := by
  obtain ⟨⟨config, hconfig, hentries⟩, hindexed, hnodup⟩ := fromConfig_spec h
  refine (and_iff_right (hindexed.exact hnodup)).trans (forall₂_congr fun entry hentry => ?_)
  have haddress := registerMapSchema_address hconfig entry (hentries ▸ hentry)
  have hconsistent := hindexed.consistent entry hentry
  have htwo : registerWidth entry.dataType ≤ 2 := by cases entry.dataType <;> decide
  unfold RegisterMapEntry.width
  split_ifs with harea
  · have hbool : registerWidth entry.dataType = 0 := by rw [hconsistent.mp harea]; rfl
    omega
  · omega

/-- An unsigned integer of two registers at the last address. -/
def lastAddress : Untrusted := .object [("siteId".toList, .string ['s']), ("entries".toList, .array [.object
  [("tagId".toList, .string ['t']), ("area".toList, .string "holdingRegister".toList), ("address".toList, .number 65535),
    ("dataType".toList, .string "uint32".toList)]])]

def lastEntry : RegisterMapEntry := ⟨['t'], .holdingRegister, 0xffff, .uint32, none, none, false⟩

theorem lastAddress_accepted : ∃ map, RegisterMap.fromConfig lastAddress = .ok map ∧ map.entries = [lastEntry] := by
  have hschema : registerMapSchema lastAddress = some ⟨['s'], 1, [lastEntry]⟩ := by decide +kernel
  exact ⟨_, by rw [RegisterMap.fromConfig, hschema]; rfl, rfl⟩

theorem lastAddress_not_addressable : ¬∀ raw map, RegisterMap.fromConfig raw = .ok map → map.Exact ∧ map.Addressable := by
  intro h
  obtain ⟨map, hmap, hentries⟩ := lastAddress_accepted
  have hlast := (h lastAddress map hmap).2 lastEntry (by rw [hentries]; exact List.mem_singleton.mpr rfl)
  revert hlast
  decide

theorem fromConfig_exact_last : ∃ map, RegisterMap.fromConfig lastAddress = .ok map ∧ ¬(map.Exact ∧ map.Addressable) := by
  obtain ⟨map, hmap, hentries⟩ := lastAddress_accepted
  refine ⟨map, hmap, fun hexact => ?_⟩
  have hwidth := (fromConfig_exact hmap).mp hexact lastEntry (by rw [hentries]; exact List.mem_singleton.mpr rfl) rfl
  revert hwidth
  decide

end OxScada.Modbus
