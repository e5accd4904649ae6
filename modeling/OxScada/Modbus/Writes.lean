import OxScada.Modbus.TagStore

/-! Writes of a Modbus request. Either the whole request is stored, each value under the tag of an entry
that may be written, or nothing is. -/

namespace OxScada.Modbus
open OxScada.Bytes OxScada.Js OxScada.Runs TagStoreDataModel

/-! ### What a write covers -/

namespace ModelCall

def address : ModelCall → ℕ
  | .readCoils address _ | .readDiscreteInputs address _ | .readHoldingRegisters address _ | .readInputRegisters address _
  | .writeCoils address _ | .writeHoldingRegisters address _ => address

def quantity : ModelCall → ℕ
  | .readCoils _ quantity | .readDiscreteInputs _ quantity | .readHoldingRegisters _ quantity | .readInputRegisters _ quantity => quantity
  | .writeCoils _ values => values.length
  | .writeHoldingRegisters _ values => values.length

def writeArea : ModelCall → Option RegisterArea
  | .writeCoils _ _ => some .coil
  | .writeHoldingRegisters _ _ => some .holdingRegister
  | _ => none

/-- The entry occupies one of the addresses that a write is for. -/
def Covers (call : ModelCall) (entry : RegisterMapEntry) : Prop :=
  ∃ area a, call.writeArea = some area ∧ entry.Occupies area a ∧ call.address ≤ a ∧ a < call.address + call.quantity

/-- All addresses of the entry are among those that a write is for. -/
def Contains (call : ModelCall) (entry : RegisterMapEntry) : Prop :=
  call.address ≤ entry.address ∧ entry.address + entry.width ≤ call.address + call.quantity

/-- The value that the words of the entry stand for, or its bit. -/
def valueFor : ModelCall → RegisterMapEntry → Option TagValue
  | .writeCoils address values, entry => (values[entry.address - address]?).map .bool
  | .writeHoldingRegisters address values, entry =>
    (decodeRegistersToValue entry ((values.drop (entry.address - address)).take entry.width)).map .number
  | _, _ => none

end ModelCall

structure Planned (map : RegisterMap) (call : ModelCall) (plan : List (Text × TagValue)) : Prop where
  covered : ∀ entry ∈ map.entries, call.Covers entry →
    entry.writable ∧ call.Contains entry ∧ ∃ value, call.valueFor entry = some value ∧ (entry.tagId, value) ∈ plan
  owned : ∀ item ∈ plan, ∃ entry ∈ map.entries, call.Covers entry ∧ entry.tagId = item.1 ∧ call.valueFor entry = some item.2

/-! ### Plans -/

variable {raw : Untrusted} {map : RegisterMap} {store : TagStore} {request : ModbusRequest} {entry other : RegisterMapEntry} {address rounds : ℕ}
  {plan : List (Text × TagValue)} {call : ModelCall} {words : List ℕ} {bits : List Bool}

theorem width_coil (h : entry.area = .coil) : entry.width = 1 := by
  rw [RegisterMapEntry.width, h]
  rfl

theorem width_holdingRegister (h : entry.area = .holdingRegister) : entry.width = registerWidth entry.dataType := by
  rw [RegisterMapEntry.width, h]
  rfl

theorem covers_coils {values : List Bool} :
    (ModelCall.writeCoils address values).Covers entry ↔ entry.area = .coil ∧ address ≤ entry.address ∧ entry.address < address + values.length := by
  constructor
  · rintro ⟨area, a, harea, ⟨hentry, hle, hlt⟩, hfrom, hto⟩
    obtain rfl := Option.some.inj harea
    rw [width_coil hentry] at hlt
    obtain rfl : a = entry.address := by omega
    exact ⟨hentry, hfrom, hto⟩
  · rintro ⟨hentry, hfrom, hto⟩
    exact ⟨.coil, entry.address, rfl, ⟨hentry, le_rfl, by rw [width_coil hentry]; omega⟩, hfrom, hto⟩

theorem Planned.cons {first : RegisterMapEntry} {value : TagValue} {rest : ModelCall} (hrest : Planned map rest plan)
    (hsplit : ∀ entry ∈ map.entries, call.Covers entry ↔ entry = first ∨ rest.Covers entry)
    (hfrom : call.address ≤ rest.address) (hto : rest.address + rest.quantity ≤ call.address + call.quantity)
    (hlater : ∀ entry, rest.address ≤ entry.address → call.valueFor entry = rest.valueFor entry)
    (hfirst : first ∈ map.entries) (hwritable : first.writable) (hcontains : call.Contains first) (hvalue : call.valueFor first = some value) :
    Planned map call ((first.tagId, value) :: plan) := by
  refine ⟨fun entry hmem hcovers => ?_, fun item hitem => ?_⟩
  · rcases (hsplit entry hmem).mp hcovers with rfl | hbeyond
    · exact ⟨hwritable, hcontains, value, hvalue, List.mem_cons_self⟩
    · obtain ⟨hentry, ⟨hle, hend⟩, later, hfor, hplan⟩ := hrest.covered entry hmem hbeyond
      have hsame := hlater entry hle
      exact ⟨hentry, ⟨hfrom.trans hle, hend.trans hto⟩, later, hsame.trans hfor, List.mem_cons_of_mem _ hplan⟩
  · rcases List.mem_cons.mp hitem with rfl | hbeyond
    · exact ⟨first, hfirst, (hsplit first hfirst).mpr (.inl rfl), rfl, hvalue⟩
    · obtain ⟨entry, hmem, hcovers, htag, hfor⟩ := hrest.owned item hbeyond
      obtain ⟨-, ⟨hle, -⟩, -⟩ := hrest.covered entry hmem hcovers
      have hsame := hlater entry hle
      exact ⟨entry, hmem, (hsplit entry hmem).mpr (.inr hcovers), htag, hsame.trans hfor⟩

theorem Planned.nil (h : call.quantity = 0) : Planned map call [] := by
  refine ⟨fun entry _ ⟨_, a, _, _, hfrom, hto⟩ => ?_, fun item hitem => absurd hitem List.not_mem_nil⟩
  omega

theorem planCoils_planned (hmap : Indexed map.byStart map.byOccupied map.entries) (h : planCoils map address bits = .ok plan) :
    Planned map (.writeCoils address bits) plan := by
  induction bits generalizing address plan with
  | nil =>
    obtain rfl := Except.ok.inj h
    exact .nil rfl
  | cons bit rest ih =>
    rw [planCoils] at h
    cases hentry : map.entryStartingAt .coil address with
    | none =>
      rw [hentry] at h
      cases h
    | some first =>
      rw [hentry] at h
      obtain ⟨hfirst, harea, rfl⟩ := (hmap.starts _ _ _).mp hentry
      dsimp only at h
      split_ifs at h with hwritable
      obtain ⟨later, hrest, rfl⟩ := map_ok.mp h
      refine (ih hrest).cons (fun entry hmem => ?_) (Nat.le_succ _) ?_ (fun entry hle => ?_) hfirst hwritable ⟨le_rfl, ?_⟩ ?_
      · rw [covers_coils, covers_coils, List.length_cons]
        constructor
        · rintro ⟨hcoil, hle, hlt⟩
          by_cases haddress : entry.address = first.address
          · have hsame := (hmap.starts .coil first.address entry).mpr ⟨hmem, hcoil, haddress⟩
            exact .inl (Option.some.inj (hsame.symm.trans hentry))
          · exact .inr ⟨hcoil, by omega, by omega⟩
        · rintro (rfl | ⟨hcoil, hle, hlt⟩)
          · exact ⟨harea, le_rfl, by omega⟩
          · exact ⟨hcoil, by omega, by omega⟩
      · simp only [ModelCall.quantity, ModelCall.address, List.length_cons]
        omega
      · have hshift : entry.address - first.address = entry.address - (first.address + 1) + 1 := by
          simp only [ModelCall.address] at hle
          omega
        rw [ModelCall.valueFor, ModelCall.valueFor, hshift, List.getElem?_cons_succ]
      · rw [width_coil harea, ModelCall.quantity, ModelCall.address, List.length_cons]
        omega
      · rw [ModelCall.valueFor, Nat.sub_self]
        rfl

theorem planRegisters_round (hwords : words ≠ []) (h : planRegisters map (rounds + 1) address words = .ok plan) :
    ∃ first value later, map.entryOccupying .holdingRegister address = some first ∧ address = first.address ∧
      registerWidth first.dataType ≤ words.length ∧ first.writable ∧
      decodeRegistersToValue first (words.take (registerWidth first.dataType)) = some value ∧
      planRegisters map rounds (address + registerWidth first.dataType) (words.drop (registerWidth first.dataType)) = .ok later ∧
      plan = (first.tagId, .number value) :: later := by
  rw [planRegisters.eq_3 _ _ _ _ hwords] at h
  cases hentry : map.entryOccupying .holdingRegister address with
  | none =>
    rw [hentry] at h
    cases h
  | some first =>
    rw [hentry] at h
    dsimp only at h
    split_ifs at h with hstart hlength hwritable
    cases hvalue : decodeRegistersToValue first (words.take (registerWidth first.dataType)) with
    | none =>
      rw [hvalue] at h
      cases h
    | some value =>
      rw [hvalue] at h
      dsimp only at h
      obtain ⟨later, hrest, rfl⟩ := map_ok.mp h
      exact ⟨first, value, later, rfl, not_not.mp hstart, not_lt.mp hlength, hwritable, hvalue, hrest, rfl⟩

theorem planRegisters_planned (hmap : Indexed map.byStart map.byOccupied map.entries) (hrounds : words.length ≤ rounds)
    (h : planRegisters map rounds address words = .ok plan) : Planned map (.writeHoldingRegisters address words) plan := by
  induction rounds generalizing address words plan with
  | zero =>
    obtain rfl := List.eq_nil_of_length_eq_zero (Nat.le_zero.mp hrounds)
    obtain rfl := Except.ok.inj h
    exact .nil rfl
  | succ rounds ih =>
    by_cases hwords : words = []
    · subst hwords
      obtain rfl := Except.ok.inj h
      exact .nil rfl
    obtain ⟨first, value, later, hentry, rfl, hlength, hwritable, hvalue, hrest, rfl⟩ := planRegisters_round hwords h
    obtain ⟨hfirst, harea, -, -⟩ := (hmap.occupied _ _ _).mp hentry
    have hwidth := (hmap.consistent first hfirst).width_pos
    rw [← width_holdingRegister harea] at hlength hvalue hrest
    have hleft : (words.drop first.width).length = words.length - first.width := List.length_drop
    refine (ih (by omega) hrest).cons (fun entry hmem => ?_) (Nat.le_add_right _ _) ?_ (fun entry hle => ?_) hfirst hwritable ⟨le_rfl, ?_⟩ ?_
    · constructor
      · rintro ⟨area, a, hwrite, hoccupies, hfrom, hto⟩
        obtain rfl := Option.some.inj hwrite
        simp only [ModelCall.quantity, ModelCall.address] at hfrom hto
        by_cases hnear : a < first.address + first.width
        · have hsame := (hmap.occupied .holdingRegister a entry).mpr ⟨hmem, hoccupies⟩
          have hother := (hmap.occupied .holdingRegister a first).mpr ⟨hfirst, harea, hfrom, hnear⟩
          exact .inl (Option.some.inj (hsame.symm.trans hother))
        · refine .inr ⟨.holdingRegister, a, rfl, hoccupies, not_lt.mp hnear, ?_⟩
          simp only [ModelCall.quantity, ModelCall.address]
          omega
      · rintro (rfl | ⟨area, a, hwrite, hoccupies, hfrom, hto⟩)
        · refine ⟨.holdingRegister, entry.address, rfl, ⟨harea, le_rfl, by omega⟩, le_rfl, ?_⟩
          simp only [ModelCall.quantity, ModelCall.address]
          omega
        · simp only [ModelCall.quantity, ModelCall.address] at hfrom hto
          refine ⟨area, a, hwrite, hoccupies, (Nat.le_add_right _ _).trans hfrom, ?_⟩
          simp only [ModelCall.quantity, ModelCall.address]
          omega
    · simp only [ModelCall.quantity, ModelCall.address]
      omega
    · have hshift : first.width + (entry.address - (first.address + first.width)) = entry.address - first.address := by
        simp only [ModelCall.address] at hle
        omega
      rw [ModelCall.valueFor, ModelCall.valueFor, List.drop_drop, hshift]
    · simp only [ModelCall.quantity, ModelCall.address]
      omega
    · rw [ModelCall.valueFor, Nat.sub_self, List.drop_zero, hvalue]
      rfl

/-! ### What is stored -/

variable {tag : Text} {value : TagValue} {after : TagStore} {resume : ModelAnswer → Except ExceptionCode Buffer}

namespace TagStore

theorem foldl_write_unreadable (store : TagStore) (plan : List (Text × TagValue)) : (plan.foldl write store).unreadable = store.unreadable := by
  induction plan generalizing store with
  | nil => rfl
  | cons item rest ih => exact ih (store.write item)

theorem foldl_write_frame (store : TagStore) (h : ∀ item ∈ plan, item.1 ≠ tag) : (plan.foldl write store).values tag = store.values tag := by
  induction plan generalizing store with
  | nil => rfl
  | cons item rest ih =>
    have hitem : tag ≠ item.1 := (h item List.mem_cons_self).symm
    rw [List.foldl_cons, ih (store.write item) fun later hlater => h later (List.mem_cons_of_mem _ hlater)]
    exact Function.update_of_ne hitem _ _

theorem foldl_write_holds (store : TagStore) (hmem : (tag, value) ∈ plan) (h : ∀ item ∈ plan, item.1 = tag → item.2 = value) :
    (plan.foldl write store).values tag = some value := by
  induction plan generalizing store with
  | nil => exact absurd hmem List.not_mem_nil
  | cons item rest ih =>
    have hrest : ∀ later ∈ rest, later.1 = tag → later.2 = value := fun later hlater => h later (List.mem_cons_of_mem _ hlater)
    rw [List.foldl_cons]
    by_cases hlater : (tag, value) ∈ rest
    · exact ih (store.write item) hlater hrest
    · rcases List.mem_cons.mp hmem with rfl | hin
      · rw [foldl_write_frame]
        · exact Function.update_self tag (some value) store.values
        · intro later hin htag
          have hsame : later = (tag, value) := Prod.ext htag (hrest later hin htag)
          exact hlater (hsame ▸ hin)
      · exact absurd hin hlater

end TagStore

structure Stored (map : RegisterMap) (call : ModelCall) (store after : TagStore) : Prop where
  /-- An entry that is covered may be written, and all of it is. -/
  covered : ∀ entry ∈ map.entries, call.Covers entry → entry.writable ∧ call.Contains entry
  /-- The tag of a covered entry holds the value of its words, where no other covered entry has the tag. -/
  holds : ∀ entry ∈ map.entries, call.Covers entry →
    (∀ other ∈ map.entries, call.Covers other → other.tagId = entry.tagId → other = entry) →
    ∃ value, call.valueFor entry = some value ∧ after.values entry.tagId = some value
  frame : ∀ tag, (∀ entry ∈ map.entries, call.Covers entry → entry.tagId ≠ tag) → after.values tag = store.values tag
  unreadable : after.unreadable = store.unreadable

theorem Planned.stored (h : Planned map call plan) : Stored map call store (plan.foldl TagStore.write store) := by
  refine ⟨fun entry hmem hcovers => ?_, fun entry hmem hcovers honly => ?_, fun tag hother => ?_, TagStore.foldl_write_unreadable store plan⟩
  · obtain ⟨hwritable, hcontains, -⟩ := h.covered entry hmem hcovers
    exact ⟨hwritable, hcontains⟩
  · obtain ⟨-, -, value, hvalue, hplan⟩ := h.covered entry hmem hcovers
    refine ⟨value, hvalue, TagStore.foldl_write_holds store hplan fun item hitem htag => ?_⟩
    obtain ⟨other, hother, hothers, htagged, hfor⟩ := h.owned item hitem
    obtain rfl := honly other hother hothers (htagged.trans htag)
    exact Option.some.inj (hfor.symm.trans hvalue)
  · refine TagStore.foldl_write_frame store fun item hitem htag => ?_
    obtain ⟨entry, hmem, hcovers, htagged, -⟩ := h.owned item hitem
    exact hother entry hmem hcovers (htagged.trans htag)

section
variable (hmap : Indexed map.byStart map.byOccupied map.entries)
include hmap

theorem writeCoils_stored (h : writeCoils map store address bits = .ok after) :
    Stored map (.writeCoils address bits) store after := by
  unfold writeCoils at h
  split_ifs at h with hmapped
  obtain ⟨plan, hplan, rfl⟩ := map_ok.mp h
  exact (planCoils_planned hmap hplan).stored

theorem writeHoldingRegisters_stored (h : writeHoldingRegisters map store address words = .ok after) : Stored map (.writeHoldingRegisters address words) store after := by
  unfold writeHoldingRegisters at h
  split_ifs at h with hmapped
  obtain ⟨plan, hplan, rfl⟩ := map_ok.mp h
  exact (planRegisters_planned hmap le_rfl hplan).stored

theorem answer_write (store : TagStore) (hwrite : call.writeArea ≠ none) :
    (∃ kind, answer map store call = (.fails kind, store)) ∨ ∃ after, answer map store call = (.written, after) ∧ Stored map call store after := by
  cases call with
  | readCoils | readDiscreteInputs | readHoldingRegisters | readInputRegisters => exact absurd rfl hwrite
  | writeCoils address bits =>
    rw [answer]
    cases hafter : writeCoils map store address bits with
    | error kind => exact .inl ⟨kind, rfl⟩
    | ok after => exact .inr ⟨after, rfl, writeCoils_stored hmap hafter⟩
  | writeHoldingRegisters address words =>
    rw [answer]
    cases hafter : writeHoldingRegisters map store address words with
    | error kind => exact .inl ⟨kind, rfl⟩
    | ok after => exact .inr ⟨after, rfl, writeHoldingRegisters_stored hmap hafter⟩

end

theorem answer_read (map : RegisterMap) (store : TagStore) (hread : call.writeArea = none) : (answer map store call).2 = store := by
  cases call with
  | readCoils | readDiscreteInputs | readHoldingRegisters | readInputRegisters => rfl
  | writeCoils | writeHoldingRegisters => cases hread

/-! ### Requests -/

def ModbusRequest.write (request : ModbusRequest) : ModelCall :=
  let address := readUInt16BE request.data 0
  let quantity := readUInt16BE request.data 2
  if request.functionCode = FunctionCode.writeSingleCoil then .writeCoils address [quantity = coilOn]
  else if request.functionCode = FunctionCode.writeMultipleCoils then .writeCoils address (unpackBits (request.data.drop 5) quantity)
  else if request.functionCode = FunctionCode.writeSingleRegister then .writeHoldingRegisters address [quantity]
  else .writeHoldingRegisters address (unpackRegisters (request.data.drop 5) quantity)

theorem getD_take {buf : Buffer} {i k : ℕ} (h : i < k) : (buf.take k).getD i 0 = buf.getD i 0 := by
  rw [List.getD_eq_getElem?_getD, List.getD_eq_getElem?_getD, List.getElem?_take_of_lt h]

theorem unpackBits_take {buf : Buffer} {count k : ℕ} (h : count ≤ 8 * k) : unpackBits (buf.take k) count = unpackBits buf count := by
  refine List.map_congr_left fun i hi => ?_
  have hcount := List.mem_range.mp hi
  rw [getD_take (by omega)]

theorem unpackRegisters_take {buf : Buffer} {count k : ℕ} (h : 2 * count ≤ k) : unpackRegisters (buf.take k) count = unpackRegisters buf count := by
  refine List.map_congr_left fun i hi => ?_
  have hcount := List.mem_range.mp hi
  rw [readUInt16BE, readUInt16BE, getD_take (by omega), getD_take (by omega)]

theorem write_of_writeSingleCoil (h : request.functionCode = FunctionCode.writeSingleCoil) :
    request.write = .writeCoils (readUInt16BE request.data 0) [readUInt16BE request.data 2 = coilOn] := by
  rw [ModbusRequest.write, h]
  rfl

theorem write_of_writeSingleRegister (h : request.functionCode = FunctionCode.writeSingleRegister) :
    request.write = .writeHoldingRegisters (readUInt16BE request.data 0) [readUInt16BE request.data 2] := by
  rw [ModbusRequest.write, h]
  rfl

theorem write_of_writeMultipleCoils (h : request.functionCode = FunctionCode.writeMultipleCoils) :
    request.write = .writeCoils (readUInt16BE request.data 0) (unpackBits (request.data.drop 5) (readUInt16BE request.data 2)) := by
  rw [ModbusRequest.write, h]
  rfl

theorem write_of_writeMultipleRegisters (h : request.functionCode = FunctionCode.writeMultipleRegisters) :
    request.write = .writeHoldingRegisters (readUInt16BE request.data 0) (unpackRegisters (request.data.drop 5) (readUInt16BE request.data 2)) := by
  rw [ModbusRequest.write, h]
  rfl

theorem write_writeArea (request : ModbusRequest) : request.write.writeArea ≠ none := by
  unfold ModbusRequest.write
  split_ifs <;> exact Option.some_ne_none _

def ModelCall.writeLimit : ModelCall → ℕ
  | .writeCoils _ _ => maxWriteCoils
  | _ => maxWriteRegisters

theorem length_unpackBits (buf : Buffer) (count : ℕ) : (unpackBits buf count).length = count := by
  rw [unpackBits, List.length_map, List.length_range]

theorem length_unpackRegisters (buf : Buffer) (count : ℕ) : (unpackRegisters buf count).length = count := by
  rw [unpackRegisters, List.length_map, List.length_range]

/-- A write request is refused, or asks for its write, which is for not too many addresses, and echoes a part of
the request. -/
theorem dispatch_write (hcode : request.functionCode ∈ writeFunctionCodes) :
    (∃ code, dispatch request.functionCode request.data = .settled (.error code)) ∨
      (∃ body, dispatch request.functionCode request.data = .asks request.write (echo body)) ∧
        0 < request.write.quantity ∧ request.write.quantity ≤ request.write.writeLimit := by
  simp only [writeFunctionCodes, List.mem_cons, List.not_mem_nil, or_false] at hcode
  rcases hcode with hcode | hcode | hcode | hcode
  · have hdispatch : dispatch request.functionCode request.data = writeSingleCoil request.data := by
      rw [hcode]
      rfl
    rw [hdispatch, writeSingleCoil, write_of_writeSingleCoil hcode]
    dsimp only
    split_ifs
    · exact .inl ⟨_, rfl⟩
    · exact .inl ⟨_, rfl⟩
    · exact .inr ⟨⟨_, rfl⟩, Nat.one_pos, (by decide : 1 ≤ maxWriteCoils)⟩
  · have hdispatch : dispatch request.functionCode request.data = writeSingleRegister request.data := by
      rw [hcode]
      rfl
    rw [hdispatch, writeSingleRegister, write_of_writeSingleRegister hcode]
    split_ifs
    · exact .inl ⟨_, rfl⟩
    · exact .inr ⟨⟨_, rfl⟩, Nat.one_pos, (by decide : 1 ≤ maxWriteRegisters)⟩
  · have hdispatch : dispatch request.functionCode request.data = writeMultipleCoils request.data := by
      rw [hcode]
      rfl
    rw [hdispatch, writeMultipleCoils, write_of_writeMultipleCoils hcode]
    dsimp only
    split_ifs with hlength hquantity hcount
    · exact .inl ⟨_, rfl⟩
    · exact .inl ⟨_, rfl⟩
    · exact .inl ⟨_, rfl⟩
    · rw [List.drop_take, Nat.add_sub_cancel_left, unpackBits_take (by omega)]
      rw [not_or, not_lt, not_lt] at hquantity
      refine .inr ⟨⟨_, rfl⟩, ?_⟩
      rw [ModelCall.quantity, length_unpackBits]
      exact hquantity
  · have hdispatch : dispatch request.functionCode request.data = writeMultipleRegisters request.data := by
      rw [hcode]
      rfl
    rw [hdispatch, writeMultipleRegisters, write_of_writeMultipleRegisters hcode]
    dsimp only
    split_ifs with hlength hquantity hcount
    · exact .inl ⟨_, rfl⟩
    · exact .inl ⟨_, rfl⟩
    · exact .inl ⟨_, rfl⟩
    · rw [List.drop_take, Nat.add_sub_cancel_left, unpackRegisters_take (by omega)]
      rw [not_or, not_lt, not_lt] at hquantity
      refine .inr ⟨⟨_, rfl⟩, ?_⟩
      rw [ModelCall.quantity, length_unpackRegisters]
      exact hquantity

theorem readBits_asks {data : Buffer} {maxQuantity : ℕ} {read : ℕ → ℕ → ModelCall} (h : readBits data maxQuantity read = .asks call resume) :
    ∃ address quantity, call = read address quantity := by
  unfold readBits at h
  dsimp only at h
  split_ifs at h
  obtain ⟨rfl, -⟩ := Dispatched.asks.inj h
  exact ⟨_, _, rfl⟩

theorem readRegisters_asks {data : Buffer} {read : ℕ → ℕ → ModelCall} (h : readRegisters data read = .asks call resume) :
    ∃ address quantity, call = read address quantity := by
  unfold readRegisters at h
  dsimp only at h
  split_ifs at h
  obtain ⟨rfl, -⟩ := Dispatched.asks.inj h
  exact ⟨_, _, rfl⟩

theorem dispatch_read (hcode : request.functionCode ∉ writeFunctionCodes) (h : dispatch request.functionCode request.data = .asks call resume) :
    call.writeArea = none := by
  simp only [writeFunctionCodes, List.mem_cons, List.not_mem_nil, or_false, not_or] at hcode
  obtain ⟨hcoil, hregister, hcoils, hregisters⟩ := hcode
  simp only [dispatch, if_neg hcoil, if_neg hregister, if_neg hcoils, if_neg hregisters] at h
  split_ifs at h
  · obtain ⟨_, _, rfl⟩ := readBits_asks h
    rfl
  · obtain ⟨_, _, rfl⟩ := readBits_asks h
    rfl
  · obtain ⟨_, _, rfl⟩ := readRegisters_asks h
    rfl
  · obtain ⟨_, _, rfl⟩ := readRegisters_asks h
    rfl

theorem processRequest_write (hmap : Indexed map.byStart map.byOccupied map.entries) (store : TagStore)
    (hcode : request.functionCode ∈ writeFunctionCodes) :
    (∃ code, processRequest map store request = (.error code, store)) ∨
      (∃ body after, processRequest map store request = (.ok body, after) ∧ answer map store request.write = (.written, after) ∧
        Stored map request.write store after) ∧ 0 < request.write.quantity ∧ request.write.quantity ≤ request.write.writeLimit := by
  unfold TagStoreDataModel.processRequest
  rcases dispatch_write hcode with ⟨code, hdispatch⟩ | ⟨⟨body, hdispatch⟩, hquantity⟩
  · rw [hdispatch]
    exact .inl ⟨code, rfl⟩
  · rw [hdispatch]
    dsimp only
    rcases answer_write hmap store (write_writeArea request) with ⟨kind, hanswer⟩ | ⟨after, hanswer, hstored⟩
    · refine .inl ⟨toExceptionCode kind, ?_⟩
      rw [hanswer]
      rfl
    · refine .inr ⟨⟨body, after, ?_, hanswer, hstored⟩, hquantity⟩
      rw [hanswer]
      rfl

theorem processRequest_read (map : RegisterMap) (store : TagStore) (hcode : request.functionCode ∉ writeFunctionCodes) :
    (processRequest map store request).2 = store := by
  unfold TagStoreDataModel.processRequest
  cases hdispatch : dispatch request.functionCode request.data with
  | settled result => rfl
  | asks call resume => exact answer_read map store (dispatch_read hcode hdispatch)

/-- A request that fails, is no write or comes where none is allowed leaves the store as it was. A write that is
answered stores the whole of it, under tags of entries that may be written. -/
theorem writes_atomic (hmap : RegisterMap.fromConfig raw = .ok map) (store : TagStore) (config : ModbusServerConfig) (request : ModbusRequest) :
    (∀ code, (serve map store config request).1 = .error code → (serve map store config request).2 = store) ∧
      (∀ body, (serve map store config request).1 = .ok body → request.functionCode ∈ writeFunctionCodes →
        Stored map request.write store (serve map store config request).2) ∧
      (request.functionCode ∉ writeFunctionCodes → (serve map store config request).2 = store) ∧
      (config.allowWrites = false → (serve map store config request).2 = store) := by
  have hindexed := fromConfig_ok hmap
  unfold serve
  by_cases hcode : request.functionCode ∈ writeFunctionCodes
  · by_cases hrefused : Connection.writeRefused config request = true
    · rw [if_pos hrefused]
      refine ⟨fun _ _ => rfl, fun body hbody => ?_, fun _ => rfl, fun _ => rfl⟩
      cases hbody
    · have hallowed : config.allowWrites = true := by
        simpa [Connection.writeRefused, hcode] using hrefused
      rw [if_neg hrefused]
      rcases processRequest_write hindexed store hcode with ⟨code, hresult⟩ | ⟨⟨body, after, hresult, -, hstored⟩, -⟩
      · rw [hresult]
        refine ⟨fun _ _ => rfl, fun body hbody => ?_, fun _ => rfl, fun _ => rfl⟩
        cases hbody
      · rw [hresult]
        refine ⟨fun code herror => ?_, fun _ _ _ => hstored, fun hnot => absurd hcode hnot, fun hnot => ?_⟩
        · cases herror
        · rw [hallowed] at hnot
          cases hnot
  · have hserved : Connection.writeRefused config request = false := by
      simp [Connection.writeRefused, hcode]
    have hstore := processRequest_read map store hcode
    rw [hserved, if_neg Bool.false_ne_true]
    exact ⟨fun _ _ => hstore, fun _ _ hwrite => absurd hwrite hcode, fun _ => hstore, fun _ => hstore⟩

/-- A map of a speed in two registers and a switch, read from outside. -/
def drive : Untrusted :=
  .object [("siteId".toList, .string ['d']),
    ("entries".toList, .array [entry "speed" "holdingRegister" "int32", entry "run" "coil" "bool"])]
where
  entry (tagId area dataType : String) : Untrusted :=
    .object [("tagId".toList, .string tagId.toList), ("area".toList, .string area.toList), ("address".toList, .number 0),
      ("dataType".toList, .string dataType.toList), ("writable".toList, .bool true)]

def setSpeed : ModbusRequest := ⟨⟨1, 0, 11, 1⟩, 16, [0, 0, 0, 2, 4, 0xff, 0xff, 0xff, 0xfe]⟩

/-- A write of the speed, which becomes `-2`. -/
theorem drive_writes_atomic :
    ∃ map after, RegisterMap.fromConfig drive = .ok map ∧
      serve map ⟨fun _ => none, fun _ => false⟩ { allowWrites := true } setSpeed = (.ok [0, 0, 0, 2], after) ∧
      Stored map setSpeed.write ⟨fun _ => none, fun _ => false⟩ after ∧ after.values "speed".toList = some (.number (-2)) := by
  obtain ⟨map, hmap⟩ : ∃ map, RegisterMap.fromConfig drive = .ok map := ⟨_, rfl⟩
  have hserve : (RegisterMap.fromConfig drive).map (fun map =>
      ((serve map ⟨fun _ => none, fun _ => false⟩ { allowWrites := true } setSpeed).1,
        (serve map ⟨fun _ => none, fun _ => false⟩ { allowWrites := true } setSpeed).2.values "speed".toList)) =
      .ok (.ok [0, 0, 0, 2], some (.number (-2))) := by decide +kernel
  rw [hmap] at hserve
  obtain ⟨hresult, hspeed⟩ := Prod.mk.inj (Except.ok.inj hserve)
  obtain ⟨-, hstored, -, -⟩ := writes_atomic hmap ⟨fun _ => none, fun _ => false⟩ { allowWrites := true } setSpeed
  refine ⟨map, _, hmap, Prod.mk.eta.symm.trans ?_, hstored _ hresult (by decide), hspeed⟩
  rw [hresult]

end OxScada.Modbus
