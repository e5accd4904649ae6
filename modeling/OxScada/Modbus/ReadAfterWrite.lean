import OxScada.Modbus.Writes

/-! A read that follows a write of the same addresses. It has what was written, when the entries hold integers
that are not scaled and no two of them have one tag. -/

namespace OxScada.Modbus
open OxScada.Bytes OxScada.Js Float.Model TagStoreDataModel

structure ModbusRequest.SameRange (read write : ModbusRequest) : Prop where
  length : 4 ≤ read.data.length
  address : readUInt16BE read.data 0 = write.write.address
  quantity : readUInt16BE read.data 2 = write.write.quantity

def ModbusRequest.words (request : ModbusRequest) : List ℕ :=
  match request.write with
  | .writeHoldingRegisters _ words => words
  | _ => []

def ModbusRequest.bits (request : ModbusRequest) : List Bool :=
  match request.write with
  | .writeCoils _ bits => bits
  | _ => []

variable {raw : Untrusted} {map : RegisterMap} {store after : TagStore} {entry other : RegisterMapEntry} {address n : ℕ} {value : Float}
  {words : List ℕ} {bits : List Bool} {area : RegisterArea}

/-! ### Bits and words in bytes -/

def ofBits (bits : List Bool) : ℕ := bits.foldr (fun bit acc => 2 * acc + bit.toNat) 0

theorem ofBits_cons (bit : Bool) (rest : List Bool) : ofBits (bit :: rest) = 2 * ofBits rest + bit.toNat := rfl

theorem ofBits_lt (bits : List Bool) : ofBits bits < 2 ^ bits.length := by
  induction bits with
  | nil => exact Nat.one_pos
  | cons bit rest ih =>
    have hbit := bit.toNat_lt
    rw [ofBits_cons, List.length_cons, pow_succ]
    omega

theorem testBit_ofBits (bits : List Bool) (i : ℕ) : (ofBits bits).testBit i = bits.getD i false := by
  induction bits generalizing i with
  | nil => exact Nat.zero_testBit i
  | cons bit rest ih =>
    rw [ofBits_cons]
    cases i with
    | zero => cases bit <;> simp
    | succ i =>
      have hbit := bit.toNat_lt
      have hhalf : (2 * ofBits rest + bit.toNat) / 2 = ofBits rest := by omega
      rw [List.getD_cons_succ, ← ih i, Nat.testBit_succ, hhalf]

theorem testBit_packByte (h : bits.length ≤ 8) (i : ℕ) : (packByte bits).toNat.testBit i = bits.getD i false := by
  have hbyte : ofBits bits < 2 ^ 8 := (ofBits_lt bits).trans_le (Nat.pow_le_pow_right (by norm_num) h)
  show (UInt8.ofNat (ofBits bits)).toNat.testBit i = _
  rw [UInt8.toNat_ofNat', Nat.mod_eq_of_lt hbyte, testBit_ofBits]

theorem length_packBits (bits : List Bool) : (packBits bits).length = (bits.length + 7) / 8 := by
  rw [packBits, List.length_map, List.length_range]

theorem unpackBits_packBits (bits : List Bool) : unpackBits (packBits bits) bits.length = bits := by
  refine List.ext_getElem (length_unpackBits _ _) fun i hi hbits => ?_
  have hbyte : (packBits bits).getD (i / 8) 0 = packByte ((bits.drop (8 * (i / 8))).take 8) := by
    rw [packBits, List.getD_eq_getElem?_getD, List.getElem?_map, List.getElem?_range (by omega)]
    rfl
  have hplace : 8 * (i / 8) + i % 8 = i := Nat.div_add_mod i 8
  simp only [unpackBits, List.getElem_map, List.getElem_range]
  rw [hbyte, testBit_packByte (List.length_take_le _ _), List.getD_eq_getElem?_getD, List.getElem?_take_of_lt (Nat.mod_lt i (by norm_num)),
    List.getElem?_drop, hplace, List.getElem?_eq_getElem hbits, Option.getD_some]

theorem length_packRegisters (words : List ℤ) : (packRegisters words).length = 2 * words.length := by
  induction words with
  | nil => rfl
  | cons word rest ih =>
    rw [packRegisters, List.flatMap_cons, List.length_append, ← packRegisters, ih, List.length_cons]
    show 2 + _ = _
    ring

theorem readUInt16BE_uint16BE {word : ℕ} (h : word < 2 ^ 16) (rest : Buffer) : readUInt16BE (uint16BE word ++ rest) 0 = word := by
  show (UInt8.ofNat (word / 256)).toNat * 256 + (UInt8.ofNat word).toNat = word
  rw [UInt8.toNat_ofNat', UInt8.toNat_ofNat']
  omega

theorem unpackRegisters_packRegisters (h : ∀ word ∈ words, word < 2 ^ 16) :
    unpackRegisters (packRegisters (words.map Int.ofNat)) words.length = words := by
  induction words with
  | nil => rfl
  | cons word rest ih =>
    have hword : word < 2 ^ 16 := h word List.mem_cons_self
    have hrest := ih fun later hlater => h later (List.mem_cons_of_mem _ hlater)
    have hlow : (Int.ofNat word % 2 ^ 16).toNat = word := by
      rw [Int.ofNat_eq_natCast]
      omega
    have hpacked : packRegisters ((word :: rest).map Int.ofNat) =
        uint16BE word ++ packRegisters (rest.map Int.ofNat) := by
      rw [List.map_cons, packRegisters, List.flatMap_cons, hlow, packRegisters]
    -- The other words are read two bytes further on.
    rw [hpacked, List.length_cons, unpackRegisters, List.range_succ_eq_map, List.map_cons, List.map_map, readUInt16BE_uint16BE hword]
    exact congrArg (word :: ·) hrest

/-! ### Integers in registers -/

def ModbusDataType.IsInteger (dataType : ModbusDataType) : Prop := dataType ∈ [.uint16, .int16, .uint32, .int32]

theorem mathRound_exactly {z : ℤ} (h : Exactly z value.toModel.unpack) : mathRound value = .integer z := by
  unfold mathRound
  cases hvalue : value.toModel.unpack with
  | infinity | notANumber =>
    rw [hvalue] at h
    exact absurd h id
  | zero sign =>
    rw [hvalue] at h
    obtain rfl : z = 0 := h
    rfl
  | finite sign v e hpos =>
    rw [hvalue] at h
    obtain ⟨-, -, hmax, hscaled⟩ := h
    have hnone : e.toNat = 0 := by omega
    have hpow : (0 : ℤ) < 2 ^ ((-e).toNat + 1) := by positivity
    have hhalf : (2 : ℤ) ^ (-e).toNat < 2 ^ ((-e).toNat + 1) := pow_lt_pow_right₀ one_lt_two (Nat.lt_succ_self _)
    have hsum : 2 * (z * 2 ^ (-e).toNat) + 2 ^ (-e).toNat = 2 ^ (-e).toNat + 2 ^ ((-e).toNat + 1) * z := by ring
    have hzero : (2 : ℤ) ^ (-e).toNat / 2 ^ ((-e).toNat + 1) = 0 := Int.ediv_eq_zero_of_lt (by positivity) hhalf
    dsimp only
    rw [hnone, pow_zero, mul_one, hscaled, hsum, Int.add_mul_ediv_left _ _ hpow.ne', hzero, zero_add]

theorem unsigned_signed {bits : ℕ} (hn : n < 2 ^ bits) : unsigned bits (signed bits n) = n := by
  have hcast : (n : ℤ) < 2 ^ bits := by exact_mod_cast hn
  unfold unsigned signed
  split_ifs
  · rw [Int.emod_eq_of_lt (Int.natCast_nonneg n) hcast, Int.toNat_natCast]
  · rw [Int.sub_emod_right, Int.emod_eq_of_lt (Int.natCast_nonneg n) hcast, Int.toNat_natCast]

theorem signed_bounds {bits : ℕ} (hbits : 0 < bits) (hn : n < 2 ^ bits) : -2 ^ (bits - 1) ≤ signed bits n ∧ signed bits n < 2 ^ (bits - 1) := by
  have hcast : (n : ℤ) < 2 ^ bits := by exact_mod_cast hn
  have hpow : (2 : ℤ) ^ bits = 2 * 2 ^ (bits - 1) := by rw [← pow_succ', Nat.sub_add_cancel hbits]
  unfold signed
  split_ifs with hlow
  · have hlow' : (n : ℤ) < 2 ^ (bits - 1) := by exact_mod_cast hlow
    omega
  · have hhigh : (2 : ℤ) ^ (bits - 1) ≤ n := by exact_mod_cast not_lt.mp hlow
    omega

theorem splitWords_joinWords {first second : ℕ} (hfirst : first < 2 ^ 16) (hsecond : second < 2 ^ 16) (wordOrder : WordOrder) :
    splitWords (joinWords [first, second] wordOrder) wordOrder = [first, second] ∧ joinWords [first, second] wordOrder < 2 ^ 32 := by
  have hfirst' : first % 2 ^ 16 = first := Nat.mod_eq_of_lt hfirst
  have hsecond' : second % 2 ^ 16 = second := Nat.mod_eq_of_lt hsecond
  cases wordOrder with
  | big =>
    have hjoin : joinWords [first, second] .big = first * 2 ^ 16 + second := by
      show first % 2 ^ 16 * 2 ^ 16 + second % 2 ^ 16 = _
      rw [hfirst', hsecond']
    have hhigh : (first * 2 ^ 16 + second) / 2 ^ 16 = first := by omega
    have hlow : (first * 2 ^ 16 + second) % 2 ^ 16 = second := by omega
    rw [hjoin, splitWords, hhigh, hlow]
    exact ⟨rfl, by omega⟩
  | little =>
    have hjoin : joinWords [first, second] .little = second * 2 ^ 16 + first := by
      show second % 2 ^ 16 * 2 ^ 16 + first % 2 ^ 16 = _
      rw [hfirst', hsecond']
    have hhigh : (second * 2 ^ 16 + first) / 2 ^ 16 = second := by omega
    have hlow : (second * 2 ^ 16 + first) % 2 ^ 16 = first := by omega
    rw [hjoin, splitWords, hhigh, hlow]
    exact ⟨rfl, by omega⟩

theorem mathRound_ofInteger {z : ℤ} (hlow : -2 ^ 32 ≤ z) (hhigh : z ≤ 2 ^ 32) : mathRound (ofInteger z) = .integer z :=
  mathRound_exactly (ofInteger_exactly (by omega))

theorem clampInt_within {z low high : ℤ} (hlow : low ≤ z) (hhigh : z ≤ high) : (Rounded.integer z).clampInt low high = z := by
  rw [Rounded.clampInt, min_eq_right hhigh, max_eq_right hlow]

theorem lowBits_within {bits : ℕ} (hn : n < 2 ^ bits) : (Rounded.integer n).lowBits bits = n := by
  have hcast : (n : ℤ) < 2 ^ bits := by exact_mod_cast hn
  rw [Rounded.lowBits, Int.emod_eq_of_lt (Int.natCast_nonneg n) hcast, Int.toNat_natCast]

theorem encode_decode (htype : entry.dataType.IsInteger) (hscale : entry.scale = none) (hlength : words.length = registerWidth entry.dataType)
    (hwords : ∀ word ∈ words, word < 2 ^ 16) (h : decodeRegistersToValue entry words = some value) :
    encodeValueToRegisters entry value = some words := by
  have hscaled : ∀ op v, entry.scaled op v = v := fun op v => by rw [RegisterMapEntry.scaled, hscale]
  have hsingle (hwidth : registerWidth entry.dataType = 1) : ∃ word, words = [word] ∧ word < 2 ^ 16 := by
    obtain ⟨word, rfl⟩ := List.length_eq_one_iff.mp (hlength.trans hwidth)
    exact ⟨word, rfl, hwords word (by simp)⟩
  have hpair (hwidth : registerWidth entry.dataType = 2) :
      splitWords (joinWords words (entry.wordOrder.getD .big)) (entry.wordOrder.getD .big) = words ∧
        joinWords words (entry.wordOrder.getD .big) < 2 ^ 32 := by
    obtain ⟨first, second, rfl⟩ := List.length_eq_two.mp (hlength.trans hwidth)
    exact splitWords_joinWords (hwords first (by simp)) (hwords second (by simp)) _
  unfold decodeRegistersToValue at h
  unfold encodeValueToRegisters
  rw [hscaled]
  cases hdata : entry.dataType with
  | bool | float32 =>
    rw [hdata] at htype
    simp [ModbusDataType.IsInteger] at htype
  | uint16 =>
    obtain ⟨word, rfl, hword⟩ := hsingle (by rw [hdata]; rfl)
    have hlow : [word].getD 0 0 % 2 ^ 16 = word := Nat.mod_eq_of_lt hword
    simp only [hdata, hlow, Option.map_some, hscaled, Option.some.injEq] at h ⊢
    rw [← h, mathRound_ofInteger (by omega) (by omega), lowBits_within hword]
  | int16 =>
    obtain ⟨word, rfl, hword⟩ := hsingle (by rw [hdata]; rfl)
    have hlow : [word].getD 0 0 % 2 ^ 16 = word := Nat.mod_eq_of_lt hword
    obtain ⟨hleast, hgreatest⟩ := signed_bounds (by norm_num) hword
    simp only [hdata, hlow, Option.map_some, hscaled, Option.some.injEq] at h ⊢
    rw [← h, mathRound_ofInteger (by omega) (by omega), clampInt_within (by omega) (by omega), unsigned_signed hword]
  | uint32 =>
    obtain ⟨hsplit, hjoin⟩ := hpair (by rw [hdata]; rfl)
    simp only [hdata, Option.map_some, hscaled, Option.some.injEq] at h ⊢
    rw [← h, mathRound_ofInteger (by omega) (by omega), lowBits_within hjoin, hsplit]
  | int32 =>
    obtain ⟨hsplit, hjoin⟩ := hpair (by rw [hdata]; rfl)
    obtain ⟨hleast, hgreatest⟩ := signed_bounds (by norm_num) hjoin
    simp only [hdata, Option.map_some, hscaled, Option.some.injEq] at h ⊢
    rw [← h, mathRound_ofInteger (by omega) (by omega), clampInt_within (by omega) (by omega), unsigned_signed hjoin, hsplit]

/-! ### Reads -/

theorem mapM_ok {ε α β : Type} {f : α → Except ε β} {g : α → β} {items : List α} (h : ∀ item ∈ items, f item = .ok (g item)) :
    items.mapM f = .ok (items.map g) := by
  induction items with
  | nil => rfl
  | cons item rest ih =>
    have hrest := ih fun later hlater => h later (List.mem_cons_of_mem _ hlater)
    rw [List.mapM_cons, h item List.mem_cons_self, hrest]
    rfl

theorem map_range_getD {α : Type} (values : List α) (default : α) : (List.range values.length).map (fun i => values.getD i default) = values := by
  refine List.ext_getElem (by simp) fun i hi hvalues => ?_
  simp [hvalues]

theorem mapped_iff : map.rangeIsFullyMapped area address n = true ↔ ∀ i < n, (map.byOccupied (area, address + i)).isSome := by
  simp [RegisterMap.rangeIsFullyMapped]

theorem readRegisterArea_ok (hmapped : map.rangeIsFullyMapped area address words.length = true)
    (h : ∀ i < words.length, readRegister map store area (address + i) = .ok (words.getD i 0)) :
    readRegisterArea map store area address words.length = .ok words := by
  have hread := mapM_ok fun i hi => h i (List.mem_range.mp hi)
  rw [readRegisterArea, if_pos hmapped, hread, map_range_getD]

theorem readBitArea_ok (hmapped : map.rangeIsFullyMapped area address bits.length = true)
    (h : ∀ i < bits.length, readBit map store area (address + i) = .ok (bits.getD i false)) :
    readBitArea map store area address bits.length = .ok bits := by
  have hread := mapM_ok fun i hi => h i (List.mem_range.mp hi)
  rw [readBitArea, if_pos hmapped, hread, map_range_getD]

/-! ### What a write leaves to be read -/

/-- The entries that a write covers have a tag each, which can be read. -/
structure Distinct (map : RegisterMap) (store : TagStore) (call : ModelCall) : Prop where
  tags : ∀ entry ∈ map.entries, call.Covers entry → ∀ other ∈ map.entries, call.Covers other → other.tagId = entry.tagId → other = entry
  readable : ∀ entry ∈ map.entries, call.Covers entry → store.unreadable entry.tagId = false

/-- The entries that a write covers hold integers that are not scaled. -/
def Integers (map : RegisterMap) (call : ModelCall) : Prop :=
  ∀ entry ∈ map.entries, call.Covers entry → entry.dataType.IsInteger ∧ entry.scale = none

theorem Stored.read_tag {call : ModelCall} (h : Stored map call store after) (hdistinct : Distinct map store call) (hentry : entry ∈ map.entries)
    (hcovers : call.Covers entry) : ∃ value, call.valueFor entry = some value ∧ after.read entry.tagId = some (some value) := by
  obtain ⟨value, hvalue, hholds⟩ := h.holds entry hentry hcovers (hdistinct.tags entry hentry hcovers)
  refine ⟨value, hvalue, ?_⟩
  rw [TagStore.read, h.unreadable, hdistinct.readable entry hentry hcovers, if_neg Bool.false_ne_true, hholds]

section
variable (hmap : Indexed map.byStart map.byOccupied map.entries)
include hmap

theorem readRegister_written (h : Stored map (.writeHoldingRegisters address words) store after) (hdistinct : Distinct map store (.writeHoldingRegisters address words))
    (hintegers : Integers map (.writeHoldingRegisters address words)) (hwords : ∀ word ∈ words, word < 2 ^ 16)
    (hmapped : map.rangeIsFullyMapped .holdingRegister address words.length = true) (hn : n < words.length) :
    readRegister map after .holdingRegister (address + n) = .ok (words.getD n 0) := by
  obtain ⟨entry, hentry⟩ := Option.isSome_iff_exists.mp (mapped_iff.mp hmapped n hn)
  obtain ⟨hmem, hoccupies⟩ := (hmap.occupied _ _ _).mp hentry
  have hcovers : (ModelCall.writeHoldingRegisters address words).Covers entry :=
    ⟨.holdingRegister, address + n, rfl, hoccupies, Nat.le_add_right _ _, Nat.add_lt_add_left hn _⟩
  obtain ⟨value, hvalue, hread⟩ := h.read_tag hdistinct hmem hcovers
  obtain ⟨-, hfrom, hto⟩ := h.covered entry hmem hcovers
  obtain ⟨htype, hscale⟩ := hintegers entry hmem hcovers
  obtain ⟨harea, hle, hlt⟩ := hoccupies
  have hwidth := width_holdingRegister harea
  simp only [ModelCall.address, ModelCall.quantity] at hfrom hto
  obtain ⟨decoded, hdecode, rfl⟩ := Option.map_eq_some_iff.mp hvalue
  have hlength : ((words.drop (entry.address - address)).take entry.width).length = registerWidth entry.dataType := by
    rw [List.length_take, List.length_drop, ← hwidth]
    omega
  have hencode := encode_decode htype hscale hlength (fun word hword => hwords word (List.mem_of_mem_drop (List.mem_of_mem_take hword))) hdecode
  have hplace : entry.address - address + (address + n - entry.address) = n := by omega
  rw [readRegister, RegisterMap.entryOccupying, hentry]
  simp only [resolveEntryWords, hread, toNumber, hencode]
  rw [Except.map, List.getD_eq_getElem?_getD, List.getElem?_take_of_lt (by omega), List.getElem?_drop, hplace, List.getD_eq_getElem?_getD]

theorem readBit_written (h : Stored map (.writeCoils address bits) store after)
    (hdistinct : Distinct map store (.writeCoils address bits)) (hmapped : map.rangeIsFullyMapped .coil address bits.length = true)
    (hn : n < bits.length) : readBit map after .coil (address + n) = .ok (bits.getD n false) := by
  obtain ⟨entry, hentry⟩ := Option.isSome_iff_exists.mp (mapped_iff.mp hmapped n hn)
  obtain ⟨hmem, hoccupies⟩ := (hmap.occupied _ _ _).mp hentry
  have hcovers : (ModelCall.writeCoils address bits).Covers entry :=
    ⟨.coil, address + n, rfl, hoccupies, Nat.le_add_right _ _, Nat.add_lt_add_left hn _⟩
  obtain ⟨value, hvalue, hread⟩ := h.read_tag hdistinct hmem hcovers
  obtain ⟨harea, hle, hlt⟩ := hoccupies
  rw [width_coil harea] at hlt
  have haddress : entry.address = address + n := by omega
  have hstart : map.entryStartingAt .coil (address + n) = some entry := (hmap.starts _ _ _).mpr ⟨hmem, harea, haddress⟩
  have hplace : entry.address - address = n := by omega
  obtain ⟨bit, hbit, rfl⟩ := Option.map_eq_some_iff.mp hvalue
  rw [hplace] at hbit
  rw [readBit, hstart]
  simp only [hread, toBool]
  rw [List.getD_eq_getElem?_getD, hbit, Option.getD_some]

theorem read_writeHoldingRegisters (hwrite : answer map store (.writeHoldingRegisters address words) = (.written, after))
    (hdistinct : Distinct map store (.writeHoldingRegisters address words))
    (hintegers : Integers map (.writeHoldingRegisters address words)) (hwords : ∀ word ∈ words, word < 2 ^ 16) :
    (answer map after (.readHoldingRegisters address words.length)).1 = .registers (words.map Int.ofNat) := by
  rw [answer] at hwrite
  cases hafter : writeHoldingRegisters map store address words with
  | error kind =>
    rw [hafter] at hwrite
    cases hwrite
  | ok stored =>
    rw [hafter] at hwrite
    obtain rfl : stored = after := congrArg Prod.snd hwrite
    have hstored := writeHoldingRegisters_stored hmap hafter
    have hmapped : map.rangeIsFullyMapped .holdingRegister address words.length = true := by
      unfold writeHoldingRegisters at hafter
      split_ifs at hafter with hmapped
      exact hmapped
    have hread := readRegisterArea_ok hmapped fun i hi => readRegister_written hmap hstored hdistinct hintegers hwords hmapped hi
    rw [answer, hread]
    rfl

theorem read_writeCoils (hwrite : answer map store (.writeCoils address bits) = (.written, after)) (hdistinct : Distinct map store (.writeCoils address bits)) :
    (answer map after (.readCoils address bits.length)).1 = .bits bits := by
  rw [answer] at hwrite
  cases hafter : writeCoils map store address bits with
  | error kind =>
    rw [hafter] at hwrite
    cases hwrite
  | ok stored =>
    rw [hafter] at hwrite
    obtain rfl : stored = after := congrArg Prod.snd hwrite
    have hstored := writeCoils_stored hmap hafter
    have hmapped : map.rangeIsFullyMapped .coil address bits.length = true := by
      unfold writeCoils at hafter
      split_ifs at hafter with hmapped
      exact hmapped
    have hread := readBitArea_ok hmapped fun i hi => readBit_written hmap hstored hdistinct hmapped hi
    rw [answer, hread]
    rfl

end

/-! ### Requests -/

variable {write read : ModbusRequest} {config : ModbusServerConfig} {echoed : Buffer}

theorem counted_ok {packed : Buffer} (h : packed.length ≤ 255) : counted packed = .ok (UInt8.ofNat packed.length :: packed) := by
  rw [counted, if_neg (by omega)]

theorem serve_read (hread : read.functionCode ∉ writeFunctionCodes) : serve map store config read = processRequest map store read := by
  have hserved : Connection.writeRefused config read = false := by
    simp [Connection.writeRefused, hread]
  rw [serve, hserved, if_neg Bool.false_ne_true]

theorem serve_write (hmap : Indexed map.byStart map.byOccupied map.entries) (hcode : write.functionCode ∈ writeFunctionCodes)
    (h : (serve map store config write).1 = .ok echoed) :
    answer map store write.write = (.written, (serve map store config write).2) ∧
      0 < write.write.quantity ∧ write.write.quantity ≤ write.write.writeLimit := by
  unfold serve at h ⊢
  split_ifs at h ⊢ with hrefused
  rcases processRequest_write hmap store hcode with ⟨code, hresult⟩ | ⟨⟨body, after, hresult, hanswer, -⟩, hquantity⟩
  · rw [hresult] at h
    cases h
  · rw [hresult]
    exact ⟨hanswer, hquantity⟩

theorem readUInt16BE_lt (buf : Buffer) (i : ℕ) : readUInt16BE buf i < 2 ^ 16 := by
  have hhigh := (buf.getD i 0).toNat_lt
  have hlow := (buf.getD (i + 1) 0).toNat_lt
  rw [readUInt16BE]
  omega

theorem write_registers (h : write.functionCode ∈ [FunctionCode.writeSingleRegister, FunctionCode.writeMultipleRegisters]) :
    write.write = .writeHoldingRegisters write.write.address write.words ∧ ∀ word ∈ write.words, word < 2 ^ 16 := by
  unfold ModbusRequest.words
  rcases List.mem_pair.mp h with hcode | hcode
  · rw [write_of_writeSingleRegister hcode]
    refine ⟨rfl, fun word hword => ?_⟩
    rw [List.mem_singleton.mp hword]
    exact readUInt16BE_lt _ _
  · rw [write_of_writeMultipleRegisters hcode]
    refine ⟨rfl, fun word hword => ?_⟩
    obtain ⟨i, -, rfl⟩ := List.mem_map.mp hword
    exact readUInt16BE_lt _ _

theorem write_bits (h : write.functionCode ∈ [FunctionCode.writeSingleCoil, FunctionCode.writeMultipleCoils]) :
    write.write = .writeCoils write.write.address write.bits := by
  unfold ModbusRequest.bits
  rcases List.mem_pair.mp h with hcode | hcode
  · rw [write_of_writeSingleCoil hcode]
    rfl
  · rw [write_of_writeMultipleCoils hcode]
    rfl

theorem registers_read_after_write (hmap : Indexed map.byStart map.byOccupied map.entries)
    (hcode : write.functionCode ∈ [FunctionCode.writeSingleRegister, FunctionCode.writeMultipleRegisters])
    (hwrite : (serve map store config write).1 = .ok echoed) (hdistinct : Distinct map store write.write) (hintegers : Integers map write.write)
    (hread : read.functionCode = FunctionCode.readHoldingRegisters) (hrange : read.SameRange write) :
    ∃ body, (serve map (serve map store config write).2 config read).1 = .ok (UInt8.ofNat body.length :: body) ∧
      body.length = 2 * write.words.length ∧ unpackRegisters body write.words.length = write.words := by
  have hwritten : write.functionCode ∈ writeFunctionCodes := by
    rcases List.mem_pair.mp hcode with h | h <;> rw [h] <;> decide
  obtain ⟨hanswer, hpositive, hlimit⟩ := serve_write hmap hwritten hwrite
  obtain ⟨hform, hwords⟩ := write_registers hcode
  obtain ⟨hlength, haddress, hquantity⟩ := hrange
  generalize (serve map store config write).2 = after at hanswer
  rw [hform] at hdistinct hintegers hanswer hquantity hlimit hpositive
  have hanswered := read_writeHoldingRegisters hmap hanswer hdistinct hintegers hwords
  simp only [ModelCall.quantity, ModelCall.writeLimit, maxWriteRegisters] at hquantity hlimit hpositive
  refine ⟨packRegisters (write.words.map Int.ofNat), ?_, ?_, unpackRegisters_packRegisters hwords⟩
  · have hdispatch : dispatch read.functionCode read.data = readRegisters read.data .readHoldingRegisters := by
      rw [hread]
      rfl
    have hnoWrite : read.functionCode ∉ writeFunctionCodes := by
      rw [hread]
      decide
    have hpacked : (packRegisters (write.words.map Int.ofNat)).length ≤ 255 := by
      rw [length_packRegisters, List.length_map]
      omega
    rw [serve_read hnoWrite]
    unfold TagStoreDataModel.processRequest
    rw [hdispatch, readRegisters, if_neg (by omega)]
    dsimp only
    rw [hquantity, haddress, if_neg (by rw [maxReadRegisters]; omega)]
    dsimp only
    rw [hanswered]
    exact counted_ok hpacked
  · rw [length_packRegisters, List.length_map]

theorem coils_read_after_write (hmap : Indexed map.byStart map.byOccupied map.entries)
    (hcode : write.functionCode ∈ [FunctionCode.writeSingleCoil, FunctionCode.writeMultipleCoils])
    (hwrite : (serve map store config write).1 = .ok echoed) (hdistinct : Distinct map store write.write)
    (hread : read.functionCode = FunctionCode.readCoils) (hrange : read.SameRange write) :
    ∃ body, (serve map (serve map store config write).2 config read).1 = .ok (UInt8.ofNat body.length :: body) ∧
      body.length = (write.bits.length + 7) / 8 ∧ unpackBits body write.bits.length = write.bits := by
  have hwritten : write.functionCode ∈ writeFunctionCodes := by
    rcases List.mem_pair.mp hcode with h | h <;> rw [h] <;> decide
  obtain ⟨hanswer, hpositive, hlimit⟩ := serve_write hmap hwritten hwrite
  have hform := write_bits hcode
  obtain ⟨hlength, haddress, hquantity⟩ := hrange
  generalize (serve map store config write).2 = after at hanswer
  rw [hform] at hdistinct hanswer hquantity hlimit hpositive
  have hanswered := read_writeCoils hmap hanswer hdistinct
  simp only [ModelCall.quantity, ModelCall.writeLimit, maxWriteCoils] at hquantity hlimit hpositive
  refine ⟨packBits write.bits, ?_, length_packBits _, unpackBits_packBits _⟩
  have hdispatch : dispatch read.functionCode read.data = readBits read.data maxReadBits .readCoils := by
    rw [hread]
    rfl
  have hnoWrite : read.functionCode ∉ writeFunctionCodes := by
    rw [hread]
    decide
  have hpacked : (packBits write.bits).length ≤ 255 := by
    rw [length_packBits]
    omega
  rw [serve_read hnoWrite]
  unfold TagStoreDataModel.processRequest
  rw [hdispatch, readBits, if_neg (by omega)]
  dsimp only
  rw [hquantity, haddress, if_neg (by rw [maxReadBits]; omega)]
  dsimp only
  rw [hanswered]
  exact counted_ok hpacked

/-- A read that follows an answered write of the same addresses is answered with what was written. -/
theorem read_after_write (hmap : RegisterMap.fromConfig raw = .ok map) (hwrite : (serve map store config write).1 = .ok echoed)
    (hdistinct : Distinct map store write.write) (hrange : read.SameRange write) :
    (write.functionCode ∈ [FunctionCode.writeSingleRegister, FunctionCode.writeMultipleRegisters] → Integers map write.write →
      read.functionCode = FunctionCode.readHoldingRegisters →
      ∃ body, (serve map (serve map store config write).2 config read).1 = .ok (UInt8.ofNat body.length :: body) ∧
        body.length = 2 * write.words.length ∧ unpackRegisters body write.words.length = write.words) ∧
      (write.functionCode ∈ [FunctionCode.writeSingleCoil, FunctionCode.writeMultipleCoils] → read.functionCode = FunctionCode.readCoils →
        ∃ body, (serve map (serve map store config write).2 config read).1 = .ok (UInt8.ofNat body.length :: body) ∧
          body.length = (write.bits.length + 7) / 8 ∧ unpackBits body write.bits.length = write.bits) := by
  have hindexed := fromConfig_ok hmap
  exact ⟨fun hcode hintegers hread => registers_read_after_write hindexed hcode hwrite hdistinct hintegers hread hrange,
    fun hcode hread => coils_read_after_write hindexed hcode hwrite hdistinct hread hrange⟩

def getSpeed : ModbusRequest := ⟨⟨2, 0, 6, 1⟩, 3, [0, 0, 0, 2]⟩

/-- The speed is read as it was set. -/
theorem drive_read_after_write :
    ∃ map body, RegisterMap.fromConfig drive = .ok map ∧
      (serve map (serve map ⟨fun _ => none, fun _ => false⟩ { allowWrites := true } setSpeed).2 { allowWrites := true } getSpeed).1 =
        .ok (4 :: body) ∧ unpackRegisters body 2 = [0xffff, 0xfffe] := by
  obtain ⟨map, hmap, hentries⟩ : ∃ map, RegisterMap.fromConfig drive = .ok map ∧
      map.entries = [⟨"speed".toList, .holdingRegister, 0, .int32, none, none, true⟩, ⟨"run".toList, .coil, 0, .bool, none, none, true⟩] :=
    ⟨_, rfl, rfl⟩
  have hserve : (RegisterMap.fromConfig drive).map (fun map =>
      (serve map ⟨fun _ => none, fun _ => false⟩ { allowWrites := true } setSpeed).1) = .ok (.ok [0, 0, 0, 2]) := by decide +kernel
  rw [hmap] at hserve
  have hdistinct : Distinct map ⟨fun _ => none, fun _ => false⟩ setSpeed.write := by
    refine ⟨fun entry hentry _ other hother _ htag => ?_, fun _ _ _ => rfl⟩
    rw [hentries] at hentry hother
    rcases List.mem_pair.mp hentry with rfl | rfl <;> rcases List.mem_pair.mp hother with rfl | rfl
    · rfl
    · exact absurd htag (by decide)
    · exact absurd htag (by decide)
    · rfl
  have hintegers : Integers map setSpeed.write := by
    rintro entry hentry ⟨area, a, harea, ⟨hentryArea, -⟩, -⟩
    rw [hentries] at hentry
    obtain rfl : RegisterArea.holdingRegister = area := Option.some.inj harea
    rcases List.mem_pair.mp hentry with rfl | rfl
    · exact ⟨by simp [ModbusDataType.IsInteger], rfl⟩
    · cases hentryArea
  obtain ⟨hregisters, -⟩ := read_after_write hmap (Except.ok.inj hserve) hdistinct (⟨by decide, by decide, by decide⟩ : getSpeed.SameRange setSpeed)
  obtain ⟨body, hread, hlength, hwords⟩ := hregisters (by decide) hintegers rfl
  have hwritten : setSpeed.words = [0xffff, 0xfffe] := by decide
  rw [hwritten] at hlength hwords
  refine ⟨map, body, hmap, ?_, hwords⟩
  rw [hread, hlength]
  rfl

end OxScada.Modbus
