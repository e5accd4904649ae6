import OxScada.Dnp3.AppLayer

/-! The grammar of the objects of a request. The parser is sound and complete for it: what it takes as
complete is exactly what its headers are written as, and what is written as headers it takes so. -/

namespace OxScada.Dnp3
open OxScada.Bytes OxScada.Js

/-! ### Headers as they are written -/

def sizedBody (body : Buffer) : Buffer := writeUIntLE 2 body.length ++ body

def prefixedOctets (prefixLen : ℕ) (item : ParsedPrefixedObject) : Buffer := writeUIntLE prefixLen item.index ++ item.data

def rangeOctets (rangeCode : UInt8) (range : Option (ℕ × ℕ)) (count : Option ℕ) : Buffer :=
  let (start, stop) := range.getD (0, 0)
  if rangeCode = 0x00 then writeUIntLE 1 start ++ writeUIntLE 1 stop
  else if rangeCode = 0x01 then writeUIntLE 2 start ++ writeUIntLE 2 stop
  else if rangeCode = 0x07 then writeUIntLE 1 (count.getD 0)
  else if rangeCode = 0x08 then writeUIntLE 2 (count.getD 0)
  else []

namespace ParsedObjectHeader

def prefixLen (header : ParsedObjectHeader) : ℕ := (header.qualifier >>> 4).toNat

/-- What follows the group, the variation and the qualifier. -/
def bodyOctets (header : ParsedObjectHeader) : Buffer :=
  if header.qualifier = 0x5b then writeUIntLE 1 (header.count.getD 0) ++ (header.freeFormat.getD []).flatMap sizedBody
  else rangeOctets (header.qualifier &&& 0x0f) header.range header.count ++
    (header.items.getD []).flatMap (prefixedOctets header.prefixLen) ++ header.data.getD []

def encode (header : ParsedObjectHeader) : Buffer := header.group :: header.variation :: header.qualifier :: header.bodyOctets

end ParsedObjectHeader

/-! ### Headers that are well formed -/

inductive RangeFits : UInt8 → Option (ℕ × ℕ) → Option ℕ → Prop
  | indices8 {start stop : ℕ} (hstart : start < 256) (hstop : stop < 256) (horder : start ≤ stop + 1) :
      RangeFits 0x00 (some (start, stop)) (some (stop + 1 - start))
  | indices16 {start stop : ℕ} (hstart : start < 65536) (hstop : stop < 65536) (horder : start ≤ stop + 1) :
      RangeFits 0x01 (some (start, stop)) (some (stop + 1 - start))
  | all : RangeFits 0x06 none none
  | count8 {n : ℕ} (h : n < 256) : RangeFits 0x07 none (some n)
  | count16 {n : ℕ} (h : n < 65536) : RangeFits 0x08 none (some n)

def ItemFits (prefixLen objectSize : ℕ) (item : ParsedPrefixedObject) : Prop :=
  item.index < 256 ^ prefixLen ∧ item.data.length = objectSize

namespace ParsedObjectHeader

def IsPacked (header : ParsedObjectHeader) : Prop :=
  header.group = Group.internalIndications ∧ header.variation = 1 ∧ header.count.isSome

instance (header : ParsedObjectHeader) : Decidable header.IsPacked := inferInstanceAs (Decidable (_ ∧ _ ∧ _))

/-- The object data of a header that has no free-format bodies. -/
def DataFits (header : ParsedObjectHeader) : Prop :=
  ((header.qualifier >>> 4 = 1 ∨ header.qualifier >>> 4 = 2) ∧ header.data = none ∧
      ∃ objectSize items, commandObjectSize header.group header.variation = some objectSize ∧ header.items = some items ∧
        header.count = some items.length ∧ ∀ item ∈ items, ItemFits header.prefixLen objectSize item) ∨
    (header.qualifier >>> 4 = 0 ∧ header.items = none ∧
      if header.IsPacked then ∃ octets, header.data = some octets ∧ octets.length = (header.count.getD 0 + 7) / 8
      else header.data = none)

def WellFormed (header : ParsedObjectHeader) : Prop :=
  if header.qualifier = 0x5b then
    header.range = none ∧ header.items = none ∧ header.data = none ∧ ∃ bodies, header.freeFormat = some bodies ∧
      header.count = some bodies.length ∧ bodies.length < 256 ∧ ∀ body ∈ bodies, body.length < 65536
  else header.freeFormat = none ∧ RangeFits (header.qualifier &&& 0x0f) header.range header.count ∧ header.DataFits

end ParsedObjectHeader

/-! ### Bodies and items -/

variable {bodies : List Buffer} {n objectSize prefixLen : ℕ} {items : List ParsedPrefixedObject} {rangeCode : UInt8}
  {header : ParsedObjectHeader}

theorem readBodies_sound {octets rest : Buffer} (h : readBodies n octets = some (bodies, rest)) :
    bodies.length = n ∧ (∀ body ∈ bodies, body.length < 65536) ∧ octets = bodies.flatMap sizedBody ++ rest := by
  induction n generalizing octets bodies with
  | zero =>
    obtain ⟨rfl, rfl⟩ := Prod.mk.inj (Option.some.inj h)
    simp
  | succ n ih =>
    match octets, h with
    | low :: high :: tail, h =>
      rw [readBodies] at h
      split_ifs at h with hshort
      obtain ⟨⟨later, last⟩, hlater, hpair⟩ := Option.map_eq_some_iff.mp h
      obtain ⟨rfl, rfl⟩ := Prod.mk.inj hpair
      obtain ⟨hlength, hbodies, htail⟩ := ih hlater
      have hsize : readUIntLE [low, high] < 65536 := (readUIntLE_lt [low, high]).trans_eq (by norm_num)
      have hbody : (tail.take (readUIntLE [low, high])).length = readUIntLE [low, high] := by
        rw [List.length_take]
        omega
      have hwritten : writeUIntLE 2 (readUIntLE [low, high]) = [low, high] := writeUIntLE_readUIntLE [low, high]
      refine ⟨by rw [List.length_cons, hlength], ?_, ?_⟩
      · intro body hmem
        rcases List.mem_cons.mp hmem with rfl | hmem
        · rw [hbody]
          exact hsize
        · exact hbodies body hmem
      · have hsplit := List.take_append_drop (readUIntLE [low, high]) tail
        rw [List.flatMap_cons, sizedBody, hbody, hwritten, List.append_assoc, List.append_assoc, ← htail, hsplit]
        rfl
    | [], h => cases h
    | [_], h => cases h

theorem readBodies_short {octets : Buffer} (h : octets.length < 2) (n : ℕ) : readBodies (n + 1) octets = none := by
  match octets, h with
  | [], _ => rfl
  | [_], _ => rfl

theorem readBodies_append (h : ∀ body ∈ bodies, body.length < 65536) (n : ℕ) (rest : Buffer) :
    readBodies (bodies.length + n) (bodies.flatMap sizedBody ++ rest) = (readBodies n rest).map fun later => (bodies ++ later.1, later.2) := by
  induction bodies with
  | nil => simp
  | cons body later ih =>
    have hlater := ih fun b hb => h b (List.mem_cons_of_mem _ hb)
    have hsize := h body List.mem_cons_self
    have htwo : writeUIntLE 2 body.length = [UInt8.ofNat body.length, UInt8.ofNat (body.length / 256)] := by
      rw [writeUIntLE_succ, writeUIntLE_succ]
      rfl
    have hread : readUIntLE [UInt8.ofNat body.length, UInt8.ofNat (body.length / 256)] = body.length := by
      rw [← htwo]
      exact readUIntLE_writeUIntLE (by simpa using hsize)
    rw [List.flatMap_cons, sizedBody, htwo, List.length_cons, Nat.add_right_comm, List.append_assoc, List.append_assoc]
    show readBodies (later.length + n + 1) (UInt8.ofNat body.length :: UInt8.ofNat (body.length / 256) :: (body ++ (later.flatMap sizedBody ++ rest))) = _
    rw [readBodies, hread, if_neg (by rw [List.length_append]; omega), List.drop_left, List.take_left, hlater, Option.map_map]
    rfl

theorem readBodies_complete (h : ∀ body ∈ bodies, body.length < 65536) (rest : Buffer) :
    readBodies bodies.length (bodies.flatMap sizedBody ++ rest) = some (bodies, rest) := by
  have happend := readBodies_append h 0 rest
  rw [Nat.add_zero] at happend
  simp [happend, readBodies]

theorem readItems_sound {octets rest : Buffer}
    (h : readItems prefixLen objectSize n octets = some (items, rest)) :
    items.length = n ∧ (∀ item ∈ items, ItemFits prefixLen objectSize item) ∧ octets = items.flatMap (prefixedOctets prefixLen) ++ rest := by
  induction n generalizing octets items with
  | zero =>
    obtain ⟨rfl, rfl⟩ := Prod.mk.inj (Option.some.inj h)
    simp
  | succ n ih =>
    rw [readItems] at h
    split_ifs at h with hshort
    obtain ⟨⟨later, last⟩, hlater, hpair⟩ := Option.map_eq_some_iff.mp h
    obtain ⟨rfl, rfl⟩ := Prod.mk.inj hpair
    obtain ⟨hlength, hitems, htail⟩ := ih hlater
    have htake : (octets.take prefixLen).length = prefixLen := by
      rw [List.length_take]
      omega
    have hindex := readUIntLE_lt (octets.take prefixLen)
    rw [htake] at hindex
    have hwritten := writeUIntLE_readUIntLE (octets.take prefixLen)
    rw [htake] at hwritten
    refine ⟨by rw [List.length_cons, hlength], ?_, ?_⟩
    · intro item hmem
      rcases List.mem_cons.mp hmem with rfl | hmem
      · refine ⟨hindex, ?_⟩
        rw [List.length_take, List.length_drop]
        omega
      · exact hitems item hmem
    · have hbody := List.take_append_drop objectSize (octets.drop prefixLen)
      rw [List.drop_drop] at hbody
      rw [List.flatMap_cons, prefixedOctets, hwritten, List.append_assoc, List.append_assoc, ← htail, hbody, List.take_append_drop]

theorem readItems_append
    (h : ∀ item ∈ items, ItemFits prefixLen objectSize item) (n : ℕ) (rest : Buffer) :
    readItems prefixLen objectSize (items.length + n) (items.flatMap (prefixedOctets prefixLen) ++ rest) =
      (readItems prefixLen objectSize n rest).map fun later => (items ++ later.1, later.2) := by
  induction items with
  | nil => simp
  | cons item later ih =>
    have hlater := ih fun other hother => h other (List.mem_cons_of_mem _ hother)
    obtain ⟨hindex, hsize⟩ := h item List.mem_cons_self
    have hpre := writeUIntLE_length prefixLen item.index
    have hread := readUIntLE_writeUIntLE hindex
    have hlong : ¬ (writeUIntLE prefixLen item.index ++ (item.data ++ (later.flatMap (prefixedOctets prefixLen) ++ rest))).length < prefixLen + objectSize := by
      rw [List.length_append, List.length_append, hpre, hsize]
      omega
    have hrest : (writeUIntLE prefixLen item.index ++ (item.data ++ (later.flatMap (prefixedOctets prefixLen) ++ rest))).drop (prefixLen + objectSize) =
        later.flatMap (prefixedOctets prefixLen) ++ rest := by
      rw [← List.drop_drop, List.drop_left' hpre, List.drop_left' hsize]
    rw [List.flatMap_cons, prefixedOctets, List.length_cons, Nat.add_right_comm, List.append_assoc, List.append_assoc, readItems, if_neg hlong, hrest,
      hlater, List.take_left' hpre, List.drop_left' hpre, List.take_left' hsize, hread, Option.map_map]
    rfl

theorem readItems_complete
    (h : ∀ item ∈ items, ItemFits prefixLen objectSize item) (rest : Buffer) :
    readItems prefixLen objectSize items.length (items.flatMap (prefixedOctets prefixLen) ++ rest) = some (items, rest) := by
  have happend := readItems_append h 0 rest
  rw [Nat.add_zero] at happend
  simp [happend, readItems]

/-! ### Range fields -/

theorem writeUIntLE_one (n : ℕ) : writeUIntLE 1 n = [UInt8.ofNat n] := by
  rw [writeUIntLE_succ]
  rfl

theorem writeUIntLE_two (n : ℕ) : writeUIntLE 2 n = [UInt8.ofNat n, UInt8.ofNat (n / 256)] := by
  rw [writeUIntLE_succ, writeUIntLE_succ]
  rfl

theorem writeUIntLE_octet (octet : UInt8) : writeUIntLE 1 octet.toNat = [octet] := by
  rw [writeUIntLE_one, UInt8.ofNat_toNat]

theorem writeUIntLE_pair (low high : UInt8) : writeUIntLE 2 (readUIntLE [low, high]) = [low, high] :=
  writeUIntLE_readUIntLE [low, high]

theorem pair_lt (low high : UInt8) : readUIntLE [low, high] < 65536 := (readUIntLE_lt [low, high]).trans_eq (by norm_num)

theorem readUIntLE_pair (h : n < 65536) : readUIntLE [UInt8.ofNat n, UInt8.ofNat (n / 256)] = n := by
  rw [← writeUIntLE_two]
  exact readUIntLE_writeUIntLE (by simpa using h)

theorem toNat_octet (h : n < 256) : (UInt8.ofNat n).toNat = n := by
  rw [UInt8.toNat_ofNat']
  omega

theorem count_indices {start stop count : ℕ} (h : (stop : ℤ) - start + 1 = count) : start ≤ stop + 1 ∧ count = stop + 1 - start := by omega

theorem readRange_sound {body : Buffer} {field : RangeField} {count : Option ℕ}
    (h : readRange rangeCode body = some field) (hcount : field.count = count.map (Nat.cast : ℕ → ℤ)) :
    RangeFits rangeCode field.range count ∧ body = rangeOctets rangeCode field.range count ++ field.rest := by
  unfold readRange at h
  split_ifs at h with hcode hcode hcode hcode hcode
  · subst hcode
    split at h
    · rename_i start stop rest
      obtain rfl := Option.some.inj h
      obtain ⟨n, rfl, hn⟩ := Option.map_eq_some_iff.mp hcount.symm
      obtain ⟨horder, rfl⟩ := count_indices hn.symm
      refine ⟨.indices8 start.toNat_lt stop.toNat_lt horder, ?_⟩
      simp [rangeOctets, writeUIntLE_octet]
    · cases h
  · subst hcode
    split at h
    · rename_i start0 start1 stop0 stop1 rest
      obtain rfl := Option.some.inj h
      obtain ⟨n, rfl, hn⟩ := Option.map_eq_some_iff.mp hcount.symm
      obtain ⟨horder, rfl⟩ := count_indices hn.symm
      refine ⟨.indices16 (pair_lt _ _) (pair_lt _ _) horder, ?_⟩
      simp [rangeOctets, writeUIntLE_pair]
    · cases h
  · subst hcode
    obtain rfl := Option.some.inj h
    obtain rfl := Option.map_eq_none_iff.mp hcount.symm
    exact ⟨.all, rfl⟩
  · subst hcode
    split at h
    · rename_i octet rest
      obtain rfl := Option.some.inj h
      obtain ⟨n, rfl, hn⟩ := Option.map_eq_some_iff.mp hcount.symm
      obtain rfl : n = octet.toNat := by exact_mod_cast hn
      refine ⟨.count8 octet.toNat_lt, ?_⟩
      simp [rangeOctets, writeUIntLE_octet]
    · cases h
  · subst hcode
    split at h
    · rename_i low high rest
      obtain rfl := Option.some.inj h
      obtain ⟨n, rfl, hn⟩ := Option.map_eq_some_iff.mp hcount.symm
      obtain rfl : n = readUIntLE [low, high] := by exact_mod_cast hn
      refine ⟨.count16 (pair_lt _ _), ?_⟩
      simp [rangeOctets, writeUIntLE_pair]
    · cases h

theorem readRange_complete {range : Option (ℕ × ℕ)} {count : Option ℕ} (h : RangeFits rangeCode range count) (rest : Buffer) :
    readRange rangeCode (rangeOctets rangeCode range count ++ rest) = some ⟨range, count.map (Nat.cast : ℕ → ℤ), rest⟩ := by
  cases h with
  | indices8 hstart hstop horder =>
    simp [rangeOctets, readRange, writeUIntLE_one, toNat_octet hstart, toNat_octet hstop]
    omega
  | indices16 hstart hstop horder =>
    simp [rangeOctets, readRange, writeUIntLE_two, readUIntLE_pair hstart, readUIntLE_pair hstop]
    omega
  | all => rfl
  | count8 hn => simp [rangeOctets, readRange, writeUIntLE_one, toNat_octet hn]
  | count16 hn => simp [rangeOctets, readRange, writeUIntLE_two, readUIntLE_pair hn]

def rangeWidth (rangeCode : UInt8) : ℕ :=
  if rangeCode = 0x00 ∨ rangeCode = 0x08 then 2 else if rangeCode = 0x01 then 4 else if rangeCode = 0x07 then 1 else 0

theorem readRange_short {body : Buffer} (h : body.length < rangeWidth rangeCode) : readRange rangeCode body = none := by
  unfold rangeWidth at h
  unfold readRange
  split_ifs at h with hpair hfour hone
  · rcases hpair with rfl | rfl
    · rcases body with _ | ⟨_, _ | ⟨_, _⟩⟩ <;> simp_all
    · rcases body with _ | ⟨_, _ | ⟨_, _⟩⟩ <;> simp_all
  · subst hfour
    rcases body with _ | ⟨_, _ | ⟨_, _ | ⟨_, _ | ⟨_, _⟩⟩⟩⟩ <;> simp_all
    omega
  · subst hone
    rcases body with _ | ⟨_, _⟩ <;> simp_all
  · omega

/-! ### Object data -/

variable {group variation qualifier : UInt8} {range : Option (ℕ × ℕ)} {count : Option ℕ} {scanned : ParsedObjectHeader} {octets rest : Buffer}

theorem scanData_sound (h : scanData { group, variation, qualifier, range, count } octets = (scanned, some rest)) :
    ∃ items data, scanned = { group, variation, qualifier, range, count, items, data } ∧ scanned.DataFits ∧
      octets = (items.getD []).flatMap (prefixedOctets scanned.prefixLen) ++ data.getD [] ++ rest := by
  unfold scanData at h
  dsimp only at h
  split_ifs at h with hpre hpacked hshort hother
  · split at h
    · rename_i objectSize n hsize
      split at h
      · rename_i items rest' hread
        obtain ⟨rfl, hrest⟩ := Prod.mk.inj h
        obtain rfl := Option.some.inj hrest
        obtain ⟨hlength, hfits, hoctets⟩ := readItems_sound hread
        subst hlength
        refine ⟨some items, none, rfl, .inl ⟨hpre, rfl, objectSize, items, hsize, rfl, rfl, hfits⟩, ?_⟩
        simpa [ParsedObjectHeader.prefixLen] using hoctets
      · cases h
    · cases h
  · cases h
  · obtain ⟨rfl, hrest⟩ := Prod.mk.inj h
    obtain rfl := Option.some.inj hrest
    obtain ⟨hzero, hgroup, hvariation, hsome⟩ := hpacked
    have hsplit := List.take_append_drop ((count.getD 0 + 7) / 8) octets
    refine ⟨none, _, rfl, .inr ⟨hzero, rfl, ?_⟩, hsplit.symm⟩
    split_ifs with his
    · refine ⟨_, rfl, ?_⟩
      rw [List.length_take]
      exact min_eq_left (not_lt.mp hshort)
    · exact absurd ⟨hgroup, hvariation, hsome⟩ his
  · cases h
  · obtain ⟨rfl, hrest⟩ := Prod.mk.inj h
    obtain rfl := Option.some.inj hrest
    have hzero : qualifier >>> 4 = 0 := not_not.mp hother
    refine ⟨none, none, rfl, .inr ⟨hzero, rfl, ?_⟩, rfl⟩
    split_ifs with his
    · exact absurd ⟨hzero, his⟩ hpacked
    · rfl

theorem scanData_complete {items : Option (List ParsedPrefixedObject)} {data : Option Buffer}
    (h : ParsedObjectHeader.DataFits { group, variation, qualifier, range, count, items, data }) (rest : Buffer) :
    scanData { group, variation, qualifier, range, count }
        ((items.getD []).flatMap (prefixedOctets (qualifier >>> 4).toNat) ++ data.getD [] ++ rest) =
      ({ group, variation, qualifier, range, count, items, data }, some rest) := by
  obtain ⟨hpre, hdata, objectSize, own, hsize, hitems, hcount, hfits⟩ | ⟨hzero, hitems, hpacked⟩ := h
  · dsimp only at hpre hdata hsize hitems hcount
    subst hdata hitems hcount
    have hread := readItems_complete hfits rest
    unfold scanData
    dsimp only
    rw [if_pos hpre, hsize]
    simp only [ParsedObjectHeader.prefixLen] at hread
    simp only [Option.getD_some, Option.getD_none, List.append_nil, hread]
  · dsimp only at hzero hitems
    subst hitems
    have hpre : ¬ (qualifier >>> 4 = 1 ∨ qualifier >>> 4 = 2) := by
      rw [hzero]
      decide
    unfold scanData
    dsimp only
    rw [if_neg hpre]
    split_ifs at hpacked with his
    · obtain ⟨octets, hdata, hlength⟩ := hpacked
      dsimp only at hdata hlength
      subst hdata
      have hlong : ¬ ((Option.getD none []).flatMap (prefixedOctets (qualifier >>> 4).toNat) ++ (some octets).getD [] ++ rest).length < (count.getD 0 + 7) / 8 := by
        simp [hlength]
      rw [if_pos ⟨hzero, his⟩, if_neg hlong]
      simp [← hlength]
    · dsimp only at hpacked
      subst hpacked
      rw [if_neg fun h => his h.2, if_neg (not_not.mpr hzero)]
      rfl

/-! ### Headers -/

theorem scanHeader_sound (h : scanHeader { group, variation, qualifier } octets = (scanned, some rest)) :
    scanned.WellFormed ∧ group :: variation :: qualifier :: octets = scanned.encode ++ rest := by
  unfold scanHeader at h
  split_ifs at h with hfree
  · dsimp only at hfree
    subst hfree
    split at h
    · cases h
    · rename_i n tail
      dsimp only at h
      split at h
      · rename_i bodies rest' hread
        obtain ⟨rfl, hrest⟩ := Prod.mk.inj h
        obtain rfl := Option.some.inj hrest
        obtain ⟨hlength, hbodies, htail⟩ := readBodies_sound hread
        have hlt := n.toNat_lt
        refine ⟨⟨rfl, rfl, rfl, bodies, rfl, congrArg some hlength.symm, by omega, hbodies⟩, ?_⟩
        simp [ParsedObjectHeader.encode, ParsedObjectHeader.bodyOctets, writeUIntLE_octet, htail]
      · cases h
  · dsimp only at hfree
    split at h
    · cases h
    · rename_i field hrange
      dsimp only at h hrange
      have hgo : ∀ count : Option ℕ, field.count = count.map (Nat.cast : ℕ → ℤ) →
          scanData { group, variation, qualifier, range := field.range, count } field.rest = (scanned, some rest) →
          scanned.WellFormed ∧ group :: variation :: qualifier :: octets = scanned.encode ++ rest := by
        intro count hcount hdata
        obtain ⟨hfits, hoctets⟩ := readRange_sound hrange hcount
        obtain ⟨items, data, rfl, hdatafits, hrest⟩ := scanData_sound hdata
        constructor
        · rw [ParsedObjectHeader.WellFormed, if_neg hfree]
          exact ⟨rfl, hfits, hdatafits⟩
        · simp only [ParsedObjectHeader.encode, ParsedObjectHeader.bodyOctets, if_neg hfree, List.cons_append]
          rw [hoctets, hrest]
          simp only [List.append_assoc]
      split at h
      · rename_i hnone
        exact hgo none hnone h
      · rename_i n hsome
        exact hgo (some n) hsome h
      · cases h

theorem scanHeader_complete (h : header.WellFormed) (rest : Buffer) :
    scanHeader ⟨header.group, header.variation, header.qualifier, none, none, none, none, none⟩ (header.bodyOctets ++ rest) =
      (header, some rest) := by
  obtain ⟨group, variation, qualifier, range, count, items, data, freeFormat⟩ := header
  unfold ParsedObjectHeader.WellFormed at h
  unfold scanHeader ParsedObjectHeader.bodyOctets
  dsimp only at h ⊢
  split_ifs at h ⊢ with hfree
  · obtain ⟨rfl, rfl, rfl, bodies, rfl, rfl, hlength, hbodies⟩ := h
    have hread := readBodies_complete hbodies rest
    simp [writeUIntLE_one, toNat_octet hlength, hread]
  · obtain ⟨rfl, hrange, hdata⟩ := h
    have hfield := readRange_complete hrange ((items.getD []).flatMap (prefixedOctets (qualifier >>> 4).toNat) ++ data.getD [] ++ rest)
    have hscan := scanData_complete hdata rest
    simp only [ParsedObjectHeader.prefixLen, List.append_assoc] at hfield hscan ⊢
    rw [hfield]
    cases count with
    | none | some => exact hscan

/-! ### Scans -/

theorem scanObjects_sound {rounds : ℕ} {headers : List ParsedObjectHeader} (h : scanObjects rounds octets = (headers, true)) :
    (∀ header ∈ headers, header.WellFormed) ∧ octets = headers.flatMap ParsedObjectHeader.encode := by
  induction rounds generalizing octets headers with
  | zero =>
    obtain ⟨rfl, hempty⟩ := Prod.mk.inj h
    exact ⟨by simp, List.isEmpty_iff.mp hempty⟩
  | succ rounds ih =>
    match octets, h with
    | group :: variation :: qualifier :: body, h =>
      rw [scanObjects] at h
      dsimp only at h
      cases hscanned : scanHeader { group, variation, qualifier } body with
      | mk scanned left =>
        rw [hscanned] at h
        cases left with
        | none => cases h
        | some rest =>
          dsimp only at h
          obtain ⟨rfl, hcomplete⟩ := Prod.mk.inj h
          obtain ⟨hwell, hoctets⟩ := scanHeader_sound hscanned
          obtain ⟨hrest, hencode⟩ := ih (Prod.ext rfl hcomplete)
          constructor
          · intro header hmem
            rcases List.mem_cons.mp hmem with rfl | hmem
            · exact hwell
            · exact hrest header hmem
          · rw [List.flatMap_cons, hoctets, ← hencode]
    | [], h =>
      obtain ⟨rfl, -⟩ := Prod.mk.inj h
      exact ⟨by simp, rfl⟩
    | [_], h => cases h
    | [_, _], h => cases h

theorem scanObjects_encode (h : header.WellFormed) (rounds : ℕ) (rest : Buffer) :
    scanObjects (rounds + 1) (header.encode ++ rest) = (header :: (scanObjects rounds rest).1, (scanObjects rounds rest).2) := by
  have hscan := scanHeader_complete h rest
  rw [ParsedObjectHeader.encode, List.cons_append, List.cons_append, List.cons_append, scanObjects, hscan]

/-! ### Truncated fragments -/

/-- The octets end inside a header, a range field, or the data behind them. -/
inductive EndsInside : Buffer → Prop
  | header {octets : Buffer} (hpos : 0 < octets.length) (hshort : octets.length < 3) : EndsInside octets
  | range {group variation qualifier : UInt8} {octets : Buffer} (hfree : qualifier ≠ 0x5b)
      (hshort : octets.length < rangeWidth (qualifier &&& 0x0f)) : EndsInside (group :: variation :: qualifier :: octets)
  | bodyCount {group variation : UInt8} : EndsInside [group, variation, 0x5b]
  | bodySize {group variation n : UInt8} {bodies : List Buffer} {octets : Buffer} (hbodies : ∀ body ∈ bodies, body.length < 65536)
      (hmore : bodies.length < n.toNat) (hshort : octets.length < 2) :
      EndsInside (group :: variation :: 0x5b :: n :: (bodies.flatMap sizedBody ++ octets))
  | body {group variation n : UInt8} {bodies : List Buffer} {octets : Buffer} {size : ℕ} (hbodies : ∀ body ∈ bodies, body.length < 65536)
      (hmore : bodies.length < n.toNat) (hsize : size < 65536) (hshort : octets.length < size) :
      EndsInside (group :: variation :: 0x5b :: n :: (bodies.flatMap sizedBody ++ (writeUIntLE 2 size ++ octets)))
  | item {group variation qualifier : UInt8} {range : Option (ℕ × ℕ)} {count objectSize : ℕ} {items : List ParsedPrefixedObject} {octets : Buffer}
      (hpre : qualifier >>> 4 = 1 ∨ qualifier >>> 4 = 2) (hrange : RangeFits (qualifier &&& 0x0f) range (some count))
      (hobject : commandObjectSize group variation = some objectSize)
      (hitems : ∀ item ∈ items, ItemFits (qualifier >>> 4).toNat objectSize item) (hmore : items.length < count)
      (hshort : octets.length < (qualifier >>> 4).toNat + objectSize) :
      EndsInside (group :: variation :: qualifier :: (rangeOctets (qualifier &&& 0x0f) range (some count) ++
        (items.flatMap (prefixedOctets (qualifier >>> 4).toNat) ++ octets)))
  | packed {qualifier : UInt8} {range : Option (ℕ × ℕ)} {count : ℕ} {octets : Buffer} (hpre : qualifier >>> 4 = 0)
      (hrange : RangeFits (qualifier &&& 0x0f) range (some count)) (hshort : octets.length < (count + 7) / 8) :
      EndsInside (Group.internalIndications :: 1 :: qualifier :: (rangeOctets (qualifier &&& 0x0f) range (some count) ++ octets))
  | later {header : ParsedObjectHeader} {octets : Buffer} (hheader : header.WellFormed) (h : EndsInside octets) :
      EndsInside (header.encode ++ octets)

theorem scanObjects_stops (h : (scanHeader { group, variation, qualifier } octets).2 = none) (rounds : ℕ) :
    (scanObjects rounds (group :: variation :: qualifier :: octets)).2 = false := by
  cases rounds with
  | zero => rfl
  | succ rounds =>
    rw [scanObjects]
    dsimp only
    rw [h]

theorem scanHeader_range_short (hfree : qualifier ≠ 0x5b) (hshort : octets.length < rangeWidth (qualifier &&& 0x0f)) :
    (scanHeader { group, variation, qualifier } octets).2 = none := by
  unfold scanHeader
  dsimp only
  rw [if_neg hfree, readRange_short hshort]

theorem scanHeader_bodies_short {n : UInt8} (hbodies : ∀ body ∈ bodies, body.length < 65536)
    (hmore : bodies.length < n.toNat) (hshort : readBodies (n.toNat - bodies.length) octets = none) :
    (scanHeader { group, variation, qualifier := 0x5b } (n :: (bodies.flatMap sizedBody ++ octets))).2 = none := by
  have happend := readBodies_append hbodies (n.toNat - bodies.length) octets
  rw [Nat.add_sub_cancel' hmore.le, hshort] at happend
  unfold scanHeader
  dsimp only
  rw [if_pos rfl, happend]
  rfl

theorem scanHeader_ranged {count : ℕ} (hfree : qualifier ≠ 0x5b) (hrange : RangeFits (qualifier &&& 0x0f) range (some count)) (rest : Buffer) :
    scanHeader { group, variation, qualifier } (rangeOctets (qualifier &&& 0x0f) range (some count) ++ rest) =
      scanData { group, variation, qualifier, range, count := some count } rest := by
  have hfield := readRange_complete hrange rest
  unfold scanHeader
  dsimp only
  rw [if_neg hfree, hfield]
  rfl

theorem prefix_not_free (h : qualifier >>> 4 = 0 ∨ qualifier >>> 4 = 1 ∨ qualifier >>> 4 = 2) : qualifier ≠ 0x5b := by
  rintro rfl
  revert h
  decide

theorem scanData_items_short {count : ℕ} (hpre : qualifier >>> 4 = 1 ∨ qualifier >>> 4 = 2)
    (hobject : commandObjectSize group variation = some objectSize)
    (hitems : ∀ item ∈ items, ItemFits (qualifier >>> 4).toNat objectSize item) (hmore : items.length < count)
    (hshort : octets.length < (qualifier >>> 4).toNat + objectSize) :
    (scanData { group, variation, qualifier, range, count := some count } (items.flatMap (prefixedOctets (qualifier >>> 4).toNat) ++ octets)).2 = none := by
  obtain ⟨n, rfl⟩ := Nat.exists_eq_add_of_lt hmore
  have happend := readItems_append hitems (n + 1) octets
  rw [readItems, if_pos hshort] at happend
  unfold scanData
  dsimp only
  rw [if_pos hpre, hobject]
  dsimp only
  rw [Nat.add_assoc, happend]
  rfl

theorem scanObjects_endsInside (h : EndsInside octets) (rounds : ℕ) : (scanObjects rounds octets).2 = false := by
  induction h generalizing rounds with
  | header hpos hshort =>
    rename_i octets
    have hempty : octets.isEmpty = false := by
      rw [List.isEmpty_eq_false_iff]
      exact List.ne_nil_of_length_pos hpos
    match rounds, octets, hempty with
    | 0, _, hempty => exact hempty
    | _ + 1, [_], _ => rfl
    | _ + 1, [_, _], _ => rfl
    | _ + 1, _ :: _ :: _ :: _, _ =>
      simp only [List.length_cons] at hshort
      omega
  | range hfree hshort => exact scanObjects_stops (scanHeader_range_short hfree hshort) rounds
  | bodyCount => exact scanObjects_stops rfl rounds
  | bodySize hbodies hmore hshort =>
    rename_i n bodies octets
    apply scanObjects_stops
    apply scanHeader_bodies_short hbodies hmore
    obtain ⟨k, hk⟩ := Nat.exists_eq_add_of_lt hmore
    rw [hk, Nat.add_assoc, Nat.add_sub_cancel_left]
    exact readBodies_short hshort k
  | body hbodies hmore hsize hshort =>
    rename_i n bodies octets size
    apply scanObjects_stops
    apply scanHeader_bodies_short hbodies hmore
    obtain ⟨k, hk⟩ := Nat.exists_eq_add_of_lt hmore
    rw [hk, Nat.add_assoc, Nat.add_sub_cancel_left, writeUIntLE_two]
    show readBodies (k + 1) (UInt8.ofNat size :: UInt8.ofNat (size / 256) :: octets) = none
    rw [readBodies, readUIntLE_pair hsize, if_pos hshort]
  | item hpre hrange hobject hitems hmore hshort =>
    apply scanObjects_stops
    rw [scanHeader_ranged (prefix_not_free (.inr hpre)) hrange]
    exact scanData_items_short hpre hobject hitems hmore hshort
  | packed hpre hrange hshort =>
    apply scanObjects_stops
    rw [scanHeader_ranged (prefix_not_free (.inl hpre)) hrange]
    unfold scanData
    dsimp only
    rw [if_neg (by rw [hpre]; decide), if_pos ⟨hpre, rfl, rfl, rfl⟩, if_pos (by simpa using hshort)]
  | later hheader _ ih =>
    cases rounds with
    | zero => rfl
    | succ rounds =>
      rw [scanObjects_encode hheader]
      exact ih rounds

/-! ### Items -/

def ParsedObjectHeader.Counted (header : ParsedObjectHeader) : Prop := ∀ items ∈ header.items, header.count = some items.length

theorem scanData_counted (hnone : header.items = none) (octets : Buffer) : (scanData header octets).1.Counted := by
  have hkeep : header.Counted := by
    intro items hitems
    rw [hnone] at hitems
    cases hitems
  unfold scanData
  dsimp only
  split_ifs
  · split
    · rename_i objectSize count hsize hcount
      split
      · rename_i items rest hread
        intro items' hitems
        obtain rfl := Option.some.inj hitems
        rw [(readItems_sound hread).1]
        exact hcount
      · exact hkeep
    · exact hkeep
  · exact hkeep
  · exact hkeep
  · exact hkeep
  · exact hkeep

theorem scanHeader_counted (hnone : header.items = none) (octets : Buffer) : (scanHeader header octets).1.Counted := by
  have hkeep : ∀ other : ParsedObjectHeader, other.items = none → other.Counted := by
    intro other hother items hitems
    rw [hother] at hitems
    cases hitems
  unfold scanHeader
  split_ifs
  · split
    · exact hkeep _ hnone
    · dsimp only
      split
      · exact hkeep _ hnone
      · exact hkeep _ hnone
  · split
    · exact hkeep _ hnone
    · dsimp only
      split
      · apply scanData_counted
        exact hnone
      · apply scanData_counted
        exact hnone
      · exact hkeep _ hnone

end OxScada.Dnp3
