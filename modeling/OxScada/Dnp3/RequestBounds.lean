import OxScada.Dnp3.RequestGrammar
import OxScada.Runs.Reachable

/-! The request parser with the offsets of the source. A read outside the fragment is an error here, and
none is made: the parser comes to what the scan of the octets that are left comes to. -/

namespace OxScada.Dnp3
open OxScada.Bytes OxScada.Js

/-- What the parser must not do: read outside the fragment, or go on for ever. -/
inductive ScanFault where
  | outside (off : ℕ)
  | unfinished
  deriving DecidableEq, Repr

namespace Fragment
variable (fragment : Buffer)

def octetAt (off : ℕ) : Except ScanFault UInt8 :=
  match fragment[off]? with
  | some octet => .ok octet
  | none => .error (.outside off)

def uint16At (off : ℕ) : Except ScanFault ℕ := do
  let low ← octetAt fragment off
  let high ← octetAt fragment (off + 1)
  return readUIntLE [low, high]

def subarray (off stop : ℕ) : Except ScanFault Buffer :=
  if stop ≤ fragment.length then .ok ((fragment.take stop).drop off) else .error (.outside stop)

/-- The loop over the free-format bodies, and the offset after them. `none` is `finish(false)`. -/
def bodiesAt : ℕ → ℕ → Except ScanFault (Option (List Buffer × ℕ))
  | 0, off => .ok (some ([], off))
  | n + 1, off =>
    if fragment.length < off + 2 then .ok none
    else do
      let length ← uint16At fragment off
      if fragment.length < off + 2 + length then return none
      else
        let body ← subarray fragment (off + 2) (off + 2 + length)
        let later ← bodiesAt n (off + 2 + length)
        return later.map fun later => (body :: later.1, later.2)

def indexAt (prefixLen off : ℕ) : Except ScanFault ℕ :=
  if prefixLen = 1 then (octetAt fragment off).map UInt8.toNat else uint16At fragment off

/-- The loop over the prefixed objects, and the offset after them. -/
def itemsAt (prefixLen objectSize : ℕ) : ℕ → ℕ → Except ScanFault (Option (List ParsedPrefixedObject × ℕ))
  | 0, off => .ok (some ([], off))
  | n + 1, off =>
    if fragment.length < off + prefixLen + objectSize then .ok none
    else do
      let index ← indexAt fragment prefixLen off
      let data ← subarray fragment (off + prefixLen) (off + prefixLen + objectSize)
      let later ← itemsAt prefixLen objectSize n (off + prefixLen + objectSize)
      return later.map fun later => (⟨index, data⟩ :: later.1, later.2)

/-- The range field at an offset: the range, the count that it implies, and the offset after it. -/
def rangeAt (rangeCode : UInt8) (off : ℕ) : Except ScanFault (Option (Option (ℕ × ℕ) × Option ℤ × ℕ)) :=
  if rangeCode = 0x00 then
    if fragment.length < off + 2 then .ok none
    else do
      let start ← octetAt fragment off
      let stop ← octetAt fragment (off + 1)
      return some (some (start.toNat, stop.toNat), some ((stop.toNat : ℤ) - start.toNat + 1), off + 2)
  else if rangeCode = 0x01 then
    if fragment.length < off + 4 then .ok none
    else do
      let start ← uint16At fragment off
      let stop ← uint16At fragment (off + 2)
      return some (some (start, stop), some ((stop : ℤ) - start + 1), off + 4)
  else if rangeCode = 0x06 then .ok (some (none, none, off))
  else if rangeCode = 0x07 then
    if fragment.length < off + 1 then .ok none
    else do
      let count ← octetAt fragment off
      return some (none, some (count.toNat : ℤ), off + 1)
  else if rangeCode = 0x08 then
    if fragment.length < off + 2 then .ok none
    else do
      let count ← uint16At fragment off
      return some (none, some (count : ℤ), off + 2)
  else .ok none

def dataAt (header : ParsedObjectHeader) (off : ℕ) : Except ScanFault (ParsedObjectHeader × Option ℕ) :=
  let prefixCode := header.qualifier >>> 4
  if prefixCode = 1 ∨ prefixCode = 2 then
    match commandObjectSize header.group header.variation, header.count with
    | some objectSize, some count => do
      let prefixLen := if prefixCode = 1 then 1 else 2
      match ← itemsAt fragment prefixLen objectSize count off with
      | some (items, off) => return ({ header with items := some items }, some off)
      | none => return (header, none)
    | _, _ => .ok (header, none)
  else if prefixCode = 0 ∧ header.group = Group.internalIndications ∧ header.variation = 1 ∧ header.count.isSome then
    let byteLength := (header.count.getD 0 + 7) / 8
    if fragment.length < off + byteLength then .ok (header, none)
    else do
      let data ← subarray fragment off (off + byteLength)
      return ({ header with data := some data }, some (off + byteLength))
  else if prefixCode ≠ 0 then .ok (header, none)
  else .ok (header, some off)

def headerAt (header : ParsedObjectHeader) (off : ℕ) : Except ScanFault (ParsedObjectHeader × Option ℕ) :=
  if header.qualifier = 0x5b then
    if fragment.length < off + 1 then .ok (header, none)
    else do
      let count ← octetAt fragment off
      let header := { header with count := some count.toNat }
      match ← bodiesAt fragment count.toNat (off + 1) with
      | some (bodies, off) => return ({ header with freeFormat := some bodies }, some off)
      | none => return (header, none)
  else do
    match ← rangeAt fragment (header.qualifier &&& 0x0f) off with
    | none => return (header, none)
    | some (range, count, off) =>
      let header := { header with range := range }
      match count with
      | none => dataAt fragment header off
      | some (.ofNat count) => dataAt fragment { header with count := some count } off
      | some (.negSucc _) => return (header, none)

def objectsAt : ℕ → ℕ → Except ScanFault (List ParsedObjectHeader × Bool)
  | 0, _ => .error .unfinished
  | rounds + 1, off =>
    if off + 3 ≤ fragment.length then do
      let group ← octetAt fragment off
      let variation ← octetAt fragment (off + 1)
      let qualifier ← octetAt fragment (off + 2)
      match ← headerAt fragment { group, variation, qualifier } (off + 3) with
      | (header, none) => return ([header], false)
      | (header, some off) =>
        let later ← objectsAt rounds off
        return (header :: later.1, later.2)
    else .ok ([], decide (off = fragment.length))

end Fragment

open Fragment

/-! ### Reads at the offset of what is left

The octets before the offset are `front` and those from it on are `rest`. -/

variable {fragment front rest : Buffer} {off : ℕ}

theorem octetAt_left {octet : UInt8} (hfragment : fragment = front ++ octet :: rest) (hoff : off = front.length) :
    octetAt fragment off = .ok octet := by
  subst hfragment hoff
  simp [octetAt]

theorem uint16At_left {low high : UInt8} (hfragment : fragment = front ++ low :: high :: rest) (hoff : off = front.length) :
    uint16At fragment off = .ok (readUIntLE [low, high]) := by
  have hnext : octetAt fragment (off + 1) = .ok high :=
    octetAt_left (show fragment = (front ++ [low]) ++ high :: rest by simp [hfragment]) (by simp [hoff])
  rw [uint16At, octetAt_left hfragment hoff, hnext]
  rfl

theorem subarray_left {n : ℕ} (hfragment : fragment = front ++ rest) (hoff : off = front.length) (h : n ≤ rest.length) :
    subarray fragment off (off + n) = .ok (rest.take n) := by
  subst hfragment hoff
  rw [subarray, if_pos (by rw [List.length_append]; omega), List.take_length_add_append, List.drop_left]

theorem length_left (hfragment : fragment = front ++ rest) (hoff : off = front.length) : fragment.length = off + rest.length := by
  rw [hfragment, List.length_append, hoff]

theorem exists_pair {octets : Buffer} (h : ¬ octets.length < 2) : ∃ first second tail, octets = first :: second :: tail := by
  rcases octets with _ | ⟨first, _ | ⟨second, tail⟩⟩
  · exact absurd (by simp) h
  · exact absurd (by simp) h
  · exact ⟨first, second, tail, rfl⟩

theorem bodiesAt_left (n : ℕ) (hfragment : fragment = front ++ rest) (hoff : off = front.length) :
    bodiesAt fragment n off = .ok ((readBodies n rest).map fun later => (later.1, fragment.length - later.2.length)) := by
  induction n generalizing front rest off with
  | zero =>
    have hlength := length_left hfragment hoff
    have hsub : off + rest.length - rest.length = off := Nat.add_sub_cancel _ _
    rw [bodiesAt, readBodies, Option.map_some, hlength, hsub]
  | succ n ih =>
    have hlength := length_left hfragment hoff
    rw [bodiesAt]
    by_cases hsize : rest.length < 2
    · rw [if_pos (by omega), readBodies_short hsize]
      rfl
    · obtain ⟨low, high, tail, rfl⟩ := exists_pair hsize
      simp only [List.length_cons] at hlength
      rw [if_neg (by omega), uint16At_left hfragment hoff, readBodies]
      show (if fragment.length < off + 2 + readUIntLE [low, high] then _ else _) = _
      by_cases hshort : tail.length < readUIntLE [low, high]
      · rw [if_pos (by omega), if_pos hshort]
        rfl
      · have htail : fragment = (front ++ [low, high]) ++ tail := by simp [hfragment]
        have hbody : subarray fragment (off + 2) (off + 2 + readUIntLE [low, high]) = .ok (tail.take (readUIntLE [low, high])) :=
          subarray_left htail (by simp [hoff]) (not_lt.mp hshort)
        have hnext : fragment = (front ++ [low, high] ++ tail.take (readUIntLE [low, high])) ++ tail.drop (readUIntLE [low, high]) := by
          rw [List.append_assoc, List.take_append_drop, htail]
        have hlater := ih hnext (show off + 2 + readUIntLE [low, high] = _ by simp; omega)
        rw [if_neg (by omega), if_neg hshort, hbody, Option.map_map]
        show (bodiesAt fragment n (off + 2 + readUIntLE [low, high]) >>= _) = _
        rw [hlater]
        cases readBodies n (tail.drop (readUIntLE [low, high])) <;> rfl

theorem indexAt_left {prefixLen : ℕ} (hpre : prefixLen = 1 ∨ prefixLen = 2) (hfragment : fragment = front ++ rest)
    (hoff : off = front.length) (h : prefixLen ≤ rest.length) :
    indexAt fragment prefixLen off = .ok (readUIntLE (rest.take prefixLen)) := by
  unfold indexAt
  rcases hpre with rfl | rfl
  · match rest, h with
    | octet :: tail, _ =>
      rw [if_pos rfl, octetAt_left hfragment hoff]
      rfl
  · obtain ⟨low, high, tail, rfl⟩ := exists_pair (not_lt.mpr h)
    rw [if_neg (by norm_num), uint16At_left hfragment hoff]
    rfl

theorem itemsAt_left {prefixLen : ℕ} (hpre : prefixLen = 1 ∨ prefixLen = 2) (objectSize n : ℕ) (hfragment : fragment = front ++ rest)
    (hoff : off = front.length) : itemsAt fragment prefixLen objectSize n off =
      .ok ((readItems prefixLen objectSize n rest).map fun later => (later.1, fragment.length - later.2.length)) := by
  induction n generalizing front rest off with
  | zero =>
    have hlength := length_left hfragment hoff
    have hsub : off + rest.length - rest.length = off := Nat.add_sub_cancel _ _
    rw [itemsAt, readItems, Option.map_some, hlength, hsub]
  | succ n ih =>
    have hlength := length_left hfragment hoff
    rw [itemsAt, readItems]
    by_cases hshort : rest.length < prefixLen + objectSize
    · rw [if_pos (by omega), if_pos hshort]
      rfl
    · have hbody : fragment = (front ++ rest.take prefixLen) ++ rest.drop prefixLen := by
        rw [List.append_assoc, List.take_append_drop, hfragment]
      have hdata : subarray fragment (off + prefixLen) (off + prefixLen + objectSize) = .ok ((rest.drop prefixLen).take objectSize) :=
        subarray_left hbody (by simp; omega) (by simp; omega)
      have hnext : fragment = (front ++ rest.take (prefixLen + objectSize)) ++ rest.drop (prefixLen + objectSize) := by
        rw [List.append_assoc, List.take_append_drop, hfragment]
      have hlater := ih hnext (show off + prefixLen + objectSize = _ by simp; omega)
      rw [if_neg (by omega), if_neg hshort, indexAt_left hpre hfragment hoff (by omega), Option.map_map]
      show (subarray fragment (off + prefixLen) (off + prefixLen + objectSize) >>= _) = _
      rw [hdata]
      show (itemsAt fragment prefixLen objectSize n (off + prefixLen + objectSize) >>= _) = _
      rw [hlater]
      cases readItems prefixLen objectSize n (rest.drop (prefixLen + objectSize)) <;> rfl

theorem rangeAt_short {rangeCode : UInt8} (hlength : fragment.length = off + rest.length) (h : rest.length < rangeWidth rangeCode) :
    rangeAt fragment rangeCode off = .ok none := by
  unfold rangeWidth at h
  unfold rangeAt
  by_cases hzero : rangeCode = 0x00
  · rw [if_pos (.inl hzero)] at h
    rw [if_pos hzero, if_pos (by omega)]
  by_cases hone : rangeCode = 0x01
  · rw [if_neg (by rw [hone]; decide), if_pos hone] at h
    rw [if_neg hzero, if_pos hone, if_pos (by omega)]
  by_cases hseven : rangeCode = 0x07
  · subst hseven
    have hnone : rest.length < 1 := h
    have hend : fragment.length < off + 1 := by omega
    simp [hend]
  by_cases height : rangeCode = 0x08
  · subst height
    have hnone : rest.length < 2 := h
    have hend : fragment.length < off + 2 := by omega
    simp [hend]
  · rw [if_neg (by simp [hzero, height]), if_neg hone, if_neg hseven] at h
    omega

theorem rangeAt_left (rangeCode : UInt8) (hfragment : fragment = front ++ rest) (hoff : off = front.length) :
    rangeAt fragment rangeCode off =
      .ok ((readRange rangeCode rest).map fun field => (field.range, field.count, fragment.length - field.rest.length)) := by
  have hlength := length_left hfragment hoff
  by_cases hshort : rest.length < rangeWidth rangeCode
  · rw [rangeAt_short hlength hshort, readRange_short hshort]
    rfl
  by_cases hzero : rangeCode = 0x00
  · subst hzero
    obtain ⟨start, stop, tail, rfl⟩ := exists_pair hshort
    have hstop : octetAt fragment (off + 1) = .ok stop :=
      octetAt_left (show fragment = (front ++ [start]) ++ stop :: tail by simp [hfragment]) (by simp [hoff])
    simp only [List.length_cons] at hlength
    simp [rangeAt, readRange, octetAt_left hfragment hoff, hstop, hlength, bind, Except.bind, pure, Except.pure]
    omega
  by_cases hone : rangeCode = 0x01
  · subst hone
    have hfour : ¬ rest.length < 4 := hshort
    obtain ⟨start0, start1, tail, rfl⟩ := exists_pair (show ¬ rest.length < 2 by omega)
    obtain ⟨stop0, stop1, tail, rfl⟩ := exists_pair (show ¬ tail.length < 2 by simp only [List.length_cons] at hfour; omega)
    have hstop : uint16At fragment (off + 2) = .ok (readUIntLE [stop0, stop1]) :=
      uint16At_left (show fragment = (front ++ [start0, start1]) ++ stop0 :: stop1 :: tail by simp [hfragment]) (by simp [hoff])
    simp only [List.length_cons] at hlength
    have hlong : ¬ tail.length + 1 + 1 + 1 + 1 < 4 := by omega
    simp [rangeAt, readRange, uint16At_left hfragment hoff, hstop, hlength, hlong, bind, Except.bind, pure, Except.pure]
    omega
  by_cases hall : rangeCode = 0x06
  · subst hall
    simp [rangeAt, readRange, hlength]
  by_cases hseven : rangeCode = 0x07
  · subst hseven
    obtain ⟨count, tail, rfl⟩ := List.exists_cons_of_length_pos (show 0 < rest.length from not_lt.mp hshort)
    simp only [List.length_cons] at hlength
    simp [rangeAt, readRange, octetAt_left hfragment hoff, hlength, bind, Except.bind, pure, Except.pure]
    omega
  by_cases height : rangeCode = 0x08
  · subst height
    obtain ⟨low, high, tail, rfl⟩ := exists_pair hshort
    simp only [List.length_cons] at hlength
    simp [rangeAt, readRange, uint16At_left hfragment hoff, hlength, bind, Except.bind, pure, Except.pure]
    omega
  · unfold rangeAt readRange
    rw [if_neg hzero, if_neg hone, if_neg hall, if_neg hseven, if_neg height, if_neg hzero, if_neg hone, if_neg hall, if_neg hseven, if_neg height]
    rfl

theorem readRange_suffix {rangeCode : UInt8} {body : Buffer} {field : RangeField} (h : readRange rangeCode body = some field) :
    ∃ octets, body = octets ++ field.rest := by
  unfold readRange at h
  split_ifs at h
  · split at h
    · obtain rfl := Option.some.inj h
      exact ⟨[_, _], rfl⟩
    · cases h
  · split at h
    · obtain rfl := Option.some.inj h
      exact ⟨[_, _, _, _], rfl⟩
    · cases h
  · obtain rfl := Option.some.inj h
    exact ⟨[], rfl⟩
  · split at h
    · obtain rfl := Option.some.inj h
      exact ⟨[_], rfl⟩
    · cases h
  · split at h
    · obtain rfl := Option.some.inj h
      exact ⟨[_, _], rfl⟩
    · cases h

/-! ### The scan -/

theorem dataAt_left (header : ParsedObjectHeader) (hfragment : fragment = front ++ rest) (hoff : off = front.length) :
    dataAt fragment header off =
      .ok ((scanData header rest).1, (scanData header rest).2.map fun rest => fragment.length - rest.length) := by
  have hlength := length_left hfragment hoff
  unfold dataAt scanData
  dsimp only
  by_cases hpre : header.qualifier >>> 4 = 1 ∨ header.qualifier >>> 4 = 2
  · rw [if_pos hpre, if_pos hpre]
    cases hobject : commandObjectSize header.group header.variation with
    | none => rfl
    | some objectSize =>
      cases hcount : header.count with
      | none => rfl
      | some count =>
        dsimp only
        have hwidth : (if header.qualifier >>> 4 = 1 then 1 else 2) = (header.qualifier >>> 4).toNat := by
          rcases hpre with h | h <;> rw [h] <;> rfl
        have hone : (header.qualifier >>> 4).toNat = 1 ∨ (header.qualifier >>> 4).toNat = 2 := by
          rcases hpre with h | h <;> rw [h] <;> decide
        rw [hwidth, itemsAt_left hone objectSize count hfragment hoff]
        cases readItems (header.qualifier >>> 4).toNat objectSize count rest <;> rfl
  · rw [if_neg hpre, if_neg hpre]
    split_ifs with hpacked hshort hlong hlong hother
    · rfl
    · omega
    · omega
    · have hdata : subarray fragment off (off + (header.count.getD 0 + 7) / 8) = .ok (rest.take ((header.count.getD 0 + 7) / 8)) :=
        subarray_left hfragment hoff (not_lt.mp hlong)
      have hnext : off + (header.count.getD 0 + 7) / 8 = fragment.length - (rest.drop ((header.count.getD 0 + 7) / 8)).length := by
        rw [List.length_drop]
        omega
      rw [hdata, Option.map_some, ← hnext]
      rfl
    · rfl
    · have hhere : off = fragment.length - rest.length := by omega
      rw [Option.map_some, ← hhere]

theorem headerAt_left (header : ParsedObjectHeader) (hfragment : fragment = front ++ rest) (hoff : off = front.length) :
    headerAt fragment header off =
      .ok ((scanHeader header rest).1, (scanHeader header rest).2.map fun rest => fragment.length - rest.length) := by
  have hlength := length_left hfragment hoff
  unfold headerAt scanHeader
  by_cases hfree : header.qualifier = 0x5b
  · rw [if_pos hfree, if_pos hfree]
    match rest, hfragment, hlength with
    | [], _, hlength =>
      rw [if_pos (by rw [hlength]; simp)]
      rfl
    | count :: tail, hfragment, hlength =>
      rw [List.length_cons] at hlength
      have hbodies : bodiesAt fragment count.toNat (off + 1) =
          .ok ((readBodies count.toNat tail).map fun later => (later.1, fragment.length - later.2.length)) :=
        bodiesAt_left _ (show fragment = (front ++ [count]) ++ tail by simp [hfragment]) (by simp [hoff])
      rw [if_neg (by omega), octetAt_left hfragment hoff]
      dsimp only [bind, Except.bind]
      rw [hbodies]
      cases readBodies count.toNat tail with
      | none | some => dsimp only; rfl
  · rw [if_neg hfree, if_neg hfree, rangeAt_left _ hfragment hoff]
    cases hrange : readRange (header.qualifier &&& 0x0f) rest with
    | none => rfl
    | some field =>
      obtain ⟨octets, rfl⟩ := readRange_suffix hrange
      have hsplit : fragment = (front ++ octets) ++ field.rest := by simp [hfragment]
      have hnext : fragment.length - field.rest.length = (front ++ octets).length := by
        rw [congrArg List.length hsplit, List.length_append]
        omega
      have hdata := fun header => dataAt_left header hsplit hnext
      obtain ⟨range, count, left⟩ := field
      match count with
      | none => exact hdata _
      | some (.ofNat n) => exact hdata _
      | some (.negSucc n) => rfl

theorem scanHeader_suffix {group variation qualifier : UInt8} {octets left : Buffer}
    (h : (scanHeader { group, variation, qualifier } octets).2 = some left) : ∃ front, octets = front ++ left := by
  have hpair : scanHeader { group, variation, qualifier } octets = ((scanHeader { group, variation, qualifier } octets).1, some left) :=
    Prod.ext rfl h
  have hscanned := (scanHeader_sound hpair).2
  rw [ParsedObjectHeader.encode] at hscanned
  simp only [List.cons_append, List.cons.injEq] at hscanned
  exact ⟨_, hscanned.2.2.2⟩

theorem objectsAt_left {rounds : ℕ} (hfragment : fragment = front ++ rest) (hoff : off = front.length) (hrounds : rest.length < rounds)
    {rounds' : ℕ} (hrounds' : rest.length ≤ rounds') : objectsAt fragment rounds off = .ok (scanObjects rounds' rest) := by
  induction rounds generalizing front rest off rounds' with
  | zero => omega
  | succ rounds ih =>
    have hlength := length_left hfragment hoff
    rw [objectsAt]
    match rest, rounds', hfragment, hrounds' with
    | [], rounds', hfragment, _ =>
      have hend : off = fragment.length := hlength.symm
      rw [if_neg (by omega), decide_eq_true hend]
      cases rounds' <;> rfl
    | [_], rounds' + 1, hfragment, _ =>
      have hlength := length_left hfragment hoff
      simp only [List.length_singleton] at hlength
      rw [if_neg (by omega), decide_eq_false (by omega)]
      rfl
    | [_, _], rounds' + 1, hfragment, _ =>
      have hlength := length_left hfragment hoff
      simp only [List.length_cons, List.length_nil] at hlength
      rw [if_neg (by omega), decide_eq_false (by omega)]
      rfl
    | group :: variation :: qualifier :: body, rounds' + 1, hfragment, hrounds' =>
      have hlength := length_left hfragment hoff
      simp only [List.length_cons] at hlength hrounds hrounds'
      have hvariation : octetAt fragment (off + 1) = .ok variation :=
        octetAt_left (show fragment = (front ++ [group]) ++ variation :: qualifier :: body by simp [hfragment]) (by simp [hoff])
      have hqualifier : octetAt fragment (off + 2) = .ok qualifier :=
        octetAt_left (show fragment = (front ++ [group, variation]) ++ qualifier :: body by simp [hfragment]) (by simp [hoff])
      have hbody : fragment = (front ++ [group, variation, qualifier]) ++ body := by simp [hfragment]
      have hheader := headerAt_left { group, variation, qualifier } hbody (show off + 3 = _ by simp [hoff])
      rw [if_pos (by omega), octetAt_left hfragment hoff, hvariation, hqualifier]
      show (headerAt fragment { group, variation, qualifier } (off + 3) >>= _) = _
      rw [hheader, scanObjects]
      dsimp only
      cases hleft : (scanHeader { group, variation, qualifier } body).2 with
      | none => rfl
      | some left =>
        obtain ⟨octets, rfl⟩ := scanHeader_suffix hleft
        have hsplit : fragment = (front ++ [group, variation, qualifier] ++ octets) ++ left := by simp [hbody]
        have hnext : fragment.length - left.length = (front ++ [group, variation, qualifier] ++ octets).length := by
          rw [congrArg List.length hsplit, List.length_append]
          omega
        rw [List.length_append] at hrounds hrounds'
        have hlater := ih hsplit hnext (by omega) (show left.length ≤ rounds' by omega)
        show (objectsAt fragment rounds (fragment.length - left.length) >>= _) = _
        rw [hlater]
        rfl

def parseRequestAt (fragment : Buffer) : Except ScanFault (Except String ParsedRequest) :=
  if fragment.length < 2 then .ok (.error "DNP3 application fragment too short")
  else do
    let appControl ← octetAt fragment 0
    let func ← octetAt fragment 1
    let rawObjects ← subarray fragment 2 fragment.length
    let scanned ← objectsAt fragment (fragment.length + 1) 2
    return .ok {
      appControl := appControl
      fir := appControl &&& 0x80 ≠ 0
      fin := appControl &&& 0x40 ≠ 0
      con := appControl &&& 0x20 ≠ 0
      uns := appControl &&& 0x10 ≠ 0
      seq := (appControl &&& 0x0f).toNat
      func := func
      objects := scanned.1
      objectsComplete := scanned.2
      rawObjects := rawObjects
      raw := fragment }

theorem parseRequestAt_eq (fragment : Buffer) : parseRequestAt fragment = .ok (parseRequest fragment) := by
  match fragment with
  | [] => rfl
  | [_] => rfl
  | appControl :: func :: body =>
    have hscan : objectsAt (appControl :: func :: body) ((appControl :: func :: body).length + 1) 2 = .ok (scanObjects body.length body) :=
      objectsAt_left (show appControl :: func :: body = [appControl, func] ++ body from rfl) rfl (by simp; omega) le_rfl
    have hraw : subarray (appControl :: func :: body) 2 (appControl :: func :: body).length = .ok body := by
      simp [subarray]
    rw [parseRequestAt, if_neg (by simp), hraw, hscan]
    rfl

/-! ### Requests -/

/-- Parsing a request is exact: it stays inside the fragment, a complete parse writes the objects back, the items are as
many as the count says, and what ends inside an object is not complete. -/
theorem parseRequest_exact (appControl func : UInt8) (octets : Buffer) :
    ∃ req, parseRequestAt (appControl :: func :: octets) = .ok (.ok req) ∧ parseRequest (appControl :: func :: octets) = .ok req ∧
      req.rawObjects = octets ∧
      (req.objectsComplete = true → req.objects.flatMap ParsedObjectHeader.encode = req.rawObjects) ∧
      (∀ header ∈ req.objects, ∀ items ∈ header.items, header.count = some items.length) ∧
      (EndsInside octets → req.objectsComplete = false) := by
  refine ⟨_, (parseRequestAt_eq _).trans rfl, rfl, rfl, fun hcomplete => ?_, ?_, fun hends => ?_⟩
  · have hscan : scanObjects octets.length octets = ((scanObjects octets.length octets).1, true) := Prod.ext rfl hcomplete
    exact (scanObjects_sound hscan).2.symm
  · exact scanObjects_forall (fun header body hnone => scanHeader_counted hnone body) _ _
  · exact scanObjects_endsInside hends _

end OxScada.Dnp3
