import OxScada.Bytes.Buffer

/-! The BER reader of the GOOSE frame parser. Offsets are JavaScript numbers, so a
length that wraps below zero moves the cursor backwards, and a read in front of
the buffer yields `undefined`; both are kept. -/

namespace OxScada.Goose
open OxScada.Bytes

structure GooseParseError where
  message : String
  deriving DecidableEq, Repr

/-- A decoded tag-length-value. `tag` is `none` for `undefined` and `stop` (the
source's `end`) is `none` for `NaN`; both only arise at a negative offset. -/
structure BerTlv where
  tag : Option UInt8
  constructed : Bool
  content : Buffer
  stop : Option ℤ
  deriving DecidableEq, Repr

variable (buf : Buffer)

def lengthOctets (cursor : ℤ) (numLenOctets : ℕ) : Buffer :=
  (buf.drop cursor.toNat).take numLenOctets

/-- The length field: its value, `none` for `undefined`, and the cursor behind it. -/
def readLength (cursor : ℤ) (lengthByte : Option UInt8) :
    Except GooseParseError (Option ℤ × ℤ) :=
  match lengthByte with
  | none => .ok (none, cursor)
  | some lengthByte =>
    if lengthByte &&& 0x80 = 0 then .ok (some lengthByte.toNat, cursor)
    else
      let numLenOctets := (lengthByte &&& 0x7f).toNat
      if numLenOctets = 0 then .error ⟨"BER: indefinite length is not supported"⟩
      else if 4 < numLenOctets then
        .error ⟨s!"BER: length encoded in {numLenOctets} octets is unsupported"⟩
      else if (buf.length : ℤ) < cursor + numLenOctets then
        .error ⟨"BER: truncated length octets"⟩
      else .ok (some (signedBigEndian (lengthOctets buf cursor numLenOctets)), cursor + numLenOctets)

def readContent (tag : Option UInt8) (length : Option ℤ) (contentStart : ℤ) :
    Except GooseParseError BerTlv :=
  let constructed := tag.any (fun t => t &&& 0x20 != 0)
  match length with
  -- `contentStart + undefined` is NaN, which passes the bound check and slices to 0
  | none => .ok ⟨tag, constructed, Buffer.subarray buf contentStart 0, none⟩
  | some length =>
    let contentEnd := contentStart + length
    if (buf.length : ℤ) < contentEnd then
      .error ⟨s!"BER: content length {length} at offset {contentStart} exceeds buffer ({buf.length})"⟩
    else .ok ⟨tag, constructed, Buffer.subarray buf contentStart contentEnd, some contentEnd⟩

def readTlv (offset : ℤ) : Except GooseParseError BerTlv :=
  if (buf.length : ℤ) ≤ offset then
    .error ⟨s!"BER: read past end of buffer at offset {offset}"⟩
  else
    let firstTagByte := Buffer.at? buf offset
    -- `undefined & 0x1f` is 0, so a missing tag passes
    if firstTagByte.any (fun t => t &&& 0x1f == 0x1f) then
      .error ⟨"BER: high-tag-number form is not supported"⟩
    else if (buf.length : ℤ) ≤ offset + 1 then
      .error ⟨"BER: truncated before length octet"⟩
    else
      match readLength buf (offset + 2) (Buffer.at? buf (offset + 1)) with
      | .error e => .error e
      | .ok (length, contentStart) => readContent buf firstTagByte length contentStart

/-! ### One call from inside the buffer -/

def headerEnd (o : ℕ) : ℕ :=
  match buf[o + 1]? with
  | none => o + 2
  | some l => if l &&& 0x80 = 0 then o + 2 else o + 2 + (l &&& 0x7f).toNat

/-- What a reader owes its caller at `o`: an error, or an element that moves forward,
stays inside the buffer and carries exactly the octets behind its header. -/
def TlvSound (o : ℕ) : Except GooseParseError BerTlv → Prop
  | .error _ => True
  | .ok tlv => ∃ stop : ℕ, tlv.stop = some (stop : ℤ) ∧ o < stop ∧ stop ≤ buf.length ∧
      headerEnd buf o ≤ stop ∧ tlv.content = (buf.take stop).drop (headerEnd buf o)

/-- The element at `o` has a readable tag and a length field of four octets whose
first one has its top bit set, that is a length of at least `2 ^ 31`. -/
def negativeLength (o : ℕ) : Bool :=
  (buf[o]?).any (fun t => t &&& 0x1f != 0x1f) && buf[o + 1]? == some 0x84 &&
    decide (o + 6 ≤ buf.length) && (buf[o + 2]?).any (fun b => 0x80 ≤ b)

theorem longForm_four {l : UInt8} (hlong : l &&& 0x80 ≠ 0) (hfour : (l &&& 0x7f).toNat = 4) :
    l = 0x84 := by
  obtain ⟨l⟩ := l
  revert l
  decide

variable {buf : Buffer} {o : ℕ}

theorem lengthOctets_length {c n : ℕ} (h : c + n ≤ buf.length) :
    (lengthOctets buf c n).length = n := by
  simp only [lengthOctets, Int.toNat_natCast, List.length_take, List.length_drop]
  omega

theorem lengthOctets_four {c : ℕ} (h : c + 4 ≤ buf.length) :
    ∃ b bs, buf[c]? = some b ∧ bs.length = 3 ∧ lengthOctets buf c 4 = b :: bs := by
  have hlen := lengthOctets_length h
  obtain ⟨b, bs, hb⟩ := List.exists_cons_of_length_pos (l := lengthOctets buf c 4) (by omega)
  refine ⟨b, bs, ?_, ?_, hb⟩
  · have hget : (lengthOctets buf c 4)[0]? = buf[c]? := by
      simp [lengthOctets]
    rw [← hget, hb]
    rfl
  · simpa [hb] using hlen

theorem bigEndian_four {b : UInt8} {bs : Buffer} (h : bs.length = 3) :
    bigEndian (b :: bs) < 2 ^ 31 ↔ b < 0x80 := by
  have hlt := bigEndian_lt bs
  rw [h] at hlt
  rw [bigEndian_cons, h, UInt8.lt_iff_toNat_lt]
  have hc : (0x80 : UInt8).toNat = 128 := rfl
  rw [hc]
  omega

theorem readLength_ok {l : UInt8} {length : Option ℤ} {start : ℤ}
    (hl : buf[o + 1]? = some l) (h : readLength buf (o + 2) (some l) = .ok (length, start)) :
    start = headerEnd buf o ∧ ((∃ n : ℕ, length = some (n : ℤ)) ∨
      (l = 0x84 ∧ o + 6 ≤ buf.length ∧ (∃ b, buf[o + 2]? = some b ∧ 0x80 ≤ b) ∧
        ∃ n : ℕ, 0 < n ∧ length = some (-(n : ℤ)))) := by
  have hhead : headerEnd buf o = if l &&& 0x80 = 0 then o + 2 else o + 2 + (l &&& 0x7f).toNat := by
    rw [headerEnd, hl]
  simp only [readLength] at h
  split_ifs at h with hshort hzero hmany htrunc
  · obtain ⟨rfl, rfl⟩ := Prod.mk.inj (Except.ok.inj h)
    rw [hhead, if_pos hshort]
    exact ⟨by push_cast; ring, .inl ⟨_, rfl⟩⟩
  · obtain ⟨rfl, rfl⟩ := Prod.mk.inj (Except.ok.inj h)
    rw [hhead, if_neg hshort]
    refine ⟨by push_cast; ring, ?_⟩
    set n := (l &&& 0x7f).toNat with hn
    have hfit : o + 2 + n ≤ buf.length := by omega
    have hlen : (lengthOctets buf ((o + 2 : ℕ) : ℤ) n).length = n := lengthOctets_length hfit
    push_cast at hlen
    have hval := signedBigEndian_eq (show (lengthOctets buf (o + 2) n).length ≤ 4 by omega)
    by_cases hsmall : bigEndian (lengthOctets buf (o + 2) n) < 2 ^ 31
    · rw [if_pos hsmall] at hval
      exact .inl ⟨_, by rw [hval]⟩
    · -- only four octets can reach 2 ^ 31
      have hbound := bigEndian_lt (lengthOctets buf (o + 2) n)
      rw [hlen] at hbound
      have hfour : n = 4 := by
        by_contra hne
        have : n ≤ 3 := by omega
        have hpow : 256 ^ n ≤ 256 ^ 3 := Nat.pow_le_pow_right (by norm_num) this
        omega
      rw [hfour] at hfit hval hsmall hbound
      obtain ⟨b, bs, hb, hbs, hcons⟩ := lengthOctets_four hfit
      push_cast at hcons
      rw [if_neg hsmall] at hval
      have htop : 0x80 ≤ b := by
        rw [hcons, bigEndian_four hbs] at hsmall
        exact UInt8.not_lt.mp hsmall
      refine .inr ⟨longForm_four hshort (hn ▸ hfour), hfit, ⟨b, hb, htop⟩,
        2 ^ 32 - bigEndian (lengthOctets buf (o + 2) 4), by omega, ?_⟩
      rw [hfour, hval, Nat.cast_sub (by omega)]
      push_cast
      rw [neg_sub]

/-- An element read from inside the buffer either ends behind its header, at a natural
position, or has the negative length that `negativeLength` detects. -/
theorem readTlv_ok {tlv : BerTlv} (ho : o < buf.length)
    (h : readTlv buf o = .ok tlv) :
    (∃ n : ℕ, headerEnd buf o + n ≤ buf.length ∧ tlv.stop = some ((headerEnd buf o + n : ℕ) : ℤ) ∧
      tlv.content = (buf.take (headerEnd buf o + n)).drop (headerEnd buf o)) ∨
    (negativeLength buf o = true ∧
      ∃ n : ℕ, 0 < n ∧ tlv.stop = some ((headerEnd buf o : ℤ) - n)) := by
  obtain ⟨t, ht⟩ : ∃ t, buf[o]? = some t := ⟨_, List.getElem?_eq_getElem ho⟩
  rw [readTlv, if_neg (by omega)] at h
  simp only [Buffer.at?_natCast, ht, Option.any_some] at h
  split_ifs at h with htag hend
  obtain ⟨l, hl⟩ : ∃ l, buf[o + 1]? = some l :=
    ⟨_, List.getElem?_eq_getElem (by omega : o + 1 < buf.length)⟩
  rw [show Buffer.at? buf ((o : ℤ) + 1) = some l by
    rw [← hl, ← Buffer.at?_natCast]; push_cast; rfl] at h
  rcases hlen : readLength buf (o + 2) (some l) with e | ⟨length, start⟩
  · rw [hlen] at h
    cases h
  · rw [hlen] at h
    obtain ⟨rfl, ⟨n, rfl⟩ | ⟨rfl, hfit, ⟨b, hb, htop⟩, n, hpos, rfl⟩⟩ := readLength_ok hl hlen
    · simp only [readContent] at h
      split_ifs at h with hover
      obtain rfl := Except.ok.inj h
      have hle : headerEnd buf o + n ≤ buf.length := by omega
      refine .inl ⟨n, hle, by push_cast; rfl, ?_⟩
      rw [← Buffer.subarray_natCast buf (by omega) hle]
      push_cast
      rfl
    · simp only [readContent] at h
      split_ifs at h
      obtain rfl := Except.ok.inj h
      refine .inr ⟨?_, n, hpos, by rw [sub_eq_add_neg]⟩
      simp only [beq_iff_eq] at htag
      simp [negativeLength, ht, hl, hb, htag, hfit, htop]

theorem headerEnd_ge (buf : Buffer) (o : ℕ) : o + 2 ≤ headerEnd buf o := by
  unfold headerEnd
  split
  · exact le_rfl
  · split_ifs <;> omega

theorem readLength_negative {b : UInt8} (hfit : o + 6 ≤ buf.length)
    (hb : buf[o + 2]? = some b) (htop : 0x80 ≤ b) : ∃ n : ℕ, 0 < n ∧
      readLength buf (o + 2) (some 0x84) = .ok (some (-(n : ℤ)), ((o + 6 : ℕ) : ℤ)) := by
  obtain ⟨b', bs, hb', hbs, hcons⟩ := lengthOctets_four (show o + 2 + 4 ≤ buf.length by omega)
  obtain rfl : b' = b := Option.some.inj (hb'.symm.trans hb)
  push_cast at hcons
  have hbig : ¬ bigEndian (b' :: bs) < 2 ^ 31 := by
    rw [bigEndian_four hbs, UInt8.not_lt]
    exact htop
  have hlt : bigEndian (b' :: bs) < 2 ^ 32 := by
    have := bigEndian_lt (b' :: bs)
    rw [List.length_cons, hbs] at this
    omega
  have hneg : signedBigEndian (b' :: bs) = -((2 ^ 32 - bigEndian (b' :: bs) : ℕ) : ℤ) := by
    rw [signedBigEndian_eq (by simp [hbs]), if_neg hbig, Nat.cast_sub hlt.le]
    push_cast
    rw [neg_sub]
  refine ⟨_, Nat.sub_pos_of_lt hlt, ?_⟩
  have hfour : ((0x84 : UInt8) &&& 0x7f).toNat = 4 := rfl
  have hlong : ¬ (0x84 : UInt8) &&& 0x80 = 0 := by decide
  simp only [readLength, if_neg hlong, hfour]
  rw [if_neg (by norm_num), if_neg (by norm_num), if_neg (by push_cast; omega), hcons, hneg]
  rfl

/-- A negative length is not reported: the reader returns an element that ends in
front of its own header's end. -/
theorem readTlv_of_negativeLength (h : negativeLength buf o = true) :
    headerEnd buf o = o + 6 ∧ ∃ tlv, readTlv buf o = .ok tlv ∧
      ∃ n : ℕ, 0 < n ∧ tlv.stop = some (((o + 6 : ℕ) : ℤ) - n) := by
  simp only [negativeLength, Bool.and_eq_true, beq_iff_eq, decide_eq_true_eq] at h
  obtain ⟨⟨⟨htag, hl⟩, hfit⟩, htop⟩ := h
  obtain ⟨t, ht, htag⟩ := Option.any_eq_true .. |>.mp htag
  obtain ⟨b, hb, htop⟩ := Option.any_eq_true .. |>.mp htop
  obtain ⟨n, hpos, hlen⟩ := readLength_negative hfit hb (of_decide_eq_true htop)
  have hhead : headerEnd buf o = o + 6 := by
    rw [headerEnd, hl]
    rfl
  refine ⟨hhead, ⟨some t, t &&& 0x20 != 0,
    Buffer.subarray buf ((o + 6 : ℕ) : ℤ) (((o + 6 : ℕ) : ℤ) + -(n : ℤ)),
    some (((o + 6 : ℕ) : ℤ) + -(n : ℤ))⟩, ?_, n, hpos, by rw [sub_eq_add_neg]⟩
  rw [readTlv, if_neg (by omega)]
  simp only [Buffer.at?_natCast, ht, Option.any_some]
  rw [if_neg (by simpa using htag), if_neg (by omega)]
  rw [show Buffer.at? buf ((o : ℤ) + 1) = some 0x84 by
    rw [← hl, ← Buffer.at?_natCast]; push_cast; rfl, hlen]
  simp only [readContent]
  rw [if_neg (by push_cast; omega)]
  rfl

theorem tlvSound_iff (ho : o < buf.length) :
    TlvSound buf o (readTlv buf o) ↔ negativeLength buf o = false := by
  constructor
  · intro hs
    by_contra hneg
    obtain ⟨hhead, tlv, hread, n, hpos, hstop⟩ :=
      readTlv_of_negativeLength (Bool.eq_true_of_not_eq_false hneg)
    rw [hread] at hs
    obtain ⟨stop, hstop', -, -, hle, -⟩ := hs
    have := Option.some.inj (hstop'.symm.trans hstop)
    omega
  · intro hneg
    rcases hread : readTlv buf o with e | tlv
    · trivial
    · obtain ⟨n, hle, hstop, hcontent⟩ | ⟨htrue, -⟩ := readTlv_ok ho hread
      · have := headerEnd_ge buf o
        exact ⟨_, hstop, by omega, hle, by omega, hcontent⟩
      · simp [htrue] at hneg

theorem negativeLength_of_infix {s : Buffer} (h : s <:+: buf)
    (hneg : negativeLength s o = true) : ∃ o' < buf.length, negativeLength buf o' = true := by
  obtain ⟨p, q, rfl⟩ := h
  have hfit : o + 6 ≤ s.length := by
    simp only [negativeLength, Bool.and_eq_true, decide_eq_true_eq] at hneg
    exact hneg.1.2
  have hget : ∀ i, i < s.length → (p ++ s ++ q)[p.length + i]? = s[i]? := by
    intro i hi
    rw [List.append_assoc, List.getElem?_append_right (by omega), Nat.add_sub_cancel_left,
      List.getElem?_append_left hi]
  refine ⟨p.length + o, by simp; omega, ?_⟩
  simp only [negativeLength, hget o (by omega), Nat.add_assoc, hget (o + 1) (by omega),
    hget (o + 2) (by omega)] at hneg ⊢
  simp only [Bool.and_eq_true, decide_eq_true_eq] at hneg ⊢
  refine ⟨⟨hneg.1.1, ?_⟩, hneg.2⟩
  simp
  omega

end OxScada.Goose
