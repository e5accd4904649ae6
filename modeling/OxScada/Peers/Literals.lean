import OxScada.Peers.Allowlist

/-! The addresses that a literal can be normalised to: every four bytes, and every sixteen that do
not stand for an IPv4 address. -/

namespace OxScada.Peers
open OxScada.Bytes OxScada.Js OxScada.Edge

/-- Four bytes of an IPv4 address, or sixteen that are not those of one. -/
def NormalizedAddress.WellFormed (a : NormalizedAddress) : Prop :=
  match a.family with
  | .v4 => a.bytes.length = 4
  | .v6 => a.bytes.length = 16 ∧ isV4Mapped a.bytes = false

variable {bytes : Buffer}

theorem ipv4ToBytes_length {addr : Text} (h : ipv4ToBytes addr = some bytes) : bytes.length = 4 := by
  unfold ipv4ToBytes at h
  split_ifs at h with hv4
  obtain rfl := Option.some.inj h
  rw [isIPv4, Bool.and_eq_true, decide_eq_true_eq] at hv4
  rw [List.length_map, List.length_take, hv4.1]
  rfl

theorem flatMap_wordBytes_length (words : List ℕ) : (words.flatMap wordBytes).length = 2 * words.length := by
  induction words with
  | nil => rfl
  | cons word rest ih =>
    rw [List.flatMap_cons, List.length_append, ih, List.length_cons]
    show 2 + 2 * rest.length = _
    omega

theorem ipv6ToBytes_length {addr : Text} (h : ipv6ToBytes addr = some bytes) : bytes.length = 16 := by
  unfold ipv6ToBytes at h
  split_ifs at h
  dsimp only at h
  split at h
  next headWords tailWords _ _ =>
    split_ifs at h with hlong
    obtain rfl := Option.some.inj h
    rw [flatMap_wordBytes_length, List.length_append, List.length_append, List.length_replicate]
    omega
  · cases h

theorem normalizeAddress_wellFormed {input : Text} {a : NormalizedAddress} (h : normalizeAddress input = some a) : a.WellFormed := by
  unfold normalizeAddress at h
  dsimp only at h
  split_ifs at h
  split at h
  next v4 hv4 =>
    obtain rfl := Option.some.inj h
    exact ipv4ToBytes_length hv4
  · split at h
    · cases h
    next v6 hv6 =>
      have hlength := ipv6ToBytes_length hv6
      split_ifs at h with hmapped
      · obtain rfl := Option.some.inj h
        show (v6.drop 12).length = 4
        rw [List.length_drop, hlength]
      · obtain rfl := Option.some.inj h
        exact ⟨hlength, Bool.not_eq_true _ ▸ hmapped⟩

/-! ### Text -/

def plainChars : List Char := ['0', '1', '2', '3', '4', '5', '6', '7', '8', '9', 'a', 'b', 'c', 'd', 'e', 'f', '.', ':']

theorem plain_bare : ∀ c ∈ plainChars, c ≠ '%' ∧ isSpace c = false := by
  have hall : plainChars.all (fun c => c ≠ '%' && isSpace c = false) = true := by decide
  simpa using hall

theorem dropWhile_eq {p : Char → Bool} {text : Text} (h : ∀ c ∈ text, p c = false) : text.dropWhile p = text := by
  cases text with
  | nil => rfl
  | cons c rest => exact List.dropWhile_cons_of_neg (by simpa using h c List.mem_cons_self)

theorem bare_eq {text : Text} (h : ∀ c ∈ text, c ∈ plainChars) : bare text = text := by
  have hzone : '%' ∉ text := fun hmem => (plain_bare _ (h _ hmem)).1 rfl
  have hspace : ∀ c ∈ text, isSpace c = false := fun c hc => (plain_bare c (h c hc)).2
  unfold bare trim
  rw [List.splitOn_eq_singleton hzone, List.headD_cons, dropWhile_eq hspace, dropWhile_eq fun c hc => hspace c (List.mem_reverse.mp hc),
    List.reverse_reverse]

theorem intercalate_cons_cons (separator : Char) (first next : Text) (rest : List Text) :
    [separator].intercalate (first :: next :: rest) = first ++ separator :: [separator].intercalate (next :: rest) := rfl

theorem mem_intercalate {separator c : Char} {parts : List Text} (h : c ∈ [separator].intercalate parts) :
    c = separator ∨ ∃ part ∈ parts, c ∈ part := by
  induction parts with
  | nil => cases h
  | cons first rest ih =>
    cases rest with
    | nil =>
      rw [List.intercalate_singleton] at h
      exact .inr ⟨first, List.mem_cons_self, h⟩
    | cons next rest =>
      rw [intercalate_cons_cons, List.mem_append, List.mem_cons] at h
      rcases h with h | rfl | h
      · exact .inr ⟨first, List.mem_cons_self, h⟩
      · exact .inl rfl
      · rcases ih h with heq | ⟨part, hpart, hc⟩
        · exact .inl heq
        · exact .inr ⟨part, List.mem_cons_of_mem _ hpart, hc⟩

/-! ### IPv4 -/

def decimal (b : UInt8) : Text := Nat.toDigits 10 b.toNat

theorem decimal_spec : ∀ n < 256, isV4Segment (Nat.toDigits 10 n) = true ∧ digitsValue 10 (Nat.toDigits 10 n) = n ∧
    ∀ c ∈ Nat.toDigits 10 n, c ∈ plainChars ∧ c ≠ '.' := by
  have hall : ∀ n < 256, isV4Segment (Nat.toDigits 10 n) = true ∧ digitsValue 10 (Nat.toDigits 10 n) = n ∧
      (Nat.toDigits 10 n).all (fun c => c ∈ plainChars && c ≠ '.') = true := by
    decide +kernel
  simpa using hall

theorem normalizeAddress_v4 (h : bytes.length = 4) :
    normalizeAddress (['.'].intercalate (bytes.map decimal)) = some ⟨.v4, bytes⟩ := by
  have hspec : ∀ b : UInt8, isV4Segment (decimal b) = true ∧ digitsValue 10 (decimal b) = b.toNat ∧
      ∀ c ∈ decimal b, c ∈ plainChars ∧ c ≠ '.' := fun b => decimal_spec b.toNat b.toNat_lt
  have hne : bytes.map decimal ≠ [] := by
    intro hnil
    rw [List.map_eq_nil_iff] at hnil
    rw [hnil] at h
    cases h
  have hsplit : (['.'].intercalate (bytes.map decimal)).splitOn '.' = bytes.map decimal := by
    refine List.splitOn_intercalate '.' (fun part hpart hdot => ?_) hne
    obtain ⟨b, -, rfl⟩ := List.mem_map.mp hpart
    exact ((hspec b).2.2 '.' hdot).2 rfl
  have hbare : bare (['.'].intercalate (bytes.map decimal)) = ['.'].intercalate (bytes.map decimal) := by
    refine bare_eq fun c hc => ?_
    rcases mem_intercalate hc with rfl | ⟨part, hpart, hc⟩
    · decide
    · obtain ⟨b, -, rfl⟩ := List.mem_map.mp hpart
      exact ((hspec b).2.2 c hc).1
  have hempty : ['.'].intercalate (bytes.map decimal) ≠ [] := by
    intro hnil
    have hone := congrArg List.length hsplit
    rw [hnil, List.length_map, h] at hone
    cases hone
  have hv4 : isIPv4 (['.'].intercalate (bytes.map decimal)) = true := by
    rw [isIPv4, hsplit, List.length_map, h, List.all_map, Bool.and_eq_true]
    exact ⟨rfl, List.all_eq_true.mpr fun b _ => (hspec b).1⟩
  have hbytes : ipv4ToBytes (['.'].intercalate (bytes.map decimal)) = some bytes := by
    have htake : (bytes.map decimal).take 4 = bytes.map decimal := List.take_of_length_le (by rw [List.length_map, h])
    rw [ipv4ToBytes, if_pos hv4, hsplit, htake, List.map_map]
    refine congrArg some ?_
    conv_rhs => rw [← List.map_id bytes]
    refine List.map_congr_left fun b _ => ?_
    show UInt8.ofNat (digitsValue 10 (decimal b)) = b
    rw [(hspec b).2.1, UInt8.ofNat_toNat]
  unfold normalizeAddress
  rw [hbare, if_neg hempty, hbytes]

/-! ### IPv6 -/

def hexWord (word : ℕ) : Text :=
  [Nat.digitChar (word / 4096), Nat.digitChar (word / 256 % 16), Nat.digitChar (word / 16 % 16), Nat.digitChar (word % 16)]

theorem digitChar_spec : ∀ d < 16, hexValue (Nat.digitChar d) = some d ∧ Nat.digitChar d ∈ plainChars ∧
    Nat.digitChar d ≠ '.' ∧ Nat.digitChar d ≠ ':' := by
  decide

theorem hexWord_spec {word : ℕ} (h : word < 2 ^ 16) : isV6Segment (hexWord word) = true ∧ digitsValue 16 (hexWord word) = word ∧
    ∀ c ∈ hexWord word, c ∈ plainChars ∧ c ≠ '.' ∧ c ≠ ':' := by
  have hdigits : ∀ d ∈ [word / 4096, word / 256 % 16, word / 16 % 16, word % 16], d < 16 := by
    simp only [List.mem_cons, List.not_mem_nil, or_false]
    omega
  simp only [List.forall_mem_cons] at hdigits
  obtain ⟨h3, h2, h1, h0, -⟩ := hdigits
  have hchars : ∀ c ∈ hexWord word, (hexValue c).isSome = true ∧ c ∈ plainChars ∧ c ≠ '.' ∧ c ≠ ':' := by
    have hdigit : ∀ d < 16, (hexValue (Nat.digitChar d)).isSome = true ∧ Nat.digitChar d ∈ plainChars ∧
        Nat.digitChar d ≠ '.' ∧ Nat.digitChar d ≠ ':' := by
      intro d hd
      obtain ⟨hvalue, hplain⟩ := digitChar_spec d hd
      exact ⟨by rw [hvalue]; rfl, hplain⟩
    rw [hexWord, List.forall_mem_cons, List.forall_mem_cons, List.forall_mem_cons, List.forall_mem_singleton]
    exact ⟨hdigit _ h3, hdigit _ h2, hdigit _ h1, hdigit _ h0⟩
  refine ⟨?_, ?_, fun c hc => (hchars c hc).2⟩
  · unfold isV6Segment
    rw [Bool.and_eq_true, Bool.and_eq_true]
    exact ⟨⟨rfl, rfl⟩, List.all_eq_true.mpr fun c hc => (hchars c hc).1⟩
  · unfold digitsValue hexWord
    simp only [List.foldl_cons, List.foldl_nil, (digitChar_spec _ h3).1, (digitChar_spec _ h2).1, (digitChar_spec _ h1).1,
      (digitChar_spec _ h0).1, Option.getD_some]
    omega

theorem splitDoubleColon_none {groups : List Text} (h : ∀ group ∈ groups, group ≠ [] ∧ ∀ c ∈ group, c ≠ ':') :
    splitDoubleColon ([':'].intercalate groups) = none := by
  have hfront : ∀ {group rest : Text}, (∀ c ∈ group, c ≠ ':') → splitDoubleColon rest = none → splitDoubleColon (group ++ rest) = none := by
    intro group rest hgroup hrest
    induction group with
    | nil => exact hrest
    | cons c group ih =>
      obtain ⟨hc, hgroup⟩ := List.forall_mem_cons.mp hgroup
      rw [List.cons_append, splitDoubleColon, ih hgroup, Option.map_none]
      intro rest' heq
      exact absurd heq hc
  induction groups with
  | nil => rfl
  | cons first rest ih =>
    obtain ⟨hfirst, hrest⟩ := List.forall_mem_cons.mp h
    cases rest with
    | nil =>
      rw [List.intercalate_singleton, ← List.append_nil first]
      exact hfront hfirst.2 rfl
    | cons next rest =>
      rw [intercalate_cons_cons]
      refine hfront hfirst.2 ?_
      rw [splitDoubleColon, ih hrest, Option.map_none]
      intro rest' _ heq
      -- a group does not begin with a colon
      obtain ⟨c, group, hnext⟩ := List.exists_cons_of_ne_nil (List.forall_mem_cons.mp hrest).1.1
      have hc : c ≠ ':' := (List.forall_mem_cons.mp hrest).1.2 c (hnext ▸ List.mem_cons_self)
      cases rest with
      | nil =>
        rw [List.intercalate_singleton, hnext] at heq
        exact hc (List.cons.inj heq).1
      | cons third rest =>
        rw [intercalate_cons_cons, hnext, List.cons_append] at heq
        exact hc (List.cons.inj heq).1

theorem groupWords_length {groups : List Text} (h : ∀ group ∈ groups, isV6Segment group = true) (last : Bool) :
    groupWords last groups = some groups.length := by
  induction groups with
  | nil => rfl
  | cons first rest ih =>
    obtain ⟨hfirst, hrest⟩ := List.forall_mem_cons.mp h
    cases rest with
    | nil =>
      rw [groupWords, if_pos hfirst]
      rfl
    | cons next rest =>
      rw [groupWords, if_pos hfirst, ih hrest]
      · rfl
      · exact List.cons_ne_nil _ _

theorem expand_words {words : List ℕ} (h : ∀ word ∈ words, word < 2 ^ 16) : expand (words.map hexWord) = some words := by
  induction words with
  | nil => rfl
  | cons word rest ih =>
    obtain ⟨hword, hrest⟩ := List.forall_mem_cons.mp h
    obtain ⟨-, hvalue, hchars⟩ := hexWord_spec hword
    rw [List.map_cons, expand, if_neg fun hdot => (hchars '.' hdot).2.1 rfl, hvalue, if_pos (by omega), ih hrest]
    rfl

def bufferWords : Buffer → List ℕ
  | high :: low :: rest => (high.toNat * 256 + low.toNat) :: bufferWords rest
  | _ => []

theorem bufferWords_spec {k : ℕ} (h : bytes.length = 2 * k) : (bufferWords bytes).length = k ∧
    (bufferWords bytes).flatMap wordBytes = bytes ∧ ∀ word ∈ bufferWords bytes, word < 2 ^ 16 := by
  induction k generalizing bytes with
  | zero =>
    obtain rfl := List.length_eq_zero_iff.mp h
    exact ⟨rfl, rfl, fun word hword => absurd hword List.not_mem_nil⟩
  | succ k ih =>
    match bytes, h with
    | high :: low :: rest, h =>
      have hrest : rest.length = 2 * k := by
        simp only [List.length_cons] at h
        omega
      obtain ⟨hlength, hflat, hwords⟩ := ih hrest
      have hhigh := high.toNat_lt
      have hlow := low.toNat_lt
      refine ⟨?_, ?_, ?_⟩
      · rw [bufferWords, List.length_cons, hlength]
      · rw [bufferWords, List.flatMap_cons, hflat, wordBytes]
        have hdiv : (high.toNat * 256 + low.toNat) / 256 = high.toNat := by omega
        have hmod : UInt8.ofNat (high.toNat * 256 + low.toNat) = low := by
          refine UInt8.toNat_inj.mp ?_
          rw [UInt8.toNat_ofNat']
          omega
        rw [hdiv, hmod, UInt8.ofNat_toNat]
        rfl
      · rw [bufferWords, List.forall_mem_cons]
        exact ⟨by omega, hwords⟩

theorem normalizeAddress_v6 (h : bytes.length = 16) (hmapped : isV4Mapped bytes = false) :
    normalizeAddress ([':'].intercalate ((bufferWords bytes).map hexWord)) = some ⟨.v6, bytes⟩ := by
  obtain ⟨hlength, hflat, hwords⟩ := bufferWords_spec (k := 8) h
  generalize bufferWords bytes = words at hlength hflat hwords
  have hspec : ∀ group ∈ words.map hexWord, isV6Segment group = true ∧ ∀ c ∈ group, c ∈ plainChars ∧ c ≠ '.' ∧ c ≠ ':' := by
    intro group hgroup
    obtain ⟨word, hword, rfl⟩ := List.mem_map.mp hgroup
    obtain ⟨hsegment, -, hchars⟩ := hexWord_spec (hwords word hword)
    exact ⟨hsegment, hchars⟩
  have hgroups : (words.map hexWord).length = 8 := by rw [List.length_map, hlength]
  have hsplit : ([':'].intercalate (words.map hexWord)).splitOn ':' = words.map hexWord := by
    refine List.splitOn_intercalate ':' (fun group hgroup hcolon => ((hspec group hgroup).2 ':' hcolon).2.2 rfl) ?_
    intro hnil
    rw [hnil] at hgroups
    cases hgroups
  have hchars : ∀ c ∈ [':'].intercalate (words.map hexWord), c ∈ plainChars ∧ c ≠ '.' := by
    intro c hc
    rcases mem_intercalate hc with rfl | ⟨group, hgroup, hc⟩
    · decide
    · obtain ⟨hplain, hdot, -⟩ := (hspec group hgroup).2 c hc
      exact ⟨hplain, hdot⟩
  have hempty : [':'].intercalate (words.map hexWord) ≠ [] := by
    intro hnil
    rw [← hsplit, hnil] at hgroups
    cases hgroups
  have hcolons : splitDoubleColon ([':'].intercalate (words.map hexWord)) = none := by
    refine splitDoubleColon_none fun group hgroup => ⟨fun hnil => ?_, fun c hc => ((hspec group hgroup).2 c hc).2.2⟩
    have hsegment := (hspec group hgroup).1
    rw [hnil] at hsegment
    cases hsegment
  have hv4 : ipv4ToBytes ([':'].intercalate (words.map hexWord)) = none := by
    unfold ipv4ToBytes isIPv4
    rw [List.splitOn_eq_singleton fun hdot => (hchars '.' hdot).2 rfl]
    rfl
  have hv6 : isIPv6 ([':'].intercalate (words.map hexWord)) = true := by
    unfold isIPv6
    rw [hcolons]
    dsimp only
    rw [hsplit, groupWords_length fun group hgroup => (hspec group hgroup).1, hgroups]
    rfl
  have hbytes : ipv6ToBytes ([':'].intercalate (words.map hexWord)) = some bytes := by
    unfold ipv6ToBytes
    rw [if_pos hv6, hcolons]
    dsimp only
    rw [hsplit, expand_words hwords]
    simp [expand, hlength, hflat]
  unfold normalizeAddress
  rw [bare_eq fun c hc => (hchars c hc).1, if_neg hempty, hv4]
  dsimp only
  rw [hbytes]
  simp [hmapped]

theorem exists_literal (a : NormalizedAddress) : (∃ input, normalizeAddress input = some a) ↔ a.WellFormed := by
  constructor
  · rintro ⟨input, h⟩
    exact normalizeAddress_wellFormed h
  · obtain ⟨family, bytes⟩ := a
    cases family with
    | v4 => exact fun h => ⟨_, normalizeAddress_v4 h⟩
    | v6 => exact fun h => ⟨_, normalizeAddress_v6 h.1 h.2⟩

end OxScada.Peers
