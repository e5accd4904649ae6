import OxScada.Peers.Literals
import OxScada.Runs.Reachable

/-! A rule admits the addresses that begin with its bits, which are a block of numbers. A set of
rules is refused if its blocks leave no gap, also in the block of the IPv6 addresses that stand
for an IPv4 address and are never looked up as IPv6. -/

namespace OxScada.Peers
open OxScada.Bytes OxScada.Order OxScada.Runs

structure PeerRule.Good (rule : PeerRule) : Prop where
  address : rule.toNormalizedAddress.WellFormed
  pos : 0 < rule.prefixLength
  le : rule.prefixLength ≤ rule.family.maxPrefix

structure PeerRule.Sized (rule : PeerRule) : Prop where
  length : 8 * rule.bytes.length = rule.family.maxPrefix
  le : rule.prefixLength ≤ rule.family.maxPrefix

def SharesPrefix (a : NormalizedAddress) (rule : PeerRule) : Prop :=
  rule.family = a.family ∧ (bits a.bytes).take rule.prefixLength = (bits rule.bytes).take rule.prefixLength

/-- The rules match every address of the family that a literal can be normalised to. -/
def AdmitsAll (rules : List PeerRule) (family : IpFamily) : Prop :=
  ∀ a, (∃ input, normalizeAddress input = some a) → a.family = family → ∃ rule ∈ rules, inNetwork a rule = true

/-- A rule for IPv6 has the block of the addresses that stand for an IPv4 address. -/
def CoversMapped (rules : List PeerRule) : Prop :=
  ∃ rule ∈ rules, rule.family = .v6 ∧ rule.prefixLength ≤ 96 ∧
    (bits rule.bytes).take rule.prefixLength = (bits mappedFront).take rule.prefixLength

variable {a : NormalizedAddress} {bytes : Buffer}

theorem NormalizedAddress.WellFormed.length (h : a.WellFormed) : 8 * a.bytes.length = a.family.maxPrefix := by
  obtain ⟨family, bytes⟩ := a
  cases family with
  | v4 => rw [show bytes.length = 4 from h]; rfl
  | v6 => rw [show bytes.length = 16 from h.1]; rfl

theorem PeerRule.Good.sized {rule : PeerRule} (h : rule.Good) : rule.Sized := ⟨h.address.length, h.le⟩

theorem parsePrefix_le {source addrPart : Text} {family : IpFamily} {prefixPart : Option Text} {prefixLength : ℕ}
    (h : parsePrefix source addrPart family prefixPart = .ok prefixLength) : prefixLength ≤ family.maxPrefix := by
  cases prefixPart with
  | none => exact (Except.ok.inj h).ge
  | some prefixPart =>
    unfold parsePrefix at h
    dsimp only at h
    split_ifs at h with hnumeric hrebased hmax
    all_goals
      rw [← Except.ok.inj h]
      exact not_lt.mp ‹_›

theorem parsePeerRule_good {entry : Text} {rule : PeerRule} (h : parsePeerRule entry = .ok rule) : rule.Good := by
  unfold parsePeerRule at h
  dsimp only at h
  split_ifs at h
  split at h
  · cases h
  next normalized hnormalized =>
    split at h
    · cases h
    next prefixLength hprefix =>
      split_ifs at h with hzero
      obtain rfl := Except.ok.inj h
      exact ⟨normalizeAddress_wellFormed hnormalized, Nat.pos_of_ne_zero hzero, parsePrefix_le hprefix⟩

/-! ### The bytes of a match -/

theorem mask_zero_iff {x y k : ℕ} (hk : k ≤ 8) : (x ^^^ y) &&& ((0xff <<< (8 - k)) &&& 0xff) = 0 ↔
    ∀ r < k, x.testBit (7 - r) = y.testBit (7 - r) := by
  have hmask : ∀ j, ((x ^^^ y) &&& ((0xff <<< (8 - k)) &&& 0xff)).testBit j =
      ((x.testBit j ^^ y.testBit j) && (decide (8 - k ≤ j) && decide (j < 8))) := by
    intro j
    have hff : ∀ i, Nat.testBit 0xff i = decide (i < 8) := fun i => Nat.testBit_two_pow_sub_one 8 i
    rw [Nat.testBit_and, Nat.testBit_and, Nat.testBit_xor, Nat.testBit_shiftLeft, hff, hff]
    congr 1
    by_cases hlow : 8 - k ≤ j <;> by_cases hhigh : j < 8 <;> simp [hlow, hhigh]
    omega
  constructor
  · intro hzero r hr
    have hbit := hmask (7 - r)
    rw [hzero, Nat.zero_testBit] at hbit
    have hin : (decide (8 - k ≤ 7 - r) && decide (7 - r < 8)) = true := by
      rw [Bool.and_eq_true, decide_eq_true_eq, decide_eq_true_eq]
      omega
    rw [hin, Bool.and_true] at hbit
    simpa using hbit.symm
  · intro hsame
    refine Nat.eq_of_testBit_eq fun j => ?_
    rw [hmask, Nat.zero_testBit]
    by_cases hin : 8 - k ≤ j ∧ j < 8
    · have hbit := hsame (7 - j) (by omega)
      rw [show 7 - (7 - j) = j by omega] at hbit
      rw [hbit, Bool.xor_self, Bool.false_and]
    · have hout : (decide (8 - k ≤ j) && decide (j < 8)) = false := by
        rw [Bool.and_eq_false_iff, decide_eq_false_iff_not, decide_eq_false_iff_not]
        omega
      rw [hout, Bool.and_false]

theorem xor_zero_iff {x y : UInt8} : x.toNat ^^^ y.toNat = 0 ↔ ∀ r < 8, x.toNat.testBit (7 - r) = y.toNat.testBit (7 - r) := by
  rw [← mask_zero_iff le_rfl]
  have hlt : x.toNat ^^^ y.toNat < 2 ^ 8 := Nat.xor_lt_two_pow x.toNat_lt y.toNat_lt
  have hmask : (0xff <<< (8 - 8)) &&& 0xff = 2 ^ 8 - 1 := rfl
  rw [hmask, Nat.and_two_pow_sub_one_of_lt_two_pow hlt]

theorem inNetwork_iff {rule : PeerRule} (ha : a.WellFormed) (hr : rule.Good) :
    inNetwork a rule = true ↔ SharesPrefix a rule := by
  unfold inNetwork SharesPrefix
  by_cases hfamily : a.family = rule.family
  · have hlength : a.bytes.length = rule.bytes.length := by
      have hsame := ha.length.trans (congrArg _ hfamily)
      rw [← hr.address.length] at hsame
      omega
    have hle : rule.prefixLength ≤ 8 * rule.bytes.length := hr.le.trans hr.address.length.ge
    rw [if_neg (not_not.mpr hfamily)]
    rw [take_eq_iff (by rw [bits_length, hlength]; exact hle) (by rw [bits_length]; exact hle)]
    have hshift : rule.prefixLength >>> 3 = rule.prefixLength / 8 := Nat.shiftRight_eq_div_pow _ 3
    have hand : rule.prefixLength &&& 7 = rule.prefixLength % 8 := Nat.and_two_pow_sub_one_eq_mod _ 3
    have hbit : ∀ {q r}, r < 8 → 8 * q + r < rule.prefixLength → ((bits a.bytes)[8 * q + r]? = (bits rule.bytes)[8 * q + r]? ↔
        (a.bytes.getD q 0).toNat.testBit (7 - r) = (rule.bytes.getD q 0).toNat.testBit (7 - r)) := by
      intro q r hr8 hlt
      rw [bits_getElem? hr8 (by omega), bits_getElem? hr8 (by omega), Option.some.injEq]
    have hfull : (∀ q < rule.prefixLength / 8, ∀ r < 8, (a.bytes.getD q 0).toNat.testBit (7 - r) = (rule.bytes.getD q 0).toNat.testBit (7 - r)) ↔
        ((List.range (rule.prefixLength / 8)).any fun i => (a.bytes.getD i 0).toNat ^^^ (rule.bytes.getD i 0).toNat ≠ 0) = false := by
      rw [List.any_eq_false]
      simp only [List.mem_range, ne_eq, decide_not, Bool.not_eq_true', decide_eq_false_iff_not, not_not, xor_zero_iff]
    have hsplit : (∀ i < rule.prefixLength, (bits a.bytes)[i]? = (bits rule.bytes)[i]?) ↔
        (∀ q < rule.prefixLength / 8, ∀ r < 8, (a.bytes.getD q 0).toNat.testBit (7 - r) = (rule.bytes.getD q 0).toNat.testBit (7 - r)) ∧
          ∀ r < rule.prefixLength % 8, (a.bytes.getD (rule.prefixLength / 8) 0).toNat.testBit (7 - r) =
            (rule.bytes.getD (rule.prefixLength / 8) 0).toNat.testBit (7 - r) := by
      constructor
      · intro hall
        refine ⟨fun q hq r hr => ?_, fun r hr => ?_⟩
        · exact (hbit hr (by omega)).mp (hall (8 * q + r) (by omega))
        · exact (hbit (by omega) (by omega)).mp (hall (8 * (rule.prefixLength / 8) + r) (by omega))
      · rintro ⟨hbytes, hrest⟩ i hi
        rw [← Nat.div_add_mod i 8]
        refine (hbit (Nat.mod_lt _ (by decide)) (by omega)).mpr ?_
        by_cases hq : i / 8 < rule.prefixLength / 8
        · exact hbytes _ hq _ (Nat.mod_lt _ (by decide))
        · rw [show i / 8 = rule.prefixLength / 8 by omega]
          exact hrest _ (by omega)
    rw [hsplit, hfull]
    dsimp only
    rw [hshift, hand]
    cases hany : (List.range (rule.prefixLength / 8)).any fun i => (a.bytes.getD i 0).toNat ^^^ (rule.bytes.getD i 0).toNat ≠ 0 with
    | true => simp
    | false =>
      rw [if_neg Bool.false_ne_true]
      by_cases hrest : rule.prefixLength % 8 = 0
      · rw [if_pos hrest, hrest]
        simp [hfamily]
      · rw [if_neg hrest, decide_eq_true_eq, mask_zero_iff (Nat.mod_lt _ (by decide)).le]
        simp [hfamily]
  · rw [if_pos hfamily]
    constructor
    · intro h
      cases h
    · rintro ⟨h, -⟩
      exact absurd h.symm hfamily

/-! ### Blocks -/

variable {rules : List PeerRule} {rule : PeerRule} {family : IpFamily}

theorem has_range_iff {n : ℕ} : rule.range.Has n ↔ n / 2 ^ (rule.family.maxPrefix - rule.prefixLength) =
    bigEndian rule.bytes / 2 ^ (rule.family.maxPrefix - rule.prefixLength) := by
  have hpos : 0 < 2 ^ (rule.family.maxPrefix - rule.prefixLength) := pow_pos (by decide) _
  unfold PeerRule.range Interval.Has
  dsimp only
  generalize 2 ^ (rule.family.maxPrefix - rule.prefixLength) = size at hpos ⊢
  generalize bigEndian rule.bytes / size = block
  rw [← Nat.le_div_iff_mul_le hpos]
  have hlast : n ≤ block * size + size - 1 ↔ n / size < block + 1 := by
    rw [Nat.div_lt_iff_lt_mul hpos, Nat.add_mul, Nat.one_mul]
    omega
  rw [hlast]
  omega

theorem bigEndian_lt_family (h : 8 * bytes.length = family.maxPrefix) : bigEndian bytes < 2 ^ family.maxPrefix := by
  rw [← h, pow_mul]
  exact bigEndian_lt bytes

theorem range_inside (hr : rule.Sized) : rule.range.start ≤ 2 ^ rule.family.maxPrefix - 1 ∧ rule.range.stop ≤ 2 ^ rule.family.maxPrefix - 1 := by
  have hlt := bigEndian_lt_family hr.length
  have hsize : 2 ^ (rule.family.maxPrefix - rule.prefixLength) * 2 ^ rule.prefixLength = 2 ^ rule.family.maxPrefix := by
    rw [← pow_add, Nat.sub_add_cancel hr.le]
  have hpos : 0 < 2 ^ (rule.family.maxPrefix - rule.prefixLength) := pow_pos (by decide) _
  unfold PeerRule.range
  dsimp only
  generalize 2 ^ (rule.family.maxPrefix - rule.prefixLength) = size at hsize hpos ⊢
  have hblock : bigEndian rule.bytes / size < 2 ^ rule.prefixLength := by
    rw [Nat.div_lt_iff_lt_mul hpos, mul_comm, hsize]
    exact hlt
  have hend : (bigEndian rule.bytes / size + 1) * size ≤ 2 ^ rule.family.maxPrefix := by
    rw [← hsize, mul_comm]
    exact Nat.mul_le_mul_left size hblock
  rw [Nat.add_mul, Nat.one_mul] at hend
  omega

theorem coversWholeFamily_iff (hsized : ∀ rule ∈ rules, rule.Sized) : coversWholeFamily rules family = true ↔
    ∀ n < 2 ^ family.maxPrefix, ∃ rule ∈ rules, rule.family = family ∧ rule.range.Has n := by
  have hpos : 0 < 2 ^ family.maxPrefix := pow_pos (by decide) _
  have hmem : ∀ i, i ∈ ((rules.filter (·.family = family)).map PeerRule.range).insertionSort (·.start ≤ ·.start) ↔
      ∃ rule ∈ rules, rule.family = family ∧ rule.range = i := by
    intro i
    rw [List.mem_insertionSort, List.mem_map]
    constructor
    · rintro ⟨rule, hrule, heq⟩
      obtain ⟨hrule, hfamily⟩ := List.mem_filter.mp hrule
      exact ⟨rule, hrule, of_decide_eq_true hfamily, heq⟩
    · rintro ⟨rule, hrule, hfamily, heq⟩
      exact ⟨rule, List.mem_filter.mpr ⟨hrule, decide_eq_true hfamily⟩, heq⟩
  have hsorted : (((rules.filter (·.family = family)).map PeerRule.range).insertionSort (·.start ≤ ·.start)).Pairwise
      fun i j => i.start ≤ j.start := by
    have htotal : Std.Total fun i j : Interval => i.start ≤ j.start := ⟨fun i j => le_total i.start j.start⟩
    have htrans : IsTrans Interval fun i j => i.start ≤ j.start := ⟨fun _ _ _ => le_trans⟩
    exact List.pairwise_insertionSort _ _
  have hsome : (∀ n < 2 ^ family.maxPrefix, ∃ rule ∈ rules, rule.family = family ∧ rule.range.Has n) ↔
      ∀ n ≤ 2 ^ family.maxPrefix - 1, InSome (((rules.filter (·.family = family)).map PeerRule.range).insertionSort (·.start ≤ ·.start)) n := by
    constructor
    · intro hall n hn
      obtain ⟨rule, hrule, hfamily, hhas⟩ := hall n (by omega)
      exact ⟨rule.range, (hmem _).mpr ⟨rule, hrule, hfamily, rfl⟩, hhas⟩
    · intro hall n hn
      obtain ⟨i, hi, hhas⟩ := hall n (by omega)
      obtain ⟨rule, hrule, hfamily, rfl⟩ := (hmem i).mp hi
      exact ⟨rule, hrule, hfamily, hhas⟩
  rw [hsome]
  have hinside : ∀ i ∈ ((rules.filter (·.family = family)).map PeerRule.range).insertionSort (·.start ≤ ·.start),
      i.start ≤ 2 ^ family.maxPrefix - 1 ∧ i.stop ≤ 2 ^ family.maxPrefix - 1 := by
    intro i hi
    obtain ⟨rule, hrule, rfl, rfl⟩ := (hmem i).mp hi
    exact range_inside (hsized rule hrule)
  unfold coversWholeFamily
  generalize ((rules.filter (·.family = family)).map PeerRule.range).insertionSort (·.start ≤ ·.start) = ranges at hsorted hinside
  cases ranges with
  | nil =>
    refine ⟨fun h => (by cases h), fun hall => ?_⟩
    obtain ⟨i, hi, -⟩ := hall 0 (Nat.zero_le _)
    cases hi
  | cons first rest =>
    rw [covers_iff_walk hsorted hinside, Bool.and_eq_true, decide_eq_true_eq, decide_eq_true_eq]

theorem has_range_bytes (hr : rule.Sized) (ha : 8 * a.bytes.length = a.family.maxPrefix)
    (hfamily : rule.family = a.family) : rule.range.Has (bigEndian a.bytes) ↔ SharesPrefix a rule := by
  have hlength : rule.bytes.length = a.bytes.length := by
    have hsame := hr.length
    rw [hfamily, ← ha] at hsame
    omega
  have hle : rule.prefixLength ≤ 8 * a.bytes.length := by
    rw [ha, ← hfamily]
    exact hr.le
  rw [has_range_iff, SharesPrefix, take_bits_eq_iff rfl hlength hle, ha, ← hfamily]
  exact (and_iff_right rfl).symm

theorem coversWholeFamily_bytes (hsized : ∀ rule ∈ rules, rule.Sized) : coversWholeFamily rules family = true ↔
    ∀ bytes : Buffer, 8 * bytes.length = family.maxPrefix → ∃ rule ∈ rules, SharesPrefix ⟨family, bytes⟩ rule := by
  rw [coversWholeFamily_iff hsized]
  constructor
  · intro hall bytes hbytes
    obtain ⟨rule, hrule, hfamily, hhas⟩ := hall _ (bigEndian_lt_family hbytes)
    exact ⟨rule, hrule, (has_range_bytes (hsized rule hrule) (a := ⟨family, bytes⟩) hbytes hfamily).mp hhas⟩
  · intro hall n hn
    have hoctets : ∃ k, 8 * k = family.maxPrefix := by
      cases family with
      | v4 => exact ⟨4, rfl⟩
      | v6 => exact ⟨16, rfl⟩
    obtain ⟨k, hk⟩ := hoctets
    rw [← hk, pow_mul] at hn
    obtain ⟨bytes, hlength, rfl⟩ := exists_bigEndian hn
    obtain ⟨rule, hrule, hshares⟩ := hall bytes (hlength ▸ hk)
    exact ⟨rule, hrule, hshares.1, (has_range_bytes (hsized rule hrule) (a := ⟨family, bytes⟩) (hlength ▸ hk) hshares.1).mpr hshares⟩

theorem admitsAll_iff (hgood : ∀ rule ∈ rules, rule.Good) : AdmitsAll rules family ↔
    ∀ a : NormalizedAddress, a.WellFormed → a.family = family → ∃ rule ∈ rules, SharesPrefix a rule := by
  unfold AdmitsAll
  constructor
  · intro hall a ha hfamily
    obtain ⟨rule, hrule, hin⟩ := hall a ((exists_literal a).mpr ha) hfamily
    exact ⟨rule, hrule, (inNetwork_iff ha (hgood rule hrule)).mp hin⟩
  · intro hall a ha hfamily
    have ha := (exists_literal a).mp ha
    obtain ⟨rule, hrule, hshares⟩ := hall a ha hfamily
    exact ⟨rule, hrule, (inNetwork_iff ha (hgood rule hrule)).mpr hshares⟩

theorem coversWholeFamily_v4 (hgood : ∀ rule ∈ rules, rule.Good) : coversWholeFamily rules .v4 = true ↔ AdmitsAll rules .v4 := by
  rw [coversWholeFamily_bytes fun rule hrule => (hgood rule hrule).sized, admitsAll_iff hgood]
  constructor
  · rintro hall ⟨family, bytes⟩ ha rfl
    exact hall bytes ha.length
  · intro hall bytes hbytes
    have hlength : bytes.length = 4 := Nat.eq_of_mul_eq_mul_left (by decide : 0 < 8) hbytes
    exact hall ⟨.v4, bytes⟩ hlength rfl

/-! ### The addresses that stand for an IPv4 address -/

theorem isV4Mapped_iff : isV4Mapped bytes = true ↔ bytes.length = 16 ∧ bytes.take 12 = mappedFront := by
  rw [isV4Mapped, Bool.and_eq_true, decide_eq_true_eq, decide_eq_true_eq]

theorem mapped_of_bits (hlength : bytes.length = 16) (h : (bits bytes).take 96 = bits mappedFront) :
    isV4Mapped bytes = true :=
  isV4Mapped_iff.mpr ⟨hlength, bits_injective ((bits_take bytes 12).symm.trans h)⟩

theorem bits_of_mapped {bytes : Buffer} (h : isV4Mapped bytes = true) : (bits bytes).take 96 = bits mappedFront := by
  rw [show 96 = 8 * 12 from rfl, bits_take, (isV4Mapped_iff.mp h).2]

theorem coversMapped_iff (hgood : ∀ rule ∈ rules, rule.Good) : CoversMapped rules ↔
    ∀ bytes, isV4Mapped bytes = true → ∃ rule ∈ rules, SharesPrefix ⟨.v6, bytes⟩ rule := by
  constructor
  · rintro ⟨rule, hrule, hfamily, hle, hbits⟩ bytes hmapped
    refine ⟨rule, hrule, hfamily, ?_⟩
    show (bits bytes).take rule.prefixLength = _
    rw [hbits, ← bits_of_mapped hmapped, List.take_take, min_eq_left hle]
  · intro hall
    obtain ⟨rule, hrule, hfamily, hbits⟩ := hall (mappedFront ++ [0, 0, 0, 0]) rfl
    have hmapped : (bits (mappedFront ++ [0, 0, 0, 0])).take 96 = bits mappedFront := bits_of_mapped rfl
    have hle : rule.prefixLength ≤ 96 := by
      by_contra hgt
      have haddress := (hgood rule hrule).address
      rw [NormalizedAddress.WellFormed, hfamily] at haddress
      have hrule96 := congrArg (List.take 96) hbits
      rw [List.take_take, List.take_take, min_eq_left (by omega), hmapped] at hrule96
      rw [mapped_of_bits haddress.1 hrule96.symm] at haddress
      cases haddress.2
    refine ⟨rule, hrule, hfamily, hle, hbits.symm.trans ?_⟩
    show (bits (mappedFront ++ [0, 0, 0, 0])).take rule.prefixLength = _
    rw [← hmapped, List.take_take, min_eq_left hle]

theorem coversWholeFamily_v6 (hgood : ∀ rule ∈ rules, rule.Good) :
    coversWholeFamily rules .v6 = true ↔ AdmitsAll rules .v6 ∧ CoversMapped rules := by
  rw [coversWholeFamily_bytes fun rule hrule => (hgood rule hrule).sized, admitsAll_iff hgood, coversMapped_iff hgood]
  constructor
  · intro hall
    refine ⟨?_, fun bytes hmapped => hall bytes ?_⟩
    · rintro ⟨family, bytes⟩ ha rfl
      exact hall bytes ha.length
    · rw [(isV4Mapped_iff.mp hmapped).1]
      rfl
  · rintro ⟨hadmits, hmapped⟩ bytes hbytes
    cases h : isV4Mapped bytes with
    | true => exact hmapped bytes h
    | false =>
      have hlength : bytes.length = 16 := Nat.eq_of_mul_eq_mul_left (by decide : 0 < 8) hbytes
      exact hadmits ⟨.v6, bytes⟩ ⟨hlength, h⟩ rfl

/-! ### Whole allowlists -/

variable (entries : List Text)

def acceptedRules : List PeerRule := entries.filterMap fun entry => (parsePeerRule entry).toOption

def Unusable : Prop := ∃ entry ∈ entries, ∃ message, parsePeerRule entry = .error message

theorem acceptedRules_good {entries : List Text} : ∀ rule ∈ acceptedRules entries, rule.Good := by
  intro rule hrule
  obtain ⟨entry, -, hentry⟩ := List.mem_filterMap.mp hrule
  cases hparse : parsePeerRule entry with
  | error message =>
    rw [hparse] at hentry
    cases hentry
  | ok rule' =>
    rw [hparse] at hentry
    rw [← Option.some.inj hentry]
    exact parsePeerRule_good hparse

theorem mapM_parsePeerRule : Unusable entries ∧ (∃ message, entries.mapM parsePeerRule = .error message) ∨
    ¬ Unusable entries ∧ entries.mapM parsePeerRule = .ok (acceptedRules entries) := by
  induction entries with
  | nil =>
    refine .inr ⟨?_, rfl⟩
    rintro ⟨entry, hentry, -⟩
    cases hentry
  | cons entry rest ih =>
    rw [List.mapM_cons]
    cases hparse : parsePeerRule entry with
    | error message => exact .inl ⟨⟨entry, List.mem_cons_self, message, hparse⟩, message, rfl⟩
    | ok rule =>
      rcases ih with ⟨⟨bad, hbad, hunusable⟩, message, hrest⟩ | ⟨husable, hrest⟩
      · rw [hrest]
        exact .inl ⟨⟨bad, List.mem_cons_of_mem _ hbad, hunusable⟩, message, rfl⟩
      · have haccepted : acceptedRules (entry :: rest) = rule :: acceptedRules rest := by
          rw [acceptedRules, List.filterMap_cons, hparse]
          rfl
        rw [hrest, haccepted]
        refine .inr ⟨?_, rfl⟩
        rintro ⟨bad, hbad, message, hunusable⟩
        rcases List.mem_cons.mp hbad with rfl | hbad
        · rw [hparse] at hunusable
          cases hunusable
        · exact husable ⟨bad, hbad, message, hunusable⟩

theorem refuseWildcard_error : (∃ message, refuseWildcard rules family = .error message) ↔
    coversWholeFamily rules family = true := by
  unfold refuseWildcard
  split_ifs with h
  · exact ⟨fun _ => h, fun _ => ⟨_, rfl⟩⟩
  · exact ⟨fun ⟨_, herror⟩ => (by cases herror), fun hcovers => absurd hcovers h⟩

theorem parsePeerRules_error : (∃ message, parsePeerRules entries = .error message) ↔
    Unusable entries ∨ coversWholeFamily (acceptedRules entries) .v4 = true ∨ coversWholeFamily (acceptedRules entries) .v6 = true := by
  unfold parsePeerRules
  rcases mapM_parsePeerRule entries with ⟨hunusable, message, herror⟩ | ⟨husable, hok⟩
  · rw [herror]
    exact ⟨fun _ => .inl hunusable, fun _ => ⟨message, rfl⟩⟩
  · rw [hok]
    rw [or_iff_right husable, ← refuseWildcard_error, ← refuseWildcard_error]
    show (∃ message, (refuseWildcard (acceptedRules entries) .v4 >>= fun _ => refuseWildcard (acceptedRules entries) .v6 >>= fun _ =>
      pure (acceptedRules entries)) = Except.error message) ↔ _
    cases refuseWildcard (acceptedRules entries) .v4 with
    | error message => exact ⟨fun _ => .inl ⟨message, rfl⟩, fun _ => ⟨message, rfl⟩⟩
    | ok =>
      cases refuseWildcard (acceptedRules entries) .v6 with
      | error message => exact ⟨fun _ => .inr ⟨message, rfl⟩, fun _ => ⟨message, rfl⟩⟩
      | ok =>
        constructor
        · rintro ⟨message, h⟩
          cases h
        · rintro (⟨message, h⟩ | ⟨message, h⟩)
          · cases h
          · cases h

theorem parsePeerRules_ok {entries : List Text} (h : parsePeerRules entries = .ok rules) : rules = acceptedRules entries := by
  unfold parsePeerRules at h
  obtain ⟨parsed, hparsed, h⟩ := bind_ok.mp h
  obtain ⟨-, h⟩ := bind_unit_ok.mp h
  obtain ⟨-, h⟩ := bind_unit_ok.mp h
  rcases mapM_parsePeerRule entries with ⟨-, message, herror⟩ | ⟨-, hok⟩
  · rw [herror] at hparsed
    cases hparsed
  · rw [hok] at hparsed
    rw [← Except.ok.inj h, ← Except.ok.inj hparsed]

theorem isPeerAllowed_iff (hgood : ∀ rule ∈ rules, rule.Good) (address : Text) : isPeerAllowed (some address) rules = true ↔
    ∃ a, normalizeAddress address = some a ∧ ∃ rule ∈ rules, SharesPrefix a rule := by
  unfold isPeerAllowed
  dsimp only
  by_cases hempty : address = [] ∨ rules = []
  · rw [if_pos hempty]
    refine ⟨fun h => (by cases h), ?_⟩
    rintro ⟨a, ha, rule, hrule, -⟩
    rcases hempty with rfl | rfl
    · cases ha
    · cases hrule
  · rw [if_neg hempty]
    cases hnormalized : normalizeAddress address with
    | none =>
      refine ⟨fun h => (by cases h), ?_⟩
      rintro ⟨a, ha, -⟩
      cases ha
    | some a =>
      have ha := normalizeAddress_wellFormed hnormalized
      dsimp only
      rw [List.any_eq_true]
      constructor
      · rintro ⟨rule, hrule, hin⟩
        exact ⟨a, rfl, rule, hrule, (inNetwork_iff ha (hgood rule hrule)).mp hin⟩
      · rintro ⟨a', heq, rule, hrule, hshares⟩
        obtain rfl := Option.some.inj heq
        exact ⟨rule, hrule, (inNetwork_iff ha (hgood rule hrule)).mpr hshares⟩

/-- A wildcard is refused however it is spelled, but for one kind: rules that match all of IPv6
without the block that is never looked up as IPv6. An accepted rule matches by its prefix. -/
theorem peer_rules_exact :
    (((∃ message, parsePeerRules entries = .error message) ↔
        Unusable entries ∨ AdmitsAll (acceptedRules entries) .v4 ∨ AdmitsAll (acceptedRules entries) .v6) ↔
      Unusable entries ∨ AdmitsAll (acceptedRules entries) .v4 ∨ ¬ AdmitsAll (acceptedRules entries) .v6 ∨
        CoversMapped (acceptedRules entries)) ∧
    ∀ rules, parsePeerRules entries = .ok rules → ∀ address, isPeerAllowed (some address) rules = true ↔
      ∃ a, normalizeAddress address = some a ∧ ∃ rule ∈ rules, SharesPrefix a rule := by
  refine ⟨?_, fun rules hrules address => ?_⟩
  · rw [parsePeerRules_error, coversWholeFamily_v4 acceptedRules_good, coversWholeFamily_v6 acceptedRules_good]
    tauto
  · rw [parsePeerRules_ok hrules]
    exact isPeerAllowed_iff acceptedRules_good address

/-! ### All of IPv6 but one block -/

/-- The block beside the one of the IPv4 addresses at a bit. -/
def siblingEntry (bit : ℕ) : Text :=
  let number := ((0xffff * 2 ^ 32 / 2 ^ (127 - bit)) ^^^ 1) * 2 ^ (127 - bit)
  [':'].intercalate ((List.range 8).map fun i => hexWord (number / 2 ^ (16 * (7 - i)) % 2 ^ 16)) ++ '/' :: Nat.toDigits 10 (bit + 1)

def siblingEntries : List Text := (List.range 96).map siblingEntry

def mappedRule : PeerRule where
  family := .v6
  bytes := mappedFront ++ [0, 0, 0, 0]
  prefixLength := 96
  source := []

theorem siblings_accepted : parsePeerRules siblingEntries = .ok (acceptedRules siblingEntries) ∧
    AdmitsAll (acceptedRules siblingEntries) .v6 := by
  -- the entries are parsed once, and their blocks leave that of the IPv4 addresses open
  have hcovered : (match parsePeerRules siblingEntries with
      | .ok rules => coversWholeFamily (mappedRule :: rules) .v6
      | .error _ => false) = true := by decide +kernel
  cases hparse : parsePeerRules siblingEntries with
  | error message =>
    rw [hparse] at hcovered
    cases hcovered
  | ok rules =>
    simp only [hparse] at hcovered
    obtain rfl := parsePeerRules_ok hparse
    refine ⟨rfl, ?_⟩
    rw [admitsAll_iff acceptedRules_good]
    rintro ⟨family, bytes⟩ ha rfl
    have hsized : ∀ rule ∈ mappedRule :: acceptedRules siblingEntries, rule.Sized :=
      List.forall_mem_cons.mpr ⟨⟨rfl, by decide⟩, fun rule hrule => (acceptedRules_good rule hrule).sized⟩
    obtain ⟨rule, hrule, hshares⟩ := (coversWholeFamily_bytes hsized).mp hcovered bytes ha.length
    rcases List.mem_cons.mp hrule with rfl | hrule
    · -- the block of the IPv4 addresses is not looked up
      have hmapped := mapped_of_bits ha.1 (hshares.2.trans (@bits_of_mapped mappedRule.bytes rfl))
      have hnot : isV4Mapped bytes = false := ha.2
      rw [show isV4Mapped bytes = true from hmapped] at hnot
      cases hnot
    · exact ⟨rule, hrule, hshares⟩

end OxScada.Peers
