import OxScada.Bytes.Buffer

/-! The bits of a buffer, the most significant first, and the number that they make. Two buffers
of one length begin with the same bits if and only if their numbers lie in the same block. -/

namespace OxScada.Bytes

def byteBits (b : UInt8) : List Bool := (List.range 8).map fun i => b.toNat.testBit (7 - i)

def bits (buf : Buffer) : List Bool := buf.flatMap byteBits

theorem byteBits_length (b : UInt8) : (byteBits b).length = 8 := by rw [byteBits, List.length_map, List.length_range]

theorem bits_length (buf : Buffer) : (bits buf).length = 8 * buf.length := by
  induction buf with
  | nil => rfl
  | cons b rest ih =>
    rw [bits, List.flatMap_cons, List.length_append, byteBits_length, List.length_cons]
    rw [bits] at ih
    omega

theorem byteBits_getElem? (b : UInt8) {i : ℕ} (h : i < 8) : (byteBits b)[i]? = some (b.toNat.testBit (7 - i)) := by
  rw [byteBits, List.getElem?_map, List.getElem?_range h]
  rfl

theorem bits_getElem? {buf : Buffer} {q r : ℕ} (hr : r < 8) (hq : q < buf.length) :
    (bits buf)[8 * q + r]? = some ((buf.getD q 0).toNat.testBit (7 - r)) := by
  induction buf generalizing q with
  | nil => exact absurd hq (Nat.not_lt_zero q)
  | cons b rest ih =>
    rw [bits, List.flatMap_cons]
    cases q with
    | zero =>
      rw [List.getElem?_append_left (by rw [byteBits_length]; omega), Nat.mul_zero, Nat.zero_add, byteBits_getElem? b hr]
      rfl
    | succ q =>
      rw [List.getElem?_append_right (by rw [byteBits_length]; omega), byteBits_length]
      have hindex : 8 * (q + 1) + r - 8 = 8 * q + r := by omega
      rw [hindex]
      exact ih (Nat.lt_of_succ_lt_succ hq)

theorem bits_getElem?_bigEndian {buf : Buffer} {i : ℕ} (h : i < 8 * buf.length) :
    (bits buf)[i]? = some ((bigEndian buf).testBit (8 * buf.length - 1 - i)) := by
  induction buf generalizing i with
  | nil => exact absurd h (Nat.not_lt_zero i)
  | cons b rest ih =>
    have hrest : bigEndian rest < 2 ^ (8 * rest.length) := by
      have hlt := bigEndian_lt rest
      rwa [show (256 : ℕ) = 2 ^ 8 from rfl, ← pow_mul] at hlt
    have hvalue : bigEndian (b :: rest) = 2 ^ (8 * rest.length) * b.toNat + bigEndian rest := by
      rw [bigEndian_cons, show (256 : ℕ) = 2 ^ 8 from rfl, ← pow_mul, mul_comm]
    rw [List.length_cons] at h ⊢
    rw [bits, List.flatMap_cons, hvalue, Nat.testBit_two_pow_mul_add _ hrest]
    by_cases hi : i < 8
    · rw [List.getElem?_append_left (by rw [byteBits_length]; exact hi), byteBits_getElem? b hi, if_neg (by omega)]
      congr 2
      omega
    · rw [List.getElem?_append_right (by rw [byteBits_length]; omega), byteBits_length, if_pos (by omega)]
      have hrest := ih (i := i - 8) (by omega)
      rw [bits] at hrest
      rw [hrest]
      congr 2
      omega

theorem byteBits_injective {x y : UInt8} (h : byteBits x = byteBits y) : x = y := by
  refine UInt8.toNat_inj.mp (Nat.eq_of_testBit_eq fun j => ?_)
  by_cases hj : j < 8
  · have hbit := congrArg (fun l : List Bool => l[7 - j]?) h
    rw [byteBits_getElem? x (by omega), byteBits_getElem? y (by omega), show 7 - (7 - j) = j by omega] at hbit
    exact Option.some.inj hbit
  · have hlarge : ∀ b : UInt8, b.toNat.testBit j = false := fun b =>
      Nat.testBit_lt_two_pow (lt_of_lt_of_le b.toNat_lt (Nat.pow_le_pow_right (by decide) (not_lt.mp hj)))
    rw [hlarge x, hlarge y]

theorem bits_append (a b : Buffer) : bits (a ++ b) = bits a ++ bits b := List.flatMap_append

theorem bits_take (buf : Buffer) (k : ℕ) : (bits buf).take (8 * k) = bits (buf.take k) := by
  by_cases hk : k ≤ buf.length
  · conv_lhs => rw [← List.take_append_drop k buf, bits_append]
    rw [List.take_left' (by rw [bits_length, List.length_take, min_eq_left hk])]
  · rw [List.take_of_length_le (l := buf) (by omega), List.take_of_length_le (by rw [bits_length]; omega)]

theorem bits_injective : Function.Injective bits := by
  intro a b h
  induction a generalizing b with
  | nil =>
    cases b with
    | nil => rfl
    | cons y rest =>
      have hlength := congrArg List.length h
      rw [bits_length, bits_length] at hlength
      cases hlength
  | cons x a ih =>
    cases b with
    | nil =>
      have hlength := congrArg List.length h
      rw [bits_length, bits_length] at hlength
      cases hlength
    | cons y b =>
      obtain ⟨hhead, htail⟩ := List.append_inj h (by rw [byteBits_length, byteBits_length])
      rw [byteBits_injective hhead, ih htail]

theorem take_eq_iff {α : Type*} {l l' : List α} {n : ℕ} (h : n ≤ l.length) (h' : n ≤ l'.length) :
    l.take n = l'.take n ↔ ∀ i < n, l[i]? = l'[i]? := by
  constructor
  · intro htake i hi
    rw [← List.getElem?_take_of_lt hi, htake, List.getElem?_take_of_lt hi]
  · intro hall
    refine List.ext_getElem? fun i => ?_
    by_cases hi : i < n
    · rw [List.getElem?_take_of_lt hi, List.getElem?_take_of_lt hi, hall i hi]
    · rw [List.getElem?_eq_none (by rw [List.length_take]; omega), List.getElem?_eq_none (by rw [List.length_take]; omega)]

theorem take_bits_eq_iff {a b : Buffer} {n p : ℕ} (ha : a.length = n) (hb : b.length = n) (hp : p ≤ 8 * n) :
    (bits a).take p = (bits b).take p ↔ bigEndian a / 2 ^ (8 * n - p) = bigEndian b / 2 ^ (8 * n - p) := by
  have hlarge : ∀ {buf : Buffer}, buf.length = n → ∀ j, 8 * n ≤ j → (bigEndian buf).testBit j = false := by
    intro buf hbuf j hj
    refine Nat.testBit_lt_two_pow (lt_of_lt_of_le (bigEndian_lt buf) ?_)
    rw [show (256 : ℕ) = 2 ^ 8 from rfl, ← pow_mul, hbuf]
    exact Nat.pow_le_pow_right (by decide) hj
  rw [take_eq_iff (by rw [bits_length, ha]; exact hp) (by rw [bits_length, hb]; exact hp)]
  constructor
  · intro hbits
    refine Nat.eq_of_testBit_eq fun j => ?_
    rw [Nat.testBit_div_two_pow, Nat.testBit_div_two_pow]
    by_cases hj : 8 * n ≤ j + (8 * n - p)
    · rw [hlarge ha _ hj, hlarge hb _ hj]
    · have hbit := hbits (8 * n - 1 - (j + (8 * n - p))) (by omega)
      rw [bits_getElem?_bigEndian (by omega), bits_getElem?_bigEndian (by omega), ha, hb] at hbit
      have hindex : 8 * n - 1 - (8 * n - 1 - (j + (8 * n - p))) = j + (8 * n - p) := by omega
      rw [hindex] at hbit
      exact Option.some.inj hbit
  · intro hdiv i hi
    rw [bits_getElem?_bigEndian (by omega), bits_getElem?_bigEndian (by omega), ha, hb]
    have hbit := congrArg (fun m => m.testBit (p - 1 - i)) hdiv
    rw [Nat.testBit_div_two_pow, Nat.testBit_div_two_pow] at hbit
    have hindex : p - 1 - i + (8 * n - p) = 8 * n - 1 - i := by omega
    rw [hindex] at hbit
    rw [hbit]

theorem exists_bigEndian {n k : ℕ} (h : n < 256 ^ k) : ∃ buf : Buffer, buf.length = k ∧ bigEndian buf = n := by
  induction k generalizing n with
  | zero => exact ⟨[], rfl, (Nat.lt_one_iff.mp h).symm⟩
  | succ k ih =>
    have hpos : 0 < 256 ^ k := pow_pos (by decide) k
    obtain ⟨rest, hlength, hrest⟩ := ih (Nat.mod_lt n hpos)
    have hhead : n / 256 ^ k < 256 := by
      rw [Nat.div_lt_iff_lt_mul hpos, mul_comm, ← pow_succ]
      exact h
    refine ⟨UInt8.ofNat (n / 256 ^ k) :: rest, congrArg Nat.succ hlength, ?_⟩
    rw [bigEndian_cons, hrest, hlength, UInt8.toNat_ofNat', Nat.mod_eq_of_lt hhead, mul_comm]
    exact Nat.div_add_mod n _

end OxScada.Bytes
