import OxScada.Js.Arithmetic
import OxScada.Js.Text

/-! Integers of any size: which numbers are integers, the texts of integers, and their words of 32 bits. -/

namespace OxScada.Js
open OxScada.Bytes

def bigInt (value : Float) : ℤ := value.toModel.unpack.toInt 0 0

def isInteger (value : Float) : Bool := value.isFinite && value == ofInteger (bigInt value)

def isSafeInteger (value : Float) : Bool := isInteger value && (bigInt value).natAbs < 2 ^ 53

def integerText (n : ℤ) : Text := if n < 0 then '-' :: Nat.toDigits 10 n.natAbs else Nat.toDigits 10 n.natAbs

def digitValue (c : Char) : ℕ :=
  if c.isDigit then c.toNat - 48 else if c.isUpper then c.toNat - 55 else if c.isLower then c.toNat - 87 else 36

def radixValue (radix : ℕ) (digits : Text) : Option ℕ :=
  if digits = [] ∨ digits.any fun c => radix ≤ digitValue c then none
  else some (digits.foldl (fun value c => radix * value + digitValue c) 0)

def bigIntOfText (text : Text) : Option ℤ :=
  match ((text.dropWhile isSpace).reverse.dropWhile isSpace).reverse with
  | [] => some 0
  | '0' :: 'x' :: digits => (radixValue 16 digits).map Int.ofNat
  | '0' :: 'X' :: digits => (radixValue 16 digits).map Int.ofNat
  | '0' :: 'o' :: digits => (radixValue 8 digits).map Int.ofNat
  | '0' :: 'O' :: digits => (radixValue 8 digits).map Int.ofNat
  | '0' :: 'b' :: digits => (radixValue 2 digits).map Int.ofNat
  | '0' :: 'B' :: digits => (radixValue 2 digits).map Int.ofNat
  | '-' :: digits => (radixValue 10 digits).map fun value : ℕ => -(value : ℤ)
  | '+' :: digits => (radixValue 10 digits).map Int.ofNat
  | digits => (radixValue 10 digits).map Int.ofNat

def isCanonicalNatural : Text → Bool
  | [] => false
  | ['0'] => true
  | first :: digits => first.isDigit && first ≠ '0' && digits.all Char.isDigit

def isCanonicalInteger : Text → Bool
  | '-' :: digits => isCanonicalNatural digits
  | digits => isCanonicalNatural digits

def decimalValue : Text → ℤ
  | '-' :: digits => -Nat.ofDigitChars 10 digits 0
  | digits => Nat.ofDigitChars 10 digits 0

variable {n m : ℤ} {a b : Float} {text digits : Text}

/-! ### Numbers that are integers -/

theorem beq_iff_exactly (ha : Exactly n a.toModel.unpack) (hb : Exactly m b.toModel.unpack) : (a == b) = true ↔ n = m := by
  have hbeq : (a == b) = true ↔ (a.toModel.unpack.compare b.toModel.unpack == some .eq) = true := Iff.rfl
  rw [hbeq, ha.compare hb, beq_iff_eq, Option.some.injEq, compare_eq_iff_eq]

theorem bigInt_exactly (h : Exactly n a.toModel.unpack) : bigInt a = n := h.toInt 0 0

theorem isSafeInteger_exactly (h : isSafeInteger a = true) : (bigInt a).natAbs < 2 ^ 53 ∧ Exactly (bigInt a) a.toModel.unpack := by
  simp only [isSafeInteger, isInteger, Bool.and_eq_true, decide_eq_true_eq] at h
  exact ⟨h.2, exactly_of_beq h.2 h.1.2⟩

theorem exactly_finite (h : Exactly n a.toModel.unpack) : a.isFinite = true := by
  have hfinite : a.isFinite = a.toModel.unpack.isFinite := rfl
  rw [hfinite]
  cases hx : a.toModel.unpack with
  | zero | finite => rfl
  | infinity | notANumber =>
    rw [hx] at h
    exact absurd h id

theorem isSafeInteger_of_exactly (hn : n.natAbs < 2 ^ 53) (h : Exactly n a.toModel.unpack) : isSafeInteger a = true := by
  have hsame : (a == ofInteger n) = true := (beq_iff_exactly h (ofInteger_exactly hn)).mpr rfl
  simp only [isSafeInteger, isInteger, bigInt_exactly h, exactly_finite h, hsame, Bool.and_self, Bool.true_and, decide_eq_true_eq]
  exact hn

/-! ### Texts of integers -/

theorem digitValue_digit {c : Char} (h : c.isDigit = true) : digitValue c = c.toNat - 48 ∧ digitValue c < 10 := by
  have hbounds : 48 ≤ c.toNat ∧ c.toNat ≤ 57 := by simpa [Char.isDigit, UInt32.le_iff_toNat_le] using h
  rw [digitValue, if_pos h]
  omega

theorem radixValue_digits (hne : digits ≠ []) (hdigits : ∀ c ∈ digits, c.isDigit = true) :
    radixValue 10 digits = some (Nat.ofDigitChars 10 digits 0) := by
  have hsmall : ¬ (digits = [] ∨ (digits.any fun c => 10 ≤ digitValue c) = true) := by
    rintro (h | h)
    · exact hne h
    · obtain ⟨c, hc, hlarge⟩ := List.any_eq_true.mp h
      have hlarge : 10 ≤ digitValue c := of_decide_eq_true hlarge
      exact absurd (digitValue_digit (hdigits c hc)).2 (not_lt.mpr hlarge)
  rw [radixValue, if_neg hsmall, Nat.ofDigitChars_eq_foldl]
  congr 1
  apply List.foldl_ext
  intro value c hc
  rw [(digitValue_digit (hdigits c hc)).1]
  rfl

theorem isCanonicalNatural_digits (h : isCanonicalNatural digits = true) : digits ≠ [] ∧ ∀ c ∈ digits, c.isDigit = true := by
  unfold isCanonicalNatural at h
  split at h
  · exact absurd h (by decide)
  · exact ⟨List.cons_ne_nil _ _, by simp⟩
  · simp only [Bool.and_eq_true, List.all_eq_true] at h
    refine ⟨List.cons_ne_nil _ _, ?_⟩
    intro c hc
    rcases List.mem_cons.mp hc with rfl | hc
    · exact h.1.1
    · exact h.2 c hc

theorem digit_not_space {c : Char} (h : c.isDigit = true) : isSpace c = false := by
  have hbounds : 48 ≤ c.toNat ∧ c.toNat ≤ 57 := by simpa [Char.isDigit, UInt32.le_iff_toNat_le] using h
  simp only [isSpace, List.mem_cons, List.not_mem_nil, or_false, decide_eq_false_iff_not]
  omega

theorem trimmed_eq (hne : text ≠ []) (hfirst : isSpace (text.head hne) = false) (hlast : isSpace (text.getLast hne) = false) :
    ((text.dropWhile isSpace).reverse.dropWhile isSpace).reverse = text := by
  have hfront : text.dropWhile isSpace = text := by
    rw [← List.cons_head_tail hne, List.dropWhile_cons_of_neg (by simpa using hfirst)]
  have hne' : text.reverse ≠ [] := by simpa using hne
  have hback : text.reverse.dropWhile isSpace = text.reverse := by
    rw [← List.cons_head_tail hne', List.dropWhile_cons_of_neg (by simpa [List.head_reverse] using hlast)]
  rw [hfront, hback, List.reverse_reverse]

theorem bigIntOfText_canonical (h : isCanonicalInteger text = true) : bigIntOfText text = some (decimalValue text) := by
  unfold isCanonicalInteger at h
  split at h
  · rename_i digits
    obtain ⟨hne, hdigits⟩ := isCanonicalNatural_digits h
    have hlast : isSpace (('-' :: digits).getLast (List.cons_ne_nil _ _)) = false := by
      rw [List.getLast_cons hne]
      exact digit_not_space (hdigits _ (List.getLast_mem hne))
    rw [bigIntOfText, trimmed_eq (List.cons_ne_nil _ _) rfl hlast]
    simp only [radixValue_digits hne hdigits, Option.map_some, decimalValue]
  · rename_i hsign
    obtain ⟨hne, hdigits⟩ := isCanonicalNatural_digits h
    rw [bigIntOfText, trimmed_eq hne (digit_not_space (hdigits _ (List.head_mem hne))) (digit_not_space (hdigits _ (List.getLast_mem hne)))]
    have hplain : ∀ c ∈ text, c ≠ '-' ∧ c ≠ '+' ∧ c ≠ 'x' ∧ c ≠ 'X' ∧ c ≠ 'o' ∧ c ≠ 'O' ∧ c ≠ 'b' ∧ c ≠ 'B' := by
      intro c hc
      have hdigit := hdigits c hc
      refine ⟨?_, ?_, ?_, ?_, ?_, ?_, ?_, ?_⟩ <;> rintro rfl <;> exact absurd hdigit (by decide)
    have hvalue := radixValue_digits hne hdigits
    unfold decimalValue
    split <;> simp_all

theorem isCanonicalNatural_append (h : isCanonicalNatural digits = true) (hzero : digits ≠ ['0']) {c : Char} (hc : c.isDigit = true) :
    isCanonicalNatural (digits ++ [c]) = true := by
  unfold isCanonicalNatural at h
  split at h
  · exact absurd h (by decide)
  · exact absurd rfl hzero
  · rename_i first rest _
    simp only [Bool.and_eq_true, decide_eq_true_eq, List.all_eq_true] at h
    obtain ⟨⟨hfirst, hnonzero⟩, hrest⟩ := h
    rw [List.cons_append, isCanonicalNatural]
    · simp only [Bool.and_eq_true, decide_eq_true_eq, List.all_eq_true]
      refine ⟨⟨hfirst, hnonzero⟩, ?_⟩
      intro d hd
      rcases List.mem_append.mp hd with hd | hd
      · exact hrest d hd
      · exact List.mem_singleton.mp hd ▸ hc
    · intro hfirst'
      exact absurd hfirst' hnonzero

theorem isCanonicalNatural_toDigits (n : ℕ) : isCanonicalNatural (Nat.toDigits 10 n) = true := by
  induction n using Nat.strong_induction_on with
  | h n ih =>
    rcases Nat.lt_or_ge n 10 with hsmall | hlarge
    · interval_cases n <;> decide
    · rw [Nat.toDigits_of_base_le (by norm_num) hlarge]
      have hzero : Nat.toDigits 10 (n / 10) ≠ ['0'] := by
        intro h
        have hvalue : n / 10 = Nat.ofDigitChars 10 ['0'] 0 := by rw [← h, Nat.ofDigitChars_ten_toDigits]
        have hnone : Nat.ofDigitChars 10 ['0'] 0 = 0 := by decide
        omega
      have hdigit : (Nat.digitChar (n % 10)).isDigit = true := by
        have hmod := Nat.mod_lt n (show 0 < 10 by norm_num)
        interval_cases n % 10 <;> decide
      exact isCanonicalNatural_append (ih (n / 10) (by omega)) hzero hdigit

theorem toDigits_unsigned (k : ℕ) : ∀ rest, Nat.toDigits 10 k ≠ '-' :: rest := by
  intro rest h
  have hmem : '-' ∈ Nat.toDigits 10 k := by
    rw [h]
    exact List.mem_cons_self
  exact absurd (Nat.isDigit_of_mem_toDigits (by norm_num) (by norm_num) hmem) (by decide)

theorem isCanonicalInteger_integerText (n : ℤ) : isCanonicalInteger (integerText n) = true := by
  unfold integerText
  split_ifs with hneg
  · exact isCanonicalNatural_toDigits n.natAbs
  · rw [isCanonicalInteger]
    · exact isCanonicalNatural_toDigits n.natAbs
    · exact toDigits_unsigned n.natAbs

theorem decimalValue_integerText (n : ℤ) : decimalValue (integerText n) = n := by
  unfold integerText
  split_ifs with hneg
  · rw [decimalValue, Nat.ofDigitChars_ten_toDigits]
    omega
  · rw [decimalValue, Nat.ofDigitChars_ten_toDigits]
    · omega
    · exact toDigits_unsigned n.natAbs

/-! ### Words -/

/-- The number is the word of 32 bits, with or without a sign. -/
def IsWord (value : Float) (word : ℤ) : Prop :=
  ∃ k : ℤ, -2 ^ 31 ≤ k ∧ k < 2 ^ 32 ∧ (value == ofInteger k) = true ∧ k % 2 ^ 32 = word % 2 ^ 32

theorem toUint32_word {value : Float} {word : ℤ} (h : IsWord value word) : (toUint32 value : ℤ) = word % 2 ^ 32 := by
  obtain ⟨k, hlow, hhigh, hvalue, hsame⟩ := h
  rw [toUint32_exactly (exactly_of_beq (by omega) hvalue), hsame]
  omega

end OxScada.Js
