import OxScada.Js.Date

/-! `new Date(text)` on the texts that `toISOString` writes. Other formats are not read. -/

namespace OxScada.Js
open OxScada.Bytes

def daysFromCivil (date : CivilDate) : ℤ :=
  let year := if date.month ≤ 2 then date.year - 1 else date.year
  let monthFromMarch := if 2 < date.month then date.month - 3 else date.month + 9
  let dayOfYear := (153 * monthFromMarch + 2) / 5 + date.day - 1
  let yearOfEra := year % 400
  year / 400 * 146097 + (365 * yearOfEra + yearOfEra / 4 - yearOfEra / 100 + dayOfYear) - 719468

def readDigits (width : ℕ) (text : Text) : Option (ℕ × Text) :=
  if (text.take width).length = width ∧ (text.take width).all Char.isDigit then some (Nat.ofDigitChars 10 (text.take width) 0, text.drop width) else none

def readMark (mark : Char) (text : Text) : Option Text := if text.head? = some mark then some text.tail else none

/-- Four digits, or a sign and six of them. The year 0 has no sign. -/
def readYear (text : Text) : Option (ℤ × Text) :=
  if text.head? = some '-' then (readDigits 6 text.tail).bind fun found => if found.1 = 0 then none else some (-found.1, found.2)
  else if text.head? = some '+' then (readDigits 6 text.tail).map fun found => (found.1, found.2)
  else (readDigits 4 text).map fun found => (found.1, found.2)

def readPart (mark : Char) (width : ℕ) (text : Text) : Option (ℕ × Text) := (readMark mark text).bind (readDigits width)

/-- The time of a date in the calendar, and of a time of day in UTC. -/
def timeOf (year : ℤ) (month day hour minute second ms : ℕ) : Option ℤ :=
  if 1 ≤ month ∧ month ≤ 12 ∧ 1 ≤ day ∧ day ≤ 31 ∧ hour < 24 ∧ minute < 60 ∧ second < 60 then
    timeClip (daysFromCivil ⟨year, month, day⟩ * 86400000 + hour * 3600000 + minute * 60000 + second * 1000 + ms : ℤ)
  else none

def parseDate (text : Text) : Option ℤ :=
  (readYear text).bind fun (year, rest) =>
  (readPart '-' 2 rest).bind fun (month, rest) =>
  (readPart '-' 2 rest).bind fun (day, rest) =>
  (readPart 'T' 2 rest).bind fun (hour, rest) =>
  (readPart ':' 2 rest).bind fun (minute, rest) =>
  (readPart ':' 2 rest).bind fun (second, rest) =>
  (readPart '.' 3 rest).bind fun (ms, rest) =>
  if rest = ['Z'] then timeOf year month day hour minute second ms else none

/-! ### The calendar -/

theorem dayOfYear_bounds {dayOfEra yearOfEra dayOfYear : ℤ} (hday : 0 ≤ dayOfEra ∧ dayOfEra < 146097)
    (hyear : yearOfEra = (dayOfEra - dayOfEra / 1460 + dayOfEra / 36524 - dayOfEra / 146096) / 365)
    (hrest : dayOfYear = dayOfEra - (365 * yearOfEra + yearOfEra / 4 - yearOfEra / 100)) :
    (0 ≤ yearOfEra ∧ yearOfEra < 400) ∧ 0 ≤ dayOfYear ∧ dayOfYear ≤ 365 := by
  -- the year is four times the number of periods of 1460 days, and at most 4 more
  have hcenturies : 0 ≤ dayOfEra / 36524 ∧ dayOfEra / 36524 ≤ 4 := by omega
  have hlast : 0 ≤ dayOfEra / 146096 ∧ dayOfEra / 146096 ≤ 1 := by omega
  have hyears : -1 ≤ yearOfEra - 4 * (dayOfEra / 1460) ∧ yearOfEra - 4 * (dayOfEra / 1460) ≤ 4 := by omega
  generalize hmore : yearOfEra - 4 * (dayOfEra / 1460) = more at hyears
  generalize hcentury : dayOfEra / 36524 = century at *
  generalize hday' : dayOfEra / 146096 = last at *
  obtain ⟨hmore0, hmore4⟩ := hyears
  obtain ⟨hcentury0, hcentury4⟩ := hcenturies
  obtain ⟨hlast0, hlast1⟩ := hlast
  interval_cases more <;> interval_cases century <;> interval_cases last <;> omega

/-- A day by its era, the year of the era, the day of the year and the month, which make its date. -/
theorem civilFromDays_eq (days : ℤ) : ∃ era yearOfEra dayOfYear monthFromMarch : ℤ,
    days = era * 146097 + (365 * yearOfEra + yearOfEra / 4 - yearOfEra / 100 + dayOfYear) - 719468 ∧ (0 ≤ yearOfEra ∧ yearOfEra < 400) ∧
      (0 ≤ dayOfYear ∧ dayOfYear ≤ 365) ∧ monthFromMarch = (5 * dayOfYear + 2) / 153 ∧
      civilFromDays days =
        { year := yearOfEra + era * 400 + if (if monthFromMarch < 10 then monthFromMarch + 3 else monthFromMarch - 9) ≤ 2 then 1 else 0
          month := if monthFromMarch < 10 then monthFromMarch + 3 else monthFromMarch - 9
          day := dayOfYear - (153 * monthFromMarch + 2) / 5 + 1 } := by
  have hday : 0 ≤ (days + 719468) % 146097 ∧ (days + 719468) % 146097 < 146097 := by omega
  obtain ⟨hyears, hdays⟩ := dayOfYear_bounds hday rfl rfl
  exact ⟨(days + 719468) / 146097, _, _, _, by omega, hyears, hdays, rfl, rfl⟩

theorem civilFromDays_date (days : ℤ) :
    daysFromCivil (civilFromDays days) = days ∧ (1 ≤ (civilFromDays days).month ∧ (civilFromDays days).month ≤ 12) ∧
      (1 ≤ (civilFromDays days).day ∧ (civilFromDays days).day ≤ 31) ∧
      (|days| ≤ 10 ^ 8 → -999999 < (civilFromDays days).year ∧ (civilFromDays days).year < 999999) := by
  obtain ⟨era, yearOfEra, dayOfYear, monthFromMarch, hsum, hyears, hdays, hmonth, hcivil⟩ := civilFromDays_eq days
  rw [hcivil]
  unfold daysFromCivil
  dsimp only
  have hmonths : 0 ≤ monthFromMarch ∧ monthFromMarch < 12 := by omega
  have hspan : 153 * monthFromMarch ≤ 5 * dayOfYear + 2 ∧ 5 * dayOfYear + 2 < 153 * monthFromMarch + 153 := by omega
  rw [abs_le]
  by_cases hlate : monthFromMarch < 10
  · have hnot : ¬ monthFromMarch + 3 ≤ 2 := by omega
    have hafter : 2 < monthFromMarch + 3 := by omega
    simp only [if_pos hlate, if_neg hnot, if_pos hafter]
    refine ⟨?_, ?_, ?_, ?_⟩ <;> omega
  · have hearly : monthFromMarch - 9 ≤ 2 := by omega
    have hbefore : ¬ 2 < monthFromMarch - 9 := by omega
    simp only [if_neg hlate, if_pos hearly, if_neg hbefore]
    refine ⟨?_, ?_, ?_, ?_⟩ <;> omega

/-! ### Texts -/

theorem padded_digit {width : ℕ} {n : ℤ} {c : Char} (hc : c ∈ padded width n) : c.isDigit = true := by
  unfold padded List.leftpad at hc
  rcases List.mem_append.mp hc with hc | hc
  · rw [List.eq_of_mem_replicate hc]
    rfl
  · exact Nat.isDigit_of_mem_toDigits (by norm_num) (by norm_num) hc

theorem length_padded {width : ℕ} (hwidth : 0 < width) {n : ℤ} (hn : n < 10 ^ width) : (padded width n).length = width := by
  have hk : n.toNat < 10 ^ width := by
    have hpos : (0 : ℤ) < 10 ^ width := by positivity
    zify
    omega
  have hlength : (Nat.toDigits 10 n.toNat).length ≤ width := (Nat.length_toDigits_le_iff (by norm_num) hwidth).mpr hk
  rw [padded, List.length_leftpad]
  exact max_eq_left hlength

theorem readDigits_padded {width : ℕ} (hwidth : 0 < width) {n : ℤ} (hn : n < 10 ^ width) (rest : Text) :
    readDigits width (padded width n ++ rest) = some (n.toNat, rest) := by
  have hlength := length_padded hwidth hn
  have hvalue : Nat.ofDigitChars 10 (padded width n) 0 = n.toNat := by
    unfold padded List.leftpad
    rw [Nat.ofDigitChars_append, Nat.ofDigitChars_replicate_zero, Nat.mul_zero, Nat.ofDigitChars_ten_toDigits]
  unfold readDigits
  rw [List.take_left' hlength, List.drop_left' hlength, if_pos ⟨hlength, List.all_eq_true.mpr fun c hc => padded_digit hc⟩, hvalue]

theorem readYear_isoYear {year : ℤ} (hyear : -999999 < year ∧ year < 999999) (rest : Text) : readYear (isoYear year ++ rest) = some (year, rest) := by
  obtain ⟨hlow, hhigh⟩ := hyear
  unfold isoYear
  by_cases hshort : 0 ≤ year ∧ year ≤ 9999
  · have hread := @readDigits_padded 4 (by norm_num) year (by omega) rest
    have hlength := @length_padded 4 (by norm_num) year (by omega)
    have hne : padded 4 year ≠ [] := List.ne_nil_of_length_pos (by rw [hlength]; norm_num)
    obtain ⟨c, text, htext⟩ := List.exists_cons_of_ne_nil hne
    have hc : c.isDigit = true := padded_digit (htext ▸ List.mem_cons_self)
    have hminus : c ≠ '-' := by
      rintro rfl
      exact absurd hc (by decide)
    have hplus : c ≠ '+' := by
      rintro rfl
      exact absurd hc (by decide)
    rw [if_pos hshort, readYear, hread]
    rw [htext, List.cons_append, List.head?_cons, if_neg (by simpa using hminus), if_neg (by simpa using hplus)]
    simp [Int.toNat_of_nonneg hshort.1]
  · rw [if_neg hshort]
    by_cases hneg : year < 0
    · have hread := @readDigits_padded 6 (by norm_num) (-year) (by omega) rest
      have hne : (-year).toNat ≠ 0 := by omega
      have hvalue : -((-year).toNat : ℤ) = year := by omega
      rw [if_pos hneg, List.cons_append, readYear, if_pos (by rfl), List.tail_cons, hread, Option.bind_some, if_neg hne, hvalue]
    · have hread := @readDigits_padded 6 (by norm_num) year (by omega) rest
      have hvalue : (year.toNat : ℤ) = year := by omega
      rw [if_neg hneg, List.cons_append, readYear, if_neg (by simp), if_pos (by rfl), List.tail_cons, hread, Option.map_some, hvalue]

theorem readPart_padded (mark : Char) {width : ℕ} (hwidth : 0 < width) {n : ℤ} (hn : n < 10 ^ width) (rest : Text) :
    readPart mark width (mark :: (padded width n ++ rest)) = some (n.toNat, rest) := by
  rw [readPart, readMark, if_pos (by rfl), Option.bind_some, List.tail_cons, readDigits_padded hwidth hn]

theorem timeClip_int {time : ℤ} (htime : |time| ≤ dateLimit) : timeClip time = some time := by
  have hle : |(time : ℚ)| ≤ dateLimit := by exact_mod_cast htime
  unfold timeClip
  rw [if_pos hle, Int.floor_intCast, Int.ceil_intCast, ite_self]

theorem clock_fields {ms : ℤ} (hms : 0 ≤ ms ∧ ms < 86400000) :
    (ms / 3600000).toNat < 24 ∧ (ms / 60000 % 60).toNat < 60 ∧ (ms / 1000 % 60).toNat < 60 := by
  have hsmall : ∀ {n k : ℤ}, n < k → 0 < k → n.toNat < k.toNat := fun hn hk => (Int.toNat_lt_toNat hk).mpr hn
  refine ⟨hsmall (k := 24) ?_ (by norm_num), hsmall (k := 60) (Int.emod_lt_of_pos _ (by norm_num)) (by norm_num),
    hsmall (k := 60) (Int.emod_lt_of_pos _ (by norm_num)) (by norm_num)⟩
  omega

theorem parseDate_toISOString {time : ℤ} (htime : |time| ≤ dateLimit) : parseDate (toISOString time) = some time := by
  obtain ⟨hdays, ⟨hmonth1, hmonth12⟩, ⟨hday1, hday31⟩, hyear⟩ := civilFromDays_date (time / 86400000)
  have hlimit : |time / 86400000| ≤ 10 ^ 8 := by
    unfold dateLimit at htime
    rw [abs_le] at htime ⊢
    omega
  have hyear := hyear hlimit
  have hsum : time = time / 86400000 * 86400000 + time % 86400000 / 3600000 * 3600000 + time % 86400000 / 60000 % 60 * 60000 +
      time % 86400000 / 1000 % 60 * 1000 + time % 86400000 % 1000 := by omega
  have hms : 0 ≤ time % 86400000 ∧ time % 86400000 < 86400000 := by omega
  have htwo : ∀ (mark : Char) {n : ℤ} (rest : Text), n < 100 → readPart mark 2 (mark :: (padded 2 n ++ rest)) = some (n.toNat, rest) :=
    fun mark {n} rest hn => readPart_padded mark (by norm_num) (by norm_num; exact hn) rest
  have hthree : ∀ (mark : Char) {n : ℤ} (rest : Text), n < 1000 → readPart mark 3 (mark :: (padded 3 n ++ rest)) = some (n.toNat, rest) :=
    fun mark {n} rest hn => readPart_padded mark (by norm_num) (by norm_num; exact hn) rest
  unfold toISOString
  generalize civilFromDays (time / 86400000) = date at *
  generalize time % 86400000 = ms at *
  dsimp only
  have htext : isoYear date.year ++ '-' :: padded 2 date.month ++ '-' :: padded 2 date.day ++ 'T' :: padded 2 (ms / 3600000) ++
      ':' :: padded 2 (ms / 60000 % 60) ++ ':' :: padded 2 (ms / 1000 % 60) ++ '.' :: padded 3 (ms % 1000) ++ ['Z'] =
      isoYear date.year ++ '-' :: (padded 2 date.month ++ '-' :: (padded 2 date.day ++ 'T' :: (padded 2 (ms / 3600000) ++
        ':' :: (padded 2 (ms / 60000 % 60) ++ ':' :: (padded 2 (ms / 1000 % 60) ++ '.' :: (padded 3 (ms % 1000) ++ ['Z'])))))) := by
    simp only [List.append_assoc, List.cons_append]
  rw [htext, parseDate, readYear_isoYear hyear, Option.bind_some]
  dsimp only
  rw [htwo _ _ (by omega), Option.bind_some]
  dsimp only
  rw [htwo _ _ (by omega), Option.bind_some]
  dsimp only
  rw [htwo _ _ (by omega), Option.bind_some]
  dsimp only
  rw [htwo _ _ (by omega), Option.bind_some]
  dsimp only
  rw [htwo _ _ (by omega), Option.bind_some]
  dsimp only
  rw [hthree _ _ (by omega), Option.bind_some]
  dsimp only
  have hmonth : (date.month.toNat : ℤ) = date.month := Int.toNat_of_nonneg (by omega)
  have hday : (date.day.toNat : ℤ) = date.day := Int.toNat_of_nonneg (by omega)
  have hdate : (⟨date.year, date.month.toNat, date.day.toNat⟩ : CivilDate) = date := by rw [hmonth, hday]
  have hhours : 0 ≤ ms / 3600000 := Int.ediv_nonneg hms.1 (by norm_num)
  have hrest : ∀ n k : ℤ, k ≠ 0 → 0 ≤ n % k := fun n _ hk => Int.emod_nonneg n hk
  have hvalue : time / 86400000 * 86400000 + ((ms / 3600000).toNat : ℤ) * 3600000 + ((ms / 60000 % 60).toNat : ℤ) * 60000 +
      ((ms / 1000 % 60).toNat : ℤ) * 1000 + ((ms % 1000).toNat : ℤ) = time := by
    rw [Int.toNat_of_nonneg hhours, Int.toNat_of_nonneg (hrest _ 60 (by norm_num)), Int.toNat_of_nonneg (hrest _ 60 (by norm_num)),
      Int.toNat_of_nonneg (hrest _ 1000 (by norm_num))]
    exact hsum.symm
  have hfields : 1 ≤ date.month.toNat ∧ date.month.toNat ≤ 12 ∧ 1 ≤ date.day.toNat ∧ date.day.toNat ≤ 31 := by
    clear hsum hvalue
    omega
  rw [if_pos rfl, timeOf, if_pos ⟨hfields.1, hfields.2.1, hfields.2.2.1, hfields.2.2.2, clock_fields hms⟩, hdate, hdays, hvalue, timeClip_int htime]

end OxScada.Js
