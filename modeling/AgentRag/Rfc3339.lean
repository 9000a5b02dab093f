import AgentRag.Decimal

/-!
# RFC 3339 stamps read back

`Time.formatRFC3339` writes an instant as `YYYY-MM-DDThh:mm:ssZ` and
`parseRFC3339` reads such a text. For every instant whose year has four
digits (years 0 through 9999) the reading gives back the instant with its
fraction of a second dropped (`parseRFC3339_formatRFC3339`).

The calendar half is the inverse pair `civilFromDays` and `daysFromCivil`:
`civilFromDays_spec` says the date `civilFromDays` computes is a valid date
(a month `1..12` and a day within `daysIn`) whose day count is the one it
started from. Its core is the year of era (`yearOfEra`): a day of a 400-year
era splits into centuries of 36524 days, four-year cycles of 1461 days and
years of 365 days, and the formula finds the year of every such split
(`yearOfEra_of_split`, `yearOfEra_leapDay`).

The text half reads each field back: `appendInt` pads a number to its width
with zeros (`appendInt_digits`), `getnum` reads two digits
(`getnum_digits`), and `parseRFC3339` reads a text of the right shape
field by field (`parseRFC3339_digits`).
-/

namespace AgentRag

/-! ## The calendar -/

/-- The year of era `civilFromDays` computes from a day of era, counting
years from March. -/
def yearOfEra (doe : Int) : Int := (doe - doe / 1460 + doe / 36524 - doe / 146096) / 365

/-- The days of an era before its year `yoe`. -/
def daysBeforeYear (yoe : Int) : Int := 365 * yoe + yoe / 4 - yoe / 100

/-- The day `t` of year `j` of four-year cycle `k` of century `c` of an era
is in year `100 c + 4 k + j`. -/
theorem yearOfEra_of_split (c k j t : Int) (hc : 0 ≤ c ∧ c ≤ 3) (hk : 0 ≤ k ∧ k ≤ 24)
    (hj : 0 ≤ j ∧ j ≤ 3) (ht : 0 ≤ t ∧ t ≤ 364) :
    yearOfEra (36524 * c + 1461 * k + 365 * j + t) = 100 * c + 4 * k + j := by
  unfold yearOfEra
  generalize hdoe : 36524 * c + 1461 * k + 365 * j + t = doe
  have h36524 : doe / 36524 = c := by omega
  have h146096 : doe / 146096 = 0 := by omega
  rcases lt_or_le (24 * c + k + 365 * j + t) 1460 with h | h
  · have h1460 : doe / 1460 = 25 * c + k := by omega
    omega
  · have h1460 : doe / 1460 = 25 * c + k + 1 := by omega
    omega

/-- Year `100 c + 4 k + j` of an era starts after `c` centuries, `k`
four-year cycles and `j` years. -/
theorem daysBeforeYear_of_split (c k j : Int) (hk : 0 ≤ k ∧ k ≤ 24) (hj : 0 ≤ j ∧ j ≤ 3) :
    daysBeforeYear (100 * c + 4 * k + j) = 36524 * c + 1461 * k + 365 * j := by
  have h4 : (100 * c + 4 * k + j) / 4 = 25 * c + k := by omega
  have h100 : (100 * c + 4 * k + j) / 100 = c := by omega
  rw [daysBeforeYear, h4, h100]
  ring

/-- The leap day that ends four-year cycle `k` of century `c` is in the
cycle's last year. -/
theorem yearOfEra_leapDay (c k : Int) (hc : 0 ≤ c ∧ c ≤ 3) (hk : 0 ≤ k ∧ k ≤ 23) :
    yearOfEra (36524 * c + 1461 * k + 1460) = 100 * c + 4 * k + 3 := by
  unfold yearOfEra
  generalize hdoe : 36524 * c + 1461 * k + 1460 = doe
  have h36524 : doe / 36524 = c := by omega
  have h146096 : doe / 146096 = 0 := by omega
  have h1460 : doe / 1460 = 25 * c + k + 1 := by omega
  omega

/-- A day of era is in a year of the era, at most 365 days after the year's
start; the day 365 days after is the leap day of a leap year. -/
theorem dayOfEra_split {doe : Int} (h0 : 0 ≤ doe) (h1 : doe < 146097) :
    0 ≤ yearOfEra doe ∧ yearOfEra doe ≤ 399 ∧ 0 ≤ doe - daysBeforeYear (yearOfEra doe) ∧
      doe - daysBeforeYear (yearOfEra doe) ≤ 365 ∧
      (doe - daysBeforeYear (yearOfEra doe) = 365 →
        (yearOfEra doe + 1) % 4 = 0 ∧ ((yearOfEra doe + 1) % 100 ≠ 0 ∨ (yearOfEra doe + 1) % 400 = 0)) := by
  rcases eq_or_lt_of_le (show doe ≤ 146096 by omega) with rfl | hlt
  · decide
  · rcases lt_or_eq_of_le (show doe % 36524 % 1461 ≤ 1460 by omega) with hs | hs
    · obtain ⟨c, k, j, t, hc, hk, hj, ht, rfl⟩ : ∃ c k j t, (0 ≤ c ∧ c ≤ 3) ∧ (0 ≤ k ∧ k ≤ 24) ∧
          (0 ≤ j ∧ j ≤ 3) ∧ (0 ≤ t ∧ t ≤ 364) ∧ doe = 36524 * c + 1461 * k + 365 * j + t :=
        ⟨doe / 36524, doe % 36524 / 1461, doe % 36524 % 1461 / 365, doe % 36524 % 1461 % 365,
          by omega, by omega, by omega, by omega, by omega⟩
      rw [yearOfEra_of_split c k j t hc hk hj ht, daysBeforeYear_of_split c k j hk hj]
      omega
    · obtain ⟨c, k, hc, hk, rfl⟩ : ∃ c k, (0 ≤ c ∧ c ≤ 3) ∧ (0 ≤ k ∧ k ≤ 23) ∧
          doe = 36524 * c + 1461 * k + 1460 :=
        ⟨doe / 36524, doe % 36524 / 1461, by omega, by omega, by omega⟩
      rw [yearOfEra_leapDay c k hc hk, daysBeforeYear_of_split c k 3 ⟨hk.1, by omega⟩ (by omega)]
      omega

/-- `daysFromCivil` of a date in year `yoe` of era `era` counted from March:
the era's days, the days before the year, and the day of the year. -/
theorem daysFromCivil_of_era {era yoe mp : Int} {month day : Nat} (hyoe : 0 ≤ yoe ∧ yoe ≤ 399)
    (hmonth : (if month > 2 then (month : Int) - 3 else (month : Int) + 9) = mp) :
    daysFromCivil (yoe + era * 400 + (if month ≤ 2 then 1 else 0)) month day =
      era * 146097 + daysBeforeYear yoe + ((153 * mp + 2) / 5 + day - 1) - 719468 := by
  have hy : (if month ≤ 2 then yoe + era * 400 + (if month ≤ 2 then 1 else 0) - 1
      else yoe + era * 400 + (if month ≤ 2 then 1 else 0)) = yoe + era * 400 := by
    split_ifs <;> omega
  have hera : (yoe + era * 400) / 400 = era := by omega
  simp only [daysFromCivil, hy, hera, hmonth, daysBeforeYear]
  ring_nf

/-- The month and day `civilFromDays` reads off a day of the year counted from
March 1: a month of the year, the day within the month's length, and the
month index `daysFromCivil` takes back. -/
theorem monthDay_spec {doy mp m : Int} (h : 0 ≤ doy ∧ doy ≤ 365) (hmp : (5 * doy + 2) / 153 = mp)
    (hm : (if mp < 10 then mp + 3 else mp - 9) = m) :
    1 ≤ m ∧ m ≤ 12 ∧ 1 ≤ doy - (153 * mp + 2) / 5 + 1 ∧
      (if m.toNat > 2 then (m.toNat : Int) - 3 else (m.toNat : Int) + 9) = mp ∧
      (m ≤ 2 ↔ 306 ≤ doy) ∧
      (m = 2 → doy - (153 * mp + 2) / 5 + 1 ≤ 28 ∨ doy = 365) ∧
      (m = 4 ∨ m = 6 ∨ m = 9 ∨ m = 11 → doy - (153 * mp + 2) / 5 + 1 ≤ 30) ∧
      doy - (153 * mp + 2) / 5 + 1 ≤ 31 := by
  split_ifs at hm <;> split_ifs <;> omega

theorem daysIn_le (month : Nat) (year : Int) : daysIn month year ≤ 31 := by
  unfold daysIn
  split_ifs <;> omega

/-- A day is within `daysIn` when it is within the month's length. -/
theorem le_daysIn {d year : Int} {month : Nat} (h31 : d ≤ 31)
    (h30 : month = 4 ∨ month = 6 ∨ month = 9 ∨ month = 11 → d ≤ 30)
    (h2 : month = 2 → d ≤ 28 ∨ d ≤ 29 ∧ year % 4 = 0 ∧ (year % 100 ≠ 0 ∨ year % 400 = 0)) :
    d ≤ daysIn month year := by
  unfold daysIn
  split_ifs <;> omega

/-- `civilFromDays` through the year of era. -/
theorem civilFromDays_eq (z : Int) :
    civilFromDays z =
      let era := (z + 719468) / 146097
      let doe := z + 719468 - era * 146097
      let doy := doe - daysBeforeYear (yearOfEra doe)
      let mp := (5 * doy + 2) / 153
      let m := if mp < 10 then mp + 3 else mp - 9
      (yearOfEra doe + era * 400 + (if m ≤ 2 then 1 else 0), m, doy - (153 * mp + 2) / 5 + 1) :=
  rfl

/-- `civilFromDays` as a year of an era, a day of that year counted from
March 1, and that day's month index. -/
theorem civilFromDays_split (z : Int) : ∃ era yoe doy mp m : Int,
    civilFromDays z = (yoe + era * 400 + (if m ≤ 2 then 1 else 0), m, doy - (153 * mp + 2) / 5 + 1) ∧
      z + 719468 = era * 146097 + daysBeforeYear yoe + doy ∧ (0 ≤ yoe ∧ yoe ≤ 399) ∧
      (0 ≤ doy ∧ doy ≤ 365) ∧
      (doy = 365 → (yoe + 1) % 4 = 0 ∧ ((yoe + 1) % 100 ≠ 0 ∨ (yoe + 1) % 400 = 0)) ∧
      (5 * doy + 2) / 153 = mp ∧ (if mp < 10 then mp + 3 else mp - 9) = m := by
  have hdoe := dayOfEra_split (show 0 ≤ z + 719468 - (z + 719468) / 146097 * 146097 by omega)
    (by omega)
  set doe := z + 719468 - (z + 719468) / 146097 * 146097 with hd
  exact ⟨(z + 719468) / 146097, yearOfEra doe, doe - daysBeforeYear (yearOfEra doe), _, _,
    civilFromDays_eq z, by omega, ⟨hdoe.1, hdoe.2.1⟩, ⟨hdoe.2.2.1, hdoe.2.2.2.1⟩, hdoe.2.2.2.2, rfl,
    rfl⟩

/-- **The calendar.** `civilFromDays` gives a valid date, a month of the year
and a day of that month, and `daysFromCivil` takes the date back to the day
count it came from. -/
theorem civilFromDays_spec (z : Int) :
    1 ≤ (civilFromDays z).2.1 ∧ (civilFromDays z).2.1 ≤ 12 ∧ 1 ≤ (civilFromDays z).2.2 ∧
      (civilFromDays z).2.2 ≤ daysIn (civilFromDays z).2.1.toNat (civilFromDays z).1 ∧
      daysFromCivil (civilFromDays z).1 (civilFromDays z).2.1.toNat
        (civilFromDays z).2.2.toNat = z := by
  obtain ⟨era, yoe, doy, mp, m, hciv, hz, hyoe, hdoy, hleap, hmp, hm⟩ := civilFromDays_split z
  obtain ⟨hm1, hm12, hd1, hmonth, hmar, hfeb, hshort, hd31⟩ := monthDay_spec hdoy hmp hm
  have hyear : (if m ≤ 2 then (1 : Int) else 0) = if m.toNat ≤ 2 then 1 else 0 := by
    split_ifs <;> omega
  rw [hciv]
  dsimp only
  rw [hyear, daysFromCivil_of_era hyoe hmonth]
  refine ⟨hm1, hm12, hd1, le_daysIn hd31 (fun h => hshort (by omega)) fun h => ?_, by omega⟩
  rcases hfeb (by omega) with hle | h365
  · exact .inl hle
  · rw [if_pos (by omega)]
    have hleap := hleap h365
    exact .inr ⟨by omega, by omega, by omega⟩

/-- The days from 0000-01-01 to 9999-12-31 are the days of four-digit
years. -/
theorem civilFromDays_year_bounds {z : Int} (hlo : -719528 ≤ z) (hhi : z ≤ 2932896) :
    0 ≤ (civilFromDays z).1 ∧ (civilFromDays z).1 ≤ 9999 := by
  obtain ⟨era, yoe, doy, mp, m, hciv, hz, hyoe, hdoy, -, hmp, hm⟩ := civilFromDays_split z
  have hmar := (monthDay_spec hdoy hmp hm).2.2.2.2.1
  rw [hciv, daysBeforeYear] at *
  dsimp only
  clear hciv hmp hm
  rcases le_or_lt 0 era with hera | hera <;> rcases le_or_lt 24 era with hera' | hera' <;>
    rcases eq_or_lt_of_le hyoe.2 with rfl | hlt <;> split_ifs <;> omega

/-! ## The text -/

/-- `appendInt x w` of a number of at most `w` digits is `w` digits denoting
`x`. -/
theorem appendInt_digits {x : Int} {w : Nat} (h0 : 0 ≤ x) (hx : x < 10 ^ w) (hw : 0 < w) :
    (appendInt x w).toList.length = w ∧ (∀ c ∈ (appendInt x w).toList, c.isDigit = true) ∧
      digitsValue (appendInt x w).toList = x.toNat := by
  have hcast : ((10 ^ w : Nat) : Int) = 10 ^ w := by push_cast; rfl
  have htext : (appendInt x w).toList =
      List.replicate (w - (Nat.toDigits 10 x.natAbs).length) '0' ++ Nat.toDigits 10 x.natAbs := by
    rw [appendInt, if_neg (by omega)]
    rfl
  obtain ⟨hlen, hdig, hval⟩ := padded_toDigits (n := x.natAbs) (by omega) hw
  rw [htext]
  exact ⟨hlen, hdig, by omega⟩

/-- `getnum` reads two digits. -/
theorem getnum_digits {a b : Char} (ha : a.isDigit = true) (hb : b.isDigit = true)
    (rest : List Char) (fixed : Bool) :
    getnum (a :: b :: rest) fixed = some (10 * digitValue a + digitValue b, rest) := by
  simp [getnum, ha, hb]

/-- `parseRFC3339` reads a text of the shape `YYYY-MM-DDThh:mm:ssZ` field by
field: a valid date and time of day is the instant of that many days and
seconds after the epoch. -/
theorem parseRFC3339_digits {text : String} {y0 y1 y2 y3 m0 m1 d0 d1 h0 h1 i0 i1 s0 s1 : Char}
    (htext : text.toList =
      [y0, y1, y2, y3, '-', m0, m1, '-', d0, d1, 'T', h0, h1, ':', i0, i1, ':', s0, s1, 'Z'])
    (hdigits : ∀ c ∈ [y0, y1, y2, y3, m0, m1, d0, d1, h0, h1, i0, i1, s0, s1], c.isDigit = true)
    {year : Int} {month day hour min sec : Nat} (hyear : (digitsValue [y0, y1, y2, y3] : Int) = year)
    (hmonth : 10 * digitValue m0 + digitValue m1 = month) (hday : 10 * digitValue d0 + digitValue d1 = day)
    (hhour : 10 * digitValue h0 + digitValue h1 = hour) (hmin : 10 * digitValue i0 + digitValue i1 = min)
    (hsec : 10 * digitValue s0 + digitValue s1 = sec)
    (hm : 1 ≤ month ∧ month ≤ 12) (hd : 1 ≤ day ∧ day ≤ daysIn month year)
    (hh : hour < 24) (hi : min < 60) (hs : sec < 60) :
    parseRFC3339 text =
      some ⟨(daysFromCivil year month day * 86400 + hour * 3600 + min * 60 + sec) * 1000000000⟩ := by
  simp only [List.mem_cons, List.mem_nil_iff, or_false, forall_eq_or_imp, forall_eq] at hdigits
  obtain ⟨hy0, hy1, hy2, hy3, hm0, hm1, hd0, hd1, hh0, hh1, hi0, hi1, hs0, hs1⟩ := hdigits
  subst hyear
  have c1 : ¬(month < 1 ∨ 12 < month) := by omega
  have c2 : ¬(24 ≤ hour) := by omega
  have c3 : ¬(60 ≤ min) := by omega
  have c4 : ¬(60 ≤ sec) := by omega
  have c5 : ¬(day < 1 ∨ daysIn month (digitsValue [y0, y1, y2, y3]) < day) := by omega
  rw [parseRFC3339, htext]
  simp only [hy0, hy1, hy2, hy3, Bool.and_self, Bool.not_true, Bool.false_eq_true, ↓reduceIte,
    Option.bind_eq_bind, Option.some_bind, getnum_digits hm0 hm1, getnum_digits hd0 hd1,
    getnum_digits hh0 hh1, getnum_digits hi0 hi1, getnum_digits hs0 hs1, hmonth, hday, hhour, hmin,
    hsec, c1, c2, c3, c4, c5, Option.pure_def, show parseFraction ['Z'] = (0, ['Z']) from rfl,
    show parseZone ['Z'] = some (0, []) from rfl, List.isEmpty_nil, Bool.not_true, sub_zero,
    Nat.cast_zero, add_zero]

/-- A two-digit field of the text. -/
theorem appendInt_two {x : Int} (h0 : 0 ≤ x) (hx : x < 100) :
    ∃ a b, (appendInt x 2).toList = [a, b] ∧ a.isDigit = true ∧ b.isDigit = true ∧
      10 * digitValue a + digitValue b = x.toNat := by
  obtain ⟨hlen, hdig, hval⟩ := appendInt_digits (w := 2) h0 (by norm_num; omega) (by norm_num)
  obtain ⟨a, b, hab⟩ := List.length_eq_two.1 hlen
  rw [hab] at hdig hval
  refine ⟨a, b, hab, hdig a (by simp), hdig b (by simp), ?_⟩
  simpa [digitsValue] using hval

/-- The four-digit year of the text. -/
theorem appendInt_four {x : Int} (h0 : 0 ≤ x) (hx : x < 10000) :
    ∃ a b c d, (appendInt x 4).toList = [a, b, c, d] ∧ (∀ e ∈ [a, b, c, d], e.isDigit = true) ∧
      digitsValue [a, b, c, d] = x.toNat := by
  obtain ⟨hlen, hdig, hval⟩ := appendInt_digits (w := 4) h0 (by norm_num; omega) (by norm_num)
  generalize (appendInt x 4).toList = l at hlen hdig hval
  match l, hlen with
  | [a, b, c, d], _ => exact ⟨a, b, c, d, rfl, hdig, hval⟩
  | [], h | [_], h | [_, _], h | [_, _, _], h | _ :: _ :: _ :: _ :: _ :: _, h =>
    exact absurd h (by simp)

/-- Any field: a sign when it is negative, then at least one digit. -/
theorem appendInt_toList (x : Int) (w : Nat) :
    ∃ sgn ds, (sgn = [] ∨ sgn = ['-']) ∧ ds ≠ [] ∧ (∀ c ∈ ds, c.isDigit = true) ∧
      (appendInt x w).toList = sgn ++ ds := by
  have hnum := isNumeral_toDigits x.natAbs
  refine ⟨if x < 0 then ['-'] else [],
    List.replicate (w - (Nat.toDigits 10 x.natAbs).length) '0' ++ Nat.toDigits 10 x.natAbs,
    by split_ifs <;> simp, by simp [hnum.ne_nil], fun c hc => ?_, ?_⟩
  · rcases List.mem_append.1 hc with hc | hc
    · rw [List.eq_of_mem_replicate hc]
      rfl
    · exact hnum.isDigit c hc
  · unfold appendInt
    split_ifs <;> rfl

/-- A second of the day is its hours, minutes and seconds. -/
theorem secondOfDay_split (days sod : Int) (h : 0 ≤ sod) :
    days * 86400 + ((sod / 3600).toNat : Int) * 3600 + ((sod % 3600 / 60).toNat : Int) * 60 +
      ((sod % 60).toNat : Int) = days * 86400 + sod := by
  omega

/-- `parseRFC3339` reads back the fields `formatRFC3339` writes for a date of a
four-digit year and a second of the day. -/
theorem parseRFC3339_fields {year month day sod : Int} (hy : 0 ≤ year ∧ year < 10000)
    (hm : 1 ≤ month ∧ month ≤ 12) (hd : 1 ≤ day ∧ day ≤ daysIn month.toNat year)
    (hs : 0 ≤ sod ∧ sod < 86400) :
    parseRFC3339 (appendInt year 4 ++ "-" ++ appendInt month 2 ++ "-" ++ appendInt day 2 ++ "T" ++
      appendInt (sod / 3600) 2 ++ ":" ++ appendInt (sod % 3600 / 60) 2 ++ ":" ++
      appendInt (sod % 60) 2 ++ "Z") =
      some ⟨(daysFromCivil year month.toNat day.toNat * 86400 + sod) * 1000000000⟩ := by
  have hd31 := daysIn_le month.toNat year
  have hb : (0 ≤ month ∧ month < 100) ∧ (0 ≤ day ∧ day < 100) ∧
      (0 ≤ sod / 3600 ∧ sod / 3600 < 100) ∧ (0 ≤ sod % 3600 / 60 ∧ sod % 3600 / 60 < 100) ∧
      (0 ≤ sod % 60 ∧ sod % 60 < 100) := by
    omega
  have hr : (1 ≤ month.toNat ∧ month.toNat ≤ 12) ∧ (1 ≤ day.toNat ∧ day.toNat ≤ daysIn month.toNat year) ∧
      (sod / 3600).toNat < 24 ∧ (sod % 3600 / 60).toNat < 60 ∧ (sod % 60).toNat < 60 := by
    omega
  generalize htxt : appendInt year 4 ++ "-" ++ appendInt month 2 ++ "-" ++ appendInt day 2 ++ "T" ++
    appendInt (sod / 3600) 2 ++ ":" ++ appendInt (sod % 3600 / 60) 2 ++ ":" ++
    appendInt (sod % 60) 2 ++ "Z" = text
  obtain ⟨y0, y1, y2, y3, hY, hYd, hYv⟩ := appendInt_four hy.1 hy.2
  obtain ⟨m0, m1, hM, hm0, hm1, hMv⟩ := appendInt_two hb.1.1 hb.1.2
  obtain ⟨d0, d1, hD, hd0, hd1, hDv⟩ := appendInt_two hb.2.1.1 hb.2.1.2
  obtain ⟨h0, h1, hH, hh0, hh1, hHv⟩ := appendInt_two hb.2.2.1.1 hb.2.2.1.2
  obtain ⟨i0, i1, hI, hi0, hi1, hIv⟩ := appendInt_two hb.2.2.2.1.1 hb.2.2.2.1.2
  obtain ⟨s0, s1, hS, hs0, hs1, hSv⟩ := appendInt_two hb.2.2.2.2.1 hb.2.2.2.2.2
  have htext : text.toList = [y0, y1, y2, y3, '-', m0, m1, '-', d0, d1, 'T',
      h0, h1, ':', i0, i1, ':', s0, s1, 'Z'] := by
    rw [← htxt]
    simp only [toList_append, hY, hM, hD, hH, hI, hS]
    rfl
  have hyear : ((digitsValue [y0, y1, y2, y3] : Nat) : Int) = year := by omega
  have hdigits : ∀ c ∈ [y0, y1, y2, y3, m0, m1, d0, d1, h0, h1, i0, i1, s0, s1], c.isDigit = true := by
    simpa [hm0, hm1, hd0, hd1, hh0, hh1, hi0, hi1, hs0, hs1] using hYd
  rw [parseRFC3339_digits htext hdigits hyear hMv hDv hHv hIv hSv hr.1 hr.2.1 hr.2.2.1 hr.2.2.2.1
    hr.2.2.2.2, secondOfDay_split _ _ hs.1]

/-- The stamp of an instant of a four-digit year reads back as the instant
truncated to the second. -/
theorem formatRFC3339_readsBack {t : Time} (hlo : -62167219200000000000 ≤ t.unixNano)
    (hhi : t.unixNano < 253402300800000000000) :
    parseRFC3339 t.formatRFC3339 = some ⟨t.unixNano / 1000000000 * 1000000000⟩ := by
  have hz : -719528 ≤ t.unixNano / 1000000000 / 86400 ∧ t.unixNano / 1000000000 / 86400 ≤ 2932896 := by
    omega
  have hyear := civilFromDays_year_bounds hz.1 hz.2
  obtain ⟨hm1, hm12, hd1, hdays, hciv⟩ := civilFromDays_spec (t.unixNano / 1000000000 / 86400)
  have hsecs : t.unixNano / 1000000000 / 86400 * 86400 + t.unixNano / 1000000000 % 86400 =
      t.unixNano / 1000000000 := Int.ediv_add_emod' _ _
  rw [Time.formatRFC3339]
  dsimp only
  rw [parseRFC3339_fields ⟨hyear.1, by omega⟩ ⟨hm1, hm12⟩ ⟨hd1, hdays⟩
    ⟨Int.emod_nonneg _ (by decide), Int.emod_lt_of_pos _ (by decide)⟩, hciv, hsecs]

/-- A stamp only reads the whole seconds of an instant. -/
theorem Time.formatRFC3339_truncate (t : Time) :
    (Time.mk (t.unixNano / 1000000000 * 1000000000)).formatRFC3339 = t.formatRFC3339 := by
  simp only [Time.formatRFC3339, Int.mul_ediv_cancel _ (by norm_num : (1000000000 : Int) ≠ 0)]

/-- **RFC 3339 stamps read back.** For an instant of a year from 0 to 9999,
`time.Parse(time.RFC3339, ·)` of `t.UTC().Format(time.RFC3339)` is `t`
truncated to the second, and that instant formats to the same stamp again:
the stamp is the one text of its second. -/
theorem parseRFC3339_formatRFC3339 (t : Time) (hlo : -62167219200000000000 ≤ t.unixNano)
    (hhi : t.unixNano < 253402300800000000000) :
    parseRFC3339 t.formatRFC3339 = some ⟨t.unixNano / 1000000000 * 1000000000⟩ ∧
      (parseRFC3339 t.formatRFC3339).map Time.formatRFC3339 = some t.formatRFC3339 := by
  have h := formatRFC3339_readsBack hlo hhi
  rw [h, Option.map_some', t.formatRFC3339_truncate]
  exact ⟨rfl, rfl⟩

/-- Half a second into 2026: the stamp reads back as the start of that
second, whose stamp it is. -/
theorem parseRFC3339_formatRFC3339_halfSecond :
    (-62167219200000000000 ≤ (Time.mk 1767225600500000000).unixNano ∧
      (Time.mk 1767225600500000000).unixNano < 253402300800000000000) ∧
    parseRFC3339 (Time.mk 1767225600500000000).formatRFC3339 =
        some ⟨(Time.mk 1767225600500000000).unixNano / 1000000000 * 1000000000⟩ ∧
      (parseRFC3339 (Time.mk 1767225600500000000).formatRFC3339).map Time.formatRFC3339 =
        some (Time.mk 1767225600500000000).formatRFC3339 :=
  ⟨⟨by decide, by decide⟩, parseRFC3339_formatRFC3339 _ (by decide) (by decide)⟩

/-- Every stamp, of any year, starts with the year's numeral and its sign,
and then `-MM-DDT` in two-digit fields. -/
theorem formatRFC3339_toList (t : Time) :
    ∃ sgn ds m0 m1 d0 d1 rest, (sgn = [] ∨ sgn = ['-']) ∧ ds ≠ [] ∧
      (∀ c ∈ ds, c.isDigit = true) ∧ (∀ c ∈ [m0, m1, d0, d1], c.isDigit = true) ∧
      t.formatRFC3339.toList = sgn ++ ds ++ '-' :: m0 :: m1 :: '-' :: d0 :: d1 :: 'T' :: rest := by
  obtain ⟨hm1, hm12, hd1, hdays, -⟩ := civilFromDays_spec (t.unixNano / 1000000000 / 86400)
  rw [Time.formatRFC3339]
  generalize civilFromDays (t.unixNano / 1000000000 / 86400) = civ at *
  obtain ⟨year, month, day⟩ := civ
  dsimp only at hm1 hm12 hd1 hdays ⊢
  have hd31 := daysIn_le month.toNat year
  obtain ⟨sgn, ds, hsgn, hne, hds, hY⟩ := appendInt_toList year 4
  obtain ⟨m0, m1, hM, hm0, hm1', -⟩ := appendInt_two (x := month) (by omega) (by omega)
  obtain ⟨d0, d1, hD, hd0, hd1', -⟩ := appendInt_two (x := day) (by omega) (by omega)
  refine ⟨sgn, ds, m0, m1, d0, d1, _, hsgn, hne, hds, by simp [hm0, hm1', hd0, hd1'],
    by simp only [toList_append, hY, hM, hD, List.append_assoc]; rfl⟩

end AgentRag
