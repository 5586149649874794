/-
Counting days of the calendar, and reading dates.

`toOrdinal` numbers the days from 1 January of year 1, in the order of the
dates (`toOrdinal_strictMono`). `addDays` steps from day to day and fails
past either end of the calendar; where it succeeds it adds to the number
(`toOrdinal_addDays`). A year is never shorter than 365 days, from any of
its days to the same day of the next (`toOrdinal_add_years_le`).

`fromIsoformat` reads the texts the standard has for a whole day: calendar
and week dates, each with its separators or without. It looks at the length
of the whole text and not at what is behind the date, so a text of ten bytes
may go on behind a date without separators. What `isoformat` writes it reads
back (`fromIsoformat_isoformat`).

# Sections

- counting days;
- the order of the days;
- stepping from day to day;
- reading dates.
-/
import Mathlib.Order.Monotone.Defs
import PatentEvidence.Lib.Date

namespace PatentEvidence

namespace Date

-- ======================================================== counting days

/-- The days of the years before `year`. -/
def daysBeforeYear (year : Nat) : Nat :=
  let y := year - 1
  y * 365 + y / 4 - y / 100 + y / 400

/-- The days of the months of `year` before `month`. -/
def daysBeforeMonth (year month : Nat) : Nat :=
  ((List.range (month - 1)).map fun m => daysInMonth year (m + 1)).sum

/-- `d.toordinal()`. -/
def toOrdinal (d : Date) : Nat :=
  daysBeforeYear d.year + daysBeforeMonth d.year d.month + d.day

/-- `d.weekday()`: Monday is 0. -/
def weekday (d : Date) : Nat := (d.toOrdinal + 6) % 7

/-- The day after, if the calendar has one. -/
def tomorrow (d : Date) : Option Date :=
  date? d.year d.month (d.day + 1)
    <|> date? d.year (d.month + 1) 1
    <|> date? (d.year + 1) 1 1

/-- The day before, if the calendar has one. -/
def yesterday (d : Date) : Option Date :=
  if 1 < d.day then date? d.year d.month (d.day - 1)
  else if 1 < d.month then
    date? d.year (d.month - 1) (daysInMonth d.year (d.month - 1))
  else date? (d.year - 1) 12 31

/-- `n` steps that may each fail. -/
def steps (step : Date → Option Date) : Nat → Date → Option Date
  | 0, d => some d
  | n + 1, d => (step d).bind (steps step n)

/-- `d + timedelta(days=days)`, which raises outside the calendar. -/
def addDays (d : Date) : Int → Option Date
  | .ofNat n => steps tomorrow n d
  | .negSucc n => steps yesterday (n + 1) d

-- ================================================ the order of the days

theorem toNat_isLeap (year : Nat) : (isLeap year).toNat
    = if 4 ∣ year ∧ (¬ 100 ∣ year ∨ 400 ∣ year) then 1 else 0 := by
  by_cases h : 4 ∣ year ∧ (¬ 100 ∣ year ∨ 400 ∣ year)
  · rw [if_pos h]
    have hleap : isLeap year = true := by
      simpa [isLeap, Nat.dvd_iff_mod_eq_zero] using h
    rw [hleap]
    rfl
  · rw [if_neg h]
    have hleap : isLeap year = false := by
      rw [← Bool.not_eq_true]
      simpa [isLeap, Nat.dvd_iff_mod_eq_zero] using h
    rw [hleap]
    rfl

theorem daysBeforeYear_succ {year : Nat} (h : 1 ≤ year) :
    daysBeforeYear (year + 1) = daysBeforeYear year + 365 + (isLeap year).toNat := by
  obtain ⟨y, rfl⟩ := Nat.exists_eq_add_of_le' h
  have hcenturies : y / 100 ≤ y / 4 := Nat.div_le_div_left (by decide) (by decide)
  have hfour : 100 ∣ y + 1 → 4 ∣ y + 1 := Nat.dvd_trans ⟨25, rfl⟩
  have hhundred : 400 ∣ y + 1 → 100 ∣ y + 1 := Nat.dvd_trans ⟨4, rfl⟩
  rw [daysBeforeYear, daysBeforeYear, toNat_isLeap, Nat.add_sub_cancel,
    Nat.add_sub_cancel, Nat.succ_div, Nat.succ_div, Nat.succ_div]
  by_cases h4 : 4 ∣ y + 1
  · by_cases h100 : 100 ∣ y + 1
    · by_cases h400 : 400 ∣ y + 1
      · simp [h4, h100, h400]
        omega
      · simp [h4, h100, h400]
        omega
    · have h400 := mt hhundred h100
      simp [h4, h100, h400]
      omega
  · have h100 := mt hfour h4
    have h400 := mt hhundred h100
    simp [h4, h100, h400]
    omega
theorem daysBeforeMonth_succ (year : Nat) {month : Nat} (h : 1 ≤ month) :
    daysBeforeMonth year (month + 1)
      = daysBeforeMonth year month + daysInMonth year month := by
  obtain ⟨m, rfl⟩ := Nat.exists_eq_add_of_le' h
  rw [daysBeforeMonth, daysBeforeMonth, Nat.add_sub_cancel, Nat.add_sub_cancel,
    List.range_succ, List.map_append, List.sum_append, List.map_singleton,
    List.sum_singleton]

theorem daysBeforeMonth_mono (year : Nat) {month month' : Nat} (h : 1 ≤ month)
    (hle : month ≤ month') :
    daysBeforeMonth year month ≤ daysBeforeMonth year month' := by
  induction month', hle using Nat.le_induction with
  | base => exact le_refl _
  | succ m hm ih =>
      rw [daysBeforeMonth_succ year (h.trans hm)]
      omega

/-- The days of a year. -/
theorem daysBeforeMonth_thirteen (year : Nat) :
    daysBeforeMonth year 13 = 365 + (isLeap year).toNat := by
  cases h : isLeap year <;>
    simp [daysBeforeMonth, List.range_succ, daysInMonth, h]

/-- The months before one are as long as in any other year, but for the
29 February. -/
theorem daysBeforeMonth_le (year year' : Nat) {month : Nat} (h : 1 ≤ month) :
    daysBeforeMonth year month
      ≤ daysBeforeMonth year' month
        + if 2 < month then (isLeap year).toNat else 0 := by
  induction month, h using Nat.le_induction with
  | base => exact Nat.zero_le _
  | succ m hm ih =>
      rw [daysBeforeMonth_succ year hm, daysBeforeMonth_succ year' hm]
      by_cases hfebruary : m = 2
      · subst hfebruary
        rw [if_neg (by decide)] at ih
        rw [daysInMonth_two, daysInMonth_two, if_pos (by decide : 2 < 2 + 1)]
        have hleap : (if isLeap year then 29 else 28)
            = 28 + (isLeap year).toNat := by
          cases isLeap year <;> rfl
        rw [hleap]
        split <;> omega
      · rw [daysInMonth_of_ne_two hfebruary year year']
        split at ih <;> split <;> omega

theorem daysBeforeYear_mono {year year' : Nat} (h : 1 ≤ year)
    (hle : year ≤ year') : daysBeforeYear year ≤ daysBeforeYear year' := by
  induction year', hle using Nat.le_induction with
  | base => exact le_refl _
  | succ y hy ih =>
      rw [daysBeforeYear_succ (h.trans hy)]
      omega

/-- From a day of a year to the same day `n` years later. -/
theorem daysBefore_add_years_le {year month : Nat} (hyear : 1 ≤ year)
    (hmonth : 1 ≤ month) (n : Nat) :
    daysBeforeYear year + daysBeforeMonth year month + 365 * n
      ≤ daysBeforeYear (year + n) + daysBeforeMonth (year + n) month := by
  induction n with
  | zero => exact le_refl _
  | succ n ih =>
      have hnext := daysBeforeYear_succ (by omega : 1 ≤ year + n)
      have hmonths := daysBeforeMonth_le (year + n) (year + n + 1) hmonth
      rw [← Nat.add_assoc]
      split at hmonths <;> omega

/-- The last day of a month is before the first of the next. -/
theorem toOrdinal_le_daysBeforeMonth (d : Date) :
    d.toOrdinal ≤ daysBeforeYear d.year + daysBeforeMonth d.year (d.month + 1) := by
  have hvalid := d.valid
  rw [toOrdinal, daysBeforeMonth_succ d.year hvalid.2.2.1]
  omega

/-- And the last day of a year before the first of the next. -/
theorem toOrdinal_le_daysBeforeYear (d : Date) :
    d.toOrdinal ≤ daysBeforeYear (d.year + 1) := by
  have hvalid := d.valid
  have hle := toOrdinal_le_daysBeforeMonth d
  have hmonths := daysBeforeMonth_mono d.year (by omega : 1 ≤ d.month + 1)
    (by omega : d.month + 1 ≤ 13)
  rw [daysBeforeMonth_thirteen] at hmonths
  rw [daysBeforeYear_succ hvalid.1]
  omega

/-- Days are numbered in their order. -/
theorem toOrdinal_strictMono : StrictMono toOrdinal := by
  intro a b h
  have hkey : a.key < b.key := h
  have ha := a.valid
  have hb := b.valid
  have hday := daysInMonth_le a.year a.month
  have hday' := daysInMonth_le b.year b.month
  simp only [key] at hkey
  have hlt : daysBeforeYear b.year + daysBeforeMonth b.year b.month
      < b.toOrdinal := by
    rw [toOrdinal]
    omega
  rcases Nat.lt_or_ge a.year b.year with hyear | hyear
  · have hle := toOrdinal_le_daysBeforeYear a
    have hmono := daysBeforeYear_mono (by omega : 1 ≤ a.year + 1) hyear
    omega
  · have hsame : a.year = b.year := by omega
    rcases Nat.lt_or_ge a.month b.month with hmonth | hmonth
    · have hle := toOrdinal_le_daysBeforeMonth a
      have hmono := daysBeforeMonth_mono b.year
        (by omega : 1 ≤ a.month + 1) hmonth
      rw [hsame] at hle
      omega
    · have hmonths : a.month = b.month := by omega
      rw [toOrdinal, toOrdinal, hsame, hmonths]
      omega

/-- `n` years are no fewer than `365 * n` days. -/
theorem toOrdinal_add_years_le {a b : Date} {n : Nat}
    (hyear : b.year = a.year + n) (hmonth : b.month = a.month)
    (hday : a.day ≤ b.day) : a.toOrdinal + 365 * n ≤ b.toOrdinal := by
  have hvalid := a.valid
  have hyears := daysBefore_add_years_le hvalid.1 hvalid.2.2.1 n
  rw [toOrdinal, toOrdinal, hyear, hmonth]
  omega

-- =========================================== stepping from day to day

theorem date?_eq_some {year month day : Nat} {d : Date}
    (h : date? year month day = some d) :
    d.year = year ∧ d.month = month ∧ d.day = day := by
  unfold date? at h
  split at h
  · cases h
    exact ⟨rfl, rfl, rfl⟩
  · cases h

theorem date?_eq_none {year month day : Nat} (h : date? year month day = none) :
    ¬ (1 ≤ year ∧ year ≤ 9999 ∧ 1 ≤ month ∧ month ≤ 12 ∧ 1 ≤ day
      ∧ day ≤ daysInMonth year month) := by
  unfold date? at h
  split at h
  · cases h
  · assumption

theorem one_le_daysInMonth (year month : Nat) : 1 ≤ daysInMonth year month := by
  unfold daysInMonth
  split <;> (try split) <;> omega

theorem daysBeforeMonth_one (year : Nat) : daysBeforeMonth year 1 = 0 := rfl

/-- What `tomorrow` answers: the next day of the month, or else the first
of the next month, or else of the next year. -/
theorem tomorrow_cases (d : Date) :
    (∃ t, d.tomorrow = some t ∧ t.year = d.year ∧ t.month = d.month
        ∧ t.day = d.day + 1)
      ∨ d.day = daysInMonth d.year d.month ∧
        ((∃ t, d.tomorrow = some t ∧ t.year = d.year ∧ t.month = d.month + 1
            ∧ t.day = 1)
          ∨ d.month = 12 ∧
            ((∃ t, d.tomorrow = some t ∧ t.year = d.year + 1 ∧ t.month = 1
                ∧ t.day = 1)
              ∨ d.tomorrow = none ∧ d.year = 9999)) := by
  have hvalid := d.valid
  rw [tomorrow]
  cases hday : date? d.year d.month (d.day + 1) with
  | some t => exact .inl ⟨t, rfl, date?_eq_some hday⟩
  | none =>
      have hday := date?_eq_none hday
      refine .inr ⟨by omega, ?_⟩
      cases hmonth : date? d.year (d.month + 1) 1 with
      | some t => exact .inl ⟨t, rfl, date?_eq_some hmonth⟩
      | none =>
          have hmonth := date?_eq_none hmonth
          have hfirst := one_le_daysInMonth d.year (d.month + 1)
          refine .inr ⟨by omega, ?_⟩
          cases hyear : date? (d.year + 1) 1 1 with
          | some t => exact .inl ⟨t, rfl, date?_eq_some hyear⟩
          | none =>
              have hyear := date?_eq_none hyear
              have hfirst := one_le_daysInMonth (d.year + 1) 1
              exact .inr ⟨rfl, by omega⟩

theorem toOrdinal_tomorrow {d t : Date} (h : d.tomorrow = some t) :
    t.toOrdinal = d.toOrdinal + 1 := by
  have hvalid := d.valid
  rw [toOrdinal, toOrdinal]
  rcases tomorrow_cases d with ⟨t', ht, hyear, hmonth, hday⟩
    | ⟨hlast, ⟨t', ht, hyear, hmonth, hday⟩
    | ⟨hdecember, ⟨t', ht, hyear, hmonth, hday⟩ | ⟨ht, -⟩⟩⟩
  · cases ht.symm.trans h
    rw [hyear, hmonth]
    omega
  · cases ht.symm.trans h
    rw [hyear, hmonth, daysBeforeMonth_succ _ hvalid.2.2.1]
    omega
  · cases ht.symm.trans h
    have hthirteen := daysBeforeMonth_succ d.year (by decide : 1 ≤ 12)
    rw [daysBeforeMonth_thirteen] at hthirteen
    rw [hyear, hmonth, hdecember, daysBeforeMonth_one,
      daysBeforeYear_succ hvalid.1]
    rw [hdecember] at hlast
    omega
  · cases ht.symm.trans h

/-- Only the last day of the calendar has no next. -/
theorem exists_tomorrow {d e : Date} (h : d < e) : ∃ t, d.tomorrow = some t := by
  rcases tomorrow_cases d with ⟨t, ht, -⟩ | ⟨hlast, ⟨t, ht, -⟩
    | ⟨hdecember, ⟨t, ht, -⟩ | ⟨-, hyear⟩⟩⟩
  · exact ⟨t, ht⟩
  · exact ⟨t, ht⟩
  · exact ⟨t, ht⟩
  · have hkey : d.key < e.key := h
    have hvalid := e.valid
    have hdays := daysInMonth_le e.year e.month
    have hdecember' : daysInMonth d.year d.month = 31 := by rw [hdecember]; rfl
    simp only [key] at hkey
    omega

theorem toOrdinal_yesterday {d t : Date} (h : d.yesterday = some t) :
    t.toOrdinal + 1 = d.toOrdinal := by
  have hvalid := d.valid
  rw [toOrdinal, toOrdinal]
  rw [yesterday] at h
  split at h
  · obtain ⟨hyear, hmonth, hday⟩ := date?_eq_some h
    rw [hyear, hmonth, hday]
    omega
  · split at h
    · obtain ⟨hyear, hmonth, hday⟩ := date?_eq_some h
      have hsucc := daysBeforeMonth_succ d.year (by omega : 1 ≤ d.month - 1)
      rw [Nat.sub_add_cancel hvalid.2.2.1] at hsucc
      rw [hyear, hmonth, hday]
      omega
    · obtain ⟨hyear, hmonth, hday⟩ := date?_eq_some h
      have hvalid' := t.valid
      have hthirteen := daysBeforeMonth_succ (d.year - 1) (by decide : 1 ≤ 12)
      rw [daysBeforeMonth_thirteen] at hthirteen
      have hsucc := daysBeforeYear_succ (by omega : 1 ≤ d.year - 1)
      rw [Nat.sub_add_cancel hvalid.1] at hsucc
      have hjanuary : d.month = 1 := by omega
      have hdays : daysInMonth (d.year - 1) 12 = 31 := rfl
      rw [hyear, hmonth, hday, hjanuary, daysBeforeMonth_one]
      omega

/-- Adding days adds to the number. -/
theorem toOrdinal_addDays {d e : Date} {days : Int}
    (h : d.addDays days = some e) : (e.toOrdinal : Int) = d.toOrdinal + days := by
  have hforward (n : Nat) (d : Date) (h : steps tomorrow n d = some e) :
      e.toOrdinal = d.toOrdinal + n := by
    induction n generalizing d with
    | zero =>
        cases h
        rfl
    | succ n ih =>
        obtain ⟨t, ht, hsteps⟩ := Option.bind_eq_some_iff.mp h
        rw [ih t hsteps, toOrdinal_tomorrow ht]
        omega
  have hback (n : Nat) (d : Date) (h : steps yesterday n d = some e) :
      e.toOrdinal + n = d.toOrdinal := by
    induction n generalizing d with
    | zero =>
        cases h
        rfl
    | succ n ih =>
        obtain ⟨t, ht, hsteps⟩ := Option.bind_eq_some_iff.mp h
        have hnext := toOrdinal_yesterday ht
        have hrest := ih t hsteps
        omega
  cases days with
  | ofNat n =>
      rw [hforward n d h]
      exact Int.natCast_add ..
  | negSucc n =>
      have hn := hback (n + 1) d h
      omega

/-- Up to a day that exists every day exists. -/
theorem exists_addDays {d e : Date} {n : Nat}
    (h : d.toOrdinal + n ≤ e.toOrdinal) : ∃ t, d.addDays n = some t := by
  induction n generalizing d with
  | zero => exact ⟨d, rfl⟩
  | succ n ih =>
      have hlt : d < e := toOrdinal_strictMono.lt_iff_lt.mp (by omega)
      obtain ⟨t, ht⟩ := exists_tomorrow hlt
      have hnext := toOrdinal_tomorrow ht
      obtain ⟨e', he'⟩ := ih (d := t) (by omega)
      exact ⟨e', Option.bind_eq_some_iff.mpr ⟨t, ht, he'⟩⟩

-- ======================================================== reading dates

/-- A number of exactly `width` digits. -/
def digits? (width : Nat) (cs : List Char) : Option Nat :=
  if cs.length = width ∧ cs.all Char.isDigit then
    some (Nat.ofDigitChars 10 cs 0)
  else none

/-- The weeks of a year: one more where its 1 January is a Thursday, or a
Wednesday of a leap year. -/
def weeksInYear (first : Date) : Nat :=
  if first.weekday = 3 ∨ (isLeap first.year ∧ first.weekday = 2) then 53
  else 52

/-- A day of a week of a year; 4 January is in the first week. -/
def weekDate? (year week day : Nat) : Option Date := do
  let first ← date? year 1 1
  let fourth ← date? year 1 4
  if 1 ≤ week ∧ week ≤ weeksInYear first ∧ 1 ≤ day ∧ day ≤ 7 then
    fourth.addDays ((week - 1 : Int) * 7 + (day - 1) - fourth.weekday)
  else none

/-- What follows a separator, in a text that has them. -/
def afterSeparator (separated : Bool) (cs : List Char) : Option (List Char) :=
  if separated then if cs.head? = some '-' then some cs.tail else none
  else some cs

/-- The rest of a week date; without a day it is the Monday. -/
def readWeek (separated : Bool) (year : Nat) (cs : List Char) :
    Option Date := do
  let week ← digits? 2 (cs.take 2)
  if cs.drop 2 = [] then weekDate? year week 1
  else
    let rest ← afterSeparator separated (cs.drop 2)
    let day ← digits? 1 (rest.take 1)
    weekDate? year week day

/-- The rest of a calendar date. -/
def readDay (separated : Bool) (year : Nat) (cs : List Char) :
    Option Date := do
  let month ← digits? 2 (cs.take 2)
  let rest ← afterSeparator separated (cs.drop 2)
  let day ← digits? 2 (rest.take 2)
  date? year month day

/-- The length of a text in UTF-8. -/
def byteLength (cs : List Char) : Nat := (cs.map Char.utf8Size).sum

/-- The date a text begins with. -/
def readDate (cs : List Char) : Option Date := do
  let year ← digits? 4 (cs.take 4)
  let rest := cs.drop 4
  let separated : Bool := rest.head? = some '-'
  let rest := if separated then rest.tail else rest
  if rest.head? = some 'W' then readWeek separated year rest.tail
  else readDay separated year rest

/-- `date.fromisoformat(s)`. -/
def fromIsoformat (s : String) : Option Date :=
  if byteLength s.toList ∈ [7, 8, 10] then readDate s.toList else none

theorem isDigit_of_mem_padded {width n : Nat} {c : Char}
    (h : c ∈ (padded width n).toList) : c.isDigit = true := by
  rw [toList_padded, List.mem_append] at h
  rcases h with h | h
  · rw [(List.mem_replicate.mp h).2]
    decide
  · exact Nat.isDigit_of_mem_toDigits (by decide) (by decide) h

theorem digits?_padded {width n : Nat} (hwidth : 0 < width)
    (h : n < 10 ^ width) : digits? width (padded width n).toList = some n := by
  have hdigits : (padded width n).toList.all Char.isDigit = true :=
    List.all_eq_true.mpr fun _ => isDigit_of_mem_padded
  rw [digits?, if_pos ⟨length_padded hwidth h, hdigits⟩, toList_padded,
    Nat.ofDigitChars_append, Nat.ofDigitChars_replicate_zero, Nat.mul_zero,
    Nat.ofDigitChars_ten_toDigits]

theorem utf8Size_of_isDigit {c : Char} (h : c.isDigit = true) : c.utf8Size = 1 := by
  simp only [Char.isDigit, Bool.and_eq_true, decide_eq_true_eq] at h
  exact if_pos (UInt32.le_trans h.2 (by decide))

theorem byteLength_padded {width n : Nat} (hwidth : 0 < width) (h : n < 10 ^ width) :
    byteLength (padded width n).toList = width := by
  have hsizes : (padded width n).toList.map Char.utf8Size
      = (padded width n).toList.map fun _ => 1 :=
    List.map_congr_left fun _ hc => utf8Size_of_isDigit (isDigit_of_mem_padded hc)
  rw [byteLength, hsizes, List.map_const', List.sum_replicate_nat, Nat.mul_one,
    length_padded hwidth h]

/-- A date is read back from its text. -/
theorem fromIsoformat_isoformat (d : Date) :
    fromIsoformat d.isoformat = some d := by
  have hdays := daysInMonth_le d.year d.month
  have hvalid := d.valid
  have hyear : digits? 4 (padded 4 d.year).toList = some d.year :=
    digits?_padded (by decide) (by omega)
  have hmonth : digits? 2 (padded 2 d.month).toList = some d.month :=
    digits?_padded (by decide) (by omega)
  have hday : digits? 2 (padded 2 d.day).toList = some d.day :=
    digits?_padded (by decide) (by omega)
  have hyears : (padded 4 d.year).toList.length = 4 :=
    length_padded (by decide) (by omega)
  have hmonths : (padded 2 d.month).toList.length = 2 :=
    length_padded (by decide) (by omega)
  have hdays' : (padded 2 d.day).toList.length = 2 :=
    length_padded (by decide) (by omega)
  have hlist : d.isoformat.toList = (padded 4 d.year).toList
      ++ '-' :: ((padded 2 d.month).toList ++ '-' :: (padded 2 d.day).toList) := by
    simp [isoformat]
  -- a month is not taken for a week
  have hmonth' : ((padded 2 d.month).toList
      ++ '-' :: (padded 2 d.day).toList).head? ≠ some 'W' := by
    obtain ⟨c, cs, hcs⟩ := List.exists_cons_of_length_eq_add_one hmonths
    have hc : c.isDigit = true := isDigit_of_mem_padded (hcs ▸ List.mem_cons_self ..)
    rw [hcs, List.cons_append, List.head?_cons, ne_eq, Option.some.injEq]
    rintro rfl
    cases hc
  have hlength : byteLength d.isoformat.toList = 10 := by
    have hyears : byteLength (padded 4 d.year).toList = 4 :=
      byteLength_padded (by decide) (by omega)
    have hmonths : byteLength (padded 2 d.month).toList = 2 :=
      byteLength_padded (by decide) (by omega)
    have hdays : byteLength (padded 2 d.day).toList = 2 :=
      byteLength_padded (by decide) (by omega)
    have hmark : '-'.utf8Size = 1 := rfl
    simp only [byteLength] at hyears hmonths hdays ⊢
    simp only [hlist, List.map_append, List.map_cons, List.sum_append,
      List.sum_cons, hyears, hmonths, hdays, hmark]
  have hrest : d.isoformat.toList.drop 4
      = '-' :: ((padded 2 d.month).toList ++ '-' :: (padded 2 d.day).toList) := by
    rw [hlist, List.drop_left' hyears]
  rw [fromIsoformat, hlength, if_pos (by decide), readDate, hrest, hlist,
    List.take_left' hyears, hyear]
  simp only [Option.bind_eq_bind, Option.bind_some, List.head?_cons,
    decide_true, if_true, List.tail_cons]
  rw [if_neg hmonth', readDay, List.take_left' hmonths, List.drop_left' hmonths,
    hmonth]
  simp only [Option.bind_eq_bind, Option.bind_some, afterSeparator,
    List.head?_cons, if_true, List.tail_cons, List.take_of_length_le hdays'.le, hday]
  exact dif_pos d.valid

end Date

end PatentEvidence
