/-
Calendar dates of the interpreted language: the proleptic Gregorian
calendar from year 1 to year 9999.

A `Date` carries the proof that its day exists, so the only way to fail
is to ask for one that does not (`date?`, where the language's
constructor raises). Dates are compared by year, then month, then day;
`key` packs the three into one number, so the order is that of the
natural numbers.
-/
import Mathlib.Algebra.GroupWithZero.Nat
import Mathlib.Order.Lattice

namespace PatentEvidence

/-- Leap years have a 29 February. -/
def isLeap (year : Nat) : Bool :=
  year % 4 == 0 && (year % 100 != 0 || year % 400 == 0)

def daysInMonth (year month : Nat) : Nat :=
  match month with
  | 2 => if isLeap year then 29 else 28
  | 4 | 6 | 9 | 11 => 30
  | _ => 31

theorem daysInMonth_two (year : Nat) :
    daysInMonth year 2 = if isLeap year then 29 else 28 := rfl

/-- Only February differs from year to year. -/
theorem daysInMonth_of_ne_two {month : Nat} (h : month ≠ 2) (year year' : Nat) :
    daysInMonth year month = daysInMonth year' month := by
  unfold daysInMonth
  split
  · exact absurd rfl h
  all_goals rfl

/-- A day of the calendar. -/
structure Date where
  year : Nat
  month : Nat
  day : Nat
  valid : 1 ≤ year ∧ year ≤ 9999 ∧ 1 ≤ month ∧ month ≤ 12 ∧ 1 ≤ day
    ∧ day ≤ daysInMonth year month
  deriving DecidableEq

/-- `date(year, month, day)`, which raises if there is no such day. -/
def date? (year month day : Nat) : Option Date :=
  if h : 1 ≤ year ∧ year ≤ 9999 ∧ 1 ≤ month ∧ month ≤ 12 ∧ 1 ≤ day
      ∧ day ≤ daysInMonth year month then
    some ⟨year, month, day, h⟩
  else none

/-- The day with these numbers, which the calendar has. -/
def Date.ofNumbers (year month day : Nat)
    (h : (date? year month day).isSome = true) : Date :=
  (date? year month day).get h

namespace Date

theorem daysInMonth_le (year month : Nat) : daysInMonth year month ≤ 31 := by
  unfold daysInMonth
  split <;> (try split) <;> omega

/-- Year, month and day as one number. -/
def key (d : Date) : Nat := d.year * 10000 + d.month * 100 + d.day

theorem key_injective : Function.Injective key := by
  intro a b h
  have ha := daysInMonth_le a.year a.month
  have hb := daysInMonth_le b.year b.month
  obtain ⟨ya, ma, da, hva⟩ := a
  obtain ⟨yb, mb, db, hvb⟩ := b
  simp only [key] at h ha hb
  obtain rfl : ya = yb := by omega
  obtain rfl : ma = mb := by omega
  obtain rfl : da = db := by omega
  rfl

instance : LinearOrder Date := LinearOrder.lift' key key_injective

/-- A number in decimal, padded with zeros to `width` digits. -/
def padded (width n : Nat) : String :=
  let digits := (toString n).toList
  String.ofList (List.replicate (width - digits.length) '0' ++ digits)

/-- `d.isoformat()`. -/
def isoformat (d : Date) : String :=
  padded 4 d.year ++ "-" ++ padded 2 d.month ++ "-" ++ padded 2 d.day

theorem toList_padded (width n : Nat) :
    (padded width n).toList
      = List.replicate (width - (Nat.toDigits 10 n).length) '0'
        ++ Nat.toDigits 10 n := by
  rw [padded, String.toList_ofList, Nat.toString_eq_repr, Nat.toList_repr]

/-- Padding is read back: zeros in front count nothing. -/
theorem padded_injective (width : Nat) : Function.Injective (padded width) := by
  intro n m h
  have hread (k : Nat) : Nat.ofDigitChars 10 (padded width k).toList 0 = k := by
    rw [toList_padded, Nat.ofDigitChars_append, Nat.ofDigitChars_replicate_zero,
      Nat.mul_zero, Nat.ofDigitChars_ten_toDigits]
  rw [← hread n, h, hread m]

theorem length_padded {width n : Nat} (hwidth : 0 < width)
    (h : n < 10 ^ width) : (padded width n).toList.length = width := by
  have hdigits : (Nat.toDigits 10 n).length ≤ width :=
    (Nat.length_toDigits_le_iff (by decide) hwidth).mpr h
  rw [toList_padded, List.length_append, List.length_replicate]
  omega

/-- A date is read back from its text. -/
theorem isoformat_injective : Function.Injective isoformat := by
  intro a b h
  have hbounds (d : Date) : d.year < 10 ^ 4 ∧ d.month < 10 ^ 2
      ∧ d.day < 10 ^ 2 := by
    have hday := daysInMonth_le d.year d.month
    have hvalid := d.valid
    omega
  have hlists := congrArg String.toList h
  simp only [isoformat, String.toList_append] at hlists
  obtain ⟨hlists, hday⟩ := List.append_inj' hlists (by
    rw [length_padded (by decide) (hbounds a).2.2,
      length_padded (by decide) (hbounds b).2.2])
  obtain ⟨hlists, -⟩ := List.append_inj' hlists rfl
  obtain ⟨hlists, hmonth⟩ := List.append_inj' hlists (by
    rw [length_padded (by decide) (hbounds a).2.1,
      length_padded (by decide) (hbounds b).2.1])
  obtain ⟨hyear, -⟩ := List.append_inj' hlists rfl
  have hread {width n m : Nat}
      (heq : (padded width n).toList = (padded width m).toList) : n = m :=
    padded_injective width (String.toList_injective heq)
  obtain ⟨ya, ma, da, hva⟩ := a
  obtain ⟨yb, mb, db, hvb⟩ := b
  obtain rfl : ya = yb := hread hyear
  obtain rfl : ma = mb := hread hmonth
  obtain rfl : da = db := hread hday
  rfl

end Date

-- ============================================================= instants

/-- A point in time, to the microsecond, in UTC. -/
structure Instant where
  date : Date
  hour : Nat
  minute : Nat
  second : Nat
  microsecond : Nat
  valid : hour < 24 ∧ minute < 60 ∧ second < 60 ∧ microsecond < 1000000
  deriving DecidableEq

/-- The time of day with these numbers. -/
def Instant.ofNumbers (date : Date) (hour minute second microsecond : Nat)
    (h : decide (hour < 24 ∧ minute < 60 ∧ second < 60
      ∧ microsecond < 1000000) = true) : Instant :=
  ⟨date, hour, minute, second, microsecond, of_decide_eq_true h⟩

namespace Instant

/-- Date and time of day as one number. -/
def key (t : Instant) : Nat :=
  (((t.date.key * 24 + t.hour) * 60 + t.minute) * 60 + t.second) * 1000000
    + t.microsecond

theorem key_injective : Function.Injective key := by
  intro a b h
  obtain ⟨da, ha, ma, sa, ua, hva⟩ := a
  obtain ⟨db, hb, mb, sb, ub, hvb⟩ := b
  simp only [key] at h
  obtain rfl : da = db := Date.key_injective (by omega)
  obtain rfl : ha = hb := by omega
  obtain rfl : ma = mb := by omega
  obtain rfl : sa = sb := by omega
  obtain rfl : ua = ub := by omega
  rfl

instance : LinearOrder Instant := LinearOrder.lift' key key_injective

/-- `t.isoformat()`: no fraction when there are no microseconds. -/
def isoformat (t : Instant) : String :=
  t.date.isoformat ++ "T" ++ Date.padded 2 t.hour ++ ":"
    ++ Date.padded 2 t.minute ++ ":" ++ Date.padded 2 t.second
    ++ (if t.microsecond = 0 then "" else "." ++ Date.padded 6 t.microsecond)
    ++ "+00:00"

end Instant

/-- Microseconds since the epoch, where instants are only compared and
moved by a fixed time. -/
abbrev Timestamp := Int

end PatentEvidence
