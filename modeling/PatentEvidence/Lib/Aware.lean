/-
Datetimes with a time zone.

An aware datetime is what a clock on the wall shows and how far that clock
is ahead of UTC. Datetimes compare as points in time (`timestamp`), so one
point has several datetimes, one for each offset; `isoformat` writes the
wall and the offset, and so tells apart what compares equal
(`isoformat_injective`, `eq_of_timestamp_eq`).
-/
import PatentEvidence.Lib.Calendar

namespace PatentEvidence

/-- A datetime with a fixed offset, in minutes. -/
structure AwareDatetime where
  date : Date
  hour : Nat
  minute : Nat
  second : Nat
  microsecond : Nat
  offset : Int
  valid : hour < 24 ∧ minute < 60 ∧ second < 60 ∧ microsecond < 1000000
  offset_valid : -1440 < offset ∧ offset < 1440

theorem AwareDatetime.utc_offset_valid : -1440 < (0 : Int) ∧ (0 : Int) < 1440 := by
  decide

theorem AwareDatetime.fields_injective : Function.Injective fun t : AwareDatetime =>
    (t.date, t.hour, t.minute, t.second, t.microsecond, t.offset) := by
  rintro ⟨d, h, m, s, u, o, _, _⟩ ⟨d', h', m', s', u', o', _, _⟩ heq
  simp only [Prod.mk.injEq] at heq
  obtain ⟨rfl, rfl, rfl, rfl, rfl, rfl⟩ := heq
  rfl

instance : DecidableEq AwareDatetime :=
  AwareDatetime.fields_injective.decidableEq

namespace AwareDatetime

/-- The day of the epoch, counted from 0001-01-01 as day 1. -/
def epochDay : Int := 719163

/-- The point in time. -/
def timestamp (t : AwareDatetime) : Timestamp :=
  (((((t.date.toOrdinal : Int) - epochDay) * 24 + t.hour) * 60 + t.minute
    - t.offset) * 60 + t.second) * 1000000 + t.microsecond

def offsetText (offset : Int) : String :=
  (if offset < 0 then "-" else "+") ++ Date.padded 2 (offset.natAbs / 60)
    ++ ":" ++ Date.padded 2 (offset.natAbs % 60)

def fractionText (microsecond : Nat) : String :=
  if microsecond = 0 then "" else "." ++ Date.padded 6 microsecond

/-- `t.isoformat()`. -/
def isoformat (t : AwareDatetime) : String :=
  t.date.isoformat ++ "T" ++ Date.padded 2 t.hour ++ ":"
    ++ Date.padded 2 t.minute ++ ":" ++ Date.padded 2 t.second
    ++ fractionText t.microsecond ++ offsetText t.offset

/-- `t + timedelta(days=days)`, which raises past the last year. -/
def addDays (t : AwareDatetime) (days : Int) : Option AwareDatetime :=
  (t.date.addDays days).map fun date => { t with date := date }

/-- One point in time at one offset is one datetime. -/
theorem eq_of_timestamp_eq {a b : AwareDatetime}
    (h : a.timestamp = b.timestamp) (hoffset : a.offset = b.offset) :
    a = b := by
  have ha := a.valid
  have hb := b.valid
  obtain ⟨da, ha', ma, sa, ua, oa, hva, hoa⟩ := a
  obtain ⟨db, hb', mb, sb, ub, ob, hvb, hob⟩ := b
  simp only [timestamp] at h hoffset ha hb
  change @Eq Int _ _ at h
  subst hoffset
  obtain rfl : da = db := Date.toOrdinal_strictMono.injective (by omega)
  obtain rfl : ha' = hb' := by omega
  obtain rfl : ma = mb := by omega
  obtain rfl : sa = sb := by omega
  obtain rfl : ua = ub := by omega
  rfl

-- ============================================================= reading

theorem length_isoformat (d : Date) : d.isoformat.toList.length = 10 := by
  have hvalid := d.valid
  have hday := Date.daysInMonth_le d.year d.month
  simp only [Date.isoformat, String.toList_append, List.length_append]
  rw [Date.length_padded (by decide) (by omega : d.year < 10 ^ 4),
    Date.length_padded (by decide) (by omega : d.month < 10 ^ 2),
    Date.length_padded (by decide) (by omega : d.day < 10 ^ 2)]
  rfl

theorem length_offsetText {offset : Int} (h : -1440 < offset ∧ offset < 1440) :
    (offsetText offset).toList.length = 6 := by
  simp only [offsetText, String.toList_append, List.length_append]
  rw [Date.length_padded (by decide) (by omega : offset.natAbs / 60 < 10 ^ 2),
    Date.length_padded (by decide) (by omega : offset.natAbs % 60 < 10 ^ 2)]
  split <;> rfl

/-- Texts of one length in front of others are read back. -/
theorem append_inj_toList {a b c d : String} (h : a ++ b = c ++ d)
    (hlength : a.toList.length = c.toList.length) : a = c ∧ b = d := by
  have hlists := congrArg String.toList h
  rw [String.toList_append, String.toList_append] at hlists
  obtain ⟨hleft, hright⟩ := List.append_inj hlists hlength
  exact ⟨String.toList_inj.mp hleft, String.toList_inj.mp hright⟩

theorem offsetText_injective {m n : Int} (hm : -1440 < m ∧ m < 1440)
    (hn : -1440 < n ∧ n < 1440) (h : offsetText m = offsetText n) : m = n := by
  have hwidth (k : Int) (hk : -1440 < k ∧ k < 1440) :
      (Date.padded 2 (k.natAbs / 60)).toList.length = 2 :=
    Date.length_padded (by decide) (by omega)
  simp only [offsetText, String.append_assoc] at h
  obtain ⟨hsign, h⟩ := append_inj_toList h (by split <;> split <;> rfl)
  obtain ⟨hhours, h⟩ := append_inj_toList h (by rw [hwidth m hm, hwidth n hn])
  obtain ⟨-, hminutes⟩ := append_inj_toList h rfl
  have hh := Date.padded_injective 2 hhours
  have hmin := Date.padded_injective 2 hminutes
  have habs : m.natAbs = n.natAbs := by omega
  split at hsign <;> split at hsign
  · omega
  · exact absurd hsign (by decide)
  · exact absurd hsign (by decide)
  · omega

theorem fractionText_injective {m n : Nat}
    (h : fractionText m = fractionText n) : m = n := by
  have hne (k : Nat) : "" ≠ "." ++ Date.padded 6 k := by
    intro heq
    have hlength := congrArg (fun s => s.toList.length) heq
    simp at hlength
  unfold fractionText at h
  split at h
  · split at h
    · omega
    · exact absurd h (hne n)
  · split at h
    · exact absurd h.symm (hne m)
    · obtain ⟨-, hdigits⟩ := append_inj_toList h rfl
      exact Date.padded_injective 6 hdigits

/-- A datetime is read back from its text. -/
theorem isoformat_injective : Function.Injective isoformat := by
  intro a b h
  have hwidth {n : Nat} (hn : n < 60) :
      (Date.padded 2 n).toList.length = 2 :=
    Date.length_padded (by decide) (by omega)
  have hread {m n : Nat} (h : Date.padded 2 m = Date.padded 2 n) : m = n :=
    Date.padded_injective 2 h
  have hsame {m n : Nat} (hm : m < 60) (hn : n < 60) :
      (Date.padded 2 m).toList.length = (Date.padded 2 n).toList.length := by
    rw [hwidth hm, hwidth hn]
  have ha := a.valid
  have hb := b.valid
  simp only [isoformat, String.append_assoc] at h
  obtain ⟨hdate, h⟩ := append_inj_toList h (by
    rw [length_isoformat, length_isoformat])
  obtain ⟨-, h⟩ := append_inj_toList h rfl
  obtain ⟨hhour, h⟩ := append_inj_toList h (hsame (by omega) (by omega))
  obtain ⟨-, h⟩ := append_inj_toList h rfl
  obtain ⟨hminute, h⟩ := append_inj_toList h (hsame (by omega) (by omega))
  obtain ⟨-, h⟩ := append_inj_toList h rfl
  obtain ⟨hsecond, h⟩ := append_inj_toList h (hsame (by omega) (by omega))
  -- the fraction may be missing; what is behind it has one length
  have hlength := congrArg (fun s => s.toList.length) h
  simp only [String.toList_append, List.length_append,
    length_offsetText a.offset_valid, length_offsetText b.offset_valid]
    at hlength
  obtain ⟨hfraction, hoffset⟩ := append_inj_toList h (by omega)
  have hoff := offsetText_injective a.offset_valid b.offset_valid hoffset
  obtain ⟨da, ha', ma, sa, ua, oa, hva, hoa⟩ := a
  obtain ⟨db, hb', mb, sb, ub, ob, hvb, hob⟩ := b
  obtain rfl : da = db := Date.isoformat_injective hdate
  obtain rfl : ha' = hb' := hread hhour
  obtain rfl : ma = mb := hread hminute
  obtain rfl : sa = sb := hread hsecond
  obtain rfl : ua = ub := fractionText_injective hfraction
  obtain rfl : oa = ob := hoff
  rfl

end AwareDatetime

end PatentEvidence
