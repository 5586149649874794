/-
The filing-date filter of the corpus load keeps every patent that may be in
force.

Adding years never moves a date past the same month and day of the year it
leads to (`key_addYears_le`), so a filing date before a cutoff some years
ago has its term end before the day the cutoff was counted from
(`expired_of_lt_cutoff`). That is the whole of it for EP. For US the cutoff
lies five years further back: the term ends before the date five years
before the analysis date, which is 1825 days or more
(`toOrdinal_add_years_le`). That date exists: a 29 February is never one
25 years later again.
-/
import PatentEvidence.Corpus.Query
import PatentEvidence.LegalStatus.Ep
import PatentEvidence.LegalStatus.Proofs.UsTimeline
import PatentEvidence.Lib.Calendar
import PatentEvidence.Lib.Scan

namespace PatentEvidence.Corpus

open Fallible LegalStatus Text

-- ========================================================= adding years

/-- A date some years on: in its month, and not past its day. -/
theorem addYears_eq_ok {day result : Date} {years : Int}
    (h : addYears day years = .ok result) :
    (result.year : Int) = day.year + years ∧ result.month = day.month
      ∧ result.day ≤ day.day := by
  have hvalid := result.valid
  unfold addYears at h
  dsimp only at h
  split at h
  · next hdate =>
      cases h
      obtain ⟨hyear, hmonth, hday⟩ := Date.date?_eq_some hdate
      omega
  · next hnone =>
      split at h
      · next hdate =>
          cases h
          obtain ⟨hyear, hmonth, hday⟩ := Date.date?_eq_some hdate
          have hmissing := Date.date?_eq_none hnone
          have hday' := day.valid
          rw [← hyear, ← hmonth] at hmissing
          omega
      · cases h

/-- Where the year is one of the calendar's, so is the date. -/
theorem exists_addYears {day : Date} {years : Int} (hlow : 1 ≤ day.year + years)
    (hhigh : day.year + years ≤ 9999) : ∃ result, addYears day years = .ok result := by
  have hvalid := day.valid
  have hdays : 28 ≤ daysInMonth (day.year + years).toNat day.month := by
    unfold daysInMonth
    split <;> (try split) <;> omega
  unfold addYears
  dsimp only
  split
  · next result _ => exact ⟨result, rfl⟩
  · split
    · next result _ => exact ⟨result, rfl⟩
    · next hnone =>
        have hmissing := Date.date?_eq_none hnone
        omega

theorem key_addYears_le {day result : Date} {years : Int}
    (h : addYears day years = .ok result) :
    (result.key : Int) ≤ day.key + years * 10000 := by
  obtain ⟨hyear, hmonth, hday⟩ := addYears_eq_ok h
  simp only [Date.key]
  omega

-- ========================================================= the cutoff

section Cutoff

variable {asOf cutoff start : Date}

/-- A term that began before the cutoff exists, and ends before the month
and day of the cutoff. -/
theorem expiry_of_lt_cutoff (years margin : Nat)
    (hcutoff : addYears asOf (-(years + margin)) = .ok cutoff)
    (h : start < cutoff) :
    ∃ expiry, addYears start years = .ok expiry
      ∧ expiry.key < cutoff.key + years * 10000 := by
  have hkey : start.key < cutoff.key := h
  have hvalid := start.valid
  have hday := Date.daysInMonth_le cutoff.year cutoff.month
  have hbounds := cutoff.valid
  have hasOf := asOf.valid
  obtain ⟨hyear, -, -⟩ := addYears_eq_ok hcutoff
  have hlow : 1 ≤ (start.year : Int) + years := by omega
  have hhigh : (start.year : Int) + years ≤ 9999 := by
    simp only [Date.key] at hkey
    omega
  obtain ⟨expiry, hexpiry⟩ := exists_addYears hlow hhigh
  have hle := key_addYears_le hexpiry
  exact ⟨expiry, hexpiry, by omega⟩

/-- Without a margin the term has ended. -/
theorem expired_of_lt_cutoff (years : Nat)
    (hcutoff : addYears asOf (-(years + 0)) = .ok cutoff) (h : start < cutoff) :
    ∃ expiry, addYears start years = .ok expiry ∧ expiry < asOf := by
  obtain ⟨expiry, hexpiry, hlt⟩ := expiry_of_lt_cutoff years 0 hcutoff h
  have hle := key_addYears_le hcutoff
  have hkey : expiry.key < asOf.key := by omega
  exact ⟨expiry, hexpiry, hkey⟩

/-- Five years before the analysis date there is the day the cutoff falls
on. -/
theorem exists_five_years_before
    (hcutoff : addYears asOf (-(20 + 5)) = .ok cutoff) :
    ∃ day : Date, day.year + 5 = asOf.year ∧ day.month = asOf.month
      ∧ day.day = cutoff.day ∧ day.day ≤ asOf.day := by
  obtain ⟨hyear, hmonth, hday⟩ := addYears_eq_ok hcutoff
  have hasOf := asOf.valid
  have hvalid := cutoff.valid
  have hexists : cutoff.day ≤ daysInMonth (asOf.year - 5) asOf.month := by
    by_cases hfebruary : asOf.month = 2
    · -- leap years are even, and the cutoff is an odd number of years back
      have hodd : ¬ (isLeap asOf.year = true ∧ isLeap cutoff.year = true) := by
        simp only [isLeap, Bool.and_eq_true, beq_iff_eq]
        omega
      rw [hmonth, hfebruary, daysInMonth_two] at hvalid
      rw [hfebruary, daysInMonth_two] at hasOf
      rw [hfebruary, daysInMonth_two]
      have hshort : cutoff.day ≤ 28 := by
        by_cases hleap : isLeap cutoff.year = true
        · rw [if_neg fun h => hodd ⟨h, hleap⟩] at hasOf
          omega
        · rw [if_neg hleap] at hvalid
          omega
      split <;> omega
    · rw [daysInMonth_of_ne_two hfebruary _ cutoff.year, ← hmonth]
      omega
  exact ⟨⟨asOf.year - 5, asOf.month, cutoff.day, by omega⟩, by dsimp only; omega,
    rfl, rfl, hday⟩

/-- With the margin of five years the term has ended, and so has every
extension of it that is not longer than 1825 days. -/
theorem extended_of_lt_cutoff
    (hcutoff : addYears asOf (-(20 + 5)) = .ok cutoff) (h : start < cutoff) :
    ∃ statutory, addYears start 20 = .ok statutory
      ∧ statutory.toOrdinal + 1825 < asOf.toOrdinal := by
  obtain ⟨statutory, hstatutory, hlt⟩ :=
    expiry_of_lt_cutoff 20 5 hcutoff h
  obtain ⟨day, hyear, hmonth, hday, hle⟩ := exists_five_years_before hcutoff
  obtain ⟨hcutoffYear, hcutoffMonth, -⟩ := addYears_eq_ok hcutoff
  have hkey : cutoff.key + 20 * 10000 = day.key := by
    rw [Date.key, Date.key]
    omega
  rw [hkey] at hlt
  have hbefore : statutory < day := hlt
  have hordinal := Date.toOrdinal_strictMono hbefore
  have hyears := Date.toOrdinal_add_years_le (n := 5) hyear.symm hmonth.symm hle
  exact ⟨statutory, hstatutory, by omega⟩

/-- An adjustment past the end of the statutory term. -/
theorem plusDays_lt {statutory expiry : Date} {days : Int}
    (hlt : statutory.toOrdinal + 1825 < asOf.toOrdinal) (hdays : days ≤ 1825)
    (h : plusDays statutory days = .ok expiry) : expiry < asOf := by
  unfold plusDays at h
  split at h
  · next hadd =>
      cases h
      have hordinal := Date.toOrdinal_addDays hadd
      exact Date.toOrdinal_strictMono.lt_iff_lt.mp (by omega)
  · cases h

theorem exists_plusDays {statutory : Date} {days : Nat}
    (hlt : statutory.toOrdinal + 1825 < asOf.toOrdinal) (hdays : days ≤ 1825) :
    ∃ expiry, plusDays statutory days = .ok expiry := by
  obtain ⟨expiry, hexpiry⟩ :=
    Date.exists_addDays (d := statutory) (e := asOf) (n := days) (by omega)
  refine ⟨expiry, ?_⟩
  rw [plusDays, hexpiry]

end Cutoff

-- ===================================================== the assessed term

variable {ν : Type _} [JsonNumber ν] [Printable]

/-- The term `assess_us` reports is the statutory one from its start, with
the adjustment it reports. -/
theorem term_of_assessUs [Digits] {record : Json ν} {publicationNumber : String}
    {asOf : Date} {assessment : LegalStatusAssessment ν} {term : TermComputation}
    (h : assessUs record publicationNumber asOf = .ok assessment)
    (hterm : assessment.term = some term) :
    ∃ statutory, addYears term.termStart 20 = .ok statutory
      ∧ plusDays statutory term.adjustmentDays = .ok term.expiryDate := by
  obtain ⟨_, _, _, _, _, _, _, _, hcomputed, -⟩ := assessUs_cases h
  rw [hterm] at hcomputed
  unfold termComputation at hcomputed
  split at hcomputed
  · cases hcomputed
  · obtain ⟨statutory, hstatutory, hcomputed⟩ := bind_eq_ok.mp hcomputed
    obtain ⟨days, -, hcomputed⟩ := bind_eq_ok.mp hcomputed
    obtain ⟨expiry, hexpiry, hcomputed⟩ := bind_eq_ok.mp hcomputed
    rw [pure_eq_ok, Option.some.injEq] at hcomputed
    subst hcomputed
    exact ⟨statutory, hstatutory, hexpiry⟩

theorem status_of_assessEp [Digits] {payload : Json ν}
    {publicationNumber : String} {filingDate asOf expiry : Date}
    {dataAsOf : Json ν} {assessment : LegalStatusAssessment ν}
    (h : assessEp payload publicationNumber filingDate asOf dataAsOf
      = .ok assessment)
    (hexpiry : addYears filingDate 20 = .ok expiry) (hlt : expiry < asOf) :
    assessment.status = .expired
      ∧ ∃ term, assessment.term = some term ∧ term.expiryDate = expiry := by
  obtain ⟨events, -, h⟩ := bind_eq_ok.mp h
  rw [hexpiry, ok_bind, pure_eq_ok] at h
  subst h
  refine ⟨?_, _, rfl, rfl⟩
  show (epStatus asOf expiry events (countryStatuses events asOf)).1 = .expired
  rw [epStatus, if_pos hlt]

omit [Printable] in
/-- What a query asks of the filing date is the cutoff of its scope. -/
theorem filedSince_eq_false [Alphanumeric] {scope : CorpusScope}
    {query : CorpusQuery} (hquery : buildCorpusQuery scope = .ok query)
    (jurisdiction : String) {filing : Date} (hjurisdiction :
      jurisdiction = "US" ∨ jurisdiction = "EP")
    (h : query.filedSince jurisdiction (yyyymmdd filing) = false) :
    ∃ cutoff, scope.cutoff jurisdiction = .ok cutoff ∧ filing < cutoff := by
  obtain ⟨prefixes, -, hquery⟩ := bind_eq_ok.mp hquery
  obtain ⟨usKinds, -, hquery⟩ := bind_eq_ok.mp hquery
  obtain ⟨usCutoff, hus, hquery⟩ := bind_eq_ok.mp hquery
  obtain ⟨epKinds, -, hquery⟩ := bind_eq_ok.mp hquery
  obtain ⟨epCutoff, hep, hquery⟩ := bind_eq_ok.mp hquery
  rw [pure_eq_ok] at hquery
  subst hquery
  rcases hjurisdiction with rfl | rfl
  · refine ⟨usCutoff, hus, ?_⟩
    rw [CorpusQuery.filedSince, if_pos rfl, decide_eq_false_iff_not, not_le,
      Int.ofNat_lt] at h
    exact h
  · refine ⟨epCutoff, hep, ?_⟩
    rw [CorpusQuery.filedSince, if_neg (by decide), decide_eq_false_iff_not,
      not_le, Int.ofNat_lt] at h
    exact h

/-- The filing-date filter rejects no patent in force. An EP patent it
rejects is assessed as expired; the term of a US patent it rejects, with
any extension of at most 1825 days, is over, and so is the term `assess_us`
reports. -/
theorem live_patents_filed_since [Alphanumeric] [Digits] {scope : CorpusScope}
    (hyears : scope.statutoryYears = 20) (hus : scope.usMarginYears = 5)
    (hep : scope.epMarginYears = 0) {query : CorpusQuery}
    (hquery : buildCorpusQuery scope = .ok query) (filing : Date) :
    (query.filedSince "EP" (yyyymmdd filing) = false →
        ∃ expiry, addYears filing 20 = .ok expiry ∧ expiry < scope.asOf
          ∧ ∀ (payload dataAsOf : Json ν) publicationNumber assessment,
            assessEp payload publicationNumber filing scope.asOf dataAsOf
                = .ok assessment →
            assessment.status = .expired
              ∧ ∃ term, assessment.term = some term ∧ term.expiryDate = expiry)
      ∧ (query.filedSince "US" (yyyymmdd filing) = false →
        ∀ start ≤ filing,
          (∃ statutory, addYears start 20 = .ok statutory
            ∧ (∀ days ≤ 1825, ∀ expiry, plusDays statutory days = .ok expiry →
              expiry < scope.asOf)
            ∧ ∀ days : Nat, days ≤ 1825 →
              ∃ expiry, plusDays statutory days = .ok expiry)
          ∧ ∀ (record : Json ν) publicationNumber assessment term,
            assessUs record publicationNumber scope.asOf = .ok assessment →
            assessment.term = some term → term.termStart = start →
            term.adjustmentDays ≤ 1825 → term.expiryDate < scope.asOf) := by
  constructor
  · intro h
    obtain ⟨cutoff, hcutoff, hlt⟩ :=
      filedSince_eq_false hquery "EP" (.inr rfl) h
    rw [CorpusScope.cutoff, if_neg (by decide), hyears, hep] at hcutoff
    obtain ⟨expiry, hexpiry, hexpired⟩ := expired_of_lt_cutoff 20 hcutoff hlt
    exact ⟨expiry, hexpiry, hexpired, fun _ _ _ _ hassess =>
      status_of_assessEp hassess hexpiry hexpired⟩
  · intro h start hstart
    obtain ⟨cutoff, hcutoff, hlt⟩ :=
      filedSince_eq_false hquery "US" (.inl rfl) h
    rw [CorpusScope.cutoff, if_pos rfl, hyears, hus] at hcutoff
    obtain ⟨statutory, hstatutory, hover⟩ :=
      extended_of_lt_cutoff hcutoff (hstart.trans_lt hlt)
    refine ⟨⟨statutory, hstatutory, ?_, ?_⟩, ?_⟩
    · exact fun days hdays expiry => plusDays_lt hover hdays
    · exact fun days hdays => exists_plusDays hover hdays
    · rintro record publicationNumber assessment term hassess hterm rfl hdays
      obtain ⟨statutory', hstatutory', hexpiry⟩ := term_of_assessUs hassess hterm
      cases hstatutory.symm.trans hstatutory'
      exact plusDays_lt hover hdays hexpiry

/-- The default scope on 4 October 2026. -/
def sampleScope : CorpusScope := { asOf := .ofNumbers 2026 10 4 (.refl true) }

/-- The day before its EP cutoff. -/
def sampleFiling : Date := .ofNumbers 2006 10 3 (.refl true)

/-- The day before its US cutoff. -/
def sampleUsFiling : Date := .ofNumbers 2001 10 3 (.refl true)

omit [Printable] in
theorem live_patents_filed_since_sample :
    let _ : Alphanumeric := Scan.asciiAlphanumeric
    let _ : Digits := Scan.asciiDigits
    let _ : Printable := ⟨fun _ => false⟩
    (∃ expiry, addYears sampleFiling 20 = .ok expiry ∧ expiry < sampleScope.asOf
        ∧ ∀ (payload dataAsOf : Json Int) publicationNumber assessment,
          assessEp payload publicationNumber sampleFiling sampleScope.asOf dataAsOf
              = .ok assessment →
          assessment.status = .expired
            ∧ ∃ term, assessment.term = some term ∧ term.expiryDate = expiry)
      ∧ ∀ start ≤ sampleUsFiling,
        (∃ statutory, addYears start 20 = .ok statutory
          ∧ (∀ days ≤ 1825, ∀ expiry, plusDays statutory days = .ok expiry →
            expiry < sampleScope.asOf)
          ∧ ∀ days : Nat, days ≤ 1825 →
            ∃ expiry, plusDays statutory days = .ok expiry)
        ∧ ∀ (record : Json Int) publicationNumber assessment term,
          assessUs record publicationNumber sampleScope.asOf = .ok assessment →
          assessment.term = some term → term.termStart = start →
          term.adjustmentDays ≤ 1825 → term.expiryDate < sampleScope.asOf := by
  intro _ _ _
  have hquery : buildCorpusQuery sampleScope = .ok {
      classificationPrefixes := ["H01M", "H02J"]
      usKinds := ["B1", "B2", "E1"]
      usCutoff := 20011004
      epKinds := ["B1", "B2", "B3"]
      epCutoff := 20061004 } := by rfl
  constructor
  · exact (live_patents_filed_since rfl rfl rfl hquery sampleFiling).1 (by decide)
  · exact (live_patents_filed_since rfl rfl rfl hquery sampleUsFiling).2 (by decide)

end PatentEvidence.Corpus
