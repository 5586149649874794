/-
What the reference dates are the least of.

A claim passes on its own dates and flags (`Passes`), and the reference
date of a feature is the least of the filing date and the dates of the
passing claims that cover it, whatever the claims. The default date is not
computed the same way: `verify_priority` looks the valid claims up again by
their ids, so a claim that fails gets in where it bears the id of one that
passes. `reference_dates_least_iff` is the exact extent: the default date
is the least of the right dates iff no such claim is earlier than every
passing one.

# Sections

- the end of a term;
- the claims that pass;
- the least dates;
- the order of the claims;
- the exact condition.
-/
import Mathlib.Order.Bounds.Basic
import PatentEvidence.Assessment.Proofs.Reference
import PatentEvidence.Lib.Calendar

namespace PatentEvidence.Assessment

open Grouping

-- ===================================================== the end of a term

/-- The day `months` later, or the last day of that month where it has no
such day. -/
structure IsMonthsLater (start : Date) (months : Nat) (d : Date) : Prop where
  month : d.year * 12 + d.month = start.year * 12 + start.month + months
  day : d.day = min start.day (daysInMonth d.year d.month)

/-- The loop ends at the last day of the month no later than the one asked
for. -/
theorem lastDayUpTo_eq (year month : Nat) {day : Nat} (h : 1 ≤ day) :
    lastDayUpTo year month day
      = date? year month (min day (daysInMonth year month)) := by
  have hfirst := Date.one_le_daysInMonth year month
  induction day with
  | zero => exact absurd h (by decide)
  | succ day ih =>
      cases day with
      | zero =>
          rw [Nat.zero_add, Nat.min_eq_left hfirst]
          rfl
      | succ day =>
          rw [lastDayUpTo]
          cases hdate : date? year month (day + 2) with
          | some d =>
              obtain ⟨hyear, hmonth, hday⟩ := Date.date?_eq_some hdate
              have hvalid := d.valid
              rw [hyear, hmonth, hday] at hvalid
              rw [Nat.min_eq_left hvalid.2.2.2.2.2]
              exact hdate.symm
          | none =>
              dsimp only
              rw [ih (Nat.succ_le_succ (Nat.zero_le _))]
              have hnot := Date.date?_eq_none hdate
              by_cases hlong : day + 2 ≤ daysInMonth year month
              · -- then the month itself is not in the calendar
                rw [date?, date?, dif_neg (by omega), dif_neg (by omega)]
              · rw [Nat.min_eq_right (by omega), Nat.min_eq_right (by omega)]

theorem addMonths_eq_some_iff {start d : Date} {months : Nat} :
    addMonths start months = some d ↔ IsMonthsLater start months d := by
  have hstart := start.valid
  have hd := d.valid
  have hmonth := Date.one_le_daysInMonth
    (start.year + (start.month - 1 + months) / 12)
    ((start.month - 1 + months) % 12 + 1)
  rw [addMonths, lastDayUpTo_eq _ _ hstart.2.2.2.2.1]
  constructor
  · intro h
    obtain ⟨hyear, hmonth, hday⟩ := Date.date?_eq_some h
    refine ⟨by omega, ?_⟩
    rw [hday, hyear, hmonth]
  · rintro ⟨hsum, hday⟩
    have hyear : start.year + (start.month - 1 + months) / 12 = d.year := by
      omega
    have hmonth : (start.month - 1 + months) % 12 + 1 = d.month := by omega
    rw [hyear, hmonth, ← hday, date?, dif_pos hd]

theorem addMonths_eq_none_iff {start : Date} {months : Nat} :
    addMonths start months = none
      ↔ 9999 < start.year + (start.month - 1 + months) / 12 := by
  have hstart := start.valid
  have hfirst := Date.one_le_daysInMonth
    (start.year + (start.month - 1 + months) / 12)
    ((start.month - 1 + months) % 12 + 1)
  rw [addMonths, lastDayUpTo_eq _ _ hstart.2.2.2.2.1, date?]
  split
  · next h => simp only [reduceCtorEq, false_iff, not_lt, h.2.1]
  · next h =>
      simp only [true_iff]
      omega

-- ================================================= the claims that pass

namespace SubjectApplication

variable (subject : SubjectApplication)

def termMonths : Nat := priorityTermMonths subject.applicationType

/-- A claim that passes every check. -/
structure Passes (claim : PriorityClaim) : Prop where
  early : claim.priorityDate ≤ subject.filingDate
  term : ∃ deadline, IsMonthsLater claim.priorityDate subject.termMonths deadline
    ∧ subject.filingDate ≤ deadline
  first : claim.firstApplication = true
  same : claim.sameSubject = true

end SubjectApplication

/-- An empty `covers` is all features. -/
def PriorityClaim.Covers (claim : PriorityClaim) (code : String) : Prop :=
  claim.covers = [] ∨ code ∈ claim.covers

theorem mem_coveredCodes {codes : List String} {code : String}
    (hcode : code ∈ codes) {claim : PriorityClaim} :
    code ∈ coveredCodes codes claim ↔ claim.Covers code := by
  rw [coveredCodes, PriorityClaim.Covers]
  by_cases h : claim.covers = []
  · simp [h, hcode]
  · simp [h]

section Passing

variable {subject : SubjectApplication} {claim : PriorityClaim}

/-- The claims that pass are those `verify_priority` finds nothing against. -/
theorem mem_holding_iff :
    claim ∈ subject.holding ↔ claim ∈ subject.claims ∧ subject.Passes claim := by
  rw [SubjectApplication.holding, List.mem_filter, decide_eq_true_eq,
    and_congr_right_iff]
  intro _
  rw [claimVerdict]
  cases hdeadline : addMonths claim.priorityDate
      (priorityTermMonths subject.applicationType) with
  | none =>
      refine iff_of_false (fun h => by cases h) fun hpasses => ?_
      obtain ⟨deadline, hterm, -⟩ := hpasses.term
      rw [← addMonths_eq_some_iff, SubjectApplication.termMonths,
        hdeadline] at hterm
      cases hterm
  | some deadline =>
      have hterm : (∃ d, IsMonthsLater claim.priorityDate subject.termMonths d
          ∧ subject.filingDate ≤ d) ↔ subject.filingDate ≤ deadline := by
        simp only [← addMonths_eq_some_iff, SubjectApplication.termMonths,
          hdeadline, Option.some.injEq, exists_eq_left']
      simp only [Option.bind_eq_bind, Option.bind_some, Option.pure_def]
      constructor
      · intro h
        split_ifs at h with hlate hover hfirst hsame
        · cases h
        · cases h
        · cases h
        · cases h
        · exact ⟨not_lt.mp hlate, hterm.mpr (not_lt.mp hover),
            by simpa using hfirst, by simpa using hsame⟩
      · rintro ⟨hearly, hin, hfirst, hsame⟩
        rw [if_neg (not_lt.mpr hearly), if_neg (not_lt.mpr (hterm.mp hin)),
          if_neg (by simp [hfirst]), if_neg (by simp [hsame])]

-- ====================================================== the least dates

/-- The filing date and the dates of the passing claims among some. -/
def SubjectApplication.datesOf (subject : SubjectApplication)
    (among : PriorityClaim → Prop) : Set Date :=
  insert subject.filingDate { d | ∃ claim ∈ subject.claims,
    subject.Passes claim ∧ among claim ∧ claim.priorityDate = d }

/-- What is bounded by the dates of the passing claims is the least. -/
theorem isLeast_datesOf {among : PriorityClaim → Prop} {least : Date}
    (h : ∀ d, d ≤ least ↔ d ≤ subject.filingDate ∧ ∀ claim ∈ subject.holding,
      among claim → d ≤ claim.priorityDate) :
    IsLeast (subject.datesOf among) least := by
  classical
  have hset : subject.datesOf among = { d | d ∈ subject.filingDate
      :: (subject.holding.filter fun c => among c).map
        PriorityClaim.priorityDate } := by
    ext d
    simp only [SubjectApplication.datesOf, Set.mem_insert_iff,
      Set.mem_ofPred_eq, List.mem_cons, List.mem_map, List.mem_filter,
      decide_eq_true_eq, mem_holding_iff, and_assoc]
  rw [hset]
  refine isLeast_of_le_iff fun d => (h d).trans ?_
  rw [List.forall_mem_map]
  simp [and_imp]

end Passing

-- ================================================ the order of the claims

/-- The dates of a verification. -/
def PriorityVerification.dates (v : PriorityVerification) :
    Date × Dict String Date :=
  (v.defaultReferenceDate, v.perFeatureReferenceDates)

section Order

variable {subject : SubjectApplication} {codes : List String}
  {v w : PriorityVerification}

theorem le_feature_iff (h : verifyPriority subject codes = some v)
    {code : String} (hcode : code ∈ codes) :
    ∃ date, v.perFeatureReferenceDates.get? code = some date
      ∧ ∀ d, d ≤ date ↔ d ≤ subject.filingDate ∧ ∀ claim ∈ subject.holding,
        claim.Covers code → d ≤ claim.priorityDate := by
  have hdate := le_referenceDateFor_iff h hcode
  rw [verifyPriority_eq] at h
  obtain ⟨tally, -, rfl⟩ := Option.map_eq_some_iff.mp h
  rw [referenceDateFor_verificationOf, if_pos hcode] at hdate
  refine ⟨_, (get?_perFeature ..).trans (if_pos hcode), fun d => ?_⟩
  refine (hdate d).trans (and_congr_right fun _ => ?_)
  simp only [mem_coveredCodes hcode]

/-- The dates are one of each code, so they are the same if the bounds are. -/
theorem dates_eq {subject' : SubjectApplication}
    (h : verifyPriority subject codes = some v)
    (h' : verifyPriority subject' codes = some w)
    (hdefault : ∀ d, d ≤ v.defaultReferenceDate ↔ d ≤ w.defaultReferenceDate)
    (hfeature : ∀ code ∈ codes, ∀ d,
      d ≤ v.referenceDateFor (some code) ↔ d ≤ w.referenceDateFor (some code)) :
    v.dates = w.dates := by
  rw [verifyPriority_eq] at h h'
  obtain ⟨tally, -, rfl⟩ := Option.map_eq_some_iff.mp h
  obtain ⟨tally', -, rfl⟩ := Option.map_eq_some_iff.mp h'
  refine Prod.ext (eq_of_forall_le_iff hdefault) ?_
  show codes.foldl _ _ = codes.foldl _ _
  refine List.foldl_ext _ _ _ fun dates code hcode => ?_
  have heq := eq_of_forall_le_iff (hfeature code hcode)
  rw [referenceDateFor_verificationOf, referenceDateFor_verificationOf,
    if_pos hcode, if_pos hcode] at heq
  rw [heq]

/-- Reordering the claims. -/
theorem dates_of_perm {claims : List PriorityClaim}
    (hperm : claims.Perm subject.priorityClaims) :
    (verifyPriority { subject with priorityClaims := claims } codes).map
        PriorityVerification.dates
      = (verifyPriority subject codes).map PriorityVerification.dates := by
  let subject' : SubjectApplication :=
    { subject with priorityClaims := claims }
  have hmem (c : PriorityClaim) : c ∈ subject'.claims ↔ c ∈ subject.claims := by
    rw [SubjectApplication.claims, SubjectApplication.claims]
    by_cases hnil : subject.priorityClaims = []
    · have hnil' : claims = [] := List.perm_nil.mp (hnil ▸ hperm)
      simp [subject', hnil, hnil']
    · have hnil' : claims ≠ [] := fun h => hnil (List.nil_perm.mp (h ▸ hperm))
      simp [subject', hnil, hnil', hperm.mem_iff]
  have hholding (c : PriorityClaim) :
      c ∈ subject'.holding ↔ c ∈ subject.holding := by
    rw [SubjectApplication.holding, SubjectApplication.holding,
      List.mem_filter, List.mem_filter, hmem]
  have hdated : subject'.Dated ↔ subject.Dated := by
    simp only [SubjectApplication.Dated, hmem]
    rfl
  show (verifyPriority subject' codes).map _ = _
  cases h : verifyPriority subject codes with
  | none =>
      have hnone : verifyPriority subject' codes = none := by
        by_contra hsome
        exact (verifyPriority_ne_none_iff codes).mpr
          (hdated.mp ((verifyPriority_ne_none_iff codes).mp hsome)) h
      rw [hnone]
  | some v =>
      have hsome : verifyPriority subject codes ≠ none := by simp [h]
      obtain ⟨w, hw⟩ := Option.ne_none_iff_exists'.mp
        ((verifyPriority_ne_none_iff codes).mpr
          (hdated.mpr ((verifyPriority_ne_none_iff codes).mp hsome)))
      rw [hw, Option.map_some, Option.map_some]
      refine congrArg some (dates_eq hw h (fun d => ?_) fun code hcode d => ?_)
      · rw [le_defaultReferenceDate_iff hw, le_defaultReferenceDate_iff h]
        simp only [hmem, List.mem_map, hholding, subject']
      · rw [le_referenceDateFor_iff hw hcode, le_referenceDateFor_iff h hcode]
        simp only [hholding]
        rfl

end Order

-- =================================================== the exact condition

/-- The dates of the passing claims make the reference dates, in whatever
order the claims are. -/
structure DatesLeast (subject : SubjectApplication) (codes : List String)
    (v : PriorityVerification) : Prop where
  default :
    IsLeast (subject.datesOf fun _ => True) v.defaultReferenceDate
  feature : ∀ code ∈ codes, ∃ date,
    v.perFeatureReferenceDates.get? code = some date
      ∧ IsLeast (subject.datesOf fun claim => claim.Covers code) date
      ∧ v.defaultReferenceDate ≤ date ∧ date ≤ subject.filingDate
  order : ∀ claims : List PriorityClaim, claims.Perm subject.priorityClaims →
    (verifyPriority { subject with priorityClaims := claims } codes).map
      PriorityVerification.dates = some v.dates

/-- A claim that fails and bears the id of one that passes is no earlier
than some claim that passes. -/
def SubjectApplication.TwinsHarmless (subject : SubjectApplication) : Prop :=
  ∀ claim ∈ subject.claims, ¬ subject.Passes claim →
    (∃ twin ∈ subject.claims,
      subject.Passes twin ∧ twin.claimId = claim.claimId) →
    ∃ other ∈ subject.claims,
      subject.Passes other ∧ other.priorityDate ≤ claim.priorityDate

/-- No term of a claim ends after the year 9999. -/
def SubjectApplication.TermsEnd (subject : SubjectApplication) : Prop :=
  ∀ claim ∈ subject.claims,
    claim.priorityDate.year
      + (claim.priorityDate.month - 1 + subject.termMonths) / 12 ≤ 9999

theorem termsEnd_iff_dated {subject : SubjectApplication} :
    subject.TermsEnd ↔ subject.Dated := by
  simp only [SubjectApplication.TermsEnd, SubjectApplication.Dated, ne_eq,
    addMonths_eq_none_iff, not_lt]
  rfl

section Exact

variable {subject : SubjectApplication} {codes : List String}
  {v : PriorityVerification}

/-- Whatever the claims, the default date is the earliest. -/
theorem default_le_feature (h : verifyPriority subject codes = some v)
    {date : Date} {code : String}
    (hdate : ∀ d, d ≤ date ↔ d ≤ subject.filingDate
      ∧ ∀ claim ∈ subject.holding, claim.Covers code → d ≤ claim.priorityDate) :
    v.defaultReferenceDate ≤ date ∧ date ≤ subject.filingDate := by
  refine ⟨(hdate _).mpr ?_, ((hdate date).mp (le_refl date)).1⟩
  obtain ⟨hfiling, hclaims⟩ :=
    (le_defaultReferenceDate_iff h _).mp (le_refl v.defaultReferenceDate)
  refine ⟨hfiling, fun claim hclaim _ => ?_⟩
  exact hclaims claim (List.mem_filter.mp hclaim).1
    (List.mem_map_of_mem hclaim)

/-- With harmless twins the claims that are looked up again bound the
default date as the passing ones do. -/
theorem isLeast_default (h : verifyPriority subject codes = some v)
    (htwins : subject.TwinsHarmless) :
    IsLeast (subject.datesOf fun _ => True) v.defaultReferenceDate := by
  refine isLeast_datesOf fun d => (le_defaultReferenceDate_iff h d).trans ?_
  refine and_congr_right fun _ => ⟨fun hall claim hclaim _ => ?_,
    fun hall claim hclaim hid => ?_⟩
  · exact hall claim (List.mem_filter.mp hclaim).1 (List.mem_map_of_mem hclaim)
  · by_cases hpasses : subject.Passes claim
    · exact hall claim (mem_holding_iff.mpr ⟨hclaim, hpasses⟩) trivial
    · obtain ⟨twin, htwin, hsame⟩ := List.mem_map.mp hid
      obtain ⟨htwinIn, htwinPasses⟩ := mem_holding_iff.mp htwin
      obtain ⟨other, hother, hotherPasses, hle⟩ := htwins claim hclaim hpasses
        ⟨twin, htwinIn, htwinPasses, hsame⟩
      exact (hall other (mem_holding_iff.mpr ⟨hother, hotherPasses⟩)
        trivial).trans hle

/-- And where the default date is the least of the right dates, the twins
are harmless. -/
theorem twinsHarmless_of_isLeast (h : verifyPriority subject codes = some v)
    (hleast : IsLeast (subject.datesOf fun _ => True) v.defaultReferenceDate) :
    subject.TwinsHarmless := by
  rintro claim hclaim - ⟨twin, htwin, htwinPasses, hsame⟩
  have hle : v.defaultReferenceDate ≤ claim.priorityDate :=
    ((le_defaultReferenceDate_iff h _).mp (le_refl _)).2 claim hclaim
      (List.mem_map.mpr ⟨twin, mem_holding_iff.mpr ⟨htwin, htwinPasses⟩, hsame⟩)
  rcases hleast.1 with hfiling | ⟨other, hother, hotherPasses, -, hdate⟩
  · exact ⟨twin, htwin, htwinPasses, htwinPasses.early.trans (hfiling ▸ hle)⟩
  · exact ⟨other, hother, hotherPasses, hdate ▸ hle⟩

/-- The reference dates are the least of the filing date and the dates of
the claims that pass and cover, iff no claim that fails is earlier than the
passing ones under the id of one of them. -/
theorem reference_dates_least_iff (subject : SubjectApplication)
    (codes : List String) :
    (∃ v, verifyPriority subject codes = some v ∧ DatesLeast subject codes v)
      ↔ subject.TermsEnd ∧ subject.TwinsHarmless := by
  constructor
  · rintro ⟨v, h, hleast⟩
    have hsome : verifyPriority subject codes ≠ none := by simp [h]
    exact ⟨termsEnd_iff_dated.mpr ((verifyPriority_ne_none_iff codes).mp hsome),
      twinsHarmless_of_isLeast h hleast.default⟩
  · rintro ⟨hterms, htwins⟩
    obtain ⟨v, h⟩ := Option.ne_none_iff_exists'.mp
      ((verifyPriority_ne_none_iff codes).mpr (termsEnd_iff_dated.mp hterms))
    refine ⟨v, h, isLeast_default h htwins, fun code hcode => ?_,
      fun claims hperm => ?_⟩
    · obtain ⟨date, hget, hdate⟩ := le_feature_iff h hcode
      exact ⟨date, hget, isLeast_datesOf hdate, default_le_feature h hdate⟩
    · rw [dates_of_perm hperm, h]
      rfl

end Exact

/-- One claim passes, and another of its id is out of its term. -/
def twinSubject : SubjectApplication where
  filingDate := .ofNumbers 2025 6 1 (.refl true)
  priorityClaims :=
    [{ claimId := "P1", priorityDate := .ofNumbers 2024 12 1 (.refl true)
       proofVerified := true },
     { claimId := "P1", priorityDate := .ofNumbers 2024 1 10 (.refl true)
       proofVerified := true }]

/-- The date of the one that fails becomes the default date. -/
theorem default_of_twin :
    ¬ ∃ v, verifyPriority twinSubject ["F1"] = some v
      ∧ DatesLeast twinSubject ["F1"] v := by
  rintro ⟨v, h, hleast⟩
  have hdefault : (verifyPriority twinSubject ["F1"]).map
      PriorityVerification.defaultReferenceDate
        = some ⟨2024, 1, 10, by decide⟩ := by decide
  rw [h, Option.map_some, Option.some.injEq] at hdefault
  have hin := hleast.default.1
  rw [hdefault] at hin
  rcases hin with hfiling | ⟨claim, hclaim, hpasses, -, hdate⟩
  · exact absurd hfiling (by decide)
  · have hholding := mem_holding_iff.mpr ⟨hclaim, hpasses⟩
    have hheld : twinSubject.holding.map PriorityClaim.priorityDate
        = [⟨2024, 12, 1, by decide⟩] := by decide
    have hmem := List.mem_map_of_mem (f := PriorityClaim.priorityDate) hholding
    rw [hheld, hdate] at hmem
    exact absurd hmem (by decide)

end PatentEvidence.Assessment
