/-
The status of a US patent as the analysis date moves forward.

Of all `assess_us` reads only the analysis date moves. A patent is lapsed
where the record says so and not every recorded lapse is later than that
date (`SaysLapsed`); it is expired where nothing in the record speaks
against its term and the term is over (`TermOver`). Both conditions ask the
date to be late enough and nothing else of it, so what holds at a date holds
at every later one (`dead_stays_dead`).

# Sections

- the two dead ends;
- the record;
- a lapsed patent.
-/
import PatentEvidence.LegalStatus.Us
import PatentEvidence.Lib.Scan

namespace PatentEvidence.LegalStatus

open Fallible Text

variable {ν : Type _} [JsonNumber ν] [Printable] [Text.Digits]

-- ===================================================== the two dead ends

section DeadEnds

variable {asOf asOf' : Date} {grant : Option Date} {statusText category : Json ν}
  {eventCodes : List (Json ν)} {expiryDates : List (Option Date)}
  {term : Option TermComputation} {pta : Json ν}

/-- The record says that the patent lapsed, not only after the analysis
date. -/
structure SaysLapsed (asOf : Date) (grant : Option Date) (statusText : Json ν)
    (eventCodes : List (Json ν)) (expiryDates : List (Option Date)) : Prop where
  granted : grant ≠ none
  marked : statusText.contains lapsedStatusMarker = .ok true
  recorded : (Json.str expiryEvent).isIn eventCodes = true →
    ∃ date ∈ expiryDates, date.any (asOf < ·) = false

/-- The record says nothing against the term, and the term is over. -/
structure TermOver (asOf : Date) (grant : Option Date)
    (statusText category : Json ν) (eventCodes : List (Json ν))
    (term : Option TermComputation) (pta : Json ν) : Prop where
  granted : grant ≠ none
  unmarked : statusText.contains lapsedStatusMarker = .ok false
  unrecorded : (Json.str expiryEvent).isIn eventCodes = false
  original : ∃ upper, (category.orElse (.str "")).upper = .ok upper
    ∧ upper.equal (.str "REISSUE") = false
  inForce : statusText.equal (.str inForceStatus) = true
  ended : ∃ t, term = some t ∧ t.expiryDate < asOf
  known : pta.equal .null = false

omit [Digits] in
/-- What a dead end tells of the record. -/
theorem usStatus_cases {status : Status} {reasons : List String}
    (h : usStatus asOf grant statusText category eventCodes expiryDates term pta
      = .ok (status, reasons)) :
    status = .lapsed ∧ SaysLapsed asOf grant statusText eventCodes expiryDates
      ∨ status = .expired
        ∧ TermOver asOf grant statusText category eventCodes term pta
      ∨ status = .undetermined ∨ status = .presumedInForce := by
  unfold usStatus at h
  dsimp only at h
  split at h
  · cases h
    exact .inr (.inr (.inl rfl))
  · next hgrant =>
      obtain ⟨marked, hmarked, h⟩ := bind_eq_ok.mp h
      split at h
      · next htrue =>
          subst htrue
          split at h
          · next hnone =>
              cases h
              refine .inl ⟨rfl, hgrant, hmarked, fun hcode => ?_⟩
              rw [hcode] at hnone
              cases hnone
          · split at h
            · cases h
              split
              · exact .inr (.inr (.inr rfl))
              · exact .inr (.inr (.inl rfl))
            · next hearlier =>
                cases h
                refine .inl ⟨rfl, hgrant, hmarked, fun _ => ?_⟩
                rw [List.all_eq_true] at hearlier
                push Not at hearlier
                obtain ⟨date, hdate, hnot⟩ := hearlier
                exact ⟨date, hdate, eq_false_of_ne_true hnot⟩
      · next hfalse =>
          split at h
          · cases h
            exact .inr (.inr (.inl rfl))
          · next hcode =>
              obtain ⟨upper, hupper, h⟩ := bind_eq_ok.mp h
              split at h
              · cases h
                exact .inr (.inr (.inl rfl))
              · next hreissue =>
                  split at h
                  · cases h
                    exact .inr (.inr (.inl rfl))
                  · next hinForce =>
                      cases term with
                      | none =>
                          cases h
                          exact .inr (.inr (.inl rfl))
                      | some t =>
                          dsimp only at h
                          split at h
                          · next hover =>
                              cases h
                              rw [Bool.and_eq_true, decide_eq_true_eq,
                                Bool.not_eq_true'] at hover
                              rw [Bool.not_eq_true', Bool.not_eq_false]
                                at hinForce
                              rw [eq_false_of_ne_true hfalse] at hmarked
                              exact .inr (.inl ⟨rfl, hgrant, hmarked,
                                eq_false_of_ne_true hcode,
                                ⟨upper, hupper, eq_false_of_ne_true hreissue⟩,
                                hinForce, ⟨t, rfl, hover.1⟩, hover.2⟩)
                          · cases h
                            exact .inr (.inr (.inr rfl))

omit [Digits] in
theorem SaysLapsed.usStatus
    (h : SaysLapsed asOf grant statusText eventCodes expiryDates) :
    ∃ reasons, usStatus asOf grant statusText category eventCodes expiryDates
      term pta = .ok (.lapsed, reasons) := by
  unfold LegalStatus.usStatus
  dsimp only
  rw [if_neg h.granted, h.marked, ok_bind, if_pos rfl]
  split
  · exact ⟨_, rfl⟩
  · next hcode =>
      rw [Bool.not_eq_true', Bool.not_eq_false] at hcode
      obtain ⟨date, hdate, hnot⟩ := h.recorded hcode
      rw [if_neg]
      · exact ⟨_, rfl⟩
      · intro hall
        rw [List.all_eq_true.mp hall date hdate] at hnot
        cases hnot

omit [Digits] in
theorem TermOver.usStatus
    (h : TermOver asOf grant statusText category eventCodes term pta) :
    ∃ reasons, usStatus asOf grant statusText category eventCodes expiryDates
      term pta = .ok (.expired, reasons) := by
  obtain ⟨upper, hupper, hreissue⟩ := h.original
  obtain ⟨t, rfl, hover⟩ := h.ended
  unfold LegalStatus.usStatus
  dsimp only
  rw [if_neg h.granted, h.unmarked, ok_bind, if_neg Bool.false_ne_true,
    if_neg (by rw [h.unrecorded]; exact Bool.false_ne_true), hupper, ok_bind,
    if_neg (by rw [hreissue]; exact Bool.false_ne_true),
    if_neg (by rw [h.inForce]; exact Bool.false_ne_true),
    if_pos (by rw [decide_eq_true hover, h.known]; rfl)]
  exact ⟨_, rfl⟩

omit [Printable] [Digits] in
/-- Recorded by a date, recorded by any later one. -/
theorem SaysLapsed.later (hle : asOf ≤ asOf')
    (h : SaysLapsed asOf grant statusText eventCodes expiryDates) :
    SaysLapsed asOf' grant statusText eventCodes expiryDates where
  granted := h.granted
  marked := h.marked
  recorded hcode := by
    obtain ⟨date, hdate, hnot⟩ := h.recorded hcode
    refine ⟨date, hdate, ?_⟩
    cases date with
    | none => rfl
    | some date =>
        rw [Option.any_some, decide_eq_false_iff_not, not_lt] at hnot ⊢
        exact hnot.trans hle

omit [Printable] [Digits] in
/-- Over by a date, over by any later one. -/
theorem TermOver.later (hle : asOf ≤ asOf')
    (h : TermOver asOf grant statusText category eventCodes term pta) :
    TermOver asOf' grant statusText category eventCodes term pta :=
  { h with
    ended := by
      obtain ⟨t, ht, hover⟩ := h.ended
      exact ⟨t, ht, hover.trans_le hle⟩ }

omit [Digits] in
theorem usStatus_later (hle : asOf ≤ asOf') {status : Status}
    {reasons : List String}
    (h : usStatus asOf grant statusText category eventCodes expiryDates term pta
      = .ok (status, reasons))
    (hdead : status = .lapsed ∨ status = .expired) :
    ∃ reasons', usStatus asOf' grant statusText category eventCodes expiryDates
      term pta = .ok (status, reasons') := by
  rcases usStatus_cases h with ⟨rfl, hlapsed⟩ | ⟨rfl, hover⟩ | rfl | rfl
  · exact (hlapsed.later hle).usStatus
  · exact (hover.later hle).usStatus
  · rcases hdead with hdead | hdead <;> cases hdead
  · rcases hdead with hdead | hdead <;> cases hdead

end DeadEnds

-- ========================================================== the record

section Record

variable {record : Json ν} {publicationNumber : String}
  {asOf asOf' : Date} {assessment : LegalStatusAssessment ν}

/-- The analysis date decides the status and its reasons only. -/
theorem assessUs_cases
    (h : assessUs record publicationNumber asOf = .ok assessment) :
    ∃ start basis grant, ∃ pta statusText category : Json ν,
      ∃ eventCodes expiryDates,
      termComputation start basis pta = .ok assessment.term
      ∧ usStatus asOf grant statusText category eventCodes expiryDates
          assessment.term pta = .ok (assessment.status, assessment.reviewReasons)
      ∧ ∀ asOf' status reasons, usStatus asOf' grant statusText category
            eventCodes expiryDates assessment.term pta = .ok (status, reasons) →
          assessUs record publicationNumber asOf'
            = .ok { assessment with asOf := asOf', status := status
                                    reviewReasons := reasons } := by
  obtain ⟨metaData, hmeta, h⟩ := bind_eq_ok.mp h
  obtain ⟨statusText, htext, h⟩ := bind_eq_ok.mp h
  obtain ⟨bag, hbag, h⟩ := bind_eq_ok.mp h
  obtain ⟨events, hevents, h⟩ := bind_eq_ok.mp h
  obtain ⟨eventCodes, hcodes, h⟩ := bind_eq_ok.mp h
  obtain ⟨statusDate, hdate, h⟩ := bind_eq_ok.mp h
  obtain ⟨evidence, hevidence, h⟩ := bind_eq_ok.mp h
  obtain ⟨grant, hgrant, h⟩ := bind_eq_ok.mp h
  obtain ⟨⟨start, basis⟩, hstart, h⟩ := bind_eq_ok.mp h
  obtain ⟨adjustment, hadjustment, h⟩ := bind_eq_ok.mp h
  obtain ⟨pta, hpta, h⟩ := bind_eq_ok.mp h
  obtain ⟨term, hterm, h⟩ := bind_eq_ok.mp h
  obtain ⟨expiryDates, hexpiry, h⟩ := bind_eq_ok.mp h
  obtain ⟨category, hcategory, h⟩ := bind_eq_ok.mp h
  obtain ⟨⟨status, reasons⟩, hstatus, h⟩ := bind_eq_ok.mp h
  obtain ⟨dataAsOf, hdataAsOf, h⟩ := bind_eq_ok.mp h
  rw [pure_eq_ok] at h
  subst h
  refine ⟨start, basis, parseDate grant, pta, statusText.orElse (.str ""),
    category, eventCodes, expiryDates, hterm, hstatus, ?_⟩
  intro asOf' status' reasons' hstatus'
  simp only [assessUs, hmeta, htext, hbag, hevents, hcodes, hdate, hevidence,
    hgrant, hstart, hadjustment, hpta, hterm, hexpiry, hcategory, hstatus',
    hdataAsOf, ok_bind]
  rfl

theorem dead_stays_dead (hle : asOf ≤ asOf')
    (h : assessUs record publicationNumber asOf = .ok assessment)
    (hdead : assessment.status = .lapsed ∨ assessment.status = .expired) :
    ∃ assessment', assessUs record publicationNumber asOf' = .ok assessment'
      ∧ assessment'.status = assessment.status := by
  obtain ⟨_, _, _, _, _, _, _, _, -, hstatus, hlater⟩ := assessUs_cases h
  obtain ⟨reasons, hstatus'⟩ := usStatus_later hle hstatus hdead
  exact ⟨_, hlater asOf' assessment.status reasons hstatus', rfl⟩

end Record

-- ==================================================== a lapsed patent

/-- A patent whose fees were not paid. -/
def lapsedRecord : Json Int :=
  .obj [
    ("applicationMetaData", .obj [
      ("filingDate", .str "2004-03-01"),
      ("grantDate", .str "2007-06-05"),
      ("applicationStatusDescriptionText", .str
        "Patent Expired Due to NonPayment of Maintenance Fees Under 37 CFR 1.362")]),
    ("eventDataBag", .arr [
      .obj [("eventCode", .str "EXP."), ("eventDate", .str "2015-07-06")]])]

omit [Printable] [Text.Digits] in
theorem dead_stays_dead_lapsed :
    let _ : Printable := ⟨fun _ => false⟩
    let _ : Text.Digits := Scan.asciiDigits
    ∃ assessment, assessUs lapsedRecord "US1" (.ofNumbers 2015 7 6 (.refl true))
        = .ok assessment
      ∧ ∃ assessment', assessUs lapsedRecord "US1"
          (.ofNumbers 2026 10 4 (.refl true)) = .ok assessment'
        ∧ assessment'.status = assessment.status := by
  intro _ _
  have hlapsed : (assessUs lapsedRecord "US1"
      (.ofNumbers 2015 7 6 (.refl true))).toOption.map
      LegalStatusAssessment.status = some .lapsed := by decide +kernel
  obtain ⟨assessment, h, hstatus⟩ := Option.map_eq_some_iff.mp hlapsed
  have hok := toOption_eq_some.mp h
  exact ⟨assessment, hok, dead_stays_dead (by decide) hok (.inl hstatus)⟩

end PatentEvidence.LegalStatus
