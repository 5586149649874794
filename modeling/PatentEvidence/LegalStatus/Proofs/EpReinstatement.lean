/-
A reinstatement without a date leaves a lapse in effect.

A reinstatement whose date is unknown and no reinstatement at all are
recorded alike, as no date. So a state counts as dead exactly if some dated
lapse comes after every *dated* reinstatement (`dead_iff`), and what the
source says of a lapsed patent holds exactly if, wherever an undated
reinstatement is recorded, each dated lapse is answered by a dated one
(`lapses_justified_iff`).

# Sections

- dead states;
- justified lapses;
- a revived patent.
-/
import PatentEvidence.LegalStatus.Proofs.EpEvents

namespace PatentEvidence.LegalStatus

open Joins Text

section Rules

variable [Digits]

-- ========================================================= dead states

namespace LegalEvent

/-- The event counts as a lapse in the state. -/
def Lapses (event : LegalEvent) (asOf : Date) (state : String) : Prop :=
  event.CountsFor asOf state ∧ event.code ∉ reinstatementCodes
    ∧ event.code ∉ feeCodes ∧ event.negative = true

/-- The event counts as a reinstatement in the state. -/
def Reinstates (event : LegalEvent) (asOf : Date) (state : String) : Prop :=
  event.CountsFor asOf state ∧ event.code ∈ reinstatementCodes

end LegalEvent

/-- The dates of the lapses in a state, as far as they are known. -/
def lapseDates (events : List LegalEvent) (asOf : Date) (state : String) :
    Set Date :=
  { date | ∃ event ∈ events,
    event.Lapses asOf state ∧ event.effectiveDate = some date }

section Dead

variable {events : List LegalEvent} {event : LegalEvent} {asOf date : Date}
  {state : String}

omit [Digits] in
theorem orBot_eq_coe {d : Option Date} :
    orBot d = (date : WithBot Date) ↔ d = some date :=
  orBot_injective.eq_iff (b := some date)

theorem lapsed_mark_eq_coe : (event.mark asOf state).lapsed = (date : WithBot Date)
    ↔ event.Lapses asOf state ∧ event.effectiveDate = some date := by
  rw [LegalEvent.mark, LegalEvent.tells, LegalEvent.Lapses]
  split_ifs with hcounts hreinstatement hfee hnegative
  · exact iff_of_false WithBot.bot_ne_coe fun h => h.1.2.1 hreinstatement
  · exact iff_of_false WithBot.bot_ne_coe fun h => h.1.2.2.1 hfee
  · exact orBot_eq_coe.trans
      (and_iff_right ⟨hcounts, hreinstatement, hfee, hnegative⟩).symm
  · exact iff_of_false WithBot.bot_ne_coe fun h => hnegative h.1.2.2.2
  · exact iff_of_false WithBot.bot_ne_coe fun h => hcounts h.1.1

theorem reinstated_mark_eq_coe :
    (event.mark asOf state).reinstated = (date : WithBot Date)
      ↔ event.Reinstates asOf state ∧ event.effectiveDate = some date := by
  rw [LegalEvent.mark, LegalEvent.tells, LegalEvent.Reinstates]
  split_ifs with hcounts hreinstatement hfee hnegative
  · exact orBot_eq_coe.trans (and_iff_right ⟨hcounts, hreinstatement⟩).symm
  · exact iff_of_false WithBot.bot_ne_coe fun h => hreinstatement h.1.2
  · exact iff_of_false WithBot.bot_ne_coe fun h => hreinstatement h.1.2
  · exact iff_of_false WithBot.bot_ne_coe fun h => hreinstatement h.1.2
  · exact iff_of_false WithBot.bot_ne_coe fun h => hcounts h.1.1

theorem lapsed_standingOf : (standingOf events asOf state).lapsed
    = joined (fun event => (event.mark asOf state).lapsed) events := by
  rw [standingOf, Standing.lapsed, joined_snd, joined_fst]
  rfl

theorem reinstated_standingOf : (standingOf events asOf state).reinstated
    = joined (fun event => (event.mark asOf state).reinstated) events := by
  rw [standingOf, Standing.reinstated, joined_snd, joined_snd, joined_fst]
  rfl

/-- The latest lapse is the greatest date there is of one. -/
theorem lapsed_eq_coe :
    (standingOf events asOf state).lapsed = (date : WithBot Date)
      ↔ IsGreatest (lapseDates events asOf state) date := by
  rw [lapsed_standingOf, joined_eq_coe_iff]
  simp only [lapsed_mark_eq_coe]
  rfl

/-- Every dated reinstatement is before the date. -/
theorem reinstated_lt_coe_iff :
    (standingOf events asOf state).reinstated < (date : WithBot Date)
      ↔ ∀ event ∈ events, event.Reinstates asOf state →
        ∀ d, event.effectiveDate = some d → d < date := by
  rw [reinstated_standingOf, joined_lt_coe_iff]
  simp only [reinstated_mark_eq_coe, and_imp]
  exact forall₂_congr fun event _ => forall_comm

/-- A state is dead by the dated events alone. -/
theorem dead_iff : (standingOf events asOf state).Dead
    ↔ ∃ lapse, IsGreatest (lapseDates events asOf state) lapse
      ∧ ∀ event ∈ events, event.Reinstates asOf state →
        ∀ d, event.effectiveDate = some d → d < lapse := by
  constructor
  · intro h
    cases hlapsed : (standingOf events asOf state).lapsed with
    | bot =>
        rw [Standing.Dead, hlapsed] at h
        exact absurd h not_lt_bot
    | coe lapse =>
        rw [Standing.Dead, hlapsed] at h
        exact ⟨lapse, lapsed_eq_coe.mp hlapsed, reinstated_lt_coe_iff.mp h⟩
  · rintro ⟨lapse, hgreatest, hall⟩
    rw [Standing.Dead, lapsed_eq_coe.mpr hgreatest]
    exact reinstated_lt_coe_iff.mpr hall

/-- One lapse after every dated reinstatement is enough. -/
theorem dead_of_lapse (hdate : date ∈ lapseDates events asOf state)
    (h : ∀ event ∈ events, event.Reinstates asOf state →
      ∀ d, event.effectiveDate = some d → d < date) :
    (standingOf events asOf state).Dead := by
  obtain ⟨event, hin, hevent⟩ := hdate
  have hle : (date : WithBot Date) ≤ (standingOf events asOf state).lapsed := by
    rw [lapsed_standingOf, ← lapsed_mark_eq_coe.mpr hevent]
    exact le_joined (fun event => (event.mark asOf state).lapsed) hin
  exact lt_of_lt_of_le (reinstated_lt_coe_iff.mpr h) hle

theorem le_of_mem_lapseDates (h : date ∈ lapseDates events asOf state) :
    date ≤ asOf := by
  obtain ⟨event, -, ⟨⟨-, -, hnow⟩, -⟩, hdate⟩ := h
  rw [LegalEvent.later, hdate, Option.any_some] at hnow
  exact not_lt.mp (of_decide_eq_false hnow)

end Dead

-- ==================================================== justified lapses

section Justified

variable {ν : Type _} [JsonNumber ν] [Printable] {payload : Json ν}
  {events : List LegalEvent} {publicationNumber : String}
  {filingDate asOf : Date} {dataAsOf : Json ν}
  {assessment : LegalStatusAssessment ν}

/-- The state is known to be dead: it has a latest lapse, in effect by the
analysis date, and every reinstatement is known to be dated before it. -/
def KnownDead (events : List LegalEvent) (asOf : Date) (state : String) : Prop :=
  ∃ lapse, IsGreatest (lapseDates events asOf state) lapse ∧ lapse ≤ asOf
    ∧ ∀ event ∈ events, event.Reinstates asOf state →
      ∃ date, event.effectiveDate = some date ∧ date < lapse

/-- A reinstatement whose date is unknown is recorded for the state. -/
def RevivedSometime (events : List LegalEvent) (asOf : Date) (state : String) :
    Prop :=
  ∃ event ∈ events, event.Reinstates asOf state ∧ event.effectiveDate = none

/-- A patent is lapsed only if every designated state is known to be dead,
and no state counts as dead that was reinstated at an unknown date. -/
structure LapsesJustified (events : List LegalEvent) (asOf : Date)
    (assessment : LegalStatusAssessment ν) : Prop where
  designated : assessment.status = .lapsed →
    ∀ state ∈ designatedStatesAtGrant events, KnownDead events asOf state
  undated : ∀ state, RevivedSometime events asOf state →
    ¬ assessment.LapseInEffect state

/-- Where a reinstatement without a date is recorded, each dated lapse has a
dated reinstatement on or after it. -/
def LapsesAnswered (events : List LegalEvent) (asOf : Date) : Prop :=
  ∀ state, RevivedSometime events asOf state →
    ∀ lapse ∈ lapseDates events asOf state, ∃ event ∈ events,
      event.Reinstates asOf state
        ∧ ∃ date, event.effectiveDate = some date ∧ lapse ≤ date

omit [JsonNumber ν] [Printable] in
/-- An answered lapse is not in effect. -/
theorem LapsesAnswered.not_dead (h : LapsesAnswered events asOf) {state : String}
    (hrevived : RevivedSometime events asOf state) :
    ¬ (standingOf events asOf state).Dead := by
  rw [dead_iff]
  rintro ⟨lapse, hgreatest, hall⟩
  obtain ⟨event, hin, hevent, date, hdate, hle⟩ :=
    h state hrevived lapse hgreatest.1
  exact absurd (hall event hin hevent date hdate) (not_lt.mpr hle)

theorem lapses_justified_iff (hread : parseInpadoc payload = .ok events)
    (h : assessEp payload publicationNumber filingDate asOf dataAsOf
      = .ok assessment) :
    LapsesJustified events asOf assessment ↔ LapsesAnswered events asOf := by
  obtain ⟨expiry, -, rfl⟩ := (assessEp_eq_ok hread).mp h
  constructor
  · intro hjustified state hrevived lapse hlapse
    have hnot := hjustified.undated state hrevived
    rw [lapseInEffect_assessed] at hnot
    by_contra hunanswered
    push Not at hunanswered
    exact hnot (dead_of_lapse hlapse hunanswered)
  · intro hanswered
    have hundated (state : String) (hrevived : RevivedSometime events asOf state) :
        ¬ (standingOf events asOf state).Dead := hanswered.not_dead hrevived
    constructor
    · intro hlapsed state hstate
      have hdead := (lapsed_iff.mp hlapsed).2.2.2.2 state hstate
      obtain ⟨lapse, hgreatest, hall⟩ := dead_iff.mp hdead
      refine ⟨lapse, hgreatest, le_of_mem_lapseDates hgreatest.1, ?_⟩
      intro event hin hevent
      cases hdate : event.effectiveDate with
      | none => exact absurd hdead (hundated state ⟨event, hin, hevent, hdate⟩)
      | some date => exact ⟨date, rfl, hall event hin hevent date hdate⟩
    · intro state hrevived
      rw [lapseInEffect_assessed]
      exact hundated state hrevived

end Justified

end Rules

-- ===================================================== a revived patent

local instance revivedDigits : Digits := Scan.asciiDigits

local instance revivedPrintable : Printable := ⟨fun _ => false⟩

/-- A patent for Germany that lapsed there, and was reinstated at an unknown
date. -/
def revivedResponse : Json Int :=
  responseOf [grantEvent, germanEvent "PG25" "-" "2020-01-06",
    germanEvent "PGRI" "+" ""]

theorem exists_revived : ∃ events, parseInpadoc revivedResponse = .ok events
    ∧ events.map LegalEvent.summary
      = [("AK", none, none, false),
        ("PG25", some "DE", some (.ofNumbers 2020 1 6 (.refl true)), true),
        ("PGRI", some "DE", none, false)] := by
  have h : (parseInpadoc revivedResponse).toOption.map
      (List.map LegalEvent.summary)
      = some [("AK", none, none, false),
        ("PG25", some "DE", some (.ofNumbers 2020 1 6 (.refl true)), true),
        ("PGRI", some "DE", none, false)] := by decide +kernel
  obtain ⟨events, hevents, hsummary⟩ := Option.map_eq_some_iff.mp h
  exact ⟨events, Fallible.toOption_eq_some.mp hevents, hsummary⟩

theorem lapses_justified_iff_revived : ∃ events assessment,
    parseInpadoc revivedResponse = .ok events
      ∧ assessEp revivedResponse "EP1" sampleFiled sampleToday .null
        = .ok assessment
      ∧ (LapsesJustified events sampleToday assessment
        ↔ LapsesAnswered events sampleToday) := by
  obtain ⟨events, hread, -⟩ := exists_revived
  obtain ⟨assessment, h⟩ := exists_assessEp hread
  exact ⟨events, assessment, hread, h, lapses_justified_iff hread h⟩

/-- The patent is reported lapsed, although it was reinstated. -/
theorem not_lapsesJustified_revived : ∃ events assessment,
    parseInpadoc revivedResponse = .ok events
      ∧ assessEp revivedResponse "EP1" sampleFiled sampleToday .null
        = .ok assessment
      ∧ assessment.status = .lapsed
      ∧ ¬ LapsesJustified events sampleToday assessment := by
  obtain ⟨events, hread, hsummary⟩ := exists_revived
  obtain ⟨assessment, h⟩ := exists_assessEp hread
  have hlapsed : (assessEp revivedResponse "EP1" sampleFiled sampleToday
      .null).toOption.map LegalStatusAssessment.status = some .lapsed := by
    decide +kernel
  rw [h] at hlapsed
  have hdead : (assessEp revivedResponse "EP1" sampleFiled sampleToday
      .null).toOption.map (fun a => a.countries.any fun status =>
        status.country = "DE" && status.lapseInEffect) = some true := by
    decide +kernel
  rw [h] at hdead
  obtain ⟨status, hin, hstatus⟩ := List.any_eq_true.mp (Option.some.inj hdead)
  rw [Bool.and_eq_true, decide_eq_true_eq] at hstatus
  refine ⟨events, assessment, hread, h, Option.some.inj hlapsed, fun hjust => ?_⟩
  refine hjust.undated "DE" ?_ ⟨status, hin, hstatus⟩
  obtain ⟨granted, _, rfl, -, hsummary⟩ := List.map_eq_cons_iff.mp hsummary
  obtain ⟨lapse, _, rfl, -, hsummary⟩ := List.map_eq_cons_iff.mp hsummary
  obtain ⟨revival, _, rfl, hrevival, -⟩ := List.map_eq_cons_iff.mp hsummary
  obtain ⟨hcode, hcountry, hdate, -⟩ := by
    simpa only [LegalEvent.summary, Prod.mk.injEq] using hrevival
  refine ⟨revival, by simp, ⟨⟨hcountry, by decide, ?_⟩, ?_⟩, hdate⟩
  · rw [LegalEvent.later, hdate]
    rfl
  · rw [hcode]
    decide

end PatentEvidence.LegalStatus
