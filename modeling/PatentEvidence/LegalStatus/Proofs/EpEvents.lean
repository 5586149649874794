/-
Which events there are decides an EP assessment.

Every question `assess_ep` asks of the events is one of membership: the
standing of a state is a join of marks, and the negative events without a
state, the designated states and the unitary effect are asked for as sets.
So the order of the events does not count (`assess_ep_order_independent`).
An event that is inserted adds its mark to one standing: a negative event
raises the latest lapse and leaves the latest reinstatement, a
reinstatement the other way round, and neither moves anything else
(`inserted_event_moves_one_way`). What is later than the analysis is
skipped by the loop and by the search for negative events alike
(`later_events_do_not_count`).

# Sections

- the same events;
- one event more;
- later events;
- a granted patent.
-/
import PatentEvidence.LegalStatus.Proofs.EpStanding
import PatentEvidence.Lib.Scan

namespace PatentEvidence.LegalStatus

open Grouping Joins Text

section Rules

variable {ν : Type _} [JsonNumber ν] [Printable] [Digits]
  {payload payload' : Json ν} {events events' : List LegalEvent}
  {publicationNumber : String} {filingDate asOf expiry : Date} {dataAsOf : Json ν}

-- ===================================================== the same events

/-- What is asked of an assessment whatever the order of its events: the
status, and for each state with evidence its dates and whether its lapse is
in effect. -/
def outcome (assessment : LegalStatusAssessment ν) :
    Status × List ((String × Option Date × Option Date × Int) × Bool) :=
  (assessment.status,
    assessment.countries.map fun status =>
      (status.dates, status.lapseInEffect))

section SameEvents

omit [JsonNumber ν] [Printable]

theorem standingOf_congr (h : ∀ e, e ∈ events ↔ e ∈ events') (asOf : Date)
    (state : String) :
    standingOf events asOf state = standingOf events' asOf state :=
  joined_congr h

theorem unknownNegative_congr (h : ∀ e, e ∈ events ↔ e ∈ events')
    (asOf : Date) : unknownNegative events asOf = unknownNegative events' asOf := by
  refine insertionSort_dedup_congr fun code => ?_
  simp only [List.mem_map, List.mem_filter, h]

omit [Digits] in
theorem mem_designated_congr (h : ∀ e, e ∈ events ↔ e ∈ events')
    (state : String) : state ∈ designatedStatesAtGrant events
      ↔ state ∈ designatedStatesAtGrant events' := by
  simp only [designatedStatesAtGrant, mem_firsts, List.mem_flatMap, h]

theorem unitary_congr (h : ∀ e, e ∈ events ↔ e ∈ events') :
    unitary events = unitary events' := by
  rw [unitary, unitary, Bool.eq_iff_iff, List.any_eq_true, List.any_eq_true]
  simp only [h]

theorem status_congr (h : ∀ e, e ∈ events ↔ e ∈ events') (asOf expiry : Date) :
    (epStatus asOf expiry events (countryStatuses events asOf)).1
      = (epStatus asOf expiry events' (countryStatuses events' asOf)).1 := by
  have hnil : designatedStatesAtGrant events = []
      ↔ designatedStatesAtGrant events' = [] := by
    simp only [List.eq_nil_iff_forall_not_mem, mem_designated_congr h]
  have hdead : (∀ state ∈ designatedStatesAtGrant events,
        (standingOf events asOf state).Dead)
      ↔ ∀ state ∈ designatedStatesAtGrant events',
        (standingOf events' asOf state).Dead := by
    simp only [mem_designated_congr h, standingOf_congr h]
  rw [status_epStatus, status_epStatus, unknownNegative_congr h,
    unitary_congr h]
  simp only [hnil, hdead]

theorem outcome_congr (h : ∀ e, e ∈ events ↔ e ∈ events') :
    outcome (assessed events publicationNumber filingDate asOf expiry dataAsOf)
      = outcome (assessed events' publicationNumber filingDate asOf expiry
        dataAsOf) := by
  have hstanding (state : String) :
      (events.foldl (countEvent asOf) {}).standing state
        = (events'.foldl (countEvent asOf) {}).standing state := by
    rw [standing_tally, standing_tally, standingOf_congr h]
  have hstates : (events.foldl (countEvent asOf) {}).states
      = (events'.foldl (countEvent asOf) {}).states := by
    refine pairwise_states.eq_of_mem_iff pairwise_states fun state => ?_
    rw [mem_states, mem_states, lists_eq, lists_eq, standingOf_congr h]
  refine Prod.ext (status_congr h asOf expiry) ?_
  show (countryStatuses events asOf).map _ = (countryStatuses events' asOf).map _
  rw [countryStatuses_eq, countryStatuses_eq, List.map_map, List.map_map,
    hstates]
  refine List.map_congr_left fun state _ => Prod.ext ?_ ?_
  · exact dates_status (hstanding state)
  · show CountryStatus.lapseInEffect _ = CountryStatus.lapseInEffect _
    rw [Bool.eq_iff_iff, lapseInEffect_iff, lapseInEffect_iff, hstanding]

end SameEvents

theorem assess_ep_order_independent (h : parseInpadoc payload = .ok events)
    (h' : parseInpadoc payload' = .ok events') (hperm : events.Perm events') :
    (assessEp payload publicationNumber filingDate asOf dataAsOf).map outcome
      = (assessEp payload' publicationNumber filingDate asOf dataAsOf).map
        outcome := by
  rw [map_assessEp h, map_assessEp h']
  refine congrArg (fun f => (addYears filingDate 20).map f) ?_
  funext expiry
  exact outcome_congr fun _ => hperm.mem_iff

-- ====================================================== one event more

section OneMore

omit [JsonNumber ν] [Printable]

variable {before after : List LegalEvent} {event : LegalEvent} {state : String}

theorem unknownNegative_insert (hcountry : event.country = some state)
    (hstate : state ≠ "") (asOf : Date) :
    unknownNegative (before ++ event :: after) asOf
      = unknownNegative (before ++ after) asOf := by
  have hnot : ¬ event.unmapped asOf = true := by
    rw [LegalEvent.unmapped, hcountry, Option.any_some, decide_eq_true hstate,
      Bool.not_true, Bool.and_false, Bool.false_and]
    exact Bool.false_ne_true
  rw [unknownNegative_eq, unknownNegative_eq, List.filter_append,
    List.filter_append, List.filter_cons_of_neg hnot]

omit [Digits] in
theorem designated_insert (hgrant : event.code ≠ "AK") :
    designatedStatesAtGrant (before ++ event :: after)
      = designatedStatesAtGrant (before ++ after) := by
  rw [designatedStatesAtGrant, designatedStatesAtGrant, List.flatMap_append,
    List.flatMap_append, List.flatMap_cons, if_neg fun h => hgrant h.1,
    List.nil_append]

theorem unitary_insert (hunitary : event.isUnitary = false) :
    unitary (before ++ event :: after) = unitary (before ++ after) := by
  show List.any _ LegalEvent.isUnitary = List.any _ LegalEvent.isUnitary
  rw [List.any_append, List.any_append, List.any_cons, hunitary, Bool.false_or]

/-- With an event that names a state, and is neither of the grant nor of
unitary effect, lapsed is asked of the same states. -/
theorem lapsed_insert_iff (hcountry : event.country = some state)
    (hstate : state ≠ "") (hgrant : event.code ≠ "AK")
    (hunitary : event.isUnitary = false) :
    (epStatus asOf expiry (before ++ event :: after)
        (countryStatuses (before ++ event :: after) asOf)).1 = .lapsed
      ↔ asOf ≤ expiry ∧ unknownNegative (before ++ after) asOf = []
        ∧ unitary (before ++ after) = false
        ∧ designatedStatesAtGrant (before ++ after) ≠ []
        ∧ ∀ s ∈ designatedStatesAtGrant (before ++ after),
          (event.mark asOf s ⊔ standingOf (before ++ after) asOf s).Dead := by
  rw [lapsed_iff, unknownNegative_insert hcountry hstate,
    designated_insert hgrant, unitary_insert hunitary]
  simp only [standingOf, joined_insert]

/-- A negative event that is counted as a lapse raises the latest lapse
only. -/
theorem dead_of_negative (hnegative : event.negative = true)
    (hreinstatement : event.code ∉ reinstatementCodes)
    (hfee : event.code ∉ feeCodes) (s : String) {standing : Standing}
    (h : standing.Dead) : (event.mark asOf s ⊔ standing).Dead := by
  have hmark : (event.mark asOf s).reinstated = ⊥ := by
    rw [LegalEvent.mark, LegalEvent.tells, if_neg hreinstatement, if_neg hfee,
      if_pos hnegative]
    split <;> rfl
  show (event.mark asOf s).reinstated ⊔ standing.reinstated
    < (event.mark asOf s).lapsed ⊔ standing.lapsed
  rw [hmark, bot_sup_eq]
  exact lt_of_lt_of_le h le_sup_right

/-- A reinstatement raises the latest reinstatement only. -/
theorem dead_of_reinstatement (hreinstatement : event.code ∈ reinstatementCodes)
    (s : String) {standing : Standing}
    (h : (event.mark asOf s ⊔ standing).Dead) : standing.Dead := by
  have hmark : (event.mark asOf s).lapsed = ⊥ := by
    rw [LegalEvent.mark, LegalEvent.tells, if_pos hreinstatement]
    split <;> rfl
  have hlt : (event.mark asOf s).reinstated ⊔ standing.reinstated
      < (event.mark asOf s).lapsed ⊔ standing.lapsed := h
  rw [hmark, bot_sup_eq] at hlt
  exact lt_of_le_of_lt le_sup_right hlt

end OneMore

theorem inserted_event_moves_one_way {before after : List LegalEvent}
    {event : LegalEvent} {state : String}
    (h : parseInpadoc payload = .ok (before ++ after))
    (h' : parseInpadoc payload' = .ok (before ++ event :: after))
    (hcountry : event.country = some state) (hstate : state ≠ "")
    {assessment : LegalStatusAssessment ν}
    (hassess : assessEp payload publicationNumber filingDate asOf dataAsOf
      = .ok assessment) :
    ∃ assessment', assessEp payload' publicationNumber filingDate asOf dataAsOf
        = .ok assessment'
      ∧ (event.negative = true ∧ event.code ∉ ["AK", "PGRI", "PGFP"]
            ∧ event.isUnitary = false →
          (∀ s, assessment.LapseInEffect s → assessment'.LapseInEffect s)
          ∧ (assessment.status = .lapsed → assessment'.status = .lapsed))
      ∧ (event.code = "PGRI" →
          (∀ s, assessment'.LapseInEffect s → assessment.LapseInEffect s)
          ∧ (assessment'.status = .lapsed → assessment.status = .lapsed)) := by
  obtain ⟨expiry, hexpiry, rfl⟩ := (assessEp_eq_ok h).mp hassess
  refine ⟨_, (assessEp_eq_ok h').mpr ⟨expiry, hexpiry, rfl⟩, ?_, ?_⟩
  · rintro ⟨hnegative, hcode, hunitary⟩
    rw [List.mem_cons, List.mem_cons, List.mem_singleton, not_or, not_or] at hcode
    obtain ⟨hgrant, hpgri, hpgfp⟩ := hcode
    have hdead (s : String) {standing : Standing} (h : standing.Dead) :
        (event.mark asOf s ⊔ standing).Dead :=
      dead_of_negative hnegative (fun h => hpgri (List.mem_singleton.mp h))
        (fun h => hpgfp (List.mem_singleton.mp h)) s h
    constructor
    · intro s hs
      rw [lapseInEffect_assessed] at hs ⊢
      rw [standingOf, joined_insert]
      exact hdead s hs
    · intro hlapsed
      obtain ⟨hterm, hunknown, hno, hsome, hall⟩ := lapsed_iff.mp hlapsed
      exact (lapsed_insert_iff hcountry hstate hgrant hunitary).mpr
        ⟨hterm, hunknown, hno, hsome, fun s hs => hdead s (hall s hs)⟩
  · intro hcode
    have hreinstatement : event.code ∈ reinstatementCodes :=
      List.mem_singleton.mpr hcode
    have hgrant : event.code ≠ "AK" := by
      rw [hcode]
      decide
    have hunitary : event.isUnitary = false := by
      rw [LegalEvent.isUnitary, hcode]
      rfl
    constructor
    · intro s hs
      rw [lapseInEffect_assessed] at hs ⊢
      rw [standingOf, joined_insert] at hs
      exact dead_of_reinstatement hreinstatement s hs
    · intro hlapsed
      obtain ⟨hterm, hunknown, hno, hsome, hall⟩ :=
        (lapsed_insert_iff hcountry hstate hgrant hunitary).mp hlapsed
      exact lapsed_iff.mpr ⟨hterm, hunknown, hno, hsome,
        fun s hs => dead_of_reinstatement hreinstatement s (hall s hs)⟩

-- ========================================================= later events

/-- What `assess_ep` decides. -/
def decided (assessment : LegalStatusAssessment ν) :
    Status × List CountryStatus × List String :=
  (assessment.status, assessment.countries, assessment.reviewReasons)

omit [JsonNumber ν] [Printable] in
theorem countEvent_of_later {event : LegalEvent} (h : event.later asOf = true)
    (tally : CountryTally) : countEvent asOf tally event = tally := by
  rw [countEvent]
  split
  · rfl
  · rw [if_pos (.inr h)]

theorem later_events_do_not_count (h : parseInpadoc payload = .ok events)
    (h' : parseInpadoc payload' = .ok events')
    (hgrants : (events.filter fun e => e.code = "AK")
      = events'.filter fun e => e.code = "AK")
    (hunitary : events.filter LegalEvent.isUnitary
      = events'.filter LegalEvent.isUnitary)
    (hcount : (events.filter fun e => !e.later asOf)
      = events'.filter fun e => !e.later asOf) :
    (assessEp payload publicationNumber filingDate asOf dataAsOf).map decided
      = (assessEp payload' publicationNumber filingDate asOf dataAsOf).map
        decided := by
  have hnow (event : LegalEvent) (hnow : (!event.later asOf) = false) :
      event.later asOf = true := (Bool.not_eq_false' ..).mp hnow
  have hunmapped (event : LegalEvent) (h : event.unmapped asOf = true) :
      (!event.later asOf) = true := (Bool.and_eq_true _ _ ▸ h).2
  have hcountries : countryStatuses events asOf = countryStatuses events' asOf := by
    rw [← countryStatuses_filter events fun e he =>
        countEvent_of_later (hnow e he), hcount,
      countryStatuses_filter events' fun e he => countEvent_of_later (hnow e he)]
  have hstatus (expiry : Date) (countries : List CountryStatus) :
      epStatus asOf expiry events countries
        = epStatus asOf expiry events' countries := by
    rw [epStatus, epStatus,
      ← designatedStatesAtGrant_filter events fun _ => decide_eq_true, hgrants,
      designatedStatesAtGrant_filter events' fun _ => decide_eq_true,
      ← unknownNegative_filter events hunmapped, hcount,
      unknownNegative_filter events' hunmapped,
      ← unitary_filter events fun _ h => h, hunitary,
      unitary_filter events' fun _ h => h]
  rw [map_assessEp h, map_assessEp h']
  refine congrArg (fun f => (addYears filingDate 20).map f) ?_
  funext expiry
  simp only [decided, assessed, hcountries, hstatus]

-- ==================================================== a granted patent

/-- What the rules ask of an event of a state. -/
def LegalEvent.summary (event : LegalEvent) :
    String × Option String × Option Date × Bool :=
  (event.code, event.country, event.effectiveDate, event.negative)

/-- The events of a response, read one by one. -/
theorem parseInpadoc_of_read {items : List (Json ν)}
    (hitems : legalEvents payload = items)
    (h : List.Forall₂ (fun item event => parseEvent item = .ok event) items
      events) : parseInpadoc payload = .ok events := by
  rw [parseInpadoc, hitems]
  exact Fallible.mapM_eq_ok_iff.mpr h

theorem exists_parseEvent {item : Json ν}
    {summary : String × Option String × Option Date × Bool}
    (h : (parseEvent item).toOption.map LegalEvent.summary = some summary) :
    ∃ event, parseEvent item = .ok event ∧ event.summary = summary := by
  obtain ⟨event, hevent, hsummary⟩ := Option.map_eq_some_iff.mp h
  exact ⟨event, Fallible.toOption_eq_some.mp hevent, hsummary⟩

end Rules

local instance officeDigits : Digits := Scan.asciiDigits

local instance officePrintable : Printable := ⟨fun _ => false⟩

/-- The grant of a patent for Germany. -/
def grantEvent : Json Int :=
  .obj [("@code", .str "AK"), ("ops:pre", .arr [
    .obj [("$", .str "Kind Code of Ref Document  B1")],
    .obj [("$", .str "Designated State(s)  DE")]])]

/-- An event in Germany, with its date in the gazette. -/
def germanEvent (code influence gazette : String) : Json Int :=
  .obj [("@code", .str code), ("@infl", .str influence),
    ("@desc", .str "DE: event"), ("ops:L007EP", .obj [("$", .str gazette)])]

def responseOf (events : List (Json Int)) : Json Int :=
  .obj [("ops:legal", .arr events)]

def sampleFiled : Date := .ofNumbers 2010 1 4 (.refl true)

def sampleToday : Date := .ofNumbers 2026 10 4 (.refl true)

theorem read_grantEvent : ∃ event, parseEvent grantEvent = .ok event
    ∧ event.summary = ("AK", none, none, false) :=
  exists_parseEvent (by decide +kernel)

theorem read_lapse : ∃ event,
    parseEvent (germanEvent "PG25" "-" "2020-01-06") = .ok event
      ∧ event.summary
        = ("PG25", some "DE", some (.ofNumbers 2020 1 6 (.refl true)), true) :=
  exists_parseEvent (by decide +kernel)

theorem read_laterLapse : ∃ event,
    parseEvent (germanEvent "PG25" "-" "2030-01-07") = .ok event
      ∧ event.summary
        = ("PG25", some "DE", some (.ofNumbers 2030 1 7 (.refl true)), true) :=
  exists_parseEvent (by decide +kernel)

theorem assess_ep_order_independent_lapse :
    (assessEp (responseOf [grantEvent, germanEvent "PG25" "-" "2020-01-06"]) "EP1"
        sampleFiled sampleToday .null).map outcome
      = (assessEp (responseOf [germanEvent "PG25" "-" "2020-01-06", grantEvent])
        "EP1" sampleFiled sampleToday .null).map outcome := by
  obtain ⟨granted, hgranted, -⟩ := read_grantEvent
  obtain ⟨lapse, hlapse, -⟩ := read_lapse
  exact assess_ep_order_independent
    (parseInpadoc_of_read rfl (.cons hgranted (.cons hlapse .nil)))
    (parseInpadoc_of_read rfl (.cons hlapse (.cons hgranted .nil)))
    (.swap ..)

theorem exists_assessEp {payload : Json Int} {events : List LegalEvent}
    (h : parseInpadoc payload = .ok events) : ∃ assessment,
      assessEp payload "EP1" sampleFiled sampleToday .null = .ok assessment :=
  ⟨_, (assessEp_eq_ok h).mpr ⟨.ofNumbers 2030 1 4 (.refl true), rfl, rfl⟩⟩

theorem inserted_event_moves_one_way_lapse :
    ∃ assessment, assessEp (responseOf [grantEvent]) "EP1" sampleFiled
        sampleToday .null = .ok assessment
      ∧ ∃ assessment', assessEp (responseOf [grantEvent,
          germanEvent "PG25" "-" "2020-01-06"]) "EP1" sampleFiled sampleToday .null
          = .ok assessment'
        ∧ (∀ s, assessment.LapseInEffect s → assessment'.LapseInEffect s)
        ∧ (assessment.status = .lapsed → assessment'.status = .lapsed) := by
  obtain ⟨granted, hgranted, -⟩ := read_grantEvent
  obtain ⟨lapse, hlapse, hsummary⟩ := read_lapse
  obtain ⟨hcode, hcountry, -, hnegative⟩ := by
    simpa only [LegalEvent.summary, Prod.mk.injEq] using hsummary
  have hread : parseInpadoc (responseOf [grantEvent]) = .ok ([granted] ++ []) :=
    parseInpadoc_of_read rfl (.cons hgranted .nil)
  have hread' : parseInpadoc (responseOf [grantEvent,
      germanEvent "PG25" "-" "2020-01-06"]) = .ok ([granted] ++ lapse :: []) :=
    parseInpadoc_of_read rfl (.cons hgranted (.cons hlapse .nil))
  obtain ⟨assessment, h⟩ := exists_assessEp hread
  obtain ⟨assessment', h', hmore, -⟩ :=
    inserted_event_moves_one_way hread hread' hcountry (by decide) h
  refine ⟨assessment, h, assessment', h', hmore ⟨hnegative, ?_, ?_⟩⟩
  · rw [hcode]
    decide
  · rw [LegalEvent.isUnitary, hcode]
    decide

theorem later_events_do_not_count_lapse :
    (assessEp (responseOf [grantEvent]) "EP1" sampleFiled sampleToday .null).map
        decided
      = (assessEp (responseOf [grantEvent, germanEvent "PG25" "-" "2030-01-07"])
        "EP1" sampleFiled sampleToday .null).map decided := by
  obtain ⟨granted, hgranted, -⟩ := read_grantEvent
  obtain ⟨lapse, hlapse, hsummary⟩ := read_laterLapse
  obtain ⟨hcode, -, hdate, -⟩ := by
    simpa only [LegalEvent.summary, Prod.mk.injEq] using hsummary
  have hdrop (p : LegalEvent → Bool) (hp : p lapse = false) :
      [granted].filter p = [granted, lapse].filter p := by
    simp [List.filter_cons, hp]
  refine later_events_do_not_count
    (parseInpadoc_of_read rfl (.cons hgranted .nil))
    (parseInpadoc_of_read rfl (.cons hgranted (.cons hlapse .nil)))
    (hdrop _ ?_) (hdrop _ ?_) (hdrop _ ?_)
  · rw [hcode]
    decide
  · rw [LegalEvent.isUnitary, hcode]
    decide
  · rw [LegalEvent.later, hdate]
    decide

end PatentEvidence.LegalStatus
