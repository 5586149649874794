/-
The stored extract of an EP response decides as the response does.

`ep_extract` finds the events `assess_ep` finds and keeps those by whose
code or influence the rules could ask for them (`relevant`). An event that
is not kept changes no tally, names no designated state, and is neither
unitary nor negative, so each of these readings of all events is its
reading of the kept ones (`epStatus_relevant`). The fields dropped from a kept
event are not read (`parseEvent_project`).

Events are objects with no events inside them, wherever in the response
they stand; nothing else is asked of it. The assessment of the response may
raise on an event that is not kept, so what is proved is that the extract
is assessed alike whenever the response is (`assess_epExtract`).

# Sections

- finding events;
- reading events;
- events that do not count;
- the extract.
-/
import PatentEvidence.LegalStatus.Proofs.EpStanding
import PatentEvidence.LegalStatus.Serialize

namespace PatentEvidence.LegalStatus

open Fallible Grouping Text

variable {ν : Type _}

-- ========================================================= finding events

theorem fst_fold_legalAlg (v : Json ν) : (v.fold legalAlg).1 = v := by
  induction v with
  | arr items ih =>
      have hitems : (items.map (Json.fold legalAlg)).map Prod.fst = items := by
        rw [List.map_map]
        exact (List.map_congr_left ih).trans (List.map_id items)
      rw [Json.fold_arr]
      exact congrArg Json.arr hitems
  | obj entries ih =>
      have hentries : (entries.map (Json.foldEntry legalAlg)).map
          (fun e => (e.1, e.2.1)) = entries := by
        rw [List.map_map]
        refine (List.map_congr_left fun e he => ?_).trans (List.map_id entries)
        exact Prod.ext rfl (ih e he)
      rw [Json.fold_obj]
      exact congrArg Json.obj hentries
  | _ => rfl

theorem legalEvents_arr (items : List (Json ν)) :
    legalEvents (.arr items) = items.flatMap legalEvents := by
  rw [legalEvents, Json.fold_arr]
  exact List.flatMap_map ..

theorem legalEvents_obj (entries : List (String × Json ν)) :
    legalEvents (.obj entries)
      = (match entries.lookup "ops:legal" with
          | some items => asList items
          | none => [])
        ++ entries.flatMap fun e => legalEvents e.2 := by
  have hentries : (entries.map (Json.foldEntry legalAlg)).map
      (fun e => (e.1, e.2.1)) = entries := by
    rw [List.map_map]
    refine (List.map_congr_left fun e _ => ?_).trans (List.map_id entries)
    exact Prod.ext rfl (fst_fold_legalAlg e.2)
  rw [legalEvents, Json.fold_obj]
  show (match ((entries.map (Json.foldEntry legalAlg)).map
        fun e => (e.1, e.2.1)).lookup "ops:legal" with
      | some items => asList items
      | none => [])
    ++ (entries.map (Json.foldEntry legalAlg)).flatMap (fun e => e.2.2) = _
  rw [hentries, List.flatMap_map]
  rfl

/-- Objects without events inside them. -/
def IsEpEvent (event : Json ν) : Prop :=
  (∃ entries, event = .obj entries) ∧ legalEvents event = []

/-- An event without the fields that are not stored. -/
def project (event : Json ν) : Json ν :=
  match event with
  | .obj entries => .obj (entries.filter fun e => e.1 ∈ epEventFields)
  | event => event

theorem legalEvents_project {event : Json ν} (h : IsEpEvent event) :
    legalEvents (project event) = [] := by
  obtain ⟨⟨entries, rfl⟩, hnone⟩ := h
  rw [legalEvents_obj, List.append_eq_nil_iff, List.flatMap_eq_nil_iff] at hnone
  have hlookup : (entries.filter fun e => e.1 ∈ epEventFields).lookup
      "ops:legal" = none := by
    rw [List.lookup_eq_none_iff]
    intro e he
    have hin := of_decide_eq_true (List.mem_filter.mp he).2
    rw [bne_iff_ne]
    rintro heq
    rw [← heq] at hin
    revert hin
    decide
  rw [project, legalEvents_obj, hlookup, List.append_eq_nil_iff,
    List.flatMap_eq_nil_iff]
  exact ⟨rfl, fun e he => hnone.2 e (List.mem_of_mem_filter he)⟩

theorem isEpEvent_project {event : Json ν} (h : IsEpEvent event) :
    IsEpEvent (project event) := by
  refine ⟨?_, legalEvents_project h⟩
  obtain ⟨⟨entries, rfl⟩, -⟩ := h
  exact ⟨_, rfl⟩

theorem project_project (event : Json ν) :
    project (project event) = project event := by
  cases event with
  | obj entries =>
      rw [project, project, List.filter_filter]
      simp only [Bool.and_self]
  | _ => rfl

-- ========================================================= reading events

variable [JsonNumber ν] [Printable]

/-- The code of an event. -/
def epCode (event : Json ν) : String :=
  match event with
  | .obj entries => strip ((entries.lookup "@code").getD (.str "")).toStr
  | _ => ""

/-- Its influence; a missing one is blank. -/
def epInfluence (event : Json ν) : String :=
  match event with
  | .obj entries => strip ((entries.lookup "@infl").getD (.str "")).toStr
  | _ => ""

/-- The extract keeps the event. -/
def epKept (event : Json ν) : Bool :=
  epCode event ∈ epKeepCodes || startsWith "U" (epCode event)
    || epInfluence event = "-"

/-- A read event the rules may ask for. -/
def relevant (event : LegalEvent) : Bool :=
  event.code ∈ epKeepCodes || startsWith "U" event.code || event.negative

theorem keptEpEvent_eq {event : Json ν} (h : IsEpEvent event) :
    keptEpEvent event = .ok (if epKept event then some (project event) else none) := by
  obtain ⟨⟨entries, rfl⟩, -⟩ := h
  have hor : epKept (.obj entries) = true
      ↔ epCode (.obj entries) ∈ epKeepCodes
        ∨ startsWith "U" (epCode (.obj entries)) = true
        ∨ epInfluence (.obj entries) = "-" := by
    rw [epKept, Bool.or_eq_true, Bool.or_eq_true, decide_eq_true_eq,
      decide_eq_true_eq, or_assoc]
  rw [keptEpEvent, Json.getD_obj, Json.getD_obj, ok_bind, ok_bind]
  by_cases hkept : epKept (.obj entries) = true
  · rw [if_pos hkept]
    exact if_pos (hor.mp hkept)
  · rw [if_neg hkept]
    exact if_neg fun h => hkept (hor.mpr h)

omit [JsonNumber ν] [Printable] in
/-- A field that is kept reads the same in the projection. -/
theorem lookup_kept (entries : List (String × Json ν)) (key : String)
    (hkey : decide (key ∈ epEventFields) = true) :
    (entries.filter fun e => e.1 ∈ epEventFields).lookup key
      = entries.lookup key :=
  Json.lookup_filter (p := fun k => k ∈ epEventFields) hkey entries

theorem epKept_project {event : Json ν} (h : IsEpEvent event) :
    epKept (project event) = epKept event := by
  obtain ⟨⟨entries, rfl⟩, -⟩ := h
  have hcode : epCode (project (.obj entries)) = epCode (.obj entries) := by
    rw [project, epCode, epCode, lookup_kept entries "@code" (by decide)]
  have hinfluence :
      epInfluence (project (.obj entries)) = epInfluence (.obj entries) := by
    rw [project, epInfluence, epInfluence, lookup_kept entries "@infl" (by decide)]
  rw [epKept, epKept, hcode, hinfluence]

variable [Digits]

/-- No field that is dropped is read. -/
theorem parseEvent_project {event : Json ν} (h : IsEpEvent event) :
    parseEvent (project event) = parseEvent event := by
  obtain ⟨⟨entries, rfl⟩, -⟩ := h
  have hpre := lookup_kept entries "ops:pre" (by decide)
  have hdesc := lookup_kept entries "@desc" (by decide)
  have hcode := lookup_kept entries "@code" (by decide)
  have hinfluence := lookup_kept entries "@infl" (by decide)
  have hgazette := lookup_kept entries "ops:L007EP" (by decide)
  simp only [project, parseEvent, Json.get_obj, Json.getD_obj, hpre, hdesc,
    hcode, hinfluence, hgazette]

/-- Kept events are the relevant ones, once read. -/
theorem epKept_eq_relevant {event : Json ν} {read : LegalEvent}
    (h : parseEvent event = .ok read) : epKept event = relevant read := by
  cases event with
  | obj entries =>
      rw [parseEvent, Json.get_obj, ok_bind, Json.getD_obj, ok_bind] at h
      obtain ⟨⟨lines, fields⟩, -, h⟩ := bind_eq_ok.mp h
      simp only [Json.getD_obj, Json.get_obj, ok_bind] at h
      obtain ⟨gazette, -, h⟩ := bind_eq_ok.mp h
      rw [pure_eq_ok] at h
      -- a missing influence is read as a blank, which strips to nothing
      have hblank : strip ((entries.lookup "@infl").getD (.str " ")).toStr
          = epInfluence (.obj entries) := by
        rw [epInfluence]
        cases entries.lookup "@infl" with
        | none =>
            show strip " " = strip ""
            decide
        | some v => rfl
      rw [← h, relevant, LegalEvent.negative]
      dsimp only
      rw [hblank]
      rfl
  | _ => cases h

-- ============================================== events that do not count

section Irrelevant

variable {event : LegalEvent}

omit [Printable] [Digits] in
/-- What an event that is not relevant is not. -/
theorem not_relevant_iff : relevant event = false
    ↔ event.code ∉ epKeepCodes ∧ startsWith "U" event.code = false
      ∧ event.negative = false := by
  rw [relevant, Bool.or_eq_false_iff, Bool.or_eq_false_iff,
    decide_eq_false_iff_not, and_assoc]

omit [Printable] in
theorem countEvent_of_not_relevant (h : relevant event = false) (asOf : Date)
    (tally : CountryTally) : countEvent asOf tally event = tally := by
  obtain ⟨hcode, -, hnegative⟩ := not_relevant_iff.mp h
  have hreinstatement : event.code ∉ reinstatementCodes :=
    fun hin => hcode ((by decide : reinstatementCodes ⊆ epKeepCodes) hin)
  have hfee : event.code ∉ feeCodes :=
    fun hin => hcode ((by decide : feeCodes ⊆ epKeepCodes) hin)
  rw [countEvent]
  split
  · rfl
  · split
    · rfl
    · rw [tallyEvent, if_neg hreinstatement, if_neg hfee, hnegative]
      rfl

end Irrelevant

section Filtered

variable (events : List LegalEvent)

omit [Printable] in
theorem countryStatuses_relevant (asOf : Date) :
    countryStatuses (events.filter relevant) asOf
      = countryStatuses events asOf :=
  countryStatuses_filter events fun _ h => countEvent_of_not_relevant h asOf

omit [Printable] in
/-- The status is decided by the relevant events. -/
theorem epStatus_relevant (asOf expiry : Date) (countries : List CountryStatus) :
    epStatus asOf expiry (events.filter relevant) countries
      = epStatus asOf expiry events countries := by
  have hgrant (event : LegalEvent) (h : event.code = "AK") :
      relevant event = true := by
    rw [relevant, h]
    rfl
  have hnegative (event : LegalEvent) (h : event.unmapped asOf = true) :
      relevant event = true := by
    rw [LegalEvent.unmapped, Bool.and_assoc, Bool.and_eq_true] at h
    rw [relevant, h.1, Bool.or_true]
  have hunitary (event : LegalEvent) (h : event.isUnitary = true) :
      relevant event = true := by
    rw [LegalEvent.isUnitary, Bool.and_eq_true] at h
    rw [relevant, show startsWith "U" event.code = true from h.1, Bool.or_true,
      Bool.true_or]
  rw [epStatus, epStatus, designatedStatesAtGrant_filter events hgrant,
    unknownNegative_filter events hnegative, unitary_filter events hunitary]

end Filtered

-- ========================================================== the extract

/-- The events of the extract. -/
def keptEpEvents (payload : Json ν) : List (Json ν) :=
  ((legalEvents payload).filter epKept).map project

section Extract

variable {payload : Json ν}
  (hevents : ∀ event ∈ legalEvents payload, IsEpEvent event)

omit [Digits] in
include hevents in
theorem epExtract_eq :
    epExtract payload = .ok (.obj [("ops:legal", .arr (keptEpEvents payload))]) := by
  have hkept : collect keptEpEvent (legalEvents payload)
      = .ok (keptEpEvents payload) := by
    rw [collect_eq_ok fun event he => keptEpEvent_eq (hevents event he),
      keptEpEvents, ← List.filterMap_eq_map, List.filterMap_filter]
    rfl
  rw [epExtract, hkept, ok_bind]
  rfl

omit [Digits] in
include hevents in
theorem isEpEvent_of_mem_kept :
    ∀ event ∈ keptEpEvents payload, IsEpEvent event := by
  intro event he
  obtain ⟨event', he', rfl⟩ := List.mem_map.mp he
  exact isEpEvent_project (hevents event' (List.mem_of_mem_filter he'))

omit [Digits] in
include hevents in
/-- The extract holds the kept events and no others. -/
theorem legalEvents_extract :
    legalEvents (.obj [("ops:legal", .arr (keptEpEvents payload))])
      = keptEpEvents payload := by
  have hnone : legalEvents (.arr (keptEpEvents payload)) = [] := by
    rw [legalEvents_arr, List.flatMap_eq_nil_iff]
    exact fun event he => (isEpEvent_of_mem_kept hevents event he).2
  rw [legalEvents_obj, List.flatMap_cons, hnone]
  exact List.append_nil _

omit [Digits] in
include hevents in
theorem keptEpEvents_extract :
    keptEpEvents (.obj [("ops:legal", .arr (keptEpEvents payload))])
      = keptEpEvents payload := by
  have hall : ∀ event ∈ keptEpEvents payload, epKept event = true := by
    intro event he
    obtain ⟨event', he', rfl⟩ := List.mem_map.mp he
    obtain ⟨hin, hkept⟩ := List.mem_filter.mp he'
    rw [epKept_project (hevents event' hin), hkept]
  have hmap : (keptEpEvents payload).map project = keptEpEvents payload := by
    rw [keptEpEvents, List.map_map]
    exact List.map_congr_left fun event _ => project_project event
  rw [keptEpEvents, legalEvents_extract hevents, List.filter_eq_self.mpr hall,
    hmap]

include hevents in
/-- The extract reads as the relevant events of the response. -/
theorem parseInpadoc_extract {events : List LegalEvent}
    (h : parseInpadoc payload = .ok events) :
    parseInpadoc (.obj [("ops:legal", .arr (keptEpEvents payload))])
      = .ok (events.filter relevant) := by
  have hkept := mapM_filter (fun _ _ => epKept_eq_relevant) h
  rw [parseInpadoc, legalEvents_extract hevents, keptEpEvents, List.mapM_map,
    ← hkept]
  refine mapM_congr fun event he => ?_
  exact parseEvent_project (hevents event (List.mem_of_mem_filter he))

include hevents in
/-- The extract of a response exists and is its own extract, and wherever
the response is assessed the extract is, with the same status, term,
countries and review reasons. -/
theorem assess_epExtract :
    ∃ extract, epExtract payload = .ok extract
      ∧ epExtract extract = .ok extract
      ∧ ∀ publicationNumber filingDate asOf dataAsOf assessment,
        assessEp payload publicationNumber filingDate asOf dataAsOf
            = .ok assessment →
        ∃ assessment', assessEp extract publicationNumber filingDate asOf dataAsOf
            = .ok assessment'
          ∧ assessment'.status = assessment.status
          ∧ assessment'.term = assessment.term
          ∧ assessment'.countries = assessment.countries
          ∧ assessment'.reviewReasons = assessment.reviewReasons := by
  refine ⟨_, epExtract_eq hevents, ?_, ?_⟩
  · have hkept : ∀ event ∈ legalEvents (.obj [("ops:legal",
        .arr (keptEpEvents payload))]), IsEpEvent event := by
      rw [legalEvents_extract hevents]
      exact isEpEvent_of_mem_kept hevents
    rw [epExtract_eq hkept, keptEpEvents_extract hevents]
  · intro publicationNumber filingDate asOf dataAsOf assessment h
    obtain ⟨events, hread, h⟩ := bind_eq_ok.mp h
    obtain ⟨expiry, hexpiry, h⟩ := bind_eq_ok.mp h
    rw [pure_eq_ok] at h
    subst h
    have hcountries := countryStatuses_relevant events asOf
    have hstatus := epStatus_relevant events asOf expiry (countryStatuses events asOf)
    rw [assessEp, parseInpadoc_extract hevents hread, ok_bind, hexpiry, ok_bind]
    rw [← hcountries] at hstatus ⊢
    exact ⟨_, rfl, congrArg Prod.fst hstatus, rfl, rfl, congrArg Prod.snd hstatus⟩

end Extract

/-- A response with a grant, a lapse in one state and an event that is
dropped. -/
def grantedResponse : Json Int :=
  .obj [("ops:world-patent-data", .obj [("ops:patent-family", .obj [
    ("ops:legal", .arr [
      .obj [("@code", .str "AK"), ("@infl", .str " "), ("ops:pre", .arr [
        .obj [("$", .str "Kind Code of Ref Document  B1")],
        .obj [("$", .str "Designated State(s)  DE FR")]])],
      .obj [("@code", .str "17P"), ("@infl", .str " ")],
      .obj [("@code", .str "PG25"), ("@infl", .str "-"), ("ops:L001EP", .null),
        ("ops:pre", .obj [("$", .str "Ref Country Code  FR")])]])])])]

omit [Printable] [Digits] in
theorem isEpEvent_of_mem_grantedResponse :
    ∀ event ∈ legalEvents grantedResponse, IsEpEvent event := by
  rintro event (_ | ⟨_, _ | ⟨_, _ | ⟨_, h⟩⟩⟩)
  · exact ⟨⟨_, rfl⟩, rfl⟩
  · exact ⟨⟨_, rfl⟩, rfl⟩
  · exact ⟨⟨_, rfl⟩, rfl⟩
  · cases h

omit [Printable] [Digits] in
theorem assess_epExtract_of_grantedResponse :
    let _ : Printable := ⟨fun _ => false⟩
    let _ : Digits :=
      ⟨fun c => if c.isDigit then some (c.toNat - 48) else none, Char.isDigit⟩
    ∃ extract, epExtract grantedResponse = .ok extract
      ∧ epExtract extract = .ok extract
      ∧ ∀ publicationNumber filingDate asOf dataAsOf assessment,
        assessEp grantedResponse publicationNumber filingDate asOf dataAsOf
            = .ok assessment →
        ∃ assessment', assessEp extract publicationNumber filingDate asOf dataAsOf
            = .ok assessment'
          ∧ assessment'.status = assessment.status
          ∧ assessment'.term = assessment.term
          ∧ assessment'.countries = assessment.countries
          ∧ assessment'.reviewReasons = assessment.reviewReasons := by
  intro _ _
  exact assess_epExtract isEpEvent_of_mem_grantedResponse

end PatentEvidence.LegalStatus
