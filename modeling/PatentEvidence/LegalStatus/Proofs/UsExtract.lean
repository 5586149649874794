/-
The stored extract of a US record decides as the record does.

`us_extract` keeps the fields `assess_us` reads and, of the events, those
whose code begins with one of its prefixes. What the rules ask of an event
they ask only if it begins with one of them: the evidence prefixes are
among the kept ones, and so are the three codes tested for
(`eventKept_of_evidence`, `eventKept_of_code`). So nothing dropped is
missed, whatever the rest of the record holds and even where the
assessment raises (`assess_extract`).

A record here is a JSON object in which metadata and adjustment are
objects or missing, and the events a list of objects with a text for a
code, or missing (`IsUsRecord`).

# Sections

- records;
- events;
- the extract.
-/
import PatentEvidence.LegalStatus.Serialize
import PatentEvidence.LegalStatus.Us
import PatentEvidence.Lib.Scan

namespace PatentEvidence.LegalStatus

open Fallible Grouping

variable {ν : Type _}

-- ============================================================== records

/-- An event of the event bag. -/
def IsUsEvent (event : Json ν) : Prop :=
  ∃ entries, event = .obj entries
    ∧ (event.field "eventCode" = .null
      ∨ ∃ code, event.field "eventCode" = .str code)

/-- Missing, null or an object. -/
def IsOptionalObject (v : Json ν) : Prop := v = .null ∨ ∃ entries, v = .obj entries

/-- A file-wrapper record, as far as its shape matters. -/
structure IsUsRecord (record : Json ν) : Prop where
  object : ∃ entries, record = .obj entries
  metaData : IsOptionalObject (record.field "applicationMetaData")
  adjustment : IsOptionalObject (record.field "patentTermAdjustmentData")
  events : record.field "eventDataBag" = .null
    ∨ ∃ events, record.field "eventDataBag" = .arr events
      ∧ ∀ event ∈ events, IsUsEvent event

variable [JsonNumber ν]

theorem orElse_optionalObject {v : Json ν} (h : IsOptionalObject v) :
    ∃ entries, v.orElse (.obj []) = .obj entries := by
  rcases h with rfl | ⟨entries, rfl⟩
  · exact ⟨[], rfl⟩
  · exact ⟨entries, Json.orElse_obj entries⟩

-- =============================================================== events

/-- The code of an event, where a missing one is blank. -/
def codeOf (event : Json ν) : String :=
  match event.field "eventCode" with
  | .str code => code
  | _ => ""

/-- The extract keeps the event. -/
def eventKept (event : Json ν) : Bool :=
  usEventPrefixes.any fun start => Text.startsWith start (codeOf event)

section Events

variable {event : Json ν}

omit [JsonNumber ν] in
theorem get_of_isUsEvent (h : IsUsEvent event) (key : String) :
    event.get key = .ok (event.field key) := by
  obtain ⟨entries, rfl, -⟩ := h
  rfl

theorem code_orElse (h : IsUsEvent event) :
    (event.field "eventCode").orElse (.str "") = .str (codeOf event) := by
  obtain ⟨entries, -, hcode | ⟨code, hcode⟩⟩ := h
  · rw [codeOf, hcode]
    rfl
  · rw [codeOf, hcode, Json.orElse]
    split
    · rfl
    · next hfalsy =>
        rw [Json.truthy, decide_eq_true_eq, not_not] at hfalsy
        rw [hfalsy]

theorem keptEvent_eq (h : IsUsEvent event) :
    keptEvent event = .ok (Option.guard eventKept event) := by
  rw [keptEvent, get_of_isUsEvent h, ok_bind, code_orElse h]
  show (if eventKept event then _ else _) = _
  rw [Option.guard]
  split <;> rfl

omit [JsonNumber ν] in
theorem eventCode_eq (h : IsUsEvent event) :
    eventCode event = .ok (event.field "eventCode") := by
  rw [eventCode, get_of_isUsEvent h, ok_bind]
  obtain ⟨entries, -, hcode | ⟨code, hcode⟩⟩ := h
  · rw [hcode]
    rfl
  · rw [hcode]
    rfl

omit [JsonNumber ν] in
/-- An event whose code begins like a kept one is kept. -/
theorem eventKept_of_field {code : String}
    (hcode : (usEventPrefixes.any fun start => Text.startsWith start code) = true)
    (h : event.field "eventCode" = .str code) : eventKept event = true := by
  rw [eventKept, codeOf, h]
  exact hcode

variable [Printable]

/-- The evidence an event of the bag is kept as. -/
def evidenceOf (event : Json ν) : Option (StatusEvidence ν) :=
  if (evidenceEventPrefixes.any fun start =>
      Text.startsWith start (codeOf event))
      || (Json.str (codeOf event)).isIn
        (terminalDisclaimerCodes.map (Json.str (ν := ν))) then
    some {
      source := usSource
      code := codeOf event
      description := (event.field "eventDescriptionText").orElse (.str "")
      eventDate := parseDate (event.field "eventDate") }
  else none

theorem eventEvidence_eq (h : IsUsEvent event) :
    eventEvidence event = .ok (evidenceOf event) := by
  rw [eventEvidence, get_of_isUsEvent h, ok_bind, code_orElse h,
    get_of_isUsEvent h, get_of_isUsEvent h, evidenceOf]
  show (if _ then _ else _) = _
  split <;> rfl

/-- Evidence is kept. -/
theorem kept_of_evidenceOf (h : (evidenceOf event).isSome = true) :
    eventKept event = true := by
  have hprefixes : ∀ start ∈ evidenceEventPrefixes, start ∈ usEventPrefixes := by
    decide
  have hcodes : ∀ code ∈ terminalDisclaimerCodes,
      (usEventPrefixes.any fun start => Text.startsWith start code) = true := by
    decide
  rw [evidenceOf] at h
  split at h
  · next hor =>
      rw [Bool.or_eq_true] at hor
      rcases hor with hprefix | hcode
      · obtain ⟨start, hin, hstart⟩ := List.any_eq_true.mp hprefix
        exact List.any_eq_true.mpr ⟨start, hprefixes start hin, hstart⟩
      · exact hcodes _ (Json.mem_of_str_isIn hcode)
  · cases h

/-- The date of an event of the bag, if it is an `EXP.` event. -/
def expiryDateOf (event : Json ν) : Option (Option Date) :=
  if (event.field "eventCode").equal (.str expiryEvent) then
    some (parseDate (event.field "eventDate"))
  else none

theorem expiryEventDate_eq (h : IsUsEvent event) :
    expiryEventDate event = .ok (expiryDateOf event) := by
  rw [expiryEventDate, get_of_isUsEvent h, ok_bind, get_of_isUsEvent h,
    expiryDateOf]
  split <;> rfl

/-- So is an `EXP.` event. -/
theorem kept_of_expiryDateOf (h : (expiryDateOf event).isSome = true) :
    eventKept event = true := by
  rw [expiryDateOf] at h
  split at h
  · next hcode =>
      exact eventKept_of_field (by decide) (Json.equal_str_iff.mp hcode)
  · cases h

end Events

/-- A kept code is in the bag exactly when it is in what is kept of it. -/
theorem isIn_filter {code : String}
    (hcode : (usEventPrefixes.any fun start => Text.startsWith start code) = true)
    (events : List (Json ν)) :
    (Json.str code).isIn ((events.filter eventKept).map (Json.field · "eventCode"))
      = (Json.str code).isIn (events.map (Json.field · "eventCode")) := by
  rw [Json.isIn, Json.isIn, Bool.eq_iff_iff, List.any_eq_true, List.any_eq_true]
  constructor
  · rintro ⟨v, hin, hequal⟩
    obtain ⟨event, hevent, rfl⟩ := List.mem_map.mp hin
    exact ⟨_, List.mem_map_of_mem (List.mem_of_mem_filter hevent), hequal⟩
  · rintro ⟨v, hin, hequal⟩
    obtain ⟨event, hevent, rfl⟩ := List.mem_map.mp hin
    have hkept := eventKept_of_field hcode (Json.str_equal_iff.mp hequal)
    exact ⟨_, List.mem_map_of_mem (List.mem_filter.mpr ⟨hevent, hkept⟩), hequal⟩

/-- The status asks the codes only for these three. -/
theorem usStatus_congr [Printable] {asOf : Date} {grant : Option Date}
    {statusText category : Json ν} {codes codes' : List (Json ν)}
    {expiryDates : List (Option Date)} {term : Option TermComputation}
    {pta : Json ν}
    (h : ∀ code ∈ expiryEvent :: terminalDisclaimerCodes,
      (Json.str code).isIn codes = (Json.str code).isIn codes') :
    usStatus asOf grant statusText category codes expiryDates term pta
      = usStatus asOf grant statusText category codes' expiryDates term pta := by
  rw [List.forall_mem_cons] at h
  have hdisclaimer :
      (terminalDisclaimerCodes.any fun code => (Json.str code).isIn codes)
        = terminalDisclaimerCodes.any fun code => (Json.str code).isIn codes' := by
    rw [Bool.eq_iff_iff, List.any_eq_true, List.any_eq_true]
    exact exists_congr fun code => and_congr_right fun hin => by rw [h.2 code hin]
  simp only [usStatus, h.1, hdisclaimer]

-- ========================================================== the extract

/-- The metadata, an object in any case. -/
def metaDataOf (record : Json ν) : Json ν :=
  (record.field "applicationMetaData").orElse (.obj [])

def eventsOf (record : Json ν) : List (Json ν) :=
  match record.field "eventDataBag" with
  | .arr events => events
  | _ => []

def parentsOf (record : Json ν) : Json ν :=
  (record.field "parentContinuityBag").orElse (.arr [])

/-- The adjustment in days, as it stands in the record. -/
def quantityOf (record : Json ν) : Json ν :=
  ((record.field "patentTermAdjustmentData").orElse (.obj [])).field
    "adjustmentTotalQuantity"

/-- The extract of a record. -/
def extractOf (record : Json ν) : Json ν :=
  .obj [
    ("applicationNumberText", record.field "applicationNumberText"),
    ("lastIngestionDateTime", record.field "lastIngestionDateTime"),
    ("applicationMetaData",
      .obj (usMetaFields.map fun k => (k, (metaDataOf record).field k))),
    ("eventDataBag", .arr ((eventsOf record).filter eventKept)),
    ("parentContinuityBag", parentsOf record),
    ("patentTermAdjustmentData",
      match record.field "patentTermAdjustmentData" with
      | .null => .null
      | _ => .obj [("adjustmentTotalQuantity", quantityOf record)])]

section Record

variable {record : Json ν}

omit [JsonNumber ν] in
theorem get_of_isUsRecord (h : IsUsRecord record) (key : String) :
    record.get key = .ok (record.field key) := by
  obtain ⟨entries, rfl⟩ := h.object
  rfl

theorem get_metaDataOf (h : IsUsRecord record) (key : String) :
    (metaDataOf record).get key = .ok ((metaDataOf record).field key) := by
  obtain ⟨entries, hentries⟩ := orElse_optionalObject h.metaData
  rw [metaDataOf, hentries]
  rfl

omit [JsonNumber ν] in
theorem isUsEvent_of_mem (h : IsUsRecord record) :
    ∀ event ∈ eventsOf record, IsUsEvent event := by
  rcases h.events with hnull | ⟨events, hevents, hall⟩
  · rw [eventsOf, hnull]
    exact fun _ hevent => nomatch hevent
  · rw [eventsOf, hevents]
    exact hall

theorem iter_events (h : IsUsRecord record) :
    ((record.field "eventDataBag").orElse (.arr [])).iter
      = .ok (eventsOf record) := by
  rcases h.events with hnull | ⟨events, hevents, -⟩
  · rw [eventsOf, hnull]
    rfl
  · rw [eventsOf, hevents, Json.orElse_arr]
    rfl

theorem get_quantity (h : IsUsRecord record) :
    ((record.field "patentTermAdjustmentData").orElse (.obj [])).get
        "adjustmentTotalQuantity" = .ok (quantityOf record) := by
  obtain ⟨entries, hentries⟩ := orElse_optionalObject h.adjustment
  rw [quantityOf, hentries]
  rfl

theorem adjustment_extract :
    (extractOf record).field "patentTermAdjustmentData"
      = match record.field "patentTermAdjustmentData" with
        | .null => .null
        | _ => .obj [("adjustmentTotalQuantity", quantityOf record)] := rfl

theorem usExtract_eq (h : IsUsRecord record) :
    usExtract record = .ok (extractOf record) := by
  have hfields : (usMetaFields.mapM fun k => do
      return (k, ← (metaDataOf record).get k) : Py (List (String × Json ν)))
        = .ok (usMetaFields.map fun k => (k, (metaDataOf record).field k)) :=
    mapM_eq_ok_map fun k _ => by rw [get_metaDataOf h]; rfl
  have hkept : collect keptEvent (eventsOf record)
      = .ok ((eventsOf record).filter eventKept) := by
    rw [collect_eq_ok fun event hevent =>
      keptEvent_eq (isUsEvent_of_mem h event hevent)]
    exact congrArg Except.ok (congrFun List.filterMap_eq_filter _)
  have hadjustment : extractAdjustment (record.field "patentTermAdjustmentData")
      = .ok ((extractOf record).field "patentTermAdjustmentData") := by
    rw [adjustment_extract, quantityOf]
    rcases h.adjustment with hnull | ⟨entries, hentries⟩
    · rw [hnull]
      rfl
    · rw [hentries, Json.orElse_obj]
      rfl
  simp only [usExtract, get_of_isUsRecord h, ok_bind, iter_events h, hkept,
    hadjustment]
  rw [← metaDataOf, hfields]
  rfl

/-- What is read of the extract is what is read of the record. -/
theorem field_metaDataOf_extract {key : String} (hkey : key ∈ usMetaFields) :
    (metaDataOf (extractOf record)).field key = (metaDataOf record).field key := by
  show ((Json.obj (usMetaFields.map fun k =>
    (k, (metaDataOf record).field k))).orElse (.obj [])).field key = _
  rw [Json.orElse_obj, Json.field_obj_map usMetaFields _ hkey]

theorem eventsOf_extract :
    eventsOf (extractOf record) = (eventsOf record).filter eventKept := rfl

theorem parentsOf_extract : parentsOf (extractOf record) = parentsOf record := by
  show (parentsOf record).orElse (.arr []) = _
  rw [parentsOf, Json.orElse_orElse]

theorem quantityOf_extract (h : IsUsRecord record) :
    quantityOf (extractOf record) = quantityOf record := by
  rw [quantityOf, adjustment_extract]
  rcases h.adjustment with hnull | ⟨entries, hentries⟩
  · rw [quantityOf, hnull]
  · rw [hentries]
    rfl

/-- The extract is a record. -/
theorem isUsRecord_extract (h : IsUsRecord record) :
    IsUsRecord (extractOf record) where
  object := ⟨_, rfl⟩
  metaData := .inr ⟨_, rfl⟩
  adjustment := by
    rw [adjustment_extract]
    split
    · exact .inl rfl
    · exact .inr ⟨_, rfl⟩
  events := .inr ⟨_, rfl, fun event hevent =>
    isUsEvent_of_mem h event (List.mem_of_mem_filter hevent)⟩

/-- Extracting twice is extracting once. -/
theorem extractOf_extractOf (h : IsUsRecord record) :
    extractOf (extractOf record) = extractOf record := by
  have hfields : (usMetaFields.map fun k =>
        (k, (metaDataOf (extractOf record)).field k))
      = usMetaFields.map fun k => (k, (metaDataOf record).field k) :=
    List.map_congr_left fun k hk => by rw [field_metaDataOf_extract hk]
  rw [extractOf, hfields, eventsOf_extract, List.filter_filter,
    parentsOf_extract, quantityOf_extract h, adjustment_extract]
  simp only [Bool.and_self]
  rw [extractOf]
  split
  · rfl
  · rfl

variable [Printable] [Text.Digits]

/-- What an assessment comes to once the keys are read. -/
theorem assessUs_eq (h : IsUsRecord record) (publicationNumber : String)
    (asOf : Date) :
    assessUs record publicationNumber asOf = do
      let statusText := ((metaDataOf record).field
        "applicationStatusDescriptionText").orElse (.str "")
      let (start, basis) ← termStart record
      let term ← termComputation start basis (quantityOf record)
      let (status, reasons) ← usStatus asOf
        (parseDate ((metaDataOf record).field "grantDate")) statusText
        ((metaDataOf record).field "applicationTypeCategory")
        ((eventsOf record).map (Json.field · "eventCode"))
        ((eventsOf record).filterMap expiryDateOf) term (quantityOf record)
      return {
        jurisdiction := "US"
        publicationNumber := publicationNumber
        asOf := asOf
        status := status
        term := term
        evidence := {
            source := usSource, code := "STATUS", description := statusText
            eventDate := parseDate
              ((metaDataOf record).field "applicationStatusDate") }
          :: (eventsOf record).filterMap evidenceOf
        reviewReasons := reasons
        dataAsOf := record.field "lastIngestionDateTime" } := by
  have hevents := isUsEvent_of_mem h
  have hcodes : (eventsOf record).mapM eventCode
      = .ok ((eventsOf record).map (Json.field · "eventCode")) :=
    mapM_eq_ok_map fun event hevent => eventCode_eq (hevents event hevent)
  have hevidence : collect eventEvidence (eventsOf record)
      = .ok ((eventsOf record).filterMap evidenceOf) :=
    collect_eq_ok fun event hevent => eventEvidence_eq (hevents event hevent)
  have hdates : collect expiryEventDate (eventsOf record)
      = .ok ((eventsOf record).filterMap expiryDateOf) :=
    collect_eq_ok fun event hevent => expiryEventDate_eq (hevents event hevent)
  simp only [assessUs, get_of_isUsRecord h, ok_bind, iter_events h, hcodes,
    hevidence, hdates, get_quantity h]
  rw [← metaDataOf]
  simp only [get_metaDataOf h, ok_bind]

omit [Text.Digits] in
theorem termStart_extract (h : IsUsRecord record) :
    termStart (extractOf record) = termStart record := by
  have hextract := isUsRecord_extract h
  have hfiling : (metaDataOf (extractOf record)).field "filingDate"
      = (metaDataOf record).field "filingDate" :=
    field_metaDataOf_extract (by decide)
  simp only [termStart, get_of_isUsRecord h, get_of_isUsRecord hextract, ok_bind]
  rw [← metaDataOf, ← metaDataOf, ← parentsOf, ← parentsOf, parentsOf_extract]
  simp only [get_metaDataOf h, get_metaDataOf hextract, ok_bind, hfiling]

/-- The extract of a record exists, is its own extract, and is assessed as
the record is: the same assessment, or the same exception. -/
theorem assess_extract (h : IsUsRecord record) :
    ∃ extract, usExtract record = .ok extract
      ∧ (∀ publicationNumber asOf, assessUs extract publicationNumber asOf
        = assessUs record publicationNumber asOf)
      ∧ usExtract extract = .ok extract := by
  have hextract := isUsRecord_extract h
  refine ⟨extractOf record, usExtract_eq h, fun publicationNumber asOf => ?_, ?_⟩
  · have hcodes : ∀ code ∈ expiryEvent :: terminalDisclaimerCodes,
        (usEventPrefixes.any fun start => Text.startsWith start code) = true := by
      decide
    have hread (key : String) (hkey : key ∈ usMetaFields) :
        (metaDataOf (extractOf record)).field key
          = (metaDataOf record).field key := field_metaDataOf_extract hkey
    have hstatus := hread "applicationStatusDescriptionText" (by decide)
    have hgrant := hread "grantDate" (by decide)
    have hcategory := hread "applicationTypeCategory" (by decide)
    have hdate := hread "applicationStatusDate" (by decide)
    have hingested : (extractOf record).field "lastIngestionDateTime"
        = record.field "lastIngestionDateTime" := rfl
    rw [assessUs_eq h, assessUs_eq hextract, termStart_extract h,
      quantityOf_extract h, eventsOf_extract,
      filterMap_filter_of_kept fun _ => kept_of_evidenceOf,
      filterMap_filter_of_kept fun _ => kept_of_expiryDateOf, hingested]
    simp only [hstatus, hgrant, hcategory, hdate,
      usStatus_congr fun code hcode =>
        isIn_filter (hcodes code hcode) (eventsOf record)]
  · rw [usExtract_eq hextract, extractOf_extractOf h]

end Record

/-- A granted patent with an action that is dropped and a fee that is
kept. -/
def grantedRecord : Json Int :=
  .obj [
    ("applicationNumberText", .str "10000001"),
    ("inventorBag", .arr [.obj [("firstName", .str "A")]]),
    ("applicationMetaData", .obj [
      ("filingDate", .str "2004-03-01"),
      ("grantDate", .str "2007-06-05"),
      ("applicationStatusDescriptionText", .str "Patented Case")]),
    ("eventDataBag", .arr [
      .obj [("eventCode", .str "CTNF")],
      .obj [("eventCode", .str "M1551"), ("eventDate", .str "2010-11-30")]])]

theorem isUsRecord_grantedRecord : IsUsRecord grantedRecord where
  object := ⟨_, rfl⟩
  metaData := .inr ⟨_, rfl⟩
  adjustment := .inl rfl
  events := by
    refine .inr ⟨_, rfl, fun event hevent => ?_⟩
    rcases List.mem_cons.mp hevent with rfl | hevent
    · exact ⟨_, rfl, .inr ⟨_, rfl⟩⟩
    · rw [List.mem_singleton.mp hevent]
      exact ⟨_, rfl, .inr ⟨_, rfl⟩⟩

theorem assess_extract_of_grantedRecord :
    let _ : Printable := ⟨fun _ => false⟩
    let _ : Text.Digits := Scan.asciiDigits
    ∃ extract, usExtract grantedRecord = .ok extract
      ∧ (∀ publicationNumber asOf, assessUs extract publicationNumber asOf
        = assessUs grantedRecord publicationNumber asOf)
      ∧ usExtract extract = .ok extract := by
  intro _ _
  exact assess_extract isUsRecord_grantedRecord

end PatentEvidence.LegalStatus
