/-
US legal status from a USPTO file-wrapper record
(modules/legal_status/us.py).

The record is read as it comes: a key may be missing or null, and a value
of the wrong type raises where the source would. Uncertainty resolves
toward keeping the patent in the risk set.
-/
import PatentEvidence.LegalStatus.Model
import PatentEvidence.Lib.Fallible
import PatentEvidence.Lib.Grouping
import PatentEvidence.Lib.Python

namespace PatentEvidence.LegalStatus

open Fallible Grouping

-- ============================================================ constants

/-- `SOURCE`. -/
def usSource : String := "USPTO ODP"

/-- `TERM_PARENT_CODES`. -/
def termParentCodes : List String := ["CON", "DIV", "CIP", "NST"]

/-- `LAPSED_STATUS_MARKER`. -/
def lapsedStatusMarker : String :=
  "Expired Due to NonPayment of Maintenance Fees"

/-- `IN_FORCE_STATUS`. -/
def inForceStatus : String := "Patented Case"

/-- `TERMINAL_DISCLAIMER_CODES`. -/
def terminalDisclaimerCodes : List String := ["DIST", "P574"]

/-- `EXPIRY_EVENT`. -/
def expiryEvent : String := "EXP."

/-- `EVIDENCE_EVENT_PREFIXES`. -/
def evidenceEventPrefixes : List String :=
  ["M155", "M255", "M355", "EXP", "REM"]

variable {ν : Type _} [JsonNumber ν] [Printable] [Text.Digits]

-- ================================================================ dates

/-- `_parse_date`. -/
def parseDate (value : Json ν) : Option Date :=
  if value.truthy then
    Date.fromIsoformat (String.ofList (value.toStr.toList.take 10))
  else none

/-- `add_years`: 29 February maps to 28 February in other years. -/
def addYears (day : Date) (years : Int) : Py Date :=
  let year := (day.year + years).toNat
  match date? year day.month day.day with
  | some d => .ok d
  | none =>
      match date? year day.month 28 with
      | some d => .ok d
      | none => .error .valueError

/-- `day + timedelta(days=days)`. -/
def plusDays (day : Date) (days : Int) : Py Date :=
  match day.addDays days with
  | some d => .ok d
  | none => .error .overflowError

-- ================================================================= term

/-- One turn of the loop of `term_start`. -/
def termParent (candidates : List (Date × String)) (parent : Json ν) :
    Py (List (Date × String)) := do
  let code ← parent.get "claimParentageTypeCode"
  let parentDate := parseDate (← parent.get "parentApplicationFilingDate")
  let startsTerm ← code.inSet termParentCodes
  match parentDate with
  | some date =>
      if startsTerm then
        let number ← parent.get "parentApplicationNumberText"
        return candidates ++ [(date, s!"{code.toStr} parent {number.toStr} "
          ++ "filed " ++ date.isoformat)]
      else return candidates
  | none => return candidates

/-- `term_start`. -/
def termStart (record : Json ν) : Py (Option Date × String) := do
  let metaData := (← record.get "applicationMetaData").orElse (.obj [])
  let candidates :=
    match parseDate (← metaData.get "filingDate") with
    | some own => [(own, "own filing date " ++ own.isoformat)]
    | none => []
  let parents ← ((← record.get "parentContinuityBag").orElse (.arr [])).iter
  match ← parents.foldlM termParent candidates with
  | [] => return (none, "no filing date")
  | candidate :: candidates =>
      let first := firstBy Prod.fst candidate candidates
      return (some first.1, first.2)

/-- The term `assess_us` computes from its start and the adjustment. -/
def termComputation (start : Option Date) (basis : String) (pta : Json ν) :
    Py (Option TermComputation) := do
  match start with
  | none => return none
  | some start =>
      let statutory ← addYears start 20
      let days ← (pta.orElse (.num (JsonNumber.ofInt 0))).toInt
      let expiry ← plusDays statutory days
      return some {
        termStart := start
        termStartBasis := basis
        statutoryYears := 20
        adjustmentDays := days
        expiryDate := expiry }

-- =============================================================== events

/-- What `assess_us` puts into the set of event codes. -/
def eventCode (event : Json ν) : Py (Json ν) := do
  let code ← event.get "eventCode"
  if code.hashable then return code else throw .typeError

/-- The evidence an event is kept as, if it is. -/
def eventEvidence (event : Json ν) : Py (Option (StatusEvidence ν)) := do
  let code := (← event.get "eventCode").orElse (.str "")
  let maintenance ← code.startsWith evidenceEventPrefixes
  let disclaimer ← code.inSet terminalDisclaimerCodes
  if maintenance || disclaimer then
    let description :=
      (← event.get "eventDescriptionText").orElse (.str "")
    return some {
      source := usSource
      code := code.toStr
      description := description
      eventDate := parseDate (← event.get "eventDate") }
  else return none

/-- The date of an `EXP.` event. -/
def expiryEventDate (event : Json ν) : Py (Option (Option Date)) := do
  if (← event.get "eventCode").equal (.str expiryEvent) then
    return some (parseDate (← event.get "eventDate"))
  else return none

-- =============================================================== status

/-- The status `assess_us` returns and its reasons. -/
def usStatus (asOf : Date) (grant : Option Date) (statusText category : Json ν)
    (eventCodes : List (Json ν)) (expiryDates : List (Option Date))
    (term : Option TermComputation) (pta : Json ν) :
    Py (Status × List String) := do
  let hasCode (code : String) : Bool := (Json.str code).isIn eventCodes
  let runs : Status :=
    if term.any fun t => asOf ≤ t.expiryDate then .presumedInForce
    else .undetermined
  if grant = none then
    return (.undetermined, ["not granted according to ODP (no grant date)"])
  if ← statusText.contains lapsedStatusMarker then
    if !hasCode expiryEvent then
      return (.lapsed, ["lapsed status without EXP. event"])
    else if expiryDates.all fun date => date.any (asOf < ·) then
      -- recorded after the analysis date: the source has no earlier status
      return (runs, ["lapse recorded after the analysis date; "
        ++ "status at that date inferred from term"])
    else return (.lapsed, [])
  if hasCode expiryEvent then
    return (.undetermined,
      ["EXP. event present but status is not lapsed (possible reinstatement)"])
  if (← (category.orElse (.str "")).upper).equal (.str "REISSUE") then
    return (.undetermined, ["reissue: the term follows the original patent "
      ++ "(35 U.S.C. §251), which is not looked up yet"])
  if !statusText.equal (.str inForceStatus) then
    return (.undetermined, ["unrecognised ODP status: " ++ statusText.repr])
  match term with
  | none =>
      return (.undetermined, ["no filing date: term cannot be computed"])
  | some term =>
      let unknown : Bool := pta.equal .null
      let reasons :=
        (if unknown then
          ["patent term adjustment unknown: expiry date is a lower bound"]
        else [])
        ++ (if terminalDisclaimerCodes.any hasCode then
          ["terminal disclaimer: may expire earlier, "
            ++ "with the referenced patent"]
        else [])
      -- the real expiry may be later than a lower bound
      if term.expiryDate < asOf && !unknown then return (.expired, reasons)
      else return (.presumedInForce, reasons)

/-- `assess_us`. -/
def assessUs (record : Json ν) (publicationNumber : String) (asOf : Date) :
    Py (LegalStatusAssessment ν) := do
  let metaData := (← record.get "applicationMetaData").orElse (.obj [])
  let statusText :=
    (← metaData.get "applicationStatusDescriptionText").orElse (.str "")
  let events ← ((← record.get "eventDataBag").orElse (.arr [])).iter
  let eventCodes ← events.mapM eventCode
  let statusDate := parseDate (← metaData.get "applicationStatusDate")
  let evidence ← collect eventEvidence events
  let grant := parseDate (← metaData.get "grantDate")
  let (start, basis) ← termStart record
  let pta ← ((← record.get "patentTermAdjustmentData").orElse (.obj [])).get
    "adjustmentTotalQuantity"
  let term ← termComputation start basis pta
  let expiryDates ← collect expiryEventDate events
  let category ← metaData.get "applicationTypeCategory"
  let (status, reasons) ← usStatus asOf grant statusText category eventCodes
    expiryDates term pta
  let dataAsOf ← record.get "lastIngestionDateTime"
  return {
    jurisdiction := "US"
    publicationNumber := publicationNumber
    asOf := asOf
    status := status
    term := term
    evidence := { source := usSource, code := "STATUS"
                  description := statusText, eventDate := statusDate }
      :: evidence
    reviewReasons := reasons
    dataAsOf := dataAsOf }

end PatentEvidence.LegalStatus
