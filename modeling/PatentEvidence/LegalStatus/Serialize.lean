/-
Extracts and canonical serialization of legal-status assessments
(modules/legal_status/serialize.py).

Assessments are computed from the stored extract, never from the raw
response.
-/
import PatentEvidence.LegalStatus.Ep

namespace PatentEvidence.LegalStatus

open Fallible

variable {ν : Type _} [JsonNumber ν] [Printable]

/-- `_US_META_FIELDS`. -/
def usMetaFields : List String :=
  ["filingDate", "grantDate", "patentNumber",
    "applicationStatusDescriptionText", "applicationStatusDate",
    "effectiveFilingDate", "applicationTypeCategory"]

/-- `_US_EVENT_PREFIXES`. -/
def usEventPrefixes : List String :=
  ["M155", "M255", "M355", "EXP", "REM", "DIST", "P574"]

/-- The condition of the comprehension over the events of `us_extract`. -/
def keptEvent (event : Json ν) : Py (Option (Json ν)) := do
  let code := (← event.get "eventCode").orElse (.str "")
  if ← code.startsWith usEventPrefixes then return some event else return none

/-- The adjustment of `us_extract`. -/
def extractAdjustment : Json ν → Py (Json ν)
  | .null => return .null
  | pta => do
      let quantity ← pta.get "adjustmentTotalQuantity"
      return .obj [("adjustmentTotalQuantity", quantity)]

/-- `us_extract`. -/
def usExtract (record : Json ν) : Py (Json ν) := do
  let metaData := (← record.get "applicationMetaData").orElse (.obj [])
  let pta ← record.get "patentTermAdjustmentData"
  let number ← record.get "applicationNumberText"
  let ingested ← record.get "lastIngestionDateTime"
  let fields ← usMetaFields.mapM fun k => do return (k, ← metaData.get k)
  let events ← ((← record.get "eventDataBag").orElse (.arr [])).iter
  let kept ← collect keptEvent events
  let parents := (← record.get "parentContinuityBag").orElse (.arr [])
  let adjustment ← extractAdjustment pta
  return .obj [
    ("applicationNumberText", number),
    ("lastIngestionDateTime", ingested),
    ("applicationMetaData", .obj fields),
    ("eventDataBag", .arr kept),
    ("parentContinuityBag", parents),
    ("patentTermAdjustmentData", adjustment)]

/-- `_EP_KEEP_CODES`. -/
def epKeepCodes : List String := ["AK", "PGFP", "PGRI", "26N", "P01"]

/-- `_EP_EVENT_FIELDS`. -/
def epEventFields : List String :=
  ["@code", "@desc", "@infl", "ops:pre", "ops:L001EP", "ops:L007EP"]

/-- One event of `ep_extract`. -/
def keptEpEvent (event : Json ν) : Py (Option (Json ν)) := do
  let code := Text.strip (← event.getD "@code" (.str "")).toStr
  let influence := Text.strip (← event.getD "@infl" (.str "")).toStr
  if code ∈ epKeepCodes ∨ Text.startsWith "U" code ∨ influence = "-" then
    let entries ← event.entries
    return some (.obj (entries.filter fun e => e.1 ∈ epEventFields))
  else return none

/-- `ep_extract`; `_legal_events` is the walk of `parse_inpadoc`. -/
def epExtract (payload : Json ν) : Py (Json ν) := do
  let kept ← collect keptEpEvent (legalEvents payload)
  return .obj [("ops:legal", .arr kept)]

/-- `canonical_json`. -/
def canonicalJson (data : Json ν) : String :=
  String.ofList (Json.dumps Json.compact data)

end PatentEvidence.LegalStatus
