/-
Sealing the evidence of a case (modules/reports/sealer.py): the payload of
a snapshot and the digest over its sorted text.

The service hands over dictionaries it has just read, so every part is a
JSON value here and reading a part that is no object raises. The
assessment block is normalised field by field; what is missing becomes
`false`, `null` or empty.
-/
import PatentEvidence.Lib.Python

namespace PatentEvidence.Reports

open Json

/-- `SealedEvidencePayload`. -/
structure SealedEvidencePayload (ν : Type _) where
  case_ : Json ν
  document : Json ν
  features : Json ν
  search : Json ν
  candidates : Json ν
  comparison : Json ν
  assessment : Json ν
  sealedAt : String
  sealedBy : String

variable {ν : Type _}

/-- `to_dict`. -/
def SealedEvidencePayload.toDict (payload : SealedEvidencePayload ν) :
    Json ν :=
  .obj [
    ("case", payload.case_),
    ("document", payload.document),
    ("features", payload.features),
    ("search", payload.search),
    ("candidates", payload.candidates),
    ("comparison", payload.comparison),
    ("assessment", payload.assessment),
    ("sealed_at", .str payload.sealedAt),
    ("sealed_by", .str payload.sealedBy)]

variable [JsonNumber ν]

/-- The text the root digest is taken over. -/
def sealedJson (payload : Json ν) : String :=
  String.ofList (dumps spaced payload)

section Parts

variable [Printable]

/-- `str(data.get(key))`. -/
def idField (data : Json ν) (key : String) : Py (Json ν) := do
  return .str (← data.get key).toStr

def sealCase (data : Json ν) : Py (Json ν) := do
  return .obj [
    ("id", ← idField data "id"),
    ("case_number", ← data.get "case_number"),
    ("title", ← data.get "title"),
    ("technical_field", ← data.get "technical_field")]

def sealDocument (data : Json ν) : Py (Json ν) := do
  return .obj [
    ("id", ← idField data "id"),
    ("version_number", ← data.get "version_number"),
    ("filename", ← data.get "filename"),
    ("file_sha256", ← data.get "file_sha256")]

def sealFeatures (data : Json ν) : Py (Json ν) := do
  return .obj [
    ("version_id", ← idField data "version_id"),
    ("items", ← data.getD "items" (.arr []))]

def sealSearch (data : Json ν) : Py (Json ν) := do
  return .obj [
    ("strategy_id", ← idField data "strategy_id"),
    ("keywords_matrix", ← data.getD "keywords_matrix" (.obj [])),
    ("ipc_classes", ← data.getD "ipc_classes" (.arr [])),
    ("boolean_query_cnipr", ← data.getD "boolean_query_cnipr" (.str ""))]

def sealComparison (data : Json ν) : Py (Json ν) := do
  return .obj [
    ("matrix_id", ← idField data "matrix_id"),
    ("risk_level", ← data.getD "risk_level" (.str "")),
    ("summary", ← data.getD "summary" (.str "")),
    ("comparisons", ← data.getD "comparisons" (.arr []))]

end Parts

/-- `list(data.get(key) or [])`. -/
def listField (data : Json ν) (key : String) : Py (Json ν) := do
  return .arr (← ((← data.get key).orElse (.arr [])).iter)

/-- The assessment block; `assessment_data` may be `None`. -/
def sealAssessment (assessmentData : Json ν) : Py (Json ν) := do
  let data := assessmentData.orElse (.obj [])
  return .obj [
    ("has_version", .bool (← data.get "has_version").truthy),
    ("version_number", ← data.get "version_number"),
    ("status", ← data.get "status"),
    ("blockers", ← listField data "blockers"),
    ("flags", ← listField data "flags"),
    ("payload_sha256", ← data.get "payload_sha256"),
    ("rules_version", ← data.get "rules_version"),
    ("prompt_versions", (← data.get "prompt_versions").orElse (.obj [])),
    ("created_at", ← data.get "created_at"),
    ("payload", (← data.get "payload").orElse (.obj []))]

/-- What `seal` is handed. -/
structure SealRequest (ν : Type _) where
  caseData : Json ν
  docData : Json ν
  featuresData : Json ν
  searchData : Json ν
  candidatesData : Json ν
  comparisonData : Json ν
  sealedAtIso : String
  sealedByEmail : String
  assessmentData : Json ν := .null

/-- The `payload_obj` of `seal`. -/
def sealedPayload [Printable] (request : SealRequest ν) :
    Py (SealedEvidencePayload ν) := do
  return {
    case_ := ← sealCase request.caseData
    document := ← sealDocument request.docData
    features := ← sealFeatures request.featuresData
    search := ← sealSearch request.searchData
    candidates := request.candidatesData
    comparison := ← sealComparison request.comparisonData
    assessment := ← sealAssessment request.assessmentData
    sealedAt := request.sealedAtIso
    sealedBy := request.sealedByEmail }

/-- `EvidenceSealer.seal`: the payload and its root digest. -/
def sealEvidence [Printable] (sha256 : String → String)
    (request : SealRequest ν) : Py (Json ν × String) := do
  let payload ← sealedPayload request
  return (payload.toDict, sha256 (sealedJson payload.toDict))

end PatentEvidence.Reports
