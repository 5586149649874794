/-
Immutable records of assessment versions (modules/assessment/records.py)
and the row they are read back from (apps/api/…/assessment/services.py).

A record carries the digest of its payload. The digest is taken over the
canonical text of the payload, so it does not depend on the order in which
a dictionary, or the database, keeps the entries.
-/
import PatentEvidence.Assessment.Decisions
import PatentEvidence.Lib.Python

namespace PatentEvidence.Assessment

variable {ν : Type _}

/-- `_canonical`, of a JSON-shaped value. -/
def canonicalValue (value : Json ν) : Json ν := value.canonical

section Text

variable [JsonNumber ν]

/-- `canonical_payload_json`. -/
def canonicalPayloadJson (payload : Json ν) : String :=
  String.ofList (Json.dumps Json.compact (canonicalValue payload))

/-- `assessment_payload_sha256`. -/
def assessmentPayloadSha256 (sha256 : String → String) (payload : Json ν) :
    String :=
  sha256 (canonicalPayloadJson payload)

end Text

/-- `AssessmentVersionRecord`. -/
structure AssessmentVersionRecord (ν : Type _) extends VersionRecord where
  rulesVersion : String
  promptVersions : Json ν
  payload : Json ν
  flags : List String
  requiresHumanConfirmation : Bool
  createdByIdentityId : Option String
  createdAt : Instant

/-- What a record takes from a package: its `to_dict()`, which is an
object, and the fields stored beside it. -/
structure PackageDict (ν : Type _) where
  entries : List (String × Json ν)
  rulesVersion : String
  promptVersions : Json ν
  blockers : List String
  flags : List String
  requiresHumanConfirmation : Bool

/-- What the caller of `build_assessment_version_record` chooses. -/
structure RecordContext where
  recordId : String
  organizationId : String
  caseId : String
  versionNumber : Nat
  createdByIdentityId : Option String
  createdAt : Instant

section Rows

variable [JsonNumber ν]

/-- `build_assessment_version_record`. -/
def buildAssessmentVersionRecord (sha256 : String → String)
    (package : PackageDict ν) (context : RecordContext) :
    AssessmentVersionRecord ν :=
  { id := context.recordId
    organizationId := context.organizationId
    caseId := context.caseId
    versionNumber := context.versionNumber
    rulesVersion := package.rulesVersion
    promptVersions := package.promptVersions
    payload := .obj package.entries
    payloadSha256 := assessmentPayloadSha256 sha256 (.obj package.entries)
    blockers := package.blockers
    flags := package.flags
    requiresHumanConfirmation := package.requiresHumanConfirmation
    createdByIdentityId := context.createdByIdentityId
    createdAt := context.createdAt }

/-- `load(column) or default`, of a column read back. -/
def loadColumn (column default : Json ν) : Json ν := column.orElse default

/-- `_row_to_record`, of a row whose `payload` and `prompt_versions` are
as the database returns them. -/
def rowToRecord (row : AssessmentVersionRecord ν) :
    AssessmentVersionRecord ν :=
  { row with
    promptVersions := loadColumn row.promptVersions (.obj [])
    payload := loadColumn row.payload (.obj []) }

end Rows

end PatentEvidence.Assessment
