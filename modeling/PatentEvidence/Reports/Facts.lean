/-
What sealing reads of a case's latest assessment version
(`_latest_assessment_facts`, apps/api/…/reports/services.py), and what the
assessment service reads for the status of a version.

The two services ask the review table with queries of their own. Both run
here against the columns the migrations give the tables
(0013_assessment_versions, 0014_assessment_version_reviews).
-/
import PatentEvidence.Assessment.Deliverable
import PatentEvidence.Lib.Select
import PatentEvidence.Reports.Sealer

namespace PatentEvidence.Reports

open Assessment Json Select

-- ============================================================== columns

/-- What a column holds. -/
inductive Cell (ν : Type)
  | text (value : String)
  | number (value : Nat)
  | flag (value : Bool)
  | instant (value : Instant)
  | document (value : Json ν)

variable {ν : Type}

/-- Values of one type compare; no query here compares documents. -/
def compareValues : Cell ν → Cell ν → Option Ordering
  | .text a, .text b => some (compare a b)
  | .number a, .number b => some (compare a b)
  | .flag a, .flag b => some (compare a b)
  | .instant a, .instant b => some (compare a b)
  | _, _ => none

theorem compareValues_instant (a b : Instant) :
    compareValues (ν := ν) (.instant a) (.instant b) = some (compare a b) := by
  rw [compareValues]

/-- A list of texts as a document. -/
def textList (items : List String) : Json ν := .arr (items.map .str)

/-- The columns of `assessment_versions`. -/
def assessmentVersionsColumns : List (Column (StoredVersion ν) (Cell ν)) := [
  ⟨"id", fun row => some (.text row.record.id)⟩,
  ⟨"organization_id", fun row => some (.text row.record.organizationId)⟩,
  ⟨"case_id", fun row => some (.text row.record.caseId)⟩,
  ⟨"version_number", fun row => some (.number row.record.versionNumber)⟩,
  ⟨"rules_version", fun row => some (.text row.record.rulesVersion)⟩,
  ⟨"prompt_versions", fun row => some (.document row.record.promptVersions)⟩,
  ⟨"payload", fun row => some (.document row.record.payload)⟩,
  ⟨"payload_sha256", fun row => some (.text row.record.payloadSha256)⟩,
  ⟨"blockers", fun row => some (.document (textList row.record.blockers))⟩,
  ⟨"flags", fun row => some (.document (textList row.record.flags))⟩,
  ⟨"requires_human_confirmation",
    fun row => some (.flag row.record.requiresHumanConfirmation)⟩,
  ⟨"created_by_identity_id",
    fun row => row.record.createdByIdentityId.map .text⟩,
  ⟨"created_at", fun row => some (.instant row.record.createdAt)⟩]

/-- A decision with the id of its row. -/
structure StoredReview extends ReviewRow where
  id : String

/-- The columns of `assessment_version_reviews`. -/
def assessmentVersionReviewsColumns : List (Column StoredReview (Cell ν)) := [
  ⟨"id", fun row => some (.text row.id)⟩,
  ⟨"organization_id", fun row => some (.text row.organizationId)⟩,
  ⟨"case_id", fun row => some (.text row.caseId)⟩,
  ⟨"assessment_version_id", fun row => some (.text row.record.versionId)⟩,
  ⟨"version_number", fun row => some (.number row.record.versionNumber)⟩,
  ⟨"payload_sha256", fun row => some (.text row.record.payloadSha256)⟩,
  ⟨"decision", fun row => some (.text row.record.decision.value)⟩,
  ⟨"reviewer_identity_id",
    fun row => row.record.reviewerIdentityId.map .text⟩,
  ⟨"comments", fun row => some (.text row.record.comments)⟩,
  ⟨"open_blockers",
    fun row => some (.document (textList row.record.openBlockers))⟩,
  ⟨"accepts_insufficient_evidence",
    fun row => some (.flag row.record.acceptsInsufficientEvidence)⟩,
  ⟨"decision_signature", fun row => some (.text row.record.decisionSignature)⟩,
  ⟨"decided_at", fun row => some (.instant row.record.decidedAt)⟩,
  ⟨"created_at", fun row => some (.instant row.createdAt)⟩]

-- ============================================================== queries

/-- The version query of `_latest_assessment_facts`. -/
def latestVersionQuery (organizationId caseId : String) : Query (Cell ν) where
  columns := ["id", "version_number", "payload_sha256", "blockers", "flags",
    "rules_version", "prompt_versions", "payload", "created_at"]
  filters := [("organization_id", .text organizationId),
    ("case_id", .text caseId)]
  orderBy := [("version_number", .desc)]
  limit := some 1

/-- The decision query of `_latest_assessment_facts`. -/
def sealedDecisionsQuery (organizationId versionId : String) :
    Query (Cell ν) where
  columns := ["decision"]
  filters := [("organization_id", .text organizationId),
    ("version_id", .text versionId)]
  orderBy := [("decided_at", .asc), ("id", .asc)]

/-- The query of `_decision_sequence`. -/
def decisionSequenceQuery (organizationId versionId : String) :
    Query (Cell ν) where
  columns := ["decision"]
  filters := [("organization_id", .text organizationId),
    ("assessment_version_id", .text versionId)]
  orderBy := [("decided_at", .asc), ("created_at", .asc)]

-- ================================================================ facts

/-- `value if isinstance(value, dict) else {}`. -/
def dictOrEmpty : Json ν → Json ν
  | .obj entries => .obj entries
  | _ => .obj []

variable [JsonNumber ν]

/-- What a case without versions is sealed with. -/
def noVersionFacts : Json ν := .obj [("has_version", .bool false)]

/-- What a version is sealed with, its decisions being `decisions`. The
driver hands documents over parsed. -/
def versionFacts (version : AssessmentVersionRecord ν)
    (decisions : List Decision) : Json ν :=
  .obj [
    ("has_version", .bool true),
    ("version_number", ofNat version.versionNumber),
    ("status", .str (deriveStatus decisions).value),
    ("blockers", textList version.blockers),
    ("flags", textList version.flags),
    ("payload_sha256", .str version.payloadSha256),
    ("rules_version", .str version.rulesVersion),
    ("prompt_versions", dictOrEmpty version.promptVersions),
    ("created_at", .str version.createdAt.isoformat),
    ("payload", dictOrEmpty version.payload)]

/-- `_latest_assessment_facts`. -/
def latestAssessmentFacts (versions : AssessmentVersions ν)
    (reviews : List StoredReview) (organizationId caseId : String) :
    Except QueryError (Json ν) := do
  let rows ← run compareValues assessmentVersionsColumns
    (latestVersionQuery organizationId caseId) versions.rows
  match rows.head? with
  | none => return noVersionFacts
  | some row =>
      let decisions ← run compareValues
        (assessmentVersionReviewsColumns (ν := ν))
        (sealedDecisionsQuery organizationId row.record.id) reviews
      return versionFacts row.record
        (decisions.map fun review => review.record.decision)

end PatentEvidence.Reports
