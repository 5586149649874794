/-
The tables of one case, and what a request to its services brings along
(apps/api/…/features, …/comparison, …/assessment).

Every query of these services is scoped to one organization and one case,
so the state is that case's rows. A request comes with what its
environment decides: the clock, the ids drawn for new rows, the acting
identity and whether the transaction commits (it does not when the
database refuses a value or the connection fails). Timestamps, ids and
texts are the source's columns; a date column holds the date its text
parses to.
-/
import Mathlib.Data.List.Sort
import Mathlib.Data.Prod.Lex
import Mathlib.Data.Rat.Defs
import Mathlib.Algebra.Order.Ring.Rat
import PatentEvidence.Assessment.Model
import PatentEvidence.Lib.Table

namespace PatentEvidence.Cases

-- ============================================================ documents

structure Paragraph where
  id : String
  text : String

structure DocumentVersion where
  id : String
  versionNumber : Nat
  paragraphs : List Paragraph

-- ============================================================= features

/-- `status` of a feature set and of a comparison matrix. -/
inductive DraftStatus
  | draft
  | confirmed
  deriving DecidableEq

structure FeatureSetVersion where
  id : String
  documentVersionId : String
  versionNumber : Nat
  parentVersionId : Option String
  status : DraftStatus
  summary : String
  confirmedBy : Option String := none
  confirmedAt : Option Instant := none
  createdAt : Instant
  updatedAt : Instant
  deriving DecidableEq

structure ClaimFeature where
  id : String
  featureSetVersionId : String
  featureCode : String
  featureType : String
  featureStatement : String
  sourceParagraphId : Option String
  citationQuote : Option String
  sortOrder : Int
  createdAt : Instant
  updatedAt : Instant
  deriving DecidableEq

/-- What the extractor proposes (modules/features/extractor.py). -/
structure DraftFeature where
  featureCode : String
  featureType : String
  featureStatement : String
  sourceParagraphId : Option String
  citationQuote : Option String
  sortOrder : Int
  deriving DecidableEq

-- =========================================================== candidates

structure SearchCandidate where
  id : String
  publicationNumber : String
  title : String
  abstract : String
  publicationDate : Option Date := none
  applicant : Option String := none
  relevanceScore : Rat
  createdAt : Instant
  deriving DecidableEq

/-- `candidate_document_profiles`. -/
structure CandidateProfile where
  candidateId : String
  filingDate : Option Date
  priorityDate : Option Date
  filedInChina : Bool
  sourceVerified : Bool

/-- `case_application_profiles`. -/
structure ApplicationProfile where
  filingDate : Date
  applicationType : String
  priorityClaims : List Assessment.PriorityClaim

structure SearchJob where
  sourceType : String
  status : String
  finishedAt : Option Date
  createdAt : Instant

-- =========================================================== comparison

structure ComparisonMatrix where
  id : String
  featureSetVersionId : String
  name : String
  status : DraftStatus
  summary : Option String := none
  confirmedBy : Option String := none
  confirmedAt : Option Instant := none
  createdAt : Instant
  updatedAt : Instant
  deriving DecidableEq

/-- A cell of a matrix (`claim_feature_comparisons`). -/
structure FeatureComparison where
  id : String
  matrixId : String
  claimFeatureId : String
  candidateId : String
  judgment : String
  confidenceScore : Rat
  citationLocation : Option String
  citationQuote : Option String
  reasoningAnalysis : Option String
  isManuallyEdited : Bool
  createdAt : Instant
  updatedAt : Instant
  deriving DecidableEq

-- ============================================================ the case

/-- The rows of one case. -/
structure CaseStore where
  status : String
  documents : List DocumentVersion
  versions : Table FeatureSetVersion.id
  features : Table ClaimFeature.id
  candidates : Table SearchCandidate.id
  /-- `candidate_triage_records`: one status per candidate. -/
  triage : Dict String String
  matrices : Table ComparisonMatrix.id
  cells : Table FeatureComparison.id
  applicationProfile : Option ApplicationProfile
  candidateProfiles : List CandidateProfile
  searchJobs : List SearchJob

/-- What the environment decides about a request. -/
structure Env where
  now : Instant
  /-- the ids `uuid4` draws, in order -/
  uuids : Nat → String
  /-- the order of rows an `ORDER BY` leaves tied, by their ids -/
  ties : String → Nat
  actorIdentityId : String
  commits : Bool

/-- Why a request was refused. -/
inductive Refusal
  | http (status : Nat) (detail : String)
  | multipleRows
  | database
  deriving DecidableEq

/-- The database takes the statement or refuses it. -/
def orDatabase {α : Type _} : Option α → Except Refusal α
  | some a => .ok a
  | none => .error .database

theorem orDatabase_eq_ok {α : Type _} {x : Option α} {a : α} :
    orDatabase x = .ok a ↔ x = some a := by
  cases x <;> simp [orDatabase]

/-- `one_or_none()`. -/
def oneOrNone {α : Type _} : List α → Except Refusal (Option α)
  | [] => .ok none
  | [a] => .ok (some a)
  | _ => .error .multipleRows

theorem oneOrNone_eq_some {α : Type _} {l : List α} {a : α}
    (h : oneOrNone l = .ok (some a)) : l = [a] := by
  cases l with
  | nil => cases h
  | cons b rest =>
      cases rest with
      | nil =>
          cases h
          rfl
      | cons c rest => cases h

/-- The transaction commits or leaves nothing. -/
def commit (env : Env) (store : CaseStore) : Except Refusal CaseStore :=
  if env.commits then .ok store else .error .database

theorem commit_eq_ok {env : Env} {store store' : CaseStore} :
    commit env store = .ok store' ↔ env.commits = true ∧ store' = store := by
  unfold commit
  cases env.commits <;> simp [eq_comm]

namespace CaseStore

/-- `ORDER BY rank` with rows of one rank in table order. -/
def sortedBy {α ρ : Type _} [LinearOrder ρ] (rank : α → ρ) (l : List α) :
    List α :=
  l.insertionSort fun a b => rank a ≤ rank b

/-- The features of a version, in table order. -/
def featuresOf (store : CaseStore) (versionId : String) : List ClaimFeature :=
  store.features.rows.filter fun f => f.featureSetVersionId = versionId

/-- The cells of a matrix, in table order. -/
def cellsOf (store : CaseStore) (matrixId : String) : List FeatureComparison :=
  store.cells.rows.filter fun c => c.matrixId = matrixId

/-- `DELETE FROM claim_features WHERE p`: the cells of a deleted feature
go with it. -/
def deleteFeatures (store : CaseStore) (p : ClaimFeature → Bool) : CaseStore :=
  { store with
    features := store.features.delete p
    cells := store.cells.delete fun c =>
      store.features.rows.any fun f => p f && f.id = c.claimFeatureId }

/-- A case nothing was modelled or compared in yet. -/
def newCase (base : CaseStore) : CaseStore :=
  { base with versions := .empty, features := .empty
              matrices := .empty, cells := .empty }

end CaseStore

end PatentEvidence.Cases
