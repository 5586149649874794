/-
The input profiles frozen with a version (modules/assessment/snapshot.py).

A snapshot keeps, of the whole input, the application and its priority
claims and one profile for each candidate document. Dates are kept as
their text. `covers` is a set in the source; here it is a list, and its
order and repetitions are no part of a claim.
-/
import Mathlib.Data.List.Sort
import Mathlib.Data.String.Basic
import PatentEvidence.Assessment.Model

namespace PatentEvidence.Assessment

/-- What `_priority_claim_to_dict` keeps of a claim. -/
structure PriorityClaimProfile where
  claimId : String
  priorityDate : Option String
  country : String
  firstApplication : Bool
  sameSubject : Bool
  proofVerified : Bool
  covers : List String
  deriving DecidableEq

structure ApplicationProfile where
  filingDate : Option String
  applicationType : String
  priorityClaims : List PriorityClaimProfile
  deriving DecidableEq

structure CandidateProfile where
  publicationNumber : String
  filingDate : Option String
  priorityDate : Option String
  filedInChina : Bool
  sourceVerified : Bool
  deriving DecidableEq

structure InputSnapshot where
  applicationProfile : ApplicationProfile
  candidateProfiles : List CandidateProfile
  deriving DecidableEq

/-- `_iso`. -/
def iso (value : Option Date) : Option String := value.map Date.isoformat

/-- `sorted(codes)`, of a set. -/
def sortedSet (codes : List String) : List String :=
  codes.dedup.insertionSort (· ≤ ·)

/-- `_priority_claim_to_dict`. -/
def priorityClaimToDict (claim : PriorityClaim) : PriorityClaimProfile :=
  { claimId := claim.claimId
    priorityDate := iso (some claim.priorityDate)
    country := claim.country
    firstApplication := claim.firstApplication
    sameSubject := claim.sameSubject
    proofVerified := claim.proofVerified
    covers := sortedSet claim.covers }

/-- The profile of one document. -/
def candidateProfile (doc : CandidateDocument) : CandidateProfile :=
  { publicationNumber := doc.publicationNumber
    filingDate := iso doc.filingDate
    priorityDate := iso doc.priorityDate
    filedInChina := doc.filedInChina
    sourceVerified := doc.sourceVerified }

/-- `input_profile_snapshot`. -/
def inputProfileSnapshot (input : AssessmentInput) : InputSnapshot :=
  let subject := input.subject
  { applicationProfile := {
      filingDate := iso (some subject.filingDate)
      applicationType := subject.applicationType
      priorityClaims := subject.priorityClaims.map priorityClaimToDict }
    candidateProfiles := input.documents.map candidateProfile }

end PatentEvidence.Assessment
