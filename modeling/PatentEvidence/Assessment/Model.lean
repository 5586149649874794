/-
The records of the pre-assessment stage (modules/assessment/rules.py and
the input and output of modules/assessment/package.py).

Judgments, application types, run statuses and concept relations are
plain text in the source, compared with a handful of known words and
with a default for anything else, so they stay text here. What the rules
themselves produce (reference kinds, risk kinds, levels, effects) is
enumerated. A ratio is an exact rational: the source rounds it for
display only.
-/
import Mathlib.Data.Rat.Defs
import PatentEvidence.Lib.Date
import PatentEvidence.Lib.Dict

namespace PatentEvidence.Assessment

/-- `ASSESSMENT_RULES_VERSION`. -/
def assessmentRulesVersion : String := "assessment-rules-v3"

-- =========================================================== the matrix

/-- One confirmed matrix cell: feature F vs candidate document D. -/
structure FeatureComparisonRow where
  featureCode : String
  docId : String
  judgment : String
  deriving DecidableEq

structure CandidateDocument where
  docId : String
  publicationNumber : String
  title : String
  sourceVerified : Bool := false
  publicationDate : Option Date := none
  filingDate : Option Date := none
  priorityDate : Option Date := none
  filedInChina : Bool := true
  deriving DecidableEq

-- ============================================================= priority

structure PriorityClaim where
  claimId : String
  priorityDate : Date
  country : String := ""
  firstApplication : Bool := true
  sameSubject : Bool := true
  proofVerified : Bool := false
  covers : List String := []
  deriving DecidableEq

structure SubjectApplication where
  filingDate : Date
  priorityDate : Option Date := none
  priorityClaims : List PriorityClaim := []
  applicationType : String := "invention"
  deriving DecidableEq

/-- A priority claim that does not hold, and why. -/
structure InvalidClaim where
  claimId : String
  reason : String
  deriving DecidableEq

structure PriorityVerification where
  defaultReferenceDate : Date
  perFeatureReferenceDates : Dict String Date
  validClaims : List String
  invalidClaims : List InvalidClaim
  flags : List String
  requiresHumanConfirmation : Bool

inductive ReferenceKind
  | priorArt
  | conflictingApplication
  | notUsable
  | unknown
  deriving DecidableEq

/-- `REFERENCE_KIND_SEVERITY`: the higher, the less usable. -/
def ReferenceKind.severity : ReferenceKind → Nat
  | .priorArt => 0
  | .conflictingApplication => 1
  | .notUsable => 2
  | .unknown => 3

-- ============================================================= findings

inductive RiskKind
  | novelty
  | inventiveCombination
  | referenceEligibility
  | priorityVerification
  deriving DecidableEq

inductive RiskLevel
  | highNoveltyRisk
  | needsConfirmation
  deriving DecidableEq

/-- One entry of a finding's `basis`. -/
inductive BasisItem
  | row (row : FeatureComparisonRow)
  | reference (docId : String) (kind : ReferenceKind)
  | validClaims (claimIds : List String)
  | invalidClaims (claims : List InvalidClaim)
  | defaultReferenceDate (date : String)
  deriving DecidableEq

structure AssessmentFinding where
  riskKind : RiskKind
  level : RiskLevel
  basis : List BasisItem
  requiresHumanConfirmation : Bool
  reasoning : String
  rulesVersion : String := assessmentRulesVersion
  deriving DecidableEq

/-- Deterministic three-step scaffolding; every field is a candidate. -/
structure ThreeStepScaffold where
  closestPriorArt : String
  closestPriorArtIdentical : Nat
  distinguishingFeatures : List String
  actualTechnicalProblem : String
  rulesVersion : String := assessmentRulesVersion
  deriving DecidableEq

-- ============================================================= evidence

/-- One matrix cell's source layer. -/
structure EvidenceCitation where
  docId : String
  featureCode : String
  location : String := ""
  quote : String := ""
  verified : Bool := false
  deriving DecidableEq

structure DataSourceRun where
  name : String
  status : String
  asOf : Option Date := none
  deriving DecidableEq

structure EvidenceCompleteness where
  sourceCoverage : Rat
  verifiedCitations : Nat
  totalCitations : Nat
  missingAnchors : List String
  unverifiedCitations : List String
  abstractOnlyCitations : List String
  failedSources : List String
  partialSources : List String
  documentsWithoutLegalStatusTimepoint : List String
  blockingGaps : List String
  flags : List String
  blocksConclusion : Bool
  level : String
  rulesVersion : String := assessmentRulesVersion

-- =========================================================== checklists

/-- Step 3: the human-filled motivation-to-combine checklist. -/
structure MotivationChecklist where
  commonKnowledge : Option String := none
  explicitTeaching : Option String := none
  prejudiceOrTeachingAway : Option String := none
  combinationObstacle : Option String := none
  effectPredictability : Option String := none
  deriving DecidableEq

structure MotivationState where
  complete : Bool
  unanswered : List String
  favouringInventiveness : List String
  blocksConclusion : Bool
  rulesVersion : String := assessmentRulesVersion
  deriving DecidableEq

structure AuxiliaryFactor where
  kind : String
  claimed : Bool := false
  evidenceCited : Bool := false
  causalLinkToFeatures : Bool := false
  deriving DecidableEq

structure AuxiliaryReport where
  counted : List (AuxiliaryFactor × String)
  unsubstantiated : List String
  note : String
  rulesVersion : String := assessmentRulesVersion
  deriving DecidableEq

structure HindsightReport where
  hindsightRisk : Bool
  matchedStatements : List String
  guidance : String
  rulesVersion : String := assessmentRulesVersion
  deriving DecidableEq

-- ===================================================== entity candidates

structure NumericRange where
  featureCode : String
  docId : String
  claimedLower : Option Rat := none
  claimedUpper : Option Rat := none
  disclosedLower : Option Rat := none
  disclosedUpper : Option Rat := none
  disclosedIsExample : Bool := false

structure ConceptRelation where
  featureCode : String
  docId : String
  claimedConcept : String := ""
  disclosedConcept : String := ""
  relation : String := "unknown"

structure KnownSubstitute where
  featureCode : String
  docId : String
  claimedMeans : String := ""
  disclosedMeans : String := ""
  substitutabilityDocumented : Bool := false

inductive EntityObservationEffect
  | mayDefeat
  | doesNotDefeat
  | undetermined
  deriving DecidableEq

structure EntityLevelObservation where
  kind : String
  featureCode : String
  docId : String
  effect : EntityObservationEffect
  reasoning : String
  requiresHumanConfirmation : Bool := true
  rulesVersion : String := assessmentRulesVersion
  deriving DecidableEq

-- ====================================================== the whole input

structure AssessmentInput where
  subject : SubjectApplication
  documents : List CandidateDocument
  rows : List FeatureComparisonRow
  citations : List EvidenceCitation := []
  sourceRuns : List DataSourceRun := []
  legalStatusAsOf : Dict String Date := .empty
  totalFeatures : Option Int := none
  motivationChecklist : Option MotivationChecklist := none
  auxiliaryFactors : List AuxiliaryFactor := []
  actualTechnicalProblem : String := ""
  distinguishingFeatureStatements : List String := []
  numericRanges : List NumericRange := []
  conceptRelations : List ConceptRelation := []
  knownSubstitutes : List KnownSubstitute := []

structure AssessmentPackage where
  rulesVersion : String
  referenceKinds : Dict String ReferenceKind
  priority : PriorityVerification
  entityObservations : List EntityLevelObservation
  findings : List AssessmentFinding
  threeStep : Option ThreeStepScaffold
  motivation : Option MotivationState
  auxiliary : AuxiliaryReport
  hindsight : Option HindsightReport
  evidence : EvidenceCompleteness
  blockers : List String
  flags : List String
  requiresHumanConfirmation : Bool

end PatentEvidence.Assessment
