/-
FTO claim tree, technical features and per-feature comparison
(modules/fto/model.py).

The records are the source's own. A claim set is searched by number, and
a number that names no claim raises; the two recursions over the tree
(`walk` here, `claimConclusionAux` in Chart.lean) therefore live in
`Except`. Both carry a fuel argument: the source's recursion is bounded
by its own cycle guard, and Proofs/Paths.lean and Proofs/Conclusion.lean
show that one more than the number of claims is never used up, so
`outOfFuel` is an artefact no caller sees.
-/
import PatentEvidence.Lib.Dict

namespace PatentEvidence.Fto

-- ============================================================= records

inductive StructureSource
  | usptoGrantXml
  | opsTextParsed
  deriving DecidableEq, Repr

inductive FeatureStatus
  | proposed
  | confirmed
  deriving DecidableEq, Repr

inductive Finding
  | literallyPresent
  | presentByEquivalent
  | absent
  | undetermined
  deriving DecidableEq, Repr

inductive ClaimConclusion
  | readsLiterally
  | readsByEquivalentsOnly
  | doesNotRead
  | undetermined
  deriving DecidableEq, Repr

/-- What a lookup over a claim set raises. -/
inductive ChartError
  | keyError (number : Int)
  | unknownFeature (featureId : String)
  | outOfFuel
  deriving DecidableEq, Repr

/-- `MAX_DEPENDENCY_PATHS`, the default of `dependency_paths`' limit. -/
def maxDependencyPaths : Int := 256

/-- One technical feature, located in the claim's full text by
`[start, end)` spans. -/
structure ClaimFeature where
  featureId : String
  claimNumber : Int
  text : String
  spans : List (Nat × Nat)
  status : FeatureStatus := .proposed
  deriving DecidableEq, Repr

structure Claim where
  number : Int
  text : String
  dependsOn : List Int
  structureSource : StructureSource
  features : List ClaimFeature := []
  language : Option String := none
  parseWarnings : List String := []
  deriving DecidableEq, Repr

/-- `Claim.independent`. -/
def Claim.independent (c : Claim) : Bool := c.dependsOn.isEmpty

structure ClaimSet where
  publicationNumber : String
  claims : List Claim
  language : Option String := none
  proceedingsLanguage : Option String := none
  warnings : List String := []
  deriving DecidableEq, Repr

structure FeatureAssessment where
  featureId : String
  finding : Finding
  rationale : String := ""
  productEvidence : List String := []
  assessedBy : String := ""
  deriving DecidableEq, Repr

/-- Per-feature findings for one claim set. -/
structure ClaimChart where
  claimSet : ClaimSet
  assessments : Dict String FeatureAssessment := .empty

namespace ClaimSet

-- ============================================================== lookup

/-- `ClaimSet.claim`: the first claim of that number. -/
def claim (cs : ClaimSet) (number : Int) : Except ChartError Claim :=
  match cs.claims.find? fun c => c.number = number with
  | some c => .ok c
  | none => .error (.keyError number)

/-- The numbers the set has claims for. -/
def numbers (cs : ClaimSet) : List Int := cs.claims.map Claim.number

-- ==================================================== dependency paths

/-- The state `walk` closes over: the paths found so far, and whether
the limit was hit. -/
structure PathSearch where
  paths : List (List Int) := []
  truncated : Bool := false
  deriving DecidableEq, Repr

/-- The inner `walk` of `dependency_paths`. A node already on the suffix
is a malformed cycle and stops its branch. -/
def walk (cs : ClaimSet) (limit : Int) :
    Nat → Int → List Int → PathSearch → Except ChartError PathSearch
  | 0, _, _, _ => .error .outOfFuel
  | fuel + 1, n, suffix, search =>
      if search.truncated then .ok search
      else if n ∈ suffix then .ok search
      else do
        let claim ← cs.claim n
        if claim.dependsOn = [] then
          if limit ≤ search.paths.length then
            .ok { search with truncated := true }
          else
            .ok { search with paths := search.paths ++ [n :: suffix] }
        else
          claim.dependsOn.foldlM
            (fun search parent => walk cs limit fuel parent (n :: suffix) search)
            search

/-- `ClaimSet.dependency_paths`: every chain from an independent claim
down to `number`, root first, and whether the limit cut the list. -/
def dependencyPaths (cs : ClaimSet) (number limit : Int) :
    Except ChartError (List (List Int) × Bool) := do
  let search ← walk cs limit (cs.claims.length + 1) number [] {}
  return (search.paths, search.truncated)

/-- `ClaimSet.path_features`: features along one path, root claim
first. -/
def pathFeatures (cs : ClaimSet) (path : List Int) :
    Except ChartError (List ClaimFeature) := do
  let claims ← path.mapM cs.claim
  return claims.flatMap Claim.features

end ClaimSet

/-- `ClaimChart.assess`: record one finding, for a feature the claim set
has. -/
def ClaimChart.assess (chart : ClaimChart) (assessment : FeatureAssessment) :
    Except ChartError ClaimChart :=
  let known := chart.claimSet.claims.flatMap fun c =>
    c.features.map ClaimFeature.featureId
  if assessment.featureId ∈ known then
    .ok { chart with
      assessments := chart.assessments.set assessment.featureId assessment }
  else .error (.unknownFeature assessment.featureId)

end PatentEvidence.Fto
