/-
The comparison service (apps/api/…/comparison/services.py) and the triage
of candidates (search/services.py): building a matrix of judged cells,
editing a cell, confirming the matrix.

A rebuild writes its cells by upsert, so a cell edited by hand keeps its
judgment while the summary of the matrix is evaluated from the fresh
judgments; what that does to the summary is the subject of
Proofs/Summary.lean, and what a rebuild does to a confirmed matrix that of
Proofs/Lock.lean. The judgment of a pair comes from a language model or
from the rule engine; either way it is an input of the request here.
-/
import PatentEvidence.Cases.Evaluator
import PatentEvidence.Lib.Fallible

namespace PatentEvidence.Cases

open Grouping

-- ============================================================= requests

structure ComparisonResult where
  judgment : String
  confidenceScore : Rat
  citationLocation : String
  citationQuote : String
  reasoningAnalysis : String

inductive ComparisonOp
  /-- `judge` is what `compare_feature_with_ai` answers for each pair -/
  | rebuild (judge : ClaimFeature → SearchCandidate → ComparisonResult)
  | edit (comparisonId : String)
      (judgment citationLocation citationQuote reasoningAnalysis :
        Option String)
  | confirm (matrixId : String)
  | triage (candidateId triageStatus : String)

structure ComparisonEvent where
  op : ComparisonOp
  env : Env

-- ============================================================ selection

/-- Confirmed versions before drafts, the latest first. -/
def versionRank (v : FeatureSetVersion) : Nat ×ₗ Natᵒᵈ :=
  toLex (match v.status with
    | .confirmed => 1
    | .draft => 2, OrderDual.toDual v.versionNumber)

/-- The version a rebuild reads. -/
def activeVersion (store : CaseStore) : Option FeatureSetVersion :=
  match store.versions.rows with
  | [] => none
  | v :: vs => some (firstBy versionRank v vs)

/-- The features of a version by `sort_order`. -/
def orderedFeatures (store : CaseStore) (versionId : String) :
    List ClaimFeature :=
  CaseStore.sortedBy ClaimFeature.sortOrder (store.featuresOf versionId)

/-- `COALESCE(t.triage_status, 'pending')`. -/
def triageStatus (store : CaseStore) (candidate : SearchCandidate) : String :=
  store.triage.getD candidate.id "pending"

/-- The first ten candidates, included ones first, by relevance. -/
def rankedCandidates (store : CaseStore) (ties : String → Nat) :
    List SearchCandidate :=
  (CaseStore.sortedBy
    (fun c => (toLex (if triageStatus store c = "included" then 1 else 2,
      toLex (OrderDual.toDual c.relevanceScore, ties c.id)) :
        Nat ×ₗ Ratᵒᵈ ×ₗ Nat))
    store.candidates.rows).take 10

/-- The candidates a rebuild compares: the included ones, or else the
first four. -/
def activeCandidates (store : CaseStore) (ties : String → Nat) :
    List SearchCandidate :=
  let candidates := rankedCandidates store ties
  let included := candidates.filter fun c => triageStatus store c = "included"
  if included ≠ [] then included else candidates.take 4

-- ============================================================== rebuild

/-- `uq_comparison_matrices_case_fsv`: one matrix per version; a second
`INSERT` reopens the first. -/
def upsertMatrix (store : CaseStore) (env : Env) (versionId : String) :
    Option (Table ComparisonMatrix.id) :=
  store.matrices.upsert? ComparisonMatrix.featureSetVersionId
    (fun excluded m => { m with status := .draft
                                updatedAt := excluded.updatedAt })
    (fun _ _ => rfl)
    { id := env.uuids 0
      featureSetVersionId := versionId
      name := "权利要求特征比对表"
      status := .draft
      createdAt := env.now
      updatedAt := env.now }

/-- The columns of `uq_claim_feature_comparisons_matrix_feature_cand`. -/
def FeatureComparison.place (c : FeatureComparison) :
    String × String × String :=
  (c.matrixId, c.claimFeatureId, c.candidateId)

/-- `DO UPDATE SET … WHERE is_manually_edited = false`. -/
def overwrite (excluded c : FeatureComparison) : FeatureComparison :=
  if c.isManuallyEdited then c
  else { c with judgment := excluded.judgment
                confidenceScore := excluded.confidenceScore
                citationLocation := excluded.citationLocation
                citationQuote := excluded.citationQuote
                reasoningAnalysis := excluded.reasoningAnalysis
                updatedAt := excluded.updatedAt }

theorem id_overwrite (excluded c : FeatureComparison) :
    (overwrite excluded c).id = c.id := by
  unfold overwrite
  split <;> rfl

/-- The cell proposed for a pair. -/
def proposedCell (env : Env) (matrixId id : String) (feature : ClaimFeature)
    (candidate : SearchCandidate) (result : ComparisonResult) :
    FeatureComparison :=
  { id
    matrixId
    claimFeatureId := feature.id
    candidateId := candidate.id
    judgment := result.judgment
    confidenceScore := result.confidenceScore
    citationLocation := some result.citationLocation
    citationQuote := some result.citationQuote
    reasoningAnalysis := some result.reasoningAnalysis
    isManuallyEdited := false
    createdAt := env.now
    updatedAt := env.now }

/-- `for feat in features: for cand in active_candidates`. -/
def comparedPairs (features : List ClaimFeature)
    (candidates : List SearchCandidate) :
    List (ClaimFeature × SearchCandidate) :=
  features.flatMap fun f => candidates.map fun c => (f, c)

/-- The cells a rebuild proposes; the matrix took the first id. -/
def proposedCells (env : Env) (matrixId : String)
    (features : List ClaimFeature) (candidates : List SearchCandidate)
    (judge : ClaimFeature → SearchCandidate → ComparisonResult) :
    List FeatureComparison :=
  (comparedPairs features candidates).mapIdx fun i pair =>
    proposedCell env matrixId (env.uuids (1 + i)) pair.1 pair.2
      (judge pair.1 pair.2)

/-- `comparison_records`: the fresh judgments, kept or not. -/
def freshRecords (matrixId : String) (features : List ClaimFeature)
    (candidates : List SearchCandidate)
    (judge : ClaimFeature → SearchCandidate → ComparisonResult) :
    List ComparisonRecord :=
  (comparedPairs features candidates).map fun pair =>
    { matrixId
      claimFeatureId := pair.1.id
      candidateId := pair.2.id
      judgment := (judge pair.1 pair.2).judgment }

/-- The matrix of a version (`RETURNING id`). -/
def matrixOfVersion (matrices : Table ComparisonMatrix.id)
    (versionId : String) : Except Refusal ComparisonMatrix :=
  orDatabase (matrices.rows.find? fun m => m.featureSetVersionId = versionId)

/-- `generate_or_rebuild_matrix`. -/
def generateOrRebuildMatrix (store : CaseStore) (env : Env)
    (judge : ClaimFeature → SearchCandidate → ComparisonResult) :
    Except Refusal CaseStore :=
  match activeVersion store with
  | none => .error (.http 400 "no_feature_version_available")
  | some version => do
      let features := orderedFeatures store version.id
      if features = [] then
        .error (.http 400 "no_claim_features_found")
      else if rankedCandidates store env.ties = [] then
        .error (.http 400
          "no_search_candidates_available_execute_search_first")
      else
        let active := activeCandidates store env.ties
        let matrices ← orDatabase (upsertMatrix store env version.id)
        let matrix ← matrixOfVersion matrices version.id
        let cells ← orDatabase (store.cells.upsertAll?
          FeatureComparison.place overwrite id_overwrite
          (proposedCells env matrix.id features active judge))
        let evaluation := evaluateMatrix features active
          (freshRecords matrix.id features active judge)
        return { store with
          matrices := matrices.update (fun m => m.id = matrix.id)
            fun m => { m with summary := some evaluation.summary
                              updatedAt := env.now }
          cells := cells }

-- ================================================================= edit

/-- The columns an edit sets: those a value is given for. -/
def editedCell (env : Env)
    (judgment citationLocation citationQuote reasoningAnalysis :
      Option String) (c : FeatureComparison) : FeatureComparison :=
  { c with
    isManuallyEdited := true
    updatedAt := env.now
    judgment := judgment.getD c.judgment
    citationLocation := citationLocation.or c.citationLocation
    citationQuote := citationQuote.or c.citationQuote
    reasoningAnalysis := reasoningAnalysis.or c.reasoningAnalysis }

/-- `update_comparison_item`: the cell joined with its matrix. -/
def updateComparisonItem (store : CaseStore) (env : Env)
    (comparisonId : String)
    (judgment citationLocation citationQuote reasoningAnalysis :
      Option String) : Except Refusal CaseStore :=
  match (do
    let c ← store.cells.find? comparisonId
    store.matrices.find? c.matrixId) with
  | none => .error (.http 404 "comparison_item_not_found")
  | some matrix =>
      if matrix.status = .confirmed then
        .error (.http 400 "matrix_is_confirmed_and_locked")
      else if ∃ j ∈ judgment, j ∉ ["identical", "equivalent", "different"] then
        .error (.http 422 "invalid_judgment_value")
      else
        .ok { store with
          cells := store.cells.update (fun c => c.id = comparisonId)
            (editedCell env judgment citationLocation citationQuote
              reasoningAnalysis) }

-- ============================================================== confirm

/-- `confirm_matrix`. -/
def confirmMatrix (store : CaseStore) (env : Env) (matrixId : String) :
    CaseStore :=
  { store with
    status := "comparisons_confirmed"
    matrices := store.matrices.update (fun m => m.id = matrixId)
      fun m => { m with status := .confirmed
                        confirmedAt := some env.now
                        confirmedBy := some env.actorIdentityId
                        updatedAt := env.now } }

-- =============================================================== triage

/-- `update_triage`. -/
def updateTriage (store : CaseStore) (candidateId status : String) :
    Except Refusal CaseStore :=
  if status ∉ ["pending", "included", "excluded"] then
    .error (.http 422 "invalid_triage_status")
  else if store.candidates.find? candidateId = none then
    .error (.http 404 "candidate_not_found")
  else .ok { store with triage := store.triage.set candidateId status }

-- ============================================================== service

/-- What a request asks for, up to its commit. -/
def executeComparison (store : CaseStore) (env : Env) :
    ComparisonOp → Except Refusal CaseStore
  | .rebuild judge => generateOrRebuildMatrix store env judge
  | .edit comparisonId judgment location quote reasoning =>
      updateComparisonItem store env comparisonId judgment location quote
        reasoning
  | .confirm matrixId => .ok (confirmMatrix store env matrixId)
  | .triage candidateId status => updateTriage store candidateId status

/-- One request. -/
def serveComparison (store : CaseStore) (event : ComparisonEvent) :
    Except Refusal CaseStore := do
  commit event.env (← executeComparison store event.env event.op)

/-- The case after one request. -/
def afterComparison (store : CaseStore) (event : ComparisonEvent) :
    CaseStore :=
  Fallible.settle store (serveComparison store event)

-- ================================================================ views

/-- The cells of a matrix by `created_at`; all cells a rebuild inserts are of
one moment. -/
def cellsByAge (store : CaseStore) (ties : String → Nat) (matrixId : String) :
    List FeatureComparison :=
  CaseStore.sortedBy (fun c => toLex (c.createdAt, ties c.id))
    (store.cellsOf matrixId)

/-- `get_active_matrix` of one matrix: its features, the candidates of
its cells in order of first appearance, its cells, and what they evaluate
to. -/
structure MatrixView where
  matrix : ComparisonMatrix
  evaluation : MatrixEvaluation
  features : List ClaimFeature
  candidates : List SearchCandidate
  comparisons : List FeatureComparison

def matrixView (store : CaseStore) (ties : String → Nat)
    (matrix : ComparisonMatrix) : MatrixView :=
  let features := orderedFeatures store matrix.featureSetVersionId
  let comparisons := (cellsByAge store ties matrix.id).filter fun c =>
    (store.candidates.find? c.candidateId).isSome
  let candidates := (groupBy FeatureComparison.candidateId comparisons).keys
    |>.filterMap store.candidates.find?
  { matrix
    evaluation := evaluateMatrix features candidates
      (comparisons.map FeatureComparison.record)
    features
    candidates
    comparisons }

/-- `get_active_matrix`: the view of the newest matrix. -/
def getActiveMatrix (store : CaseStore) (ties : String → Nat) :
    Option MatrixView :=
  match store.matrices.rows with
  | [] => none
  | m :: ms => some (matrixView store ties
      (firstBy (fun m => toLex (OrderDual.toDual m.createdAt, ties m.id)) m ms))

end PatentEvidence.Cases
