/-
Assembling the assessment input from what the case has stored
(apps/api/…/assessment/assembly.py).

The service refuses a case without profile, matrix or cells and records
everything else that is missing as a gap. The number of features it hands
to the gates is counted from the rows it has just read, so it cannot tell
the gates about a feature that has no row; Proofs/Assembly.lean says when
it is the number of features of the version nevertheless.

Dates arrive parsed: the profile columns are dates, and a publication date
or a priority claim whose text does not parse is `none` or left out.
-/
import Mathlib.Data.String.Basic
import Mathlib.Order.WithBot
import PatentEvidence.Assessment.Package
import PatentEvidence.Cases.Comparison
import PatentEvidence.Cases.Features

namespace PatentEvidence.Cases

open Assessment Fallible Grouping Text

-- ============================================================== the matrix

/-- `ORDER BY confirmed_at DESC NULLS LAST, created_at DESC`. -/
def assemblyRank (m : ComparisonMatrix) : WithTop Instantᵒᵈ ×ₗ Instantᵒᵈ :=
  toLex (match m.confirmedAt with
    | some t => ((OrderDual.toDual t : Instantᵒᵈ) : WithTop Instantᵒᵈ)
    | none => ⊤, OrderDual.toDual m.createdAt)

/-- `_matrix_id`: the matrix an assembly reads. -/
def assemblyMatrix (store : CaseStore) : Option ComparisonMatrix :=
  match store.matrices.rows with
  | [] => none
  | m :: ms => some (firstBy assemblyRank m ms)

-- =============================================================== the cells

structure AssemblyCell where
  candidateId : String
  featureCode : String
  judgment : String
  citationLocation : Option String
  citationQuote : Option String

/-- `_cells`: the cells of the matrix joined with their features, by
`sort_order` and `feature_code`. -/
def assemblyCells (store : CaseStore) (matrixId : String) :
    List AssemblyCell :=
  let joined := (store.cellsOf matrixId).filterMap fun c =>
    (store.features.find? c.claimFeatureId).map fun f => (f, c)
  (CaseStore.sortedBy (fun p : ClaimFeature × FeatureComparison =>
      (toLex (p.1.sortOrder, p.1.featureCode) : Int ×ₗ String)) joined).map
    fun p =>
      { candidateId := p.2.candidateId
        featureCode := p.1.featureCode
        judgment := p.2.judgment
        citationLocation := p.2.citationLocation
        citationQuote := p.2.citationQuote }

-- =========================================================== the documents

/-- `_DocumentBundle`, with the names used so far. -/
structure DocumentBundle where
  documents : List CandidateDocument
  cellDocIds : Dict String String
  gaps : List String
  used : Dict String Nat

/-- `doc_id` of a row: the publication number or the id, numbered when it
is taken. -/
def nextDocId (used : Dict String Nat) (c : SearchCandidate) :
    String × Dict String Nat :=
  let docId := if c.publicationNumber = "" then c.id else c.publicationNumber
  match used.get? docId with
  | some n => (docId ++ "#" ++ toString (n + 1), used.set docId (n + 1))
  | none => (docId, used.set docId 1)

/-- One turn of the loop of `_documents`. -/
def addDocument (profiles : List CandidateProfile) (bundle : DocumentBundle)
    (c : SearchCandidate) : DocumentBundle :=
  let profile := profiles.find? fun p => p.candidateId = c.id
  let (docId, used) := nextDocId bundle.used c
  let filingDate := profile.bind CandidateProfile.filingDate
  let priorityDate := profile.bind CandidateProfile.priorityDate
  let sourceVerified := (profile.map CandidateProfile.sourceVerified).getD false
  { documents := bundle.documents ++ [{
      docId
      publicationNumber := c.publicationNumber
      title := c.title
      sourceVerified
      publicationDate := c.publicationDate
      filingDate
      priorityDate
      filedInChina :=
        (profile.map CandidateProfile.filedInChina).getD true }]
    cellDocIds := bundle.cellDocIds.set c.id docId
    gaps := bundle.gaps
      ++ (if filingDate = none ∧ priorityDate = none then
        ["对比文件 " ++ docId ++ " 缺申请日与优先权日，"
          ++ "日期门禁按「日期未知」处理，不参与新颖性与创造性评价"] else [])
      ++ (if !sourceVerified then
        ["对比文件 " ++ docId ++ " 来源未核验"] else [])
    used }

/-- `_documents`: the candidates the cells are about, by `created_at`. -/
def assemblyDocuments (store : CaseStore) (candidateIds : List String) :
    DocumentBundle :=
  ((CaseStore.sortedBy SearchCandidate.createdAt store.candidates.rows).filter
    fun c => c.id ∈ candidateIds).foldl (addDocument store.candidateProfiles)
      { documents := [], cellDocIds := .empty, gaps := [], used := .empty }

-- ================================================================ the runs

/-- The status of a source run. -/
def mappedRunStatus (status : String) : String :=
  if lower status ∈ ["ok", "succeeded", "success", "completed"] then "ok"
  else if lower status ∈ ["failed", "error"] then "failed"
  else "partial"

/-- `_source_runs`. -/
def assemblyRuns (store : CaseStore) : List DataSourceRun :=
  (store.searchJobs.insertionSort fun a b => a.createdAt ≤ b.createdAt).map
    fun job =>
      { name := if job.sourceType = "" then "unknown" else job.sourceType
        status := mappedRunStatus job.status
        asOf := job.finishedAt }

-- ============================================================= the assembly

structure AssemblySource where
  matrixId : String
  candidateCount : Nat
  cellCount : Nat
  sourceRunCount : Nat
  assembledAt : Instant

structure AssembledAssessment where
  payload : AssessmentInput
  gaps : List String
  source : AssemblySource

/-- `_subject`. -/
def assemblySubject (profile : ApplicationProfile) : SubjectApplication :=
  { filingDate := profile.filingDate
    applicationType := if profile.applicationType = "" then "invention"
      else profile.applicationType
    priorityClaims := profile.priorityClaims }

/-- The row and the citation of a cell; a cell without document has
neither. -/
def rowAndCitation (cellDocIds : Dict String String) (cell : AssemblyCell) :
    Option (FeatureComparisonRow × EvidenceCitation) :=
  (cellDocIds.get? cell.candidateId).map fun docId =>
    ({ featureCode := cell.featureCode, docId, judgment := cell.judgment },
      { docId, featureCode := cell.featureCode
        location := cell.citationLocation.getD ""
        quote := cell.citationQuote.getD ""
        verified := false })

/-- What `assemble` makes of the parts it has read. -/
def assembled (profile : ApplicationProfile) (matrixId : String)
    (cells : List AssemblyCell) (bundle : DocumentBundle)
    (sourceRuns : List DataSourceRun) (now : Instant) : AssembledAssessment :=
  let pairs := cells.filterMap (rowAndCitation bundle.cellDocIds)
  let rows := pairs.map Prod.fst
  let citations := pairs.map Prod.snd
  { payload :=
      { subject := assemblySubject profile
        documents := bundle.documents
        rows
        citations
        sourceRuns
        legalStatusAsOf := .empty
        totalFeatures :=
          some (rows.map FeatureComparisonRow.featureCode).dedup.length }
    gaps := bundle.gaps
      ++ (if sourceRuns = [] then
        ["无检索数据源运行记录，来源覆盖率无法计算"] else [])
      ++ (if citations ≠ [] then
        ["组装来源无引文逐字核验记录，全部引文按未核验处理；"
          ++ "未核验引文会阻塞结论，须人工完成逐字核对"] else [])
      ++ ["三步法第 3 步结合启示清单需人工填写，组装不代为推断"]
    source :=
      { matrixId
        candidateCount := bundle.documents.length
        cellCount := rows.length
        sourceRunCount := sourceRuns.length
        assembledAt := now } }

/-- `assemble`. -/
def assemble (store : CaseStore) (now : Instant) :
    Except Refusal AssembledAssessment :=
  match store.applicationProfile with
  | none => .error (.http 422 "application_profile_missing")
  | some profile =>
      match assemblyMatrix store with
      | none => .error (.http 422 "no_comparison_matrix")
      | some matrix =>
          let cells := assemblyCells store matrix.id
          if cells.isEmpty then
            .error (.http 422 "no_comparison_cells")
          else
            .ok (assembled profile matrix.id cells
              (assemblyDocuments store (cells.map AssemblyCell.candidateId))
              (assemblyRuns store) now)

-- ================================================================= the case

/-- A request to the feature or the comparison service. -/
inductive CaseEvent
  | feature (event : FeatureEvent)
  | comparison (event : ComparisonEvent)

/-- The case after one request. -/
def afterRequest (store : CaseStore) : CaseEvent → CaseStore
  | .feature event => afterFeature store event
  | .comparison event => afterComparison store event

end PatentEvidence.Cases
