/-
Sealing cannot read the decisions of a version.

The assessment service finds a version's decisions under
`assessment_version_id`, a column of the review table, and what its query
answers is the decision sequence the rest of the development reads off the
log (`run_decisionSequenceQuery`). Sealing asks for `version_id`, which is
no column of that table, so its query fails on every content of the table
(`run_sealedDecisionsQuery`), and sealing a case that has a version fails
with it.
-/
import PatentEvidence.Reports.Facts

namespace PatentEvidence.Reports

open Assessment Json Select Fallible

variable {ν : Type} [JsonNumber ν]

-- ============================================================= columns

section Columns

omit [JsonNumber ν]

theorem resolve_organizationId :
    resolve (assessmentVersionReviewsColumns (ν := ν)) "organization_id"
      = .ok fun row => some (.text row.organizationId) := by
  simp [assessmentVersionReviewsColumns]

theorem resolve_assessmentVersionId :
    resolve (assessmentVersionReviewsColumns (ν := ν)) "assessment_version_id"
      = .ok fun row => some (.text row.record.versionId) := by
  simp [assessmentVersionReviewsColumns]

theorem resolve_decidedAt :
    resolve (assessmentVersionReviewsColumns (ν := ν)) "decided_at"
      = .ok fun row => some (.instant row.record.decidedAt) := by
  simp [assessmentVersionReviewsColumns]

theorem resolve_createdAt :
    resolve (assessmentVersionReviewsColumns (ν := ν)) "created_at"
      = .ok fun row => some (.instant row.createdAt) := by
  simp [assessmentVersionReviewsColumns]

end Columns

-- ==================================================== the two queries

/-- A row without its id. -/
def logOf (reviews : List StoredReview) : ReviewTable :=
  reviews.map StoredReview.toReviewRow

/-- `organization_id=:org_id AND assessment_version_id=:version_id`, looked
up. -/
def versionFilters (version : VersionRecord) :
    List ((StoredReview → Option (Cell ν)) × Cell ν) :=
  [(fun row => some (.text row.organizationId), .text version.organizationId),
    (fun row => some (.text row.record.versionId), .text version.id)]

/-- `decided_at, created_at`, looked up. -/
def decisionOrder : List ((StoredReview → Option (Cell ν)) × Direction) :=
  [(fun row => some (.instant row.record.decidedAt), .asc),
    (fun row => some (.instant row.createdAt), .asc)]

omit [JsonNumber ν] in
/-- The names of `_decision_sequence` are columns. -/
theorem run_decisionSequenceQuery (version : VersionRecord)
    (reviews : List StoredReview) :
    run compareValues (assessmentVersionReviewsColumns (ν := ν))
        (decisionSequenceQuery version.organizationId version.id) reviews
      = .ok (select (compareValues (ν := ν)) (versionFilters version)
          decisionOrder none reviews) := by
  have hcolumns : ∀ name ∈ ["decision"],
      name ∈ (assessmentVersionReviewsColumns (ν := ν)).map Column.name := by
    simp [assessmentVersionReviewsColumns]
  exact run_eq_ok compareValues assessmentVersionReviewsColumns _ reviews hcolumns
    (.cons (resolveWith_of_eq _ resolve_organizationId _)
      (.cons (resolveWith_of_eq _ resolve_assessmentVersionId _) .nil))
    (.cons (resolveWith_of_eq _ resolve_decidedAt _)
      (.cons (resolveWith_of_eq _ resolve_createdAt _) .nil))

omit [JsonNumber ν] in
/-- Its `ORDER BY` is the order of the log. -/
theorem compareRows_iff (a b : StoredReview) :
    compareRows (compareValues (ν := ν)) a b decisionOrder ≠ .gt
      ↔ reviewOrder a.toReviewRow b.toReviewRow := by
  have hcells (s t : Instant) : compareCells (compareValues (ν := ν))
      (some (.instant s)) (some (.instant t)) = compare s t := by
    rw [compareCells_some, compareValues_instant, Option.getD_some]
  rw [reviewOrder, Prod.Lex.le_iff, ne_eq]
  simp only [compareRows, decisionOrder, Direction.apply, hcells,
    Ordering.then_eq_gt, Ordering.then_eq, compare_gt_iff_gt, compare_eq_iff_eq,
    ofLex_toLex]
  constructor
  · intro h
    obtain ⟨hle, htie⟩ := not_or.mp h
    rcases lt_or_eq_of_le (le_of_not_gt hle) with hlt | heq
    · exact .inl hlt
    · exact .inr ⟨heq, le_of_not_gt fun hgt => htie ⟨heq, hgt⟩⟩
  · rintro (hlt | ⟨heq, hle⟩)
    · exact not_or.mpr ⟨hlt.le.not_gt, fun h => hlt.ne h.1⟩
    · exact not_or.mpr ⟨heq.le.not_gt, fun h => hle.not_gt h.2⟩

omit [JsonNumber ν] in
/-- Its filters keep the rows of the version. -/
theorem keeps_versionFilters (version : VersionRecord) (row : StoredReview) :
    keeps (compareValues (ν := ν)) (versionFilters version) row
      = decide (row.organizationId = version.organizationId
        ∧ row.record.versionId = version.id) := by
  simp [keeps, versionFilters, compareValues]

omit [JsonNumber ν] in
/-- So what it answers is the decision sequence of the version. -/
theorem decisions_of_run (version : VersionRecord)
    (reviews : List StoredReview) {rows : List StoredReview}
    (h : run compareValues (assessmentVersionReviewsColumns (ν := ν))
        (decisionSequenceQuery version.organizationId version.id) reviews
      = .ok rows) :
    rows.map (fun row => row.record.decision)
      = decisionSequence (logOf reviews) version := by
  rw [run_decisionSequenceQuery] at h
  obtain rfl := Except.ok.inj h
  have hfilter : (reviews.filter
        (keeps (compareValues (ν := ν)) (versionFilters version))).map
        StoredReview.toReviewRow
      = (logOf reviews).ofVersion version := by
    rw [ReviewTable.ofVersion, logOf, List.filter_map]
    exact congrArg _ (List.filter_congr fun row _ =>
      keeps_versionFilters version row)
  have hsorted := List.map_insertionSort
    (fun a b => compareRows (compareValues (ν := ν)) a b decisionOrder ≠ .gt)
    reviewOrder StoredReview.toReviewRow
    (reviews.filter (keeps (compareValues (ν := ν)) (versionFilters version)))
    fun a _ b _ => compareRows_iff a b
  rw [decisionSequence, ← hfilter, ← hsorted, List.map_map]
  exact List.map_congr_left fun row _ => rfl

omit [JsonNumber ν] in
/-- The query sealing reads the decisions with cannot run. -/
theorem run_sealedDecisionsQuery (organizationId versionId : String)
    (reviews : List StoredReview) :
    ∃ missing, run compareValues (assessmentVersionReviewsColumns (ν := ν))
        (sealedDecisionsQuery organizationId versionId) reviews
      = .error (.undefinedColumn missing) := by
  refine run_eq_error _ _ reviews "version_id" ?_ ?_
  · simp [sealedDecisionsQuery, Query.names]
  · simp [assessmentVersionReviewsColumns]

-- ============================================================= sealing

omit [JsonNumber ν] in
/-- A case with a version has a latest one. -/
theorem exists_latestVersion {versions : AssessmentVersions ν}
    {organizationId caseId : String}
    (h : versions.ofCase organizationId caseId ≠ []) :
    ∃ row rows, run compareValues assessmentVersionsColumns
        (latestVersionQuery organizationId caseId) versions.rows
      = .ok (row :: rows) := by
  have horganization : resolve (assessmentVersionsColumns (ν := ν))
      "organization_id"
      = .ok fun row => some (.text row.record.organizationId) := by
    simp [assessmentVersionsColumns]
  have hcase : resolve (assessmentVersionsColumns (ν := ν)) "case_id"
      = .ok fun row => some (.text row.record.caseId) := by
    simp [assessmentVersionsColumns]
  have hnumber : resolve (assessmentVersionsColumns (ν := ν)) "version_number"
      = .ok fun row => some (.number row.record.versionNumber) := by
    simp [assessmentVersionsColumns]
  have hrun := run_eq_ok compareValues (assessmentVersionsColumns (ν := ν))
    (latestVersionQuery organizationId caseId) versions.rows
    (by simp [latestVersionQuery, assessmentVersionsColumns])
    (.cons (resolveWith_of_eq _ horganization _)
      (.cons (resolveWith_of_eq _ hcase _) .nil))
    (.cons (resolveWith_of_eq _ hnumber _) .nil)
  obtain ⟨version, hversion⟩ := List.exists_mem_of_ne_nil _ h
  obtain ⟨hmem, hcaseOf⟩ := List.mem_filter.mp hversion
  rw [decide_eq_true_eq] at hcaseOf
  obtain ⟨row, rows, hselect⟩ := List.exists_cons_of_ne_nil
    (select_ne_nil compareValues
      [((fun row => some (.text row.record.organizationId)),
          .text organizationId),
        ((fun row => some (.text row.record.caseId)), .text caseId)]
      [((fun row => some (.number row.record.versionNumber)), .desc)] (some 1)
      hmem (by simp [keeps, compareValues, hcaseOf]) (by simp))
  exact ⟨row, rows, hrun.trans (congrArg Except.ok hselect)⟩

/-- Sealing a case with a version fails, whatever the decisions. -/
theorem latestAssessmentFacts_eq_error {versions : AssessmentVersions ν}
    {organizationId caseId : String} (reviews : List StoredReview)
    (h : versions.ofCase organizationId caseId ≠ []) :
    ∃ missing, latestAssessmentFacts versions reviews organizationId caseId
      = .error (.undefinedColumn missing) := by
  obtain ⟨row, rows, hversions⟩ := exists_latestVersion h
  obtain ⟨missing, hdecisions⟩ := run_sealedDecisionsQuery (ν := ν)
    organizationId row.record.id reviews
  refine ⟨missing, ?_⟩
  rw [latestAssessmentFacts, hversions, ok_bind]
  simp only [List.head?_cons, hdecisions]
  rfl

/-- Sealing succeeds, and the status it seals for a version is the one the
assessment service reports. -/
def SealsStatus (versions : AssessmentVersions ν) (reviews : List StoredReview)
    (organizationId caseId : String) : Prop :=
  ∃ facts block versionNumber status,
    latestAssessmentFacts versions reviews organizationId caseId = .ok facts
      ∧ sealAssessment facts = .ok block
      ∧ block.get "version_number" = .ok (ofNat versionNumber)
      ∧ block.get "status" = .ok (.str status)
      ∧ (currentStatus versions (logOf reviews) organizationId caseId
          versionNumber).map VersionStatus.value = .ok status

/-- No case with a version is sealed with its status, whatever the
decisions. -/
theorem not_sealsStatus (versions : AssessmentVersions ν)
    (reviews : List StoredReview) (organizationId caseId : String)
    (h : versions.ofCase organizationId caseId ≠ []) :
    ¬ SealsStatus versions reviews organizationId caseId := by
  rintro ⟨facts, -, -, -, hfacts, -⟩
  obtain ⟨missing, herror⟩ := latestAssessmentFacts_eq_error reviews h
  rw [herror] at hfacts
  cases hfacts

/-- The payload of a package with nothing in it. -/
def emptyPackage : Json Int :=
  .obj [
    ("evidence", .obj [
      ("missing_anchors", .arr []),
      ("unverified_citations", .arr []),
      ("failed_sources", .arr [])]),
    ("three_step", .null),
    ("findings", .arr []),
    ("entity_observations", .arr [])]

theorem packageShaped_emptyPackage : PackageShaped emptyPackage where
  evidence := by
    refine ⟨_, rfl, ⟨_, rfl⟩, fun key hkey => ⟨.arr [], ?_, [], rfl⟩⟩
    simp only [List.mem_cons, List.not_mem_nil, or_false] at hkey
    rcases hkey with rfl | rfl | rfl <;> rfl
  threeStep := ⟨.null, rfl, .inl rfl⟩
  findings := ⟨_, rfl, [], rfl, by simp⟩
  entityObservations := ⟨_, rfl, [], rfl, by simp⟩

/-- A case with one version of that package. -/
def oneVersion : AssessmentVersions Int where
  rows := [{
    record := {
      id := "v1", organizationId := "org", caseId := "case", versionNumber := 1
      payloadSha256 := "", blockers := [], rulesVersion := "assessment-rules-v3"
      promptVersions := .obj [], payload := emptyPackage, flags := []
      requiresHumanConfirmation := true, createdByIdentityId := none
      createdAt := .ofNumbers (.ofNumbers 2026 9 22 (.refl true)) 9 0 0 0
          (.refl true) }
    shaped := packageShaped_emptyPackage }]
  numbered := List.nodup_singleton _

theorem ofCase_oneVersion : oneVersion.ofCase "org" "case" ≠ [] := by
  simp [AssessmentVersions.ofCase, oneVersion]

theorem not_sealsStatus_oneVersion :
    ¬ SealsStatus oneVersion [] "org" "case" :=
  not_sealsStatus oneVersion [] "org" "case" ofCase_oneVersion

/-- So not every case with a version is sealed with its status. -/
theorem not_forall_sealsStatus :
    ¬ ∀ (versions : AssessmentVersions Int) (reviews : List StoredReview)
        (organizationId caseId : String),
      versions.ofCase organizationId caseId ≠ [] →
        SealsStatus versions reviews organizationId caseId := by
  intro h
  obtain ⟨facts, -, -, -, hfacts, -⟩ :=
    h oneVersion [] "org" "case" ofCase_oneVersion
  obtain ⟨missing, herror⟩ :=
    latestAssessmentFacts_eq_error [] ofCase_oneVersion
  rw [herror] at hfacts
  cases hfacts

end PatentEvidence.Reports
