/-
What an empty blockers list guarantees.

`blockers_eq_nil_iff` reads the list back on the input: it is empty iff
every citation is verified, located and quoted, every cell's anchor
string is some citation's anchor string, no run failed, the rows have
enough feature codes, the checklist is answered and some compared
document passes for prior art (`Unblocked`).

From there to "every cell has a verified citation of its own" one step
is missing: an anchor is the document id, a slash and the feature code,
and nothing keeps a slash out of either. A cell (WO2020, 1/F1) and a
cell (WO2020/1, F1) share their string, and one citation serves both:
`uncited_cell_passes`. `declared_cells` in the same function counts the
pairs, so there the two cells are told apart.
`unblocked_complete_iff_tell_apart` gives the exact extent, and
`tellApart_of_no_slash` the usual reason there is no collision.
-/
import PatentEvidence.Assessment.Proofs.Gate

namespace PatentEvidence.Assessment

open Text

variable {payload : AssessmentInput} {pkg : AssessmentPackage}

-- ============================================ the blockers on the inputs

/-- The citation is of the row's own cell. -/
def EvidenceCitation.Cites (c : EvidenceCitation) (row : FeatureComparisonRow) :
    Prop :=
  c.docId = row.docId ∧ c.featureCode = row.featureCode

/-- A verified citation with a position and a quotation. -/
def EvidenceCitation.Sound (c : EvidenceCitation) : Prop :=
  c.verified = true ∧ ¬ Blank c.location ∧ ¬ Blank c.quote

/-- Every item of the checklist is answered. -/
def ChecklistAnswered (checklist : Option MotivationChecklist) : Prop :=
  ∃ answers, checklist = some answers ∧
    ∀ item ∈ answers.answers, ∃ text, item.2 = some text ∧ ¬ Blank text

/-- The rows have at least as many feature codes as the claim has
features. -/
def EnoughCodes (rows : List FeatureComparisonRow) (totalFeatures : Int) :
    Prop :=
  totalFeatures ≤ (rows.map FeatureComparisonRow.featureCode).dedup.length

/-- The inputs on which `assess_case` reports no blocker. -/
structure Unblocked (payload : AssessmentInput) : Prop where
  sound : ∀ c ∈ payload.citations, c.Sound
  anchored : ∀ row ∈ payload.rows, ∃ c ∈ payload.citations,
    c.anchor = row.anchor
  noFailedRun : ∀ run ∈ payload.sourceRuns, run.status ≠ "failed"
  enoughCodes : EnoughCodes payload.rows payload.effectiveTotal
  answered : ChecklistAnswered payload.motivationChecklist
  usable : inventiveDocs payload.rows payload.kinds ≠ []

/-- A filtered and mapped list is empty when nothing passes. -/
private theorem map_filter_eq_nil {α β : Type} {p : α → Bool} {f : α → β}
    {l : List α} : (l.filter p).map f = [] ↔ ∀ a ∈ l, p a = false := by
  rw [List.map_eq_nil_iff, List.filter_eq_nil_iff]
  simp

theorem located_iff {c : EvidenceCitation} :
    c.located = true ↔ ¬ Blank c.location ∧ ¬ Blank c.quote := by
  simp [EvidenceCitation.located]

theorem missingCells_eq_zero_iff {rows : List FeatureComparisonRow}
    {totalFeatures : Int} :
    missingCells rows totalFeatures = 0 ↔ EnoughCodes rows totalFeatures := by
  unfold missingCells EnoughCodes
  omega

theorem uncitedAnchors_eq_nil_iff {rows : List FeatureComparisonRow}
    {citations : List EvidenceCitation} :
    uncitedAnchors rows citations = [] ↔
      ∀ row ∈ rows, ∃ c ∈ citations, c.anchor = row.anchor := by
  unfold uncitedAnchors
  rw [List.filter_eq_nil_iff]
  simp

/-- The evidence gaps are empty exactly on sound citations, anchored
cells, no failed run and enough codes. -/
theorem blockingGaps_eq_nil_iff {rows : List FeatureComparisonRow}
    {totalFeatures : Int} {documents : List CandidateDocument}
    {citations : List EvidenceCitation} {sourceRuns : List DataSourceRun}
    {legalStatusAsOf : Dict String Date} :
    (assessEvidenceCompleteness rows totalFeatures documents citations
        sourceRuns legalStatusAsOf).blockingGaps = []
      ↔ (∀ c ∈ citations, c.Sound)
        ∧ (∀ row ∈ rows, ∃ c ∈ citations, c.anchor = row.anchor)
        ∧ (∀ run ∈ sourceRuns, run.status ≠ "failed")
        ∧ EnoughCodes rows totalFeatures := by
  have hgap : ∀ {P : Prop} [Decidable P] {gap : String},
      (if P then [gap] else []) = [] ↔ ¬ P := by
    intro P _ gap
    by_cases h : P <;> simp [h]
  have hsort : ∀ {l : List String},
      l.insertionSort (· ≤ ·) = [] ↔ l = [] := by
    intro l
    rw [← List.length_eq_zero_iff, List.length_insertionSort,
      List.length_eq_zero_iff]
  simp only [assessEvidenceCompleteness, List.append_eq_nil_iff, hgap,
    not_not, ne_eq, map_filter_eq_nil, hsort, uncitedAnchors_eq_nil_iff,
    missingCells_eq_zero_iff, decide_eq_false_iff_not, Bool.not_eq_false']
  constructor
  · rintro ⟨⟨⟨⟨hloc, hanchored⟩, hver⟩, hruns⟩, hcodes⟩
    refine ⟨fun c hc => ?_, hanchored, hruns, hcodes⟩
    have hverified : c.verified = true := by
      have := hver c hc
      rw [hloc c hc] at this
      simpa using this
    exact ⟨hverified, located_iff.mp (hloc c hc)⟩
  · rintro ⟨hsound, hanchored, hruns, hcodes⟩
    refine ⟨⟨⟨⟨fun c hc => ?_, hanchored⟩, fun c hc => ?_⟩, hruns⟩, hcodes⟩
    · exact located_iff.mpr (hsound c hc).2
    · simp [(hsound c hc).1]

theorem answered_iff {answer : Option String} :
    answered answer = true ↔ ∃ text, answer = some text ∧ ¬ Blank text := by
  cases answer with
  | none => simp [answered]
  | some text => simp [answered]

/-- Step 3 adds no blocker exactly when the checklist is answered. -/
theorem motivationBlockers_eq_nil_iff
    {checklist : Option MotivationChecklist} :
    motivationBlockers (checklist.map motivationChecklistState) = []
      ↔ ChecklistAnswered checklist := by
  cases checklist with
  | none => simp [motivationBlockers, ChecklistAnswered]
  | some answers =>
      have hstate : (motivationChecklistState answers).blocksConclusion = false
          ↔ ∀ item ∈ answers.answers, answered item.2 = true := by
        simp only [motivationChecklistState, decide_eq_false_iff_not, not_not,
          ne_eq, map_filter_eq_nil, Bool.not_eq_false']
      simp only [Option.map_some, motivationBlockers, ChecklistAnswered,
        Option.some.injEq, exists_eq_left', ← answered_iff]
      rw [← hstate]
      cases (motivationChecklistState answers).blocksConclusion <;> simp

/-- The blockers list, read back on the inputs. -/
theorem blockers_eq_nil_iff (h : assessCase payload = some pkg) :
    pkg.blockers = [] ↔ Unblocked payload := by
  have hscaffold : scaffoldBlockers
      (threeStepScaffold payload.rows payload.kinds) = []
      ↔ inventiveDocs payload.rows payload.kinds ≠ [] := by
    rw [ne_eq, ← threeStepScaffold_eq_none]
    cases threeStepScaffold payload.rows payload.kinds <;>
      simp [scaffoldBlockers]
  have hsplit : pkg.blockers = (assessEvidenceCompleteness payload.rows
        payload.effectiveTotal payload.documents payload.citations
        payload.sourceRuns payload.legalStatusAsOf).blockingGaps
      ++ motivationBlockers
          (payload.motivationChecklist.map motivationChecklistState)
      ++ scaffoldBlockers (threeStepScaffold payload.rows payload.kinds) := by
    obtain ⟨priority, hpriority, h⟩ := Option.bind_eq_some_iff.mp h
    obtain ⟨early, -, h⟩ := Option.bind_eq_some_iff.mp h
    rw [AssessmentInput.kinds, hpriority]
    cases h
    rfl
  rw [hsplit, List.append_eq_nil_iff, List.append_eq_nil_iff,
    blockingGaps_eq_nil_iff, motivationBlockers_eq_nil_iff, hscaffold]
  constructor
  · rintro ⟨⟨⟨hsound, hanchored, hruns, hcodes⟩, hanswered⟩, husable⟩
    exact ⟨hsound, hanchored, hruns, hcodes, hanswered, husable⟩
  · intro hun
    exact ⟨⟨⟨hun.sound, hun.anchored, hun.noFailedRun, hun.enoughCodes⟩,
      hun.answered⟩, hun.usable⟩

-- ================================================== cells and anchors

/-- Every cell has a sound citation of its own, no run failed, the
checklist is answered and the rows have enough feature codes. -/
structure EvidenceComplete (payload : AssessmentInput) : Prop where
  cited : ∀ row ∈ payload.rows, ∃ c ∈ payload.citations,
    c.Cites row ∧ c.Sound
  noFailedRun : ∀ run ∈ payload.sourceRuns, run.status ≠ "failed"
  answered : ChecklistAnswered payload.motivationChecklist
  enoughCodes : EnoughCodes payload.rows payload.effectiveTotal

/-- A cell that shares its anchor string with a citation is cited
itself. -/
def TellApart (payload : AssessmentInput) : Prop :=
  ∀ row ∈ payload.rows, ∀ c ∈ payload.citations, c.anchor = row.anchor →
    ∃ c' ∈ payload.citations, c'.Cites row

/-- An empty blockers list guarantees complete evidence exactly when the
inputs are blocked anyway or no anchor string hides an uncited cell. -/
theorem unblocked_complete_iff_tell_apart
    (h : assessCase payload = some pkg) :
    (pkg.blockers = [] → EvidenceComplete payload)
      ↔ (Unblocked payload → TellApart payload) := by
  rw [blockers_eq_nil_iff h]
  constructor
  · intro hcomplete hun row hrow _ _ _
    obtain ⟨c, hc, hcites, -⟩ := (hcomplete hun).cited row hrow
    exact ⟨c, hc, hcites⟩
  · intro htell hun
    refine ⟨fun row hrow => ?_, hun.noFailedRun, hun.answered,
      hun.enoughCodes⟩
    obtain ⟨c, hc, hanchor⟩ := hun.anchored row hrow
    obtain ⟨c', hc', hcites⟩ := htell hun row hrow c hc hanchor
    exact ⟨c', hc', hcites, hun.sound c' hc'⟩

/-- Cells (WO2020, 1/F1) and (WO2020/1, F1), one citation between
them. -/
def collidingPayload : AssessmentInput :=
  { subject := { filingDate := .ofNumbers 2024 1 1 (.refl true) }
    documents := ["WO2020", "WO2020/1"].map fun number =>
      { docId := number, publicationNumber := number, title := ""
        publicationDate := some (.ofNumbers 2020 1 1 (.refl true))
        filingDate := some (.ofNumbers 2019 1 1 (.refl true)) }
    rows := [
      { featureCode := "1/F1", docId := "WO2020", judgment := "different" },
      { featureCode := "F1", docId := "WO2020/1", judgment := "different" }]
    citations := [{ docId := "WO2020/1", featureCode := "F1", location := "p. 1"
                    quote := "a valve", verified := true }]
    motivationChecklist := some {
      commonKnowledge := some "no", explicitTeaching := some "no"
      prejudiceOrTeachingAway := some "no", combinationObstacle := some "no"
      effectPredictability := some "no" } }

private theorem collidingPayload_assessed :
    ∃ pkg, assessCase collidingPayload = some pkg := ⟨_, rfl⟩

theorem unblocked_complete_iff_tell_apart_on_sample :
    ∃ pkg, assessCase collidingPayload = some pkg
      ∧ ((pkg.blockers = [] → EvidenceComplete collidingPayload)
        ↔ (Unblocked collidingPayload → TellApart collidingPayload)) := by
  obtain ⟨pkg, h⟩ := collidingPayload_assessed
  exact ⟨pkg, h, unblocked_complete_iff_tell_apart h⟩

/-- No blocker, although nothing cites cell (WO2020, 1/F1). -/
theorem uncited_cell_passes :
    ∃ pkg, assessCase collidingPayload = some pkg ∧ pkg.blockers = []
      ∧ ¬ EvidenceComplete collidingPayload := by
  obtain ⟨pkg, h⟩ := collidingPayload_assessed
  refine ⟨pkg, h, (blockers_eq_nil_iff h).mpr ?_, fun hcomplete => ?_⟩
  · constructor
    · unfold EvidenceCitation.Sound
      decide
    · decide
    · decide
    · unfold EnoughCodes
      decide
    · refine ⟨_, rfl, fun item hitem => answered_iff.mp ?_⟩
      revert item
      decide
    · decide
  · obtain ⟨c, hc, hcites, -⟩ :=
      hcomplete.cited _ (List.mem_cons_self ..)
    obtain rfl := List.mem_singleton.mp hc
    exact absurd hcites.1 (by decide)

/-- Without a slash in the document ids an anchor string names one
cell. -/
theorem tellApart_of_no_slash
    (hrows : ∀ row ∈ payload.rows, '/' ∉ row.docId.toList)
    (hcitations : ∀ c ∈ payload.citations, '/' ∉ c.docId.toList) :
    TellApart payload := by
  intro row hrow c hc hanchor
  refine ⟨c, hc, ?_⟩
  have hchars : c.docId.toList ++ '/' :: c.featureCode.toList
      = row.docId.toList ++ '/' :: row.featureCode.toList := by
    have := congrArg String.toList hanchor
    simpa [EvidenceCitation.anchor, FeatureComparisonRow.anchor] using this
  obtain ⟨hdoc, hcode⟩ :=
    Text.append_cons_inj hchars (hcitations c hc) (hrows row hrow)
  exact ⟨String.toList_inj.mp hdoc, String.toList_inj.mp hcode⟩

end PatentEvidence.Assessment
