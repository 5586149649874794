/-
The date gate, and the documents it never saw.

Rows and documents are separate lists joined by `doc_id`. A document
that is compared but not listed has no kind. `novelty_findings` lets it
pass (it skips only documents classified unusable or unknown), and the
two inventive-step gates read the missing kind as prior art, so such a
document can carry a novelty finding, complete a combination or be the
closest prior art: `unlisted_document_passes` is a payload whose only
finding about novelty rests on one.

`gateBound_iff` is the exact extent: the results of `assess_case` stay
within the classified documents iff no unlisted document covers the
claim alone, none completes a covering pair, and none outscores every
prior-art document. A payload whose rows only name listed documents
meets this trivially (`UnlistedInert.of_listed`).

# Sections

- what each gate emits, one spec lemma a gate;
- the package's findings, sorted by risk kind;
- the exact condition.
-/
import PatentEvidence.Assessment.Package

namespace PatentEvidence.Assessment

open Grouping

-- ====================================================== what a gate emits

/-- A document's rows judge as many features identical, or identical or
equivalent, as the claim has. -/
def CoversAlone (totalFeatures : Int) (docRows : List FeatureComparisonRow) :
    Prop :=
  ((codesJudged singleReferenceJudgments docRows).length : Int) = totalFeatures
    ∨ ((codesJudged coveringJudgments docRows).length : Int) = totalFeatures

/-- The date gate ruled the document out. -/
def Barred (kinds : Dict String ReferenceKind) (docId : String) : Prop :=
  kinds.get? docId = some .notUsable ∨ kinds.get? docId = some .unknown

section Gates

variable {totalFeatures : Int} {kinds : Dict String ReferenceKind}
  {rows : List FeatureComparisonRow}

/-- The rows of one document. -/
abbrev rowsOf (rows : List FeatureComparisonRow) (docId : String) :
    List FeatureComparisonRow :=
  rows.filter fun row => row.docId = docId

theorem rowsByDoc_getD (docId : String) :
    (rowsByDoc rows).getD docId [] = rowsOf rows docId := by
  rw [Dict.getD, rowsByDoc, get?_groupBy]
  split
  · rfl
  · next hnot =>
      refine (List.filter_eq_nil_iff.mpr fun row hrow heq => hnot ?_).symm
      exact List.mem_map.mpr ⟨row, hrow, by simpa using heq⟩

/-- What a novelty finding is about. -/
theorem noveltyFinding_eq_some {docId : String}
    {docRows : List FeatureComparisonRow} {f : AssessmentFinding}
    (h : noveltyFinding totalFeatures kinds docId docRows = some f) :
    f.riskKind = .novelty ∧ (∀ row, .row row ∈ f.basis ↔ row ∈ docRows)
      ∧ ¬ Barred kinds docId ∧ CoversAlone totalFeatures docRows := by
  have hbasis : ∀ row, BasisItem.row row ∈ (docRows.insertionSort fun a b =>
      a.featureCode ≤ b.featureCode).map BasisItem.row ↔ row ∈ docRows := by
    simp [List.mem_insertionSort]
  simp only [noveltyFinding] at h
  split at h
  · cases h
  · next hbar =>
      split at h
      · next hid =>
          cases h
          exact ⟨rfl, hbasis, hbar, Or.inl hid⟩
      · split at h
        · next hcov =>
            cases h
            exact ⟨rfl, hbasis, hbar, Or.inr hcov⟩
        · cases h

/-- A covering document that is not barred gets a finding. -/
theorem exists_noveltyFinding {docId : String}
    {docRows : List FeatureComparisonRow} (hbar : ¬ Barred kinds docId)
    (hcov : CoversAlone totalFeatures docRows) :
    ∃ f, noveltyFinding totalFeatures kinds docId docRows = some f := by
  have hnot : ¬ (kinds.get? docId = some .notUsable
      ∨ kinds.get? docId = some .unknown) := hbar
  simp only [noveltyFinding]
  rw [if_neg hnot]
  split
  · exact ⟨_, rfl⟩
  · next hid =>
      rw [if_pos (hcov.resolve_left hid)]
      exact ⟨_, rfl⟩

theorem mem_noveltyFindings {f : AssessmentFinding} :
    f ∈ noveltyFindings rows totalFeatures kinds ↔ 0 < totalFeatures
      ∧ ∃ docId ∈ rows.map FeatureComparisonRow.docId,
          noveltyFinding totalFeatures kinds docId (rowsOf rows docId)
            = some f := by
  unfold noveltyFindings
  by_cases hpos : totalFeatures ≤ 0
  · rw [if_pos hpos]
    simp [not_lt.mpr hpos]
  · rw [if_neg hpos, List.mem_filterMap]
    simp only [List.mem_insertionSort, rowsByDoc, mem_entries_groupBy]
    constructor
    · rintro ⟨⟨docId, docRows⟩, ⟨hin, hrows⟩, hf⟩
      simp only at hin hrows hf
      rw [hrows] at hf
      exact ⟨not_le.mp hpos, docId, hin, hf⟩
    · rintro ⟨-, docId, hin, hf⟩
      exact ⟨(docId, rowsOf rows docId), ⟨hin, rfl⟩, hf⟩

theorem mem_inventiveDocs {docId : String} :
    docId ∈ inventiveDocs rows kinds
      ↔ docId ∈ rows.map FeatureComparisonRow.docId
        ∧ kinds.getD docId .priorArt = .priorArt := by
  rw [inventiveDocs, List.mem_filter, rowsByDoc, mem_keys_groupBy]
  simp

/-- The combination screening visits the inventive documents in
ascending order, each pair once. -/
theorem mem_docPairs {first second : String} :
    (first, second)
        ∈ pairs ((inventiveDocs rows kinds).insertionSort (· ≤ ·))
      ↔ first ∈ inventiveDocs rows kinds ∧ second ∈ inventiveDocs rows kinds
        ∧ first < second := by
  have hnodup : (inventiveDocs rows kinds).Nodup :=
    (rowsByDoc rows).nodup.filter _
  rw [mem_pairs_iff (pairwise_lt_insertionSort hnodup)]
  simp only [List.mem_insertionSort]

/-- Two documents whose best judgments, feature by feature, cover as
many features as the claim has. -/
def CoverTogether (totalFeatures : Int) (rows : List FeatureComparisonRow)
    (first second : String) : Prop :=
  ((coveredTogether (rowsOf rows first ++ rowsOf rows second)).length : Int)
    = totalFeatures

theorem combinationFinding_eq_some {first second : String}
    {f : AssessmentFinding}
    (h : combinationFinding totalFeatures rows first second = some f) :
    f.riskKind = .inventiveCombination
      ∧ (∀ row, .row row ∈ f.basis
          ↔ row ∈ rowsOf rows first ++ rowsOf rows second)
      ∧ CoverTogether totalFeatures rows first second := by
  simp only [combinationFinding, rowsByDoc_getD] at h
  split at h
  · next hcov =>
      cases h
      exact ⟨rfl, by simp, hcov⟩
  · cases h

theorem exists_combinationFinding {first second : String}
    (hcov : CoverTogether totalFeatures rows first second) :
    ∃ f, combinationFinding totalFeatures rows first second = some f := by
  simp only [combinationFinding, rowsByDoc_getD]
  exact ⟨_, if_pos hcov⟩

theorem mem_combinationFindings {f : AssessmentFinding} :
    f ∈ combinationFindings rows totalFeatures kinds ↔ 0 < totalFeatures
      ∧ ∃ first ∈ inventiveDocs rows kinds,
          ∃ second ∈ inventiveDocs rows kinds, first < second
            ∧ combinationFinding totalFeatures rows first second = some f := by
  unfold combinationFindings
  by_cases hpos : totalFeatures ≤ 0
  · rw [if_pos hpos]
    simp [not_lt.mpr hpos]
  · rw [if_neg hpos, List.mem_filterMap]
    constructor
    · rintro ⟨⟨first, second⟩, hpair, hf⟩
      obtain ⟨hfirst, hsecond, hlt⟩ := mem_docPairs.mp hpair
      exact ⟨not_le.mp hpos, first, hfirst, second, hsecond, hlt, hf⟩
    · rintro ⟨-, first, hfirst, second, hsecond, hlt, hf⟩
      exact ⟨(first, second), mem_docPairs.mpr ⟨hfirst, hsecond, hlt⟩, hf⟩

/-- The doc id breaks every tie. -/
theorem score_injective : Function.Injective (score rows) := by
  intro d e h
  unfold score at h
  exact congrArg (fun key => (ofLex (ofLex key).2).2) h

/-- The closest prior art is the best-scoring inventive document. -/
theorem threeStepScaffold_eq_some {s : ThreeStepScaffold}
    (h : threeStepScaffold rows kinds = some s) :
    s.closestPriorArt ∈ inventiveDocs rows kinds
      ∧ ∀ docId ∈ inventiveDocs rows kinds,
          score rows s.closestPriorArt ≤ score rows docId := by
  unfold threeStepScaffold at h
  split at h
  · cases h
  · next docId docIds hdocs =>
      cases h
      rw [hdocs]
      exact ⟨firstBy_mem .., fun d hd => rank_firstBy_le _ _ _ d hd⟩

theorem threeStepScaffold_eq_none :
    threeStepScaffold rows kinds = none ↔ inventiveDocs rows kinds = [] := by
  unfold threeStepScaffold
  split
  · next hdocs => simp [hdocs]
  · next docId docIds hdocs => simp [hdocs]

end Gates

-- =============================================== the package's findings

section Package

variable {payload : AssessmentInput} {pkg : AssessmentPackage}

/-- The kinds the gates of `assess_case` run with. -/
def AssessmentInput.kinds (payload : AssessmentInput) :
    Dict String ReferenceKind :=
  classifyAllReferences payload.documents payload.subject
    (verifyPriority payload.subject (sortedFeatureCodes payload.rows))
    payload.rows

theorem riskKind_of_mem_priority {subject : SubjectApplication}
    {codes : List String} {findings : List AssessmentFinding}
    (h : priorityVerificationFindings subject codes = some findings) :
    ∀ f ∈ findings, f.riskKind = .priorityVerification := by
  obtain ⟨verification, -, h⟩ := Option.bind_eq_some_iff.mp h
  split at h
  · cases h
    simp
  · cases h
    simp

theorem riskKind_of_mem_eligibility {documents : List CandidateDocument}
    {subject : SubjectApplication}
    {verification : Option PriorityVerification}
    {kinds : Dict String ReferenceKind} :
    ∀ f ∈ referenceEligibilityFindings documents subject verification kinds,
      f.riskKind = .referenceEligibility := by
  intro f hf
  obtain ⟨document, -, hf⟩ := List.mem_filterMap.mp hf
  dsimp only at hf
  split at hf
  · cases hf
  all_goals
    cases hf
    rfl

/-- What `assess_case` passes on from the gates. -/
theorem assessCase_gates (h : assessCase payload = some pkg) :
    pkg.referenceKinds = payload.kinds
      ∧ (∀ f, f.riskKind = .novelty → (f ∈ pkg.findings
          ↔ f ∈ noveltyFindings payload.rows payload.effectiveTotal
              payload.kinds))
      ∧ (∀ f, f.riskKind = .inventiveCombination → (f ∈ pkg.findings
          ↔ f ∈ combinationFindings payload.rows payload.effectiveTotal
              payload.kinds))
      ∧ pkg.threeStep = threeStepScaffold payload.rows payload.kinds := by
  obtain ⟨priority, hpriority, h⟩ := Option.bind_eq_some_iff.mp h
  obtain ⟨early, hearly, h⟩ := Option.bind_eq_some_iff.mp h
  have hkinds : classifyAllReferences payload.documents payload.subject
      (some priority) payload.rows = payload.kinds := by
    rw [AssessmentInput.kinds, hpriority]
  rw [hkinds] at h
  cases h
  refine ⟨rfl, fun f hf => ?_, fun f hf => ?_, rfl⟩
  · simp only [List.mem_append]
    refine ⟨fun hin => ?_, fun hin => Or.inl (Or.inr hin)⟩
    rcases hin with ((hin | hin) | hin) | hin
    · rw [riskKind_of_mem_priority hearly f hin] at hf
      cases hf
    · rw [riskKind_of_mem_eligibility f hin] at hf
      cases hf
    · exact hin
    · obtain ⟨-, first, -, second, -, -, hsome⟩ :=
        mem_combinationFindings.mp hin
      rw [(combinationFinding_eq_some hsome).1] at hf
      cases hf
  · simp only [List.mem_append]
    refine ⟨fun hin => ?_, fun hin => Or.inr hin⟩
    rcases hin with ((hin | hin) | hin) | hin
    · rw [riskKind_of_mem_priority hearly f hin] at hf
      cases hf
    · rw [riskKind_of_mem_eligibility f hin] at hf
      cases hf
    · obtain ⟨-, docId, -, hsome⟩ := mem_noveltyFindings.mp hin
      rw [(noveltyFinding_eq_some hsome).1] at hf
      cases hf
    · exact hin

-- ==================================================== the exact condition

/-- The document is listed, so the date gate classified it. -/
def AssessmentInput.Listed (payload : AssessmentInput) (docId : String) :
    Prop :=
  docId ∈ payload.documents.map CandidateDocument.docId

/-- The document is compared, but the date gate never saw it. -/
def AssessmentInput.Unlisted (payload : AssessmentInput) (docId : String) :
    Prop :=
  docId ∈ payload.rows.map FeatureComparisonRow.docId
    ∧ ¬ payload.Listed docId

/-- Every document named by a novelty, combination or three-step result
was listed and classified usable for it. -/
structure GateBound (payload : AssessmentInput) (pkg : AssessmentPackage) :
    Prop where
  novelty : ∀ f ∈ pkg.findings, f.riskKind = .novelty →
    ∀ row, .row row ∈ f.basis → payload.Listed row.docId
      ∧ (pkg.referenceKinds.get? row.docId = some .priorArt
        ∨ pkg.referenceKinds.get? row.docId = some .conflictingApplication)
  combination : ∀ f ∈ pkg.findings, f.riskKind = .inventiveCombination →
    ∀ row, .row row ∈ f.basis → payload.Listed row.docId
      ∧ pkg.referenceKinds.get? row.docId = some .priorArt
  closest : ∀ s, pkg.threeStep = some s → payload.Listed s.closestPriorArt
    ∧ pkg.referenceKinds.get? s.closestPriorArt = some .priorArt

/-- No unlisted document makes a difference: none covers the claim
alone, none completes a covering pair, and each is outscored by some
document that enters the inventive-step gates. -/
structure UnlistedInert (payload : AssessmentInput) : Prop where
  alone : ∀ docId, payload.Unlisted docId → 0 < payload.effectiveTotal →
    ¬ CoversAlone payload.effectiveTotal (rowsOf payload.rows docId)
  paired : 0 < payload.effectiveTotal →
    ∀ first ∈ inventiveDocs payload.rows payload.kinds,
      ∀ second ∈ inventiveDocs payload.rows payload.kinds, first < second →
        (payload.Unlisted first ∨ payload.Unlisted second) →
        ¬ CoverTogether payload.effectiveTotal payload.rows first second
  ranked : ∀ docId, payload.Unlisted docId →
    ∃ other ∈ inventiveDocs payload.rows payload.kinds,
      score payload.rows other < score payload.rows docId

/-- A document has no kind exactly when it is not listed. -/
theorem kinds_get?_eq_none {docId : String} :
    payload.kinds.get? docId = none ↔ ¬ payload.Listed docId := by
  rw [AssessmentInput.kinds, classifyAllReferences,
    Dict.get?_foldl_set_eq_none]
  simp [AssessmentInput.Listed]

/-- A payload whose rows name only listed documents has no unlisted
one. -/
theorem UnlistedInert.of_listed
    (h : ∀ row ∈ payload.rows, payload.Listed row.docId) :
    UnlistedInert payload := by
  have hnone : ∀ docId, ¬ payload.Unlisted docId := by
    rintro docId ⟨hin, hnot⟩
    obtain ⟨row, hrow, rfl⟩ := List.mem_map.mp hin
    exact hnot (h row hrow)
  exact ⟨fun d hd => absurd hd (hnone d),
    fun _ d _ e _ _ hor => absurd hor (not_or.mpr ⟨hnone d, hnone e⟩),
    fun d hd => absurd hd (hnone d)⟩

/-- An unlisted document enters the inventive-step gates. -/
theorem inventive_of_unlisted {docId : String} (h : payload.Unlisted docId) :
    docId ∈ inventiveDocs payload.rows payload.kinds := by
  refine mem_inventiveDocs.mpr ⟨h.1, ?_⟩
  rw [Dict.getD, kinds_get?_eq_none.mpr h.2]
  rfl

/-- A listed document that enters them is prior art. -/
theorem priorArt_of_inventive {docId : String} (hl : payload.Listed docId)
    (h : docId ∈ inventiveDocs payload.rows payload.kinds) :
    payload.kinds.get? docId = some .priorArt := by
  have hkind := (mem_inventiveDocs.mp h).2
  rw [Dict.getD] at hkind
  cases hget : payload.kinds.get? docId with
  | none => exact absurd hl (kinds_get?_eq_none.mp hget)
  | some kind =>
      rw [hget] at hkind
      rw [← hkind]
      rfl

/-- Every compared document has a row. -/
private theorem exists_rowOf {docId : String}
    (h : docId ∈ payload.rows.map FeatureComparisonRow.docId) :
    ∃ row ∈ rowsOf payload.rows docId, row.docId = docId := by
  obtain ⟨row, hrow, rfl⟩ := List.mem_map.mp h
  exact ⟨row, by simp [hrow], rfl⟩

private theorem docId_of_mem_rowsOf {rows : List FeatureComparisonRow}
    {docId : String} {row : FeatureComparisonRow}
    (h : row ∈ rowsOf rows docId) : row.docId = docId := by
  simpa using (List.mem_filter.mp h).2

/-- The results of `assess_case` stay within the documents the date gate
classified exactly when no unlisted document makes a difference. -/
theorem gateBound_iff_unlisted_inert (h : assessCase payload = some pkg) :
    GateBound payload pkg ↔ UnlistedInert payload := by
  obtain ⟨hkinds, hnovelty, hcombination, hscaffold⟩ := assessCase_gates h
  constructor
  · intro hbound
    refine ⟨fun docId hun hpos hcov => ?_,
      fun hpos first hfirst second hsecond hlt hun hcov => ?_,
      fun docId hun => ?_⟩
    · -- the finding it carries would name it
      have hbar : ¬ Barred payload.kinds docId := by
        rw [Barred, kinds_get?_eq_none.mpr hun.2]
        simp
      obtain ⟨f, hf⟩ := exists_noveltyFinding hbar hcov
      obtain ⟨hkind, hbasis, -, -⟩ := noveltyFinding_eq_some hf
      have hin := (hnovelty f hkind).mpr
        (mem_noveltyFindings.mpr ⟨hpos, docId, hun.1, hf⟩)
      obtain ⟨row, hrow, rfl⟩ := exists_rowOf hun.1
      exact hun.2 (hbound.novelty f hin hkind row ((hbasis row).mpr hrow)).1
    · obtain ⟨f, hf⟩ := exists_combinationFinding hcov
      obtain ⟨hkind, hbasis, -⟩ := combinationFinding_eq_some hf
      have hin := (hcombination f hkind).mpr (mem_combinationFindings.mpr
        ⟨hpos, first, hfirst, second, hsecond, hlt, hf⟩)
      have hnamed : ∀ docId, (∀ row ∈ rowsOf payload.rows docId,
          row ∈ rowsOf payload.rows first ++ rowsOf payload.rows second) →
          ¬ payload.Unlisted docId := by
        intro docId hsub hun
        obtain ⟨row, hrow, rfl⟩ := exists_rowOf hun.1
        exact hun.2 (hbound.combination f hin hkind row
          ((hbasis row).mpr (hsub row hrow))).1
      rcases hun with hun | hun
      · exact hnamed first (fun _ => List.mem_append_left _) hun
      · exact hnamed second (fun _ => List.mem_append_right _) hun
    · -- the best-scoring document is listed, so it is another one
      have hdoc := inventive_of_unlisted hun
      cases hs : threeStepScaffold payload.rows payload.kinds with
      | none =>
          rw [threeStepScaffold_eq_none.mp hs] at hdoc
          cases hdoc
      | some s =>
          obtain ⟨hin, hbest⟩ := threeStepScaffold_eq_some hs
          have hlisted := (hbound.closest s (hscaffold.trans hs)).1
          refine ⟨s.closestPriorArt, hin,
            lt_of_le_of_ne (hbest docId hdoc) fun heq => ?_⟩
          rw [score_injective heq] at hlisted
          exact hun.2 hlisted
  · intro hinert
    refine ⟨fun f hin hkind row hrow => ?_, fun f hin hkind row hrow => ?_,
      fun s hs => ?_⟩
    · obtain ⟨hpos, docId, hdoc, hf⟩ :=
        mem_noveltyFindings.mp ((hnovelty f hkind).mp hin)
      obtain ⟨-, hbasis, hbar, hcov⟩ := noveltyFinding_eq_some hf
      obtain rfl := docId_of_mem_rowsOf ((hbasis row).mp hrow)
      have hlisted : payload.Listed row.docId := by
        by_contra hnot
        exact hinert.alone _ ⟨hdoc, hnot⟩ hpos hcov
      refine ⟨hlisted, ?_⟩
      rw [hkinds]
      cases hget : payload.kinds.get? row.docId with
      | none => exact absurd hlisted (kinds_get?_eq_none.mp hget)
      | some kind =>
          rw [Barred, hget] at hbar
          revert hbar
          cases kind <;> simp
    · obtain ⟨hpos, first, hfirst, second, hsecond, hlt, hf⟩ :=
        mem_combinationFindings.mp ((hcombination f hkind).mp hin)
      obtain ⟨-, hbasis, hcov⟩ := combinationFinding_eq_some hf
      have hlisted : ∀ docId, docId = first ∨ docId = second →
          payload.Listed docId := by
        intro docId hor
        by_contra hnot
        refine hinert.paired hpos first hfirst second hsecond hlt ?_ hcov
        rcases hor with rfl | rfl
        · exact Or.inl ⟨(mem_inventiveDocs.mp hfirst).1, hnot⟩
        · exact Or.inr ⟨(mem_inventiveDocs.mp hsecond).1, hnot⟩
      have hrowdoc : row.docId = first ∨ row.docId = second :=
        (List.mem_append.mp ((hbasis row).mp hrow)).imp docId_of_mem_rowsOf
          docId_of_mem_rowsOf
      refine ⟨hlisted _ hrowdoc, ?_⟩
      rw [hkinds]
      refine priorArt_of_inventive (hlisted _ hrowdoc) ?_
      rcases hrowdoc with heq | heq
      · exact heq ▸ hfirst
      · exact heq ▸ hsecond
    · obtain ⟨hdoc, hbest⟩ := threeStepScaffold_eq_some (hscaffold.symm.trans hs)
      have hlisted : payload.Listed s.closestPriorArt := by
        by_contra hnot
        obtain ⟨other, hother, hlt⟩ :=
          hinert.ranked _ ⟨(mem_inventiveDocs.mp hdoc).1, hnot⟩
        exact absurd (hbest other hother) (not_le.mpr hlt)
      exact ⟨hlisted, hkinds ▸ priorArt_of_inventive hlisted hdoc⟩

end Package

/-- One feature, compared with D1 and judged identical; the only listed
document is D2. -/
def unlistedPayload : AssessmentInput :=
  { subject := { filingDate := .ofNumbers 2024 1 1 (.refl true) }
    documents := [{ docId := "D2", publicationNumber := "D2", title := "" }]
    rows := [{ featureCode := "F1", docId := "D1", judgment := "identical" }] }

theorem gateBound_iff_unlisted_inert_on_sample :
    ∃ pkg, assessCase unlistedPayload = some pkg
      ∧ (GateBound unlistedPayload pkg ↔ UnlistedInert unlistedPayload) :=
  ⟨_, rfl, gateBound_iff_unlisted_inert rfl⟩

/-- D1 is named as the closest prior art although no date of it was ever
checked. -/
theorem unlisted_document_passes :
    ∃ pkg, assessCase unlistedPayload = some pkg
      ∧ ¬ GateBound unlistedPayload pkg := by
  refine ⟨_, rfl, fun hbound => ?_⟩
  have hlisted : unlistedPayload.Listed "D1" := (hbound.closest _ rfl).1
  revert hlisted
  unfold AssessmentInput.Listed
  decide

end PatentEvidence.Assessment
