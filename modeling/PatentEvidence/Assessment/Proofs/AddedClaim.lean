/-
One more priority claim.

A claim that is added can only add to the claims that count for a
document (`counted_addClaim`), and their earliest date is the date of the
gate; so every document is held against a date no later than before
(`gateDate_addClaim`) and moves, if at all, toward less usable
(`degrades_kindAt`). The coverage gates ask the rows, which do not change,
and let a document pass by its kind, the less usable the less readily: what
they still find they found before.

Nothing here asks whether the id of the claim is new.

# Sections

- the claim added;
- toward less usable;
- the findings.
-/
import PatentEvidence.Assessment.Proofs.Reference

namespace PatentEvidence.Assessment

open Grouping Keyed

-- ======================================================= the claim added

/-- The application with one more claim. -/
def SubjectApplication.addClaim (subject : SubjectApplication)
    (claim : PriorityClaim) : SubjectApplication :=
  { subject with priorityClaims := subject.priorityClaims ++ [claim] }

/-- The input with one more priority claim. -/
def AssessmentInput.addClaim (payload : AssessmentInput)
    (claim : PriorityClaim) : AssessmentInput :=
  { payload with subject := payload.subject.addClaim claim }

/-- Priority is stated by claims only: no single date stands in for them. -/
def SubjectApplication.ClaimsOnly (subject : SubjectApplication) : Prop :=
  subject.priorityClaims = [] → subject.priorityDate = none

section Added

variable {subject : SubjectApplication} {claim : PriorityClaim}

theorem claims_of_claimsOnly (h : subject.ClaimsOnly) :
    subject.claims = subject.priorityClaims := by
  rw [SubjectApplication.claims]
  by_cases hempty : subject.priorityClaims = []
  · rw [if_neg (not_not.mpr hempty), h hempty, hempty]
  · rw [if_pos hempty]

theorem claims_addClaim (h : subject.ClaimsOnly) :
    (subject.addClaim claim).claims = subject.claims ++ [claim] := by
  have hne : subject.priorityClaims ++ [claim] ≠ [] := by simp
  rw [claims_of_claimsOnly h, SubjectApplication.claims,
    SubjectApplication.addClaim, if_pos hne]

/-- The claims that held still do. -/
theorem holding_addClaim (h : subject.ClaimsOnly) {c : PriorityClaim}
    (hc : c ∈ subject.holding) : c ∈ (subject.addClaim claim).holding := by
  rw [SubjectApplication.holding, claims_addClaim h]
  obtain ⟨hin, hholds⟩ := List.mem_filter.mp hc
  exact List.mem_filter.mpr ⟨List.mem_append_left _ hin, hholds⟩

/-- The claims that counted still do. -/
theorem counted_addClaim (h : subject.ClaimsOnly)
    (rows : List FeatureComparisonRow) (docId : String) :
    ∀ c ∈ subject.counted rows docId,
      c ∈ (subject.addClaim claim).counted rows docId := by
  intro c hc
  rw [SubjectApplication.counted] at hc ⊢
  split at hc
  · next hrows =>
      rw [if_pos hrows, claims_addClaim h]
      obtain ⟨hin, hid⟩ := List.mem_filter.mp hc
      obtain ⟨d, hd, heq⟩ := List.mem_map.mp (of_decide_eq_true hid)
      exact List.mem_filter.mpr ⟨List.mem_append_left _ hin,
        decide_eq_true (List.mem_map.mpr ⟨d, holding_addClaim h hd, heq⟩)⟩
  · next hrows =>
      rw [if_neg hrows]
      obtain ⟨hin, hcovers⟩ := List.mem_filter.mp hc
      exact List.mem_filter.mpr ⟨holding_addClaim h hin, hcovers⟩

/-- No document is held against a later date. -/
theorem gateDate_addClaim (h : subject.ClaimsOnly)
    (rows : List FeatureComparisonRow) (docId : String) :
    (subject.addClaim claim).gateDate rows docId
      ≤ subject.gateDate rows docId := by
  refine foldl_min_anti (fun date hdate => ?_) subject.filingDate
  obtain ⟨c, hc, rfl⟩ := List.mem_map.mp hdate
  exact List.mem_map_of_mem (counted_addClaim h rows docId c hc)

/-- If every deadline with the claim is on the calendar, so is every
deadline without it. -/
theorem dated_of_addClaim (h : subject.ClaimsOnly)
    (hdated : (subject.addClaim claim).Dated) : subject.Dated := by
  intro c hc
  refine hdated c ?_
  rw [claims_addClaim h]
  exact List.mem_append_left _ hc

end Added

-- ==================================================== toward less usable

/-- Toward less usable: prior art, conflicting application, not usable.
What is unknown stays so, and nothing becomes so. -/
structure Degrades (before after : ReferenceKind) : Prop where
  severity : before.severity ≤ after.severity
  unknown : before = .unknown ↔ after = .unknown

theorem kindAt_eq_unknown_iff {document : CandidateDocument} {date : Date} :
    kindAt document date = .unknown
      ↔ document.publicationDate = none
        ∨ document.effectiveFilingDate = none := by
  rw [kindAt]
  cases document.publicationDate with
  | none => simp
  | some published =>
      cases document.effectiveFilingDate with
      | none => simp
      | some filed =>
          dsimp only
          split
          · simp
          · split <;> simp

theorem degrades_kindAt (document : CandidateDocument) {early late : Date}
    (h : early ≤ late) :
    Degrades (kindAt document late) (kindAt document early) where
  severity := severity_kindAt document h
  unknown := kindAt_eq_unknown_iff.trans kindAt_eq_unknown_iff.symm

/-- Each document's kind degrades, and the same documents have one. -/
def KindsDegrade (before after : Dict String ReferenceKind) : Prop :=
  ∀ docId, Option.Rel Degrades (before.get? docId) (after.get? docId)

/-- The kind of a document, by the date it is held against. -/
theorem get?_kinds {payload : AssessmentInput} (h : payload.subject.Dated)
    (docId : String) :
    payload.kinds.get? docId
      = ((lastByKey CandidateDocument.docId payload.documents).get? docId).map
        fun document =>
          kindAt document (payload.subject.gateDate payload.rows docId) := by
  obtain ⟨verification, hverify⟩ := Option.ne_none_iff_exists'.mp
    ((verifyPriority_ne_none_iff (sortedFeatureCodes payload.rows)).mpr h)
  rw [AssessmentInput.kinds, hverify, get?_classifyAllReferences hverify]

theorem kindsDegrade_addClaim {payload : AssessmentInput}
    {claim : PriorityClaim} (h : payload.subject.ClaimsOnly)
    (hdated : (payload.addClaim claim).subject.Dated) :
    KindsDegrade payload.kinds (payload.addClaim claim).kinds := by
  intro docId
  rw [get?_kinds (dated_of_addClaim h hdated), get?_kinds hdated]
  show Option.Rel Degrades (Option.map _ _)
    (Option.map _ ((lastByKey CandidateDocument.docId payload.documents).get?
      docId))
  cases (lastByKey CandidateDocument.docId payload.documents).get? docId with
  | none => exact .none
  | some document =>
      exact .some (degrades_kindAt document
        (gateDate_addClaim h payload.rows docId))

section Kinds

variable {before after : Dict String ReferenceKind}

/-- What has a kind keeps one, which may have got worse. -/
theorem KindsDegrade.exists_kind (h : KindsDegrade before after)
    {docId : String} {kind : ReferenceKind} (hkind : before.get? docId = some kind) :
    ∃ kind', after.get? docId = some kind' ∧ Degrades kind kind' := by
  have hrel := h docId
  rw [hkind] at hrel
  cases hafter : after.get? docId with
  | none =>
      rw [hafter] at hrel
      cases hrel
  | some kind' =>
      rw [hafter] at hrel
      cases hrel with
      | some hdegrades => exact ⟨kind', rfl, hdegrades⟩

/-- A document ruled out stays ruled out. -/
theorem barred_of_kindsDegrade (h : KindsDegrade before after)
    {docId : String} (hbarred : Barred before docId) : Barred after docId := by
  rcases hbarred with hkind | hkind
  · obtain ⟨kind, hafter, hdegrades⟩ := h.exists_kind hkind
    have hseverity := hdegrades.severity
    cases kind with
    | priorArt => exact absurd hseverity (by decide)
    | conflictingApplication => exact absurd hseverity (by decide)
    | notUsable => exact .inl hafter
    | unknown => exact .inr hafter
  · obtain ⟨kind, hafter, hdegrades⟩ := h.exists_kind hkind
    rw [hdegrades.unknown.mp rfl] at hafter
    exact .inr hafter

/-- A document that enters the inventive-step gates entered them before. -/
theorem inventive_of_kindsDegrade (h : KindsDegrade before after)
    {rows : List FeatureComparisonRow} {docId : String}
    (hin : docId ∈ inventiveDocs rows after) :
    docId ∈ inventiveDocs rows before := by
  obtain ⟨hrows, hkind⟩ := mem_inventiveDocs.mp hin
  refine mem_inventiveDocs.mpr ⟨hrows, ?_⟩
  have hrel := h docId
  rw [Dict.getD] at hkind ⊢
  generalize before.get? docId = k at hrel ⊢
  generalize after.get? docId = k' at hrel hkind
  cases hrel with
  | none => rfl
  | @some kind kind' hdegrades =>
      rw [Option.getD_some] at hkind ⊢
      have hseverity := hdegrades.severity
      rw [hkind] at hseverity
      exact severity_injective (Nat.le_zero.mp hseverity)

end Kinds

-- ============================================================ the findings

/-- The same risk: its kind, its level and, as the basis lists them, the
rows of the same document or documents. -/
structure SameRisk (f f' : AssessmentFinding) : Prop where
  riskKind : f.riskKind = f'.riskKind
  level : f.level = f'.level
  basis : f.basis = f'.basis

/-- What the rows of a document amount to does not depend on its kind. -/
theorem sameRisk_noveltyFinding {totalFeatures : Int}
    {before after : Dict String ReferenceKind} {docId : String}
    {docRows : List FeatureComparisonRow} {f f' : AssessmentFinding}
    (hf : noveltyFinding totalFeatures before docId docRows = some f)
    (hf' : noveltyFinding totalFeatures after docId docRows = some f') :
    SameRisk f f' := by
  simp only [noveltyFinding] at hf hf'
  split at hf
  · cases hf
  split at hf'
  · cases hf'
  split at hf
  · next hidentical =>
      rw [if_pos hidentical] at hf'
      cases hf
      cases hf'
      exact ⟨rfl, rfl, rfl⟩
  · next hidentical =>
      rw [if_neg hidentical] at hf'
      split at hf
      · next hcovering =>
          rw [if_pos hcovering] at hf'
          cases hf
          cases hf'
          exact ⟨rfl, rfl, rfl⟩
      · cases hf

theorem novelty_of_kindsDegrade {rows : List FeatureComparisonRow}
    {totalFeatures : Int} {before after : Dict String ReferenceKind}
    (h : KindsDegrade before after) {f' : AssessmentFinding}
    (hf' : f' ∈ noveltyFindings rows totalFeatures after) :
    ∃ f ∈ noveltyFindings rows totalFeatures before, SameRisk f f' := by
  obtain ⟨hpos, docId, hin, hsome'⟩ := mem_noveltyFindings.mp hf'
  obtain ⟨-, -, hbar, hcovers⟩ := noveltyFinding_eq_some hsome'
  obtain ⟨f, hsome⟩ := exists_noveltyFinding
    (fun hbarred => hbar (barred_of_kindsDegrade h hbarred)) hcovers
  exact ⟨f, mem_noveltyFindings.mpr ⟨hpos, docId, hin, hsome⟩,
    sameRisk_noveltyFinding hsome hsome'⟩

theorem combination_of_kindsDegrade {rows : List FeatureComparisonRow}
    {totalFeatures : Int} {before after : Dict String ReferenceKind}
    (h : KindsDegrade before after) {f : AssessmentFinding}
    (hf : f ∈ combinationFindings rows totalFeatures after) :
    f ∈ combinationFindings rows totalFeatures before := by
  obtain ⟨hpos, first, hfirst, second, hsecond, hlt, hsome⟩ :=
    mem_combinationFindings.mp hf
  exact mem_combinationFindings.mpr ⟨hpos, first,
    inventive_of_kindsDegrade h hfirst, second,
    inventive_of_kindsDegrade h hsecond, hlt, hsome⟩

theorem exists_priorityVerificationFindings {subject : SubjectApplication}
    {codes : List String} {verification : PriorityVerification}
    (h : verifyPriority subject codes = some verification) :
    ∃ findings, priorityVerificationFindings subject codes = some findings := by
  rw [priorityVerificationFindings, h, Option.bind_eq_bind, Option.bind_some]
  split
  · exact ⟨_, rfl⟩
  · exact ⟨_, rfl⟩

/-- An assessment raises only past the calendar. -/
theorem assessCase_ne_none_iff {payload : AssessmentInput} :
    assessCase payload ≠ none ↔ payload.subject.Dated := by
  rw [← verifyPriority_ne_none_iff (sortedFeatureCodes payload.rows)]
  constructor
  · intro h
    obtain ⟨pkg, hpkg⟩ := Option.ne_none_iff_exists'.mp h
    obtain ⟨verification, hverify, -⟩ := Option.bind_eq_some_iff.mp hpkg
    rw [hverify]
    exact Option.some_ne_none _
  · intro h hnone
    obtain ⟨verification, hverify⟩ := Option.ne_none_iff_exists'.mp h
    obtain ⟨findings, hfindings⟩ := exists_priorityVerificationFindings hverify
    have hrest := Option.bind_eq_none_iff.mp
      (Option.bind_eq_none_iff.mp hnone _ hverify) _ hfindings
    cases hrest

/-- A claim that is added adds no risk: every novelty or combination
finding was there before, and every document's kind moves only toward less
usable. -/
theorem added_claim_adds_no_risk {payload : AssessmentInput}
    {claim : PriorityClaim} {pkg' : AssessmentPackage}
    (hclaims : payload.subject.ClaimsOnly)
    (h : assessCase (payload.addClaim claim) = some pkg') :
    ∃ pkg, assessCase payload = some pkg
      ∧ (∀ f' ∈ pkg'.findings,
          f'.riskKind = .novelty ∨ f'.riskKind = .inventiveCombination →
          ∃ f ∈ pkg.findings, SameRisk f f')
      ∧ KindsDegrade pkg.referenceKinds pkg'.referenceKinds := by
  have hdated' := assessCase_ne_none_iff.mp
    (Option.ne_none_iff_exists'.mpr ⟨pkg', h⟩)
  obtain ⟨pkg, hpkg⟩ := Option.ne_none_iff_exists'.mp
    (assessCase_ne_none_iff.mpr (dated_of_addClaim hclaims hdated'))
  obtain ⟨hkinds, hnovelty, hcombination, -⟩ := assessCase_gates hpkg
  obtain ⟨hkinds', hnovelty', hcombination', -⟩ := assessCase_gates h
  have hdegrade := kindsDegrade_addClaim hclaims hdated'
  refine ⟨pkg, hpkg, fun f' hf' hrisk => ?_, by rwa [hkinds, hkinds']⟩
  rcases hrisk with hrisk | hrisk
  · obtain ⟨f, hf, hsame⟩ := novelty_of_kindsDegrade hdegrade
      ((hnovelty' f' hrisk).mp hf')
    exact ⟨f, (hnovelty f (hsame.riskKind.trans hrisk)).mpr hf, hsame⟩
  · have hf := combination_of_kindsDegrade hdegrade
      ((hcombination' f' hrisk).mp hf')
    exact ⟨f', (hcombination f' hrisk).mpr hf, ⟨rfl, rfl, rfl⟩⟩

/-- One feature and one document, published after the date of the claim
that is added and filed before it. -/
def oneDocumentPayload : AssessmentInput where
  subject := { filingDate := .ofNumbers 2025 6 1 (.refl true) }
  documents := [{
    docId := "D1", publicationNumber := "CN1A", title := ""
    publicationDate := some (.ofNumbers 2025 1 1 (.refl true))
    filingDate := some (.ofNumbers 2024 5 1 (.refl true)) }]
  rows := [{ featureCode := "F1", docId := "D1", judgment := "identical" }]

def addedClaim : PriorityClaim :=
  { claimId := "P1", priorityDate := .ofNumbers 2024 7 1 (.refl true) }

theorem added_claim_adds_no_risk_to_one_document :
    ∃ pkg', assessCase (oneDocumentPayload.addClaim addedClaim) = some pkg'
      ∧ ∃ pkg, assessCase oneDocumentPayload = some pkg
        ∧ (∀ f' ∈ pkg'.findings,
            f'.riskKind = .novelty ∨ f'.riskKind = .inventiveCombination →
            ∃ f ∈ pkg.findings, SameRisk f f')
        ∧ KindsDegrade pkg.referenceKinds pkg'.referenceKinds := by
  have hdated : (oneDocumentPayload.addClaim addedClaim).subject.Dated := by
    unfold SubjectApplication.Dated
    decide
  obtain ⟨pkg', h⟩ := Option.ne_none_iff_exists'.mp
    (assessCase_ne_none_iff.mpr hdated)
  exact ⟨pkg', h, added_claim_adds_no_risk (fun _ => rfl) h⟩

end PatentEvidence.Assessment
