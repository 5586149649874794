/-
What a package is stored as: `to_dict` of the records of the pre-assessment
stage (modules/assessment/rules.py and package.py).

`source_coverage` is stored rounded, as the language's floating number; which
number that is, is a parameter here. `prompt_versions` is the table of the
prompts a package was made with, and nothing here depends on it.

The dictionary has the shape the difference of two versions and the
deliverables take for granted (`versionShaped_toDict`,
`packageShaped_toDict`), whatever was assessed.
-/
import PatentEvidence.Assessment.Package
import PatentEvidence.Assessment.Payload

namespace PatentEvidence.Assessment

open Json

variable {ν : Type}

-- =============================================================== texts

def ReferenceKind.text : ReferenceKind → String
  | .priorArt => "prior_art"
  | .conflictingApplication => "conflicting_application"
  | .notUsable => "not_usable"
  | .unknown => "unknown"

def RiskKind.text : RiskKind → String
  | .novelty => "novelty"
  | .inventiveCombination => "inventive_combination"
  | .referenceEligibility => "reference_eligibility"
  | .priorityVerification => "priority_verification"

def RiskLevel.text : RiskLevel → String
  | .highNoveltyRisk => "high_novelty_risk"
  | .needsConfirmation => "needs_confirmation"

def EntityObservationEffect.text : EntityObservationEffect → String
  | .mayDefeat => "may_defeat_novelty"
  | .doesNotDefeat => "does_not_defeat_novelty"
  | .undetermined => "undetermined"

/-- A list of texts. -/
def textsDict (texts : List String) : Json ν := .arr (texts.map .str)

/-- A dictionary of texts. -/
def textDict (d : Dict String String) : Json ν :=
  .obj (d.entries.map fun e => (e.1, .str e.2))

-- ============================================================= findings

def FeatureComparisonRow.toDict (row : FeatureComparisonRow) : Json ν :=
  .obj [("feature_code", .str row.featureCode), ("doc_id", .str row.docId),
    ("judgment", .str row.judgment)]

/-- `dict(item)`, of an invalid claim. -/
def InvalidClaim.toDict (claim : InvalidClaim) : Json ν :=
  .obj [("claim_id", .str claim.claimId), ("reason", .str claim.reason)]

def BasisItem.toDict : BasisItem → Json ν
  | .row cell => cell.toDict
  | .reference docId kind =>
      .obj [("doc_id", .str docId), ("kind", .str kind.text)]
  | .validClaims claimIds => .obj [("valid_claims", textsDict claimIds)]
  | .invalidClaims claims =>
      .obj [("invalid_claims", .arr (claims.map InvalidClaim.toDict))]
  | .defaultReferenceDate date => .obj [("default_reference_date", .str date)]

/-- `asdict`. -/
def AssessmentFinding.toDict (finding : AssessmentFinding) : Json ν :=
  .obj [("risk_kind", .str finding.riskKind.text),
    ("level", .str finding.level.text),
    ("basis", .arr (finding.basis.map BasisItem.toDict)),
    ("requires_human_confirmation", .bool finding.requiresHumanConfirmation),
    ("reasoning", .str finding.reasoning),
    ("rules_version", .str finding.rulesVersion)]

/-- `asdict`. -/
def EntityLevelObservation.toDict (observation : EntityLevelObservation) :
    Json ν :=
  .obj [("kind", .str observation.kind),
    ("feature_code", .str observation.featureCode),
    ("doc_id", .str observation.docId),
    ("effect", .str observation.effect.text),
    ("reasoning", .str observation.reasoning),
    ("requires_human_confirmation",
      .bool observation.requiresHumanConfirmation),
    ("rules_version", .str observation.rulesVersion)]

-- ============================================================ the parts

/-- `PriorityVerification.to_dict`. -/
def PriorityVerification.toDict (priority : PriorityVerification) : Json ν :=
  .obj [("default_reference_date",
      .str priority.defaultReferenceDate.isoformat),
    ("per_feature_reference_dates",
      .obj (sortEntries (priority.perFeatureReferenceDates.entries.map fun e =>
        (e.1, .str e.2.isoformat)))),
    ("valid_claims", textsDict priority.validClaims),
    ("invalid_claims", .arr (priority.invalidClaims.map InvalidClaim.toDict)),
    ("flags", textsDict priority.flags),
    ("requires_human_confirmation", .bool priority.requiresHumanConfirmation)]

variable [JsonNumber ν]

def numDict (n : Nat) : Json ν := .num (JsonNumber.ofInt n)

/-- `asdict`. -/
def ThreeStepScaffold.toDict (scaffold : ThreeStepScaffold) : Json ν :=
  .obj [("closest_prior_art", .str scaffold.closestPriorArt),
    ("closest_prior_art_identical", numDict scaffold.closestPriorArtIdentical),
    ("distinguishing_features", textsDict scaffold.distinguishingFeatures),
    ("actual_technical_problem", .str scaffold.actualTechnicalProblem),
    ("rules_version", .str scaffold.rulesVersion)]

/-- `asdict`, the ratio rounded. -/
def EvidenceCompleteness.toDict (rounded : Rat → ν)
    (evidence : EvidenceCompleteness) : Json ν :=
  .obj [("source_coverage", .num (rounded evidence.sourceCoverage)),
    ("verified_citations", numDict evidence.verifiedCitations),
    ("total_citations", numDict evidence.totalCitations),
    ("missing_anchors", textsDict evidence.missingAnchors),
    ("unverified_citations", textsDict evidence.unverifiedCitations),
    ("abstract_only_citations", textsDict evidence.abstractOnlyCitations),
    ("failed_sources", textsDict evidence.failedSources),
    ("partial_sources", textsDict evidence.partialSources),
    ("documents_without_legal_status_timepoint",
      textsDict evidence.documentsWithoutLegalStatusTimepoint),
    ("blocking_gaps", textsDict evidence.blockingGaps),
    ("flags", textsDict evidence.flags),
    ("blocks_conclusion", .bool evidence.blocksConclusion),
    ("level", .str evidence.level),
    ("rules_version", .str evidence.rulesVersion)]

omit [JsonNumber ν] in
/-- What `motivation_checklist_state` answers. -/
def MotivationState.toDict (state : MotivationState) : Json ν :=
  .obj [("complete", .bool state.complete),
    ("unanswered", textsDict state.unanswered),
    ("favouring_inventiveness", textsDict state.favouringInventiveness),
    ("blocks_conclusion", .bool state.blocksConclusion),
    ("rules_version", .str state.rulesVersion)]

/-- An entry of `counted`: `asdict` of the factor, and its status. -/
def countedDict (counted : AuxiliaryFactor × String) : Json ν :=
  .obj [("kind", .str counted.1.kind), ("claimed", .bool counted.1.claimed),
    ("evidence_cited", .bool counted.1.evidenceCited),
    ("causal_link_to_features", .bool counted.1.causalLinkToFeatures),
    ("status", .str counted.2)]

/-- What `evaluate_auxiliary_factors` answers. -/
def AuxiliaryReport.toDict (report : AuxiliaryReport) : Json ν :=
  .obj [("counted", .arr (report.counted.map countedDict)),
    ("unsubstantiated", textsDict report.unsubstantiated),
    ("note", .str report.note), ("rules_version", .str report.rulesVersion)]

/-- What `hindsight_risk` answers. -/
def HindsightReport.toDict (report : HindsightReport) : Json ν :=
  .obj [("hindsight_risk", .bool report.hindsightRisk),
    ("matched_statements", textsDict report.matchedStatements),
    ("guidance", .str report.guidance),
    ("rules_version", .str report.rulesVersion)]

/-- `value.to_dict() if value else None`. -/
def optionalDict {α : Type _} (toDict : α → Json ν) : Option α → Json ν
  | some value => toDict value
  | none => .null

-- ========================================================== the package

/-- The entries of `AssessmentPackage.to_dict`. -/
def AssessmentPackage.entries (rounded : Rat → ν)
    (promptVersions : Dict String String) (package : AssessmentPackage) :
    List (String × Json ν) :=
  [("rules_version", .str package.rulesVersion),
    ("reference_kinds", .obj (package.referenceKinds.entries.map fun e =>
      (e.1, .str e.2.text))),
    ("priority", package.priority.toDict),
    ("entity_observations",
      .arr (package.entityObservations.map EntityLevelObservation.toDict)),
    ("findings", .arr (package.findings.map AssessmentFinding.toDict)),
    ("three_step", optionalDict ThreeStepScaffold.toDict package.threeStep),
    ("motivation", optionalDict MotivationState.toDict package.motivation),
    ("auxiliary", package.auxiliary.toDict),
    ("hindsight", optionalDict HindsightReport.toDict package.hindsight),
    ("evidence", package.evidence.toDict rounded),
    ("blockers", textsDict package.blockers),
    ("flags", textsDict package.flags),
    ("requires_human_confirmation", .bool package.requiresHumanConfirmation),
    ("prompt_versions", textDict promptVersions)]

/-- `AssessmentPackage.to_dict`. -/
def AssessmentPackage.toDict (rounded : Rat → ν)
    (promptVersions : Dict String String) (package : AssessmentPackage) :
    Json ν :=
  .obj (package.entries rounded promptVersions)

/-- What a record takes from a package. -/
def AssessmentPackage.forRecord (rounded : Rat → ν)
    (promptVersions : Dict String String) (package : AssessmentPackage) :
    PackageDict ν where
  entries := package.entries rounded promptVersions
  rulesVersion := package.rulesVersion
  promptVersions := textDict promptVersions
  blockers := package.blockers
  flags := package.flags
  requiresHumanConfirmation := package.requiresHumanConfirmation

-- ====================================================== what it is made of

section Distinct

omit [JsonNumber ν]

@[simp] theorem distinctKeys_textsDict (texts : List String) :
    (textsDict texts : Json ν).DistinctKeys :=
  distinctKeys_arr.mpr <| List.forall_mem_map.mpr fun _ _ => distinctKeys_str _

/-- A list of dictionaries, each with distinct keys. -/
theorem distinctKeys_arr_map {α : Type _} {toDict : α → Json ν}
    (h : ∀ a, (toDict a).DistinctKeys) (l : List α) :
    (Json.arr (l.map toDict)).DistinctKeys :=
  distinctKeys_arr.mpr <| List.forall_mem_map.mpr fun a _ => h a

/-- A dictionary of texts has its keys once. -/
theorem distinctKeys_obj_map {α : Type _} (toText : α → String)
    (d : Dict String α) :
    (Json.obj (d.entries.map fun e =>
      (e.1, (.str (toText e.2) : Json ν)))).DistinctKeys := by
  refine distinctKeys_obj.mpr ⟨?_, List.forall_mem_map.mpr fun _ _ => ?_⟩
  · rw [List.map_map]
    exact d.nodup
  · exact distinctKeys_str _

@[simp] theorem InvalidClaim.distinctKeys (claim : InvalidClaim) :
    (claim.toDict : Json ν).DistinctKeys :=
  distinctKeys_obj.mpr ⟨by simp, by simp⟩

@[simp] theorem BasisItem.distinctKeys (item : BasisItem) :
    (item.toDict : Json ν).DistinctKeys := by
  cases item with
  | row cell => exact distinctKeys_obj.mpr ⟨by simp, by simp⟩
  | reference docId kind => exact distinctKeys_obj.mpr ⟨by simp, by simp⟩
  | validClaims claimIds => exact distinctKeys_obj.mpr ⟨by simp, by simp⟩
  | invalidClaims claims =>
      refine distinctKeys_obj.mpr ⟨by simp, ?_⟩
      simp [distinctKeys_arr_map InvalidClaim.distinctKeys]
  | defaultReferenceDate date => exact distinctKeys_obj.mpr ⟨by simp, by simp⟩

@[simp] theorem AssessmentFinding.distinctKeys (finding : AssessmentFinding) :
    (finding.toDict : Json ν).DistinctKeys := by
  refine distinctKeys_obj.mpr ⟨by simp, ?_⟩
  simp [distinctKeys_arr_map BasisItem.distinctKeys]

@[simp] theorem EntityLevelObservation.distinctKeys
    (observation : EntityLevelObservation) :
    (observation.toDict : Json ν).DistinctKeys :=
  distinctKeys_obj.mpr ⟨by simp, by simp⟩

@[simp] theorem PriorityVerification.distinctKeys
    (priority : PriorityVerification) :
    (priority.toDict : Json ν).DistinctKeys := by
  have hdates : (Json.obj (sortEntries
      (priority.perFeatureReferenceDates.entries.map fun e =>
        (e.1, (.str e.2.isoformat : Json ν))))).DistinctKeys := by
    have hkept : Reorders (.obj _) (.obj _) := .entries (perm_sortEntries
      (priority.perFeatureReferenceDates.entries.map fun e =>
        (e.1, (.str e.2.isoformat : Json ν)))).symm
    exact (hkept.keeps (distinctKeys_obj_map Date.isoformat _)).1
  refine distinctKeys_obj.mpr ⟨by simp, ?_⟩
  simp [hdates, distinctKeys_arr_map InvalidClaim.distinctKeys]

@[simp] theorem MotivationState.distinctKeys (state : MotivationState) :
    (state.toDict : Json ν).DistinctKeys :=
  distinctKeys_obj.mpr ⟨by simp, by simp⟩

@[simp] theorem AuxiliaryReport.distinctKeys (report : AuxiliaryReport) :
    (report.toDict : Json ν).DistinctKeys := by
  have hcounted (counted : AuxiliaryFactor × String) :
      (countedDict counted : Json ν).DistinctKeys :=
    distinctKeys_obj.mpr ⟨by simp, by simp⟩
  refine distinctKeys_obj.mpr ⟨by simp, ?_⟩
  simp [distinctKeys_arr_map hcounted]

@[simp] theorem HindsightReport.distinctKeys (report : HindsightReport) :
    (report.toDict : Json ν).DistinctKeys :=
  distinctKeys_obj.mpr ⟨by simp, by simp⟩

theorem distinctKeys_optionalDict {α : Type _} {toDict : α → Json ν}
    (h : ∀ a, (toDict a).DistinctKeys) (value : Option α) :
    (optionalDict toDict value).DistinctKeys := by
  cases value with
  | none => exact distinctKeys_null
  | some a => exact h a

end Distinct

@[simp] theorem ThreeStepScaffold.distinctKeys (scaffold : ThreeStepScaffold) :
    (scaffold.toDict : Json ν).DistinctKeys :=
  distinctKeys_obj.mpr ⟨by simp, by simp [numDict]⟩

@[simp] theorem EvidenceCompleteness.distinctKeys (rounded : Rat → ν)
    (evidence : EvidenceCompleteness) :
    (evidence.toDict rounded).DistinctKeys :=
  distinctKeys_obj.mpr ⟨by simp, by simp [numDict]⟩

/-- No dictionary of a package has a key twice. -/
theorem distinctKeys_toDict (rounded : Rat → ν)
    (promptVersions : Dict String String) (package : AssessmentPackage) :
    (package.toDict rounded promptVersions).DistinctKeys := by
  have hprompts : (textDict promptVersions : Json ν).DistinctKeys :=
    distinctKeys_obj_map id promptVersions
  have hkinds := distinctKeys_obj_map (ν := ν) ReferenceKind.text
    package.referenceKinds
  refine distinctKeys_obj.mpr ⟨by simp [AssessmentPackage.entries], ?_⟩
  simp [AssessmentPackage.entries, hprompts, hkinds,
    distinctKeys_arr_map EntityLevelObservation.distinctKeys,
    distinctKeys_arr_map AssessmentFinding.distinctKeys,
    distinctKeys_optionalDict ThreeStepScaffold.distinctKeys,
    distinctKeys_optionalDict MotivationState.distinctKeys,
    distinctKeys_optionalDict HindsightReport.distinctKeys]

-- ============================================================= the shape

omit [JsonNumber ν] in
theorem isFinding_toDict (finding : AssessmentFinding) :
    IsFinding (finding.toDict : Json ν) := by
  refine ⟨⟨⟨_, rfl⟩, ?_⟩, .inr ⟨_, rfl, ?_⟩⟩
  · simp [AssessmentFinding.toDict, field, List.lookup_cons, hashable]
  · refine List.forall_mem_map.mpr fun item _ => ?_
    cases item <;> exact ⟨⟨_, rfl⟩, by simp [BasisItem.toDict,
      FeatureComparisonRow.toDict, field, List.lookup_cons, hashable]⟩

omit [JsonNumber ν] in
theorem isObservation_toDict (observation : EntityLevelObservation) :
    IsObservation (observation.toDict : Json ν) := by
  refine ⟨⟨_, rfl⟩, ?_⟩
  simp [EntityLevelObservation.toDict, field, List.lookup_cons, hashable]

/-- The difference of two versions can read any package that is stored. -/
theorem versionShaped_toDict (rounded : Rat → ν)
    (promptVersions : Dict String String) (package : AssessmentPackage) :
    VersionShaped (package.toDict rounded promptVersions) where
  isObject := ⟨_, rfl⟩
  distinct := distinctKeys_toDict rounded promptVersions package
  blockers := .inr ⟨package.blockers, rfl⟩
  flags := .inr ⟨package.flags, rfl⟩
  promptVersions := .inr ⟨_, rfl⟩
  findings := .inr ⟨_, rfl, List.forall_mem_map.mpr fun finding _ =>
    isFinding_toDict finding⟩
  entityObservations := .inr ⟨_, rfl, List.forall_mem_map.mpr fun observation _ =>
    isObservation_toDict observation⟩
  evidence := .inr ⟨_, rfl⟩
  evidenceLists := by
    intro key hkey
    simp only [evidenceLists, List.mem_cons, List.not_mem_nil, or_false] at hkey
    rcases hkey with rfl | rfl | rfl | rfl | rfl | rfl <;> exact .inr ⟨_, rfl⟩
  threeStep := by
    show IsSection (optionalDict ThreeStepScaffold.toDict package.threeStep)
    cases package.threeStep with
    | none => exact .inl rfl
    | some scaffold => exact .inr ⟨_, rfl⟩
  distinguishingFeatures := by
    show IsTexts ((optionalDict ThreeStepScaffold.toDict
      package.threeStep).field "distinguishing_features")
    cases package.threeStep with
    | none => exact .inl rfl
    | some scaffold => exact .inr ⟨scaffold.distinguishingFeatures, rfl⟩

/-- So can a deliverable. -/
theorem packageShaped_toDict (rounded : Rat → ν)
    (promptVersions : Dict String String) (package : AssessmentPackage) :
    PackageShaped (package.toDict rounded promptVersions) where
  evidence := by
    refine ⟨_, rfl, ⟨_, rfl⟩, fun key hkey => ?_⟩
    simp only [List.mem_cons, List.not_mem_nil, or_false] at hkey
    rcases hkey with rfl | rfl | rfl <;> exact ⟨_, rfl, ⟨_, rfl⟩⟩
  threeStep := by
    refine ⟨_, rfl, ?_⟩
    show optionalDict ThreeStepScaffold.toDict package.threeStep = .null
      ∨ IsObject (optionalDict ThreeStepScaffold.toDict package.threeStep)
    cases package.threeStep with
    | none => exact .inl rfl
    | some scaffold => exact .inr ⟨_, rfl⟩
  findings := ⟨_, rfl, _, rfl, List.forall_mem_map.mpr fun finding _ =>
    (isFinding_toDict finding).1.1⟩
  entityObservations := ⟨_, rfl, _, rfl, List.forall_mem_map.mpr
    fun observation _ => (isObservation_toDict observation).1⟩

/-- The version a package is stored as, with the shape it has. -/
def AssessmentPackage.stored (sha256 : String → String) (rounded : Rat → ν)
    (promptVersions : Dict String String) (context : RecordContext)
    (package : AssessmentPackage) : StoredVersion ν where
  record := buildAssessmentVersionRecord sha256
    (package.forRecord rounded promptVersions) context
  shaped := packageShaped_toDict rounded promptVersions package

/-- The version as one side of a comparison. -/
def AssessmentPackage.side (sha256 : String → String) (rounded : Rat → ν)
    (promptVersions : Dict String String) (context : RecordContext)
    (package : AssessmentPackage) : VersionSide ν where
  payload := (package.stored sha256 rounded promptVersions context).record.payload
  version := context.versionNumber
  payloadSha256 :=
    (package.stored sha256 rounded promptVersions context).record.payloadSha256
  shaped := versionShaped_toDict rounded promptVersions package

end PatentEvidence.Assessment
