/-
The candidate deliverable of one frozen version
(modules/assessment/deliverable.py) and the three gates over delivering it
(apps/api/…/assessment/services.py).

The gates are written apart: the case gate looks for an approved version
without blockers itself, the attachment asks the case gate's search and
then judges the version it has chosen once more, and the deliverable
carries the verdict of the report's conclusion gate.

A stored payload is a package's `to_dict()` and carries that shape as a
proof (`StoredVersion`), so reading it for a deliverable cannot raise.
-/
import PatentEvidence.Assessment.Records
import PatentEvidence.Reports.Conclusion

namespace PatentEvidence.Assessment

open Json Reports

variable {ν : Type _}

-- ============================================================= payloads

def IsObject (value : Json ν) : Prop := ∃ entries, value = .obj entries

def IsList (value : Json ν) : Prop := ∃ items, value = .arr items

/-- A list of objects. -/
def IsRecords (value : Json ν) : Prop :=
  ∃ items, value = .arr items ∧ ∀ item ∈ items, IsObject item

/-- What `AssessmentPackage.to_dict` guarantees of the parts a deliverable
reads. -/
structure PackageShaped (payload : Json ν) : Prop where
  evidence : ∃ evidence, payload.get "evidence" = .ok evidence
    ∧ IsObject evidence
    ∧ ∀ key ∈ ["missing_anchors", "unverified_citations", "failed_sources"],
      ∃ items, evidence.get key = .ok items ∧ IsList items
  threeStep : ∃ scaffold, payload.get "three_step" = .ok scaffold
    ∧ (scaffold = .null ∨ IsObject scaffold)
  findings : ∃ findings, payload.get "findings" = .ok findings
    ∧ IsRecords findings
  entityObservations : ∃ observations,
    payload.get "entity_observations" = .ok observations
      ∧ IsRecords observations

-- ========================================================== deliverables

/-- `DELIVERABLE_VERSION`. -/
def deliverableVersion : String := "assessment-deliverable-v1"

/-- `CANDIDATE_NOTICE`. -/
def candidateNotice : String :=
  "本预评估意见全部内容为候选信号，须人工确认，不构成专利性结论或审查/授权前景意见。"

/-- `STATUS_CAVEAT`. -/
def statusCaveat : String :=
  "复核状态仅表示本候选评估包是否通过内部复核，不代表该方案具备专利性或可授权。"

/-- `VERSION_FREEZE_TEMPLATE`, filled in. -/
def versionFreezeDeclaration (version : Nat) (sha generatedAt : String) :
    String :=
  "本意见基于冻结的预评估版本 v" ++ toString version ++ "（内容摘要 " ++ sha
    ++ "）生成于 " ++ generatedAt ++ "。"
    ++ "该版本此后若发生修订将产生新的版本号，本意见不随之更新；"
    ++ "如需引用最新版本，须重新生成本意见。"

structure DeliverableEvidence (ν : Type _) where
  sourceCoverage : Json ν
  verifiedCitations : Json ν
  totalCitations : Json ν
  missingAnchors : Nat
  unverifiedCitations : Nat
  failedSources : Nat
  blocksConclusion : Bool

structure DeliverableThreeStep (ν : Type _) where
  closestPriorArt : Json ν
  closestPriorArtIdentical : Json ν
  distinguishingFeatures : Json ν
  actualTechnicalProblem : Json ν
  note : String := "三步法脚手架为待代理师填写的部分，照实留空，非结论。"

structure DeliverableFinding (ν : Type _) where
  riskKind : Json ν
  level : Json ν
  basis : Json ν
  requiresHumanConfirmation : Bool

structure DeliverableObservation (ν : Type _) where
  kind : Json ν
  featureCode : Json ν
  docId : Json ν
  effect : Json ν
  reasoning : Json ν
  requiresHumanConfirmation : Bool := true

structure AssessmentDeliverable (ν : Type _) where
  deliverableVersion : String
  versionNumber : Nat
  rulesVersion : String
  promptVersions : Json ν
  payloadSha256 : String
  status : String
  statusLabel : String
  statusCaveat : String
  requiresHumanConfirmation : Bool
  candidateNotice : String
  blockers : List String
  flags : List String
  evidence : DeliverableEvidence ν
  threeStep : DeliverableThreeStep ν
  findings : List (DeliverableFinding ν)
  entityObservations : List (DeliverableObservation ν)
  eligibility : ConclusionEligibility
  publicationDisclaimer : String
  versionFreezeDeclaration : String
  generatedAt : String

section Building

variable [JsonNumber ν]

/-- The whole number `n` as a value. -/
def ofNat (n : Nat) : Json ν := .num (JsonNumber.ofInt n)

/-- `len(data.get(key) or [])`. -/
def countOf (data : Json ν) (key : String) : Py Nat := do
  ((← data.get key).orElse (.arr [])).len

def deliverableEvidence (evidence : Json ν) : Py (DeliverableEvidence ν) := do
  return {
    sourceCoverage := ← evidence.getD "source_coverage" (.str "N/A")
    verifiedCitations := ← evidence.getD "verified_citations" (ofNat 0)
    totalCitations := ← evidence.getD "total_citations" (ofNat 0)
    missingAnchors := ← countOf evidence "missing_anchors"
    unverifiedCitations := ← countOf evidence "unverified_citations"
    failedSources := ← countOf evidence "failed_sources"
    blocksConclusion := (← evidence.get "blocks_conclusion").truthy }

def deliverableThreeStep (scaffold : Json ν) : Py (DeliverableThreeStep ν) := do
  return {
    closestPriorArt := ← scaffold.get "closest_prior_art"
    closestPriorArtIdentical :=
      ← scaffold.getD "closest_prior_art_identical" (ofNat 0)
    distinguishingFeatures :=
      (← scaffold.get "distinguishing_features").orElse (.arr [])
    actualTechnicalProblem := ← scaffold.get "actual_technical_problem" }

def deliverableFinding (finding : Json ν) : Py (DeliverableFinding ν) := do
  return {
    riskKind := ← finding.get "risk_kind"
    level := ← finding.get "level"
    basis := (← finding.get "basis").orElse (.arr [])
    requiresHumanConfirmation :=
      (← finding.getD "requires_human_confirmation" (.bool true)).truthy }

def deliverableObservation (obs : Json ν) : Py (DeliverableObservation ν) := do
  return {
    kind := ← obs.get "kind"
    featureCode := ← obs.get "feature_code"
    docId := ← obs.get "doc_id"
    effect := ← obs.get "effect"
    reasoning := ← obs.get "reasoning" }

/-- `build_assessment_deliverable`, at the clock reading `now`. -/
def buildAssessmentDeliverable (record : AssessmentVersionRecord ν)
    (status : String) (eligibility : ConclusionEligibility) (now : Instant) :
    Py (AssessmentDeliverable ν) := do
  let payload := record.payload.orElse (.obj [])
  let evidence := (← payload.get "evidence").orElse (.obj [])
  let scaffold := (← payload.get "three_step").orElse (.obj [])
  let findings := (← payload.get "findings").orElse (.arr [])
  let observations := (← payload.get "entity_observations").orElse (.arr [])
  return {
    deliverableVersion := deliverableVersion
    versionNumber := record.versionNumber
    rulesVersion := record.rulesVersion
    promptVersions := record.promptVersions
    payloadSha256 := record.payloadSha256
    status
    statusLabel := statusLabel status (textOr status "未知")
    statusCaveat := statusCaveat
    requiresHumanConfirmation := record.requiresHumanConfirmation
    candidateNotice := candidateNotice
    blockers := record.blockers
    flags := record.flags
    evidence := ← deliverableEvidence evidence
    threeStep := ← deliverableThreeStep scaffold
    findings := ← (← findings.iter).mapM deliverableFinding
    entityObservations := ← (← observations.iter).mapM deliverableObservation
    eligibility
    publicationDisclaimer := publicationDisclaimer
    versionFreezeDeclaration := versionFreezeDeclaration record.versionNumber
      record.payloadSha256 now.isoformat
    generatedAt := now.isoformat }

end Building

-- ============================================================== the case

/-- A row of `assessment_versions`. -/
structure StoredVersion (ν : Type _) where
  record : AssessmentVersionRecord ν
  shaped : PackageShaped record.payload

/-- `assessment_versions`: ids are primary keys, and a case has each
version number once. -/
structure AssessmentVersions (ν : Type _) where
  rows : List (StoredVersion ν)
  numbered : (rows.map fun v =>
    (v.record.caseId, v.record.versionNumber)).Nodup

inductive DeliveryError
  | http (status : Nat) (detail : String)
  | raised (exception : Raised)
  deriving DecidableEq

/-- An exception of the language as the service passes it on. -/
def liftRaised {α : Type _} : Py α → Except DeliveryError α
  | .ok a => .ok a
  | .error e => .error (.raised e)

section Services

variable [JsonNumber ν] (versions : AssessmentVersions ν) (log : ReviewTable)
  (organizationId caseId : String)

/-- The rows of the case. -/
def AssessmentVersions.ofCase : List (StoredVersion ν) :=
  versions.rows.filter fun v =>
    v.record.organizationId = organizationId ∧ v.record.caseId = caseId

/-- `get_version`. -/
def AssessmentVersions.getVersion (versionNumber : Nat) :
    Except DeliveryError (AssessmentVersionRecord ν) :=
  match (versions.ofCase organizationId caseId).find? fun v =>
      v.record.versionNumber = versionNumber with
  | some row => .ok (rowToRecord row.record)
  | none => .error (.http 404 "assessment_version_not_found")

/-- `list_versions`, newest first. -/
def AssessmentVersions.listVersions : List (AssessmentVersionRecord ν) :=
  ((versions.ofCase organizationId caseId).insertionSort fun a b =>
    b.record.versionNumber ≤ a.record.versionNumber).map
      fun row => rowToRecord row.record

/-- `current_status`. -/
def currentStatus (versionNumber : Nat) : Except DeliveryError VersionStatus := do
  let version ← versions.getVersion organizationId caseId versionNumber
  return deriveStatus (decisionSequence log version.toVersionRecord)

/-- The facts `build_deliverable` puts to the conclusion gate. -/
def deliverySummary (version : AssessmentVersionRecord ν) (status : String) :
    AssessmentSummary :=
  { hasVersion := true
    versionNumber := some version.versionNumber
    status := some status
    blockers := version.blockers
    payloadSha256 := some version.payloadSha256 }

/-- `build_deliverable`. -/
def buildDeliverable (now : Instant) (versionNumber : Nat) :
    Except DeliveryError (AssessmentDeliverable ν) := do
  let version ← versions.getVersion organizationId caseId versionNumber
  let status ← currentStatus versions log organizationId caseId versionNumber
  let eligibility := evaluateConclusionEligibility
    (deliverySummary version status.value)
  liftRaised (buildAssessmentDeliverable version status.value eligibility now)

/-- The loop of `_latest_gate_satisfied_version`. -/
def firstSatisfied : List (AssessmentVersionRecord ν) →
    Except DeliveryError (Option (AssessmentVersionRecord ν × VersionStatus))
  | [] => .ok none
  | candidate :: candidates => do
      let status ← currentStatus versions log organizationId caseId
        candidate.versionNumber
      if status = .approved ∧ candidate.blockers = [] then
        return some (candidate, status)
      firstSatisfied candidates

/-- `_latest_gate_satisfied_version`. -/
def latestGateSatisfiedVersion :
    Except DeliveryError (Option (AssessmentVersionRecord ν × VersionStatus)) :=
  firstSatisfied versions log organizationId caseId
    (versions.listVersions organizationId caseId)

/-- `assert_delivery_gate`. -/
def assertDeliveryGate : Except DeliveryError Unit := do
  match ← latestGateSatisfiedVersion versions log organizationId caseId with
  | none => .error (.http 409 "assessment_delivery_gate_not_satisfied")
  | some _ => .ok ()

/-- A deliverable as the delivery package lists it. -/
structure DeliveryAttachment (ν : Type _) extends AssessmentDeliverable ν where
  attachable : Bool
  attachmentReason : Option String

/-- `get_delivery_attachment`. -/
def getDeliveryAttachment (now : Instant) :
    Except DeliveryError (Option (DeliveryAttachment ν)) := do
  match versions.listVersions organizationId caseId with
  | [] => return none
  | newest :: _ =>
      let (chosen, chosenStatus) ←
        match ← latestGateSatisfiedVersion versions log organizationId caseId with
        | some satisfied => pure satisfied
        | none => do
            pure (newest, ← currentStatus versions log organizationId caseId
              newest.versionNumber)
      let deliverable ← buildDeliverable versions log organizationId caseId now
        chosen.versionNumber
      let attachable : Bool := chosenStatus = .approved ∧ chosen.blockers = []
      return some {
        deliverable with
        attachable
        attachmentReason :=
          if attachable then none
          else some "所选版本尚未达到交付附件门禁：须为已批准且无阻塞项的评估版本。" }

end Services

end PatentEvidence.Assessment
