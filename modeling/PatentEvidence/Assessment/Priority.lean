/-
Priority verification and the date gate (modules/assessment/rules.py).

A priority claim holds when it is no later than the filing date, within
its term, a first application and of the same subject. Under partial
priority each feature has a reference date of its own, and a document is
classified, feature by feature, by the date of the feature; the document
takes the least usable of its kinds.

The one thing that raises is a deadline past year 9999 (`addMonths`), so
`verifyPriority` answers an `Option`.
-/
import PatentEvidence.Assessment.Model
import PatentEvidence.Lib.Grouping
import PatentEvidence.Lib.Text

namespace PatentEvidence.Assessment

open Grouping Text

-- ================================================================ terms

/-- `PRIORITY_TERM_MONTHS`, with the term of an invention for a type it
does not list. -/
def priorityTermMonths (applicationType : String) : Nat :=
  if applicationType = "design" then 6 else 12

/-- The `while` loop of `_add_months`: the last day of the month that is
no later than `day`. -/
def lastDayUpTo (year month : Nat) : Nat → Option Date
  | day + 2 =>
      match date? year month (day + 2) with
      | some d => some d
      | none => lastDayUpTo year month (day + 1)
  | _ => date? year month 1

/-- `_add_months`. -/
def addMonths (start : Date) (months : Nat) : Option Date :=
  let total := start.month - 1 + months
  lastDayUpTo (start.year + total / 12) (total % 12 + 1) start.day

-- ========================================================= verification

/-- `SubjectApplication.claims`: the single priority date stands for one
verified claim when no claims are listed. -/
def SubjectApplication.claims (subject : SubjectApplication) :
    List PriorityClaim :=
  if subject.priorityClaims ≠ [] then subject.priorityClaims
  else
    match subject.priorityDate with
    | none => []
    | some priorityDate =>
        [{ claimId := "P1", priorityDate, firstApplication := true,
           proofVerified := true }]

/-- `SubjectApplication.reference_date`. -/
def SubjectApplication.referenceDate (subject : SubjectApplication) : Date :=
  min (subject.priorityDate.getD subject.filingDate) subject.filingDate

/-- The accumulators of the first loop of `verify_priority`. -/
structure PriorityTally where
  valid : List String := []
  invalid : List InvalidClaim := []
  flags : List String := []
  covered : Dict String Date := .empty

/-- `covered[code]` keeps the earliest date. -/
def coverCode (priorityDate : Date) (covered : Dict String Date)
    (code : String) : Dict String Date :=
  match covered.get? code with
  | none => covered.set code priorityDate
  | some previous =>
      if priorityDate < previous then covered.set code priorityDate
      else covered

/-- One turn of the first loop of `verify_priority`. -/
def verifyClaim (filingDate : Date) (termMonths : Nat)
    (featureCodes : List String) (tally : PriorityTally)
    (claim : PriorityClaim) : Option PriorityTally := do
  let deadline ← addMonths claim.priorityDate termMonths
  let reject (reason : String) : PriorityTally :=
    { tally with
      invalid := tally.invalid ++ [{ claimId := claim.claimId, reason }] }
  if filingDate < claim.priorityDate then
    return reject "优先权日晚于本申请申请日"
  else if deadline < filingDate then
    return reject (s!"超出 {termMonths} 个月优先权期限（届满日 "
      ++ deadline.isoformat ++ "）")
  else if !claim.firstApplication then
    return reject "并非同一主题的第一次申请"
  else if !claim.sameSubject then
    return reject "在后申请与在先申请并非相同主题"
  else
    let flags :=
      if claim.proofVerified then tally.flags
      else tally.flags ++ [s!"优先权 {claim.claimId} 的证明文件/在先申请副本尚未核验，"
        ++ "暂按成立计算，代理师须补核验。"]
    let codes := if claim.covers ≠ [] then claim.covers else featureCodes
    return { tally with
      valid := tally.valid ++ [claim.claimId]
      flags := flags
      covered := codes.foldl (coverCode claim.priorityDate) tally.covered }

/-- The second loop of `verify_priority`: the earliest date of a claim
whose id is among the valid ones. -/
def earliestValid (valid : List String) (claims : List PriorityClaim) :
    Option Date :=
  claims.foldl (fun earliest claim =>
    if claim.claimId ∈ valid then
      match earliest with
      | none => some claim.priorityDate
      | some date =>
          if claim.priorityDate < date then some claim.priorityDate
          else some date
    else earliest) none

/-- `verify_priority`. -/
def verifyPriority (subject : SubjectApplication)
    (featureCodes : List String) : Option PriorityVerification := do
  let filingDate := subject.filingDate
  let termMonths := priorityTermMonths subject.applicationType
  let tally ← subject.claims.foldlM
    (verifyClaim filingDate termMonths featureCodes) {}
  let earliest := earliestValid tally.valid subject.claims
  let perFeature := featureCodes.foldl (fun dates code =>
    dates.set code (min (tally.covered.getD code filingDate) filingDate))
    .empty
  let missing := featureCodes.filter fun code =>
    (tally.covered.get? code).isNone
  let flags :=
    -- the source asks for a truthy code, so a blank one alone is no reason
    if tally.valid ≠ [] ∧ ∃ code ∈ missing, code ≠ "" then
      tally.flags ++ ["存在部分优先权：以下特征不在任何有效在先申请的记载范围内，"
        ++ "其基准日回落到申请日 " ++ filingDate.isoformat ++ "："
        ++ join ", " (missing.insertionSort (· ≤ ·)) ++ "。"]
    else tally.flags
  return {
    defaultReferenceDate := min (earliest.getD filingDate) filingDate
    perFeatureReferenceDates := perFeature
    validClaims := tally.valid
    invalidClaims := tally.invalid
    flags := flags
    requiresHumanConfirmation :=
      decide (tally.invalid ≠ []) || decide (flags ≠ []) }

/-- `PriorityVerification.reference_date_for`. -/
def PriorityVerification.referenceDateFor
    (verification : PriorityVerification) (featureCode : Option String) :
    Date :=
  match featureCode with
  | none => verification.defaultReferenceDate
  | some code =>
      verification.perFeatureReferenceDates.getD code
        verification.defaultReferenceDate

/-- `priority_verification_findings`. -/
def priorityVerificationFindings (subject : SubjectApplication)
    (featureCodes : List String) : Option (List AssessmentFinding) := do
  let verification ← verifyPriority subject featureCodes
  if verification.invalidClaims = [] ∧ verification.flags = [] then
    return []
  return [{
    riskKind := .priorityVerification
    level := .needsConfirmation
    basis := [.validClaims verification.validClaims,
      .invalidClaims verification.invalidClaims,
      .defaultReferenceDate verification.defaultReferenceDate.isoformat]
    requiresHumanConfirmation := true
    reasoning := "优先权核验存在不成立或存疑项："
      ++ join "；" (verification.invalidClaims.map InvalidClaim.reason)
      ++ (if verification.invalidClaims ≠ [] ∧ verification.flags ≠ [] then "；"
          else "")
      ++ join "；" verification.flags
      ++ "。权利要求层面的基准日必须由代理师确认。" }]

-- ======================================================== the date gate

/-- `CandidateDocument.effective_filing_date`. -/
def CandidateDocument.effectiveFilingDate (document : CandidateDocument) :
    Option Date :=
  match document.priorityDate, document.filingDate with
  | some priority, some filing => some (min priority filing)
  | some priority, none => some priority
  | none, some filing => some filing
  | none, none => none

/-- `classify_reference`: the date gate. -/
def classifyReference (document : CandidateDocument)
    (subject : SubjectApplication)
    (verification : Option PriorityVerification)
    (featureCode : Option String) : ReferenceKind :=
  let referenceDate :=
    match verification with
    | some verification => verification.referenceDateFor featureCode
    | none => subject.referenceDate
  match document.publicationDate, document.effectiveFilingDate with
  | some published, some earlierFiling =>
      if published < referenceDate then .priorArt
      else if earlierFiling < referenceDate ∧ document.filedInChina then
        .conflictingApplication
      else .notUsable
  | _, _ => .unknown

/-- `max(kinds, key=severity)`: the first of the least usable kinds. -/
def mostSevere : ReferenceKind → List ReferenceKind → ReferenceKind
  | worst, [] => worst
  | worst, kind :: kinds =>
      mostSevere (if worst.severity < kind.severity then kind else worst) kinds

/-- `_rows_by_doc`. -/
def rowsByDoc (rows : List FeatureComparisonRow) :
    Dict String (List FeatureComparisonRow) :=
  groupBy FeatureComparisonRow.docId rows

/-- `sorted({row.feature_code for row in rows})`. -/
def sortedFeatureCodes (rows : List FeatureComparisonRow) : List String :=
  (rows.map FeatureComparisonRow.featureCode).dedup.insertionSort (· ≤ ·)

/-- The kind of one document in `classify_all_references`. -/
def classifyDocument (subject : SubjectApplication)
    (verification : Option PriorityVerification)
    (rows : List FeatureComparisonRow) (document : CandidateDocument) :
    ReferenceKind :=
  let codes := sortedFeatureCodes ((rowsByDoc rows).getD document.docId [])
  match verification, codes with
  | some verification, code :: codes =>
      let kindFor (code : String) : ReferenceKind :=
        classifyReference document subject (some verification) (some code)
      mostSevere (kindFor code) (codes.map kindFor)
  | verification, _ => classifyReference document subject verification none

/-- `classify_all_references`: the last document of an id decides. -/
def classifyAllReferences (documents : List CandidateDocument)
    (subject : SubjectApplication)
    (verification : Option PriorityVerification)
    (rows : List FeatureComparisonRow) : Dict String ReferenceKind :=
  documents.foldl (fun kinds document =>
    kinds.set document.docId
      (classifyDocument subject verification rows document)) .empty

/-- `reference_eligibility_findings`: which references may be used, and
for what. -/
def referenceEligibilityFindings (documents : List CandidateDocument)
    (subject : SubjectApplication)
    (verification : Option PriorityVerification)
    (kinds : Dict String ReferenceKind) : List AssessmentFinding :=
  let resolved :=
    if kinds.entries ≠ [] then kinds
    else classifyAllReferences documents subject verification []
  let basisDate :=
    match verification with
    | some verification => verification.defaultReferenceDate
    | none => subject.referenceDate
  documents.filterMap fun document =>
    let docId := document.docId
    let kind := resolved.getD docId .unknown
    let finding (reasoning : String) : AssessmentFinding :=
      { riskKind := .referenceEligibility
        level := .needsConfirmation
        basis := [.reference docId kind]
        requiresHumanConfirmation := true
        reasoning := reasoning }
    match kind with
    | .priorArt => none
    | .conflictingApplication => some <| finding <|
        s!"对比文件 {docId} 为抵触申请：可用于评价新颖性，"
          ++ "不得用于评价创造性，也不得作为最接近的现有技术。"
    | .notUsable => some <| finding <|
        s!"对比文件 {docId} 公开日晚于本申请基准日 " ++ basisDate.isoformat
          ++ " 且并非在先申请，不能用于评价新颖性或创造性。"
    | .unknown => some <| finding <|
        s!"对比文件 {docId} 缺少公开日或申请日/优先权日，"
          ++ "无法完成日期门禁，证据不足，不得用于任何评价。"

end PatentEvidence.Assessment
