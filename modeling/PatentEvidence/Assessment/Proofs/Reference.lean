/-
Reference dates: what verifying priority makes of the claims, and what the
date gate makes of the dates.

A claim is judged by its own dates and flags (`claimVerdict`); only a claim
that holds touches the dates, and it can only make them earlier
(`get?_foldl_coverCode`). What `verify_priority` answers is put together
from the last tally (`verifyPriority_eq`).

A document has one kind for each reference date (`kindAt`), the less
usable the earlier the date (`severity_kindAt`). The least usable kind over
a document's features is therefore the kind at the earliest of their dates
(`classifyDocument_eq`), which is all that is left of the features.

# Sections

- judging a claim;
- the verification;
- the kind at a date;
- the kind of a document;
- the date of the gate, in terms of the claims.
-/
import Mathlib.Data.List.Dedup
import PatentEvidence.Assessment.Proofs.Gate
import PatentEvidence.Lib.Keyed

namespace PatentEvidence.Assessment

open Grouping Keyed

-- ======================================================= judging a claim

/-- Why a claim does not hold, if it does not; nothing at all where its
deadline is past the calendar. -/
def claimVerdict (filingDate : Date) (termMonths : Nat) (claim : PriorityClaim) :
    Option (Option String) := do
  let deadline ← addMonths claim.priorityDate termMonths
  if filingDate < claim.priorityDate then
    return some "优先权日晚于本申请申请日"
  else if deadline < filingDate then
    return some (s!"超出 {termMonths} 个月优先权期限（届满日 "
      ++ deadline.isoformat ++ "）")
  else if !claim.firstApplication then
    return some "并非同一主题的第一次申请"
  else if !claim.sameSubject then
    return some "在后申请与在先申请并非相同主题"
  else return none

/-- The tally with a claim that does not hold. -/
def rejectClaim (tally : PriorityTally) (claim : PriorityClaim)
    (reason : String) : PriorityTally :=
  { tally with
    invalid := tally.invalid ++ [{ claimId := claim.claimId, reason }] }

/-- The codes a claim covers. -/
def coveredCodes (featureCodes : List String) (claim : PriorityClaim) :
    List String :=
  if claim.covers ≠ [] then claim.covers else featureCodes

/-- The tally with a claim that holds. -/
def acceptClaim (featureCodes : List String) (tally : PriorityTally)
    (claim : PriorityClaim) : PriorityTally :=
  { tally with
    valid := tally.valid ++ [claim.claimId]
    flags :=
      if claim.proofVerified then tally.flags
      else tally.flags ++ [s!"优先权 {claim.claimId} 的证明文件/在先申请副本尚未核验，"
        ++ "暂按成立计算，代理师须补核验。"]
    covered := (coveredCodes featureCodes claim).foldl
      (coverCode claim.priorityDate) tally.covered }

/-- What one turn makes of a verdict. -/
def tallied (featureCodes : List String) (tally : PriorityTally)
    (claim : PriorityClaim) : Option String → PriorityTally
  | some reason => rejectClaim tally claim reason
  | none => acceptClaim featureCodes tally claim

theorem verifyClaim_eq (filingDate : Date) (termMonths : Nat)
    (featureCodes : List String) (tally : PriorityTally)
    (claim : PriorityClaim) :
    verifyClaim filingDate termMonths featureCodes tally claim
      = (claimVerdict filingDate termMonths claim).map
        (tallied featureCodes tally claim) := by
  rw [verifyClaim, claimVerdict]
  cases addMonths claim.priorityDate termMonths with
  | none => rfl
  | some deadline =>
      show (if _ then _ else _) = Option.map _ (if _ then _ else _)
      by_cases hlate : filingDate < claim.priorityDate
      · rw [if_pos hlate, if_pos hlate]
        rfl
      rw [if_neg hlate, if_neg hlate]
      by_cases hterm : deadline < filingDate
      · rw [if_pos hterm, if_pos hterm]
        rfl
      rw [if_neg hterm, if_neg hterm]
      by_cases hfirst : (!claim.firstApplication) = true
      · rw [if_pos hfirst, if_pos hfirst]
        rfl
      rw [if_neg hfirst, if_neg hfirst]
      by_cases hsubject : (!claim.sameSubject) = true
      · rw [if_pos hsubject, if_pos hsubject]
        rfl
      · rw [if_neg hsubject, if_neg hsubject]
        rfl

/-- The earlier of a date and one that may not be there. -/
def earlier (date : Date) : Option Date → Date
  | none => date
  | some previous => min date previous

theorem min_earlier (filingDate date : Date) (previous : Option Date) :
    min (earlier date previous) filingDate
      = min (min (previous.getD filingDate) filingDate) date := by
  cases previous with
  | none => rw [earlier, Option.getD_none, min_self, min_comm]
  | some previous =>
      rw [earlier, Option.getD_some, min_assoc, min_comm]

theorem get?_coverCode (date : Date) (covered : Dict String Date)
    (code k : String) :
    (coverCode date covered code).get? k
      = if k = code then some (earlier date (covered.get? k))
        else covered.get? k := by
  rw [coverCode]
  cases hcode : covered.get? code with
  | none =>
      rw [Dict.get?_set]
      split
      · next h => rw [h, hcode]; rfl
      · rfl
  | some previous =>
      by_cases hlt : date < previous
      · dsimp only
        rw [if_pos hlt, Dict.get?_set]
        split
        · next h => rw [h, hcode, earlier, min_eq_left hlt.le]
        · rfl
      · dsimp only
        rw [if_neg hlt]
        split
        · next h => rw [h, hcode, earlier, min_eq_right (not_lt.mp hlt)]
        · rfl

/-- Covering a set of codes makes their dates earlier, whatever the order,
and no other's. -/
theorem get?_foldl_coverCode (date : Date) (codes : List String)
    (covered : Dict String Date) (k : String) :
    (codes.foldl (coverCode date) covered).get? k
      = if k ∈ codes then some (earlier date (covered.get? k))
        else covered.get? k := by
  induction codes generalizing covered with
  | nil => simp
  | cons code codes ih =>
      rw [List.foldl_cons, ih, get?_coverCode]
      by_cases hk : k = code
      · subst hk
        have htwice : earlier date (some (earlier date (covered.get? k)))
            = earlier date (covered.get? k) := by
          cases covered.get? k <;> simp [earlier]
        simp [htwice]
      · simp [hk]

-- ====================================================== the verification

/-- The reference date of a feature with this tally. -/
def featureDate (filingDate : Date) (covered : Dict String Date)
    (code : String) : Date :=
  min (covered.getD code filingDate) filingDate

/-- What `verify_priority` answers, from the last tally and the earliest
date of a valid claim. -/
def verificationOf (filingDate : Date) (featureCodes : List String)
    (tally : PriorityTally) (earliest : Option Date) : PriorityVerification :=
  let missing := featureCodes.filter fun code =>
    (tally.covered.get? code).isNone
  let flags :=
    if tally.valid ≠ [] ∧ ∃ code ∈ missing, code ≠ "" then
      tally.flags ++ ["存在部分优先权：以下特征不在任何有效在先申请的记载范围内，"
        ++ "其基准日回落到申请日 " ++ filingDate.isoformat ++ "："
        ++ Text.join ", " (missing.insertionSort (· ≤ ·)) ++ "。"]
    else tally.flags
  { defaultReferenceDate := min (earliest.getD filingDate) filingDate
    perFeatureReferenceDates := featureCodes.foldl (fun dates code =>
      dates.set code (featureDate filingDate tally.covered code)) .empty
    validClaims := tally.valid
    invalidClaims := tally.invalid
    flags := flags
    requiresHumanConfirmation :=
      decide (tally.invalid ≠ []) || decide (flags ≠ []) }

/-- The last tally of a list of claims. -/
def tallyOf (filingDate : Date) (termMonths : Nat) (featureCodes : List String)
    (claims : List PriorityClaim) : Option PriorityTally :=
  claims.foldlM (verifyClaim filingDate termMonths featureCodes) {}

theorem verifyPriority_eq (subject : SubjectApplication)
    (featureCodes : List String) :
    verifyPriority subject featureCodes
      = (tallyOf subject.filingDate (priorityTermMonths subject.applicationType)
          featureCodes subject.claims).map fun tally =>
        verificationOf subject.filingDate featureCodes tally
          (earliestValid tally.valid subject.claims) := by
  rw [verifyPriority, tallyOf]
  cases List.foldlM (verifyClaim subject.filingDate
    (priorityTermMonths subject.applicationType) featureCodes) {}
    subject.claims <;> rfl

theorem get?_perFeature (filingDate : Date) (covered : Dict String Date)
    (featureCodes : List String) (k : String) :
    (featureCodes.foldl (fun (dates : Dict String Date) code =>
        dates.set code (featureDate filingDate covered code)) .empty).get? k
      = if k ∈ featureCodes then some (featureDate filingDate covered k)
        else none := by
  induction featureCodes using List.reverseRecOn with
  | nil => rfl
  | append_singleton codes code ih =>
      rw [List.foldl_append, List.foldl_cons, List.foldl_nil, Dict.get?_set, ih]
      by_cases hk : k = code
      · simp [hk]
      · simp [hk]

/-- The date a feature is judged by. -/
theorem referenceDateFor_verificationOf (filingDate : Date)
    (featureCodes : List String) (tally : PriorityTally)
    (earliest : Option Date) (code : String) :
    (verificationOf filingDate featureCodes tally earliest).referenceDateFor
        (some code)
      = if code ∈ featureCodes then featureDate filingDate tally.covered code
        else min (earliest.getD filingDate) filingDate := by
  rw [PriorityVerification.referenceDateFor, Dict.getD, verificationOf,
    get?_perFeature]
  split <;> rfl

-- ==================================================== the kind at a date

/-- The kind a document has for a reference date. -/
def kindAt (document : CandidateDocument) (referenceDate : Date) :
    ReferenceKind :=
  match document.publicationDate, document.effectiveFilingDate with
  | some published, some earlierFiling =>
      if published < referenceDate then .priorArt
      else if earlierFiling < referenceDate ∧ document.filedInChina then
        .conflictingApplication
      else .notUsable
  | _, _ => .unknown

theorem severity_injective : Function.Injective ReferenceKind.severity := by
  intro a b h
  cases a <;> cases b <;> first | rfl | cases h

/-- The earlier the reference date, the less usable the document. -/
theorem severity_kindAt (document : CandidateDocument) {early late : Date}
    (h : early ≤ late) :
    (kindAt document late).severity ≤ (kindAt document early).severity := by
  rw [kindAt, kindAt]
  cases document.publicationDate with
  | none => exact le_refl _
  | some published =>
      cases document.effectiveFilingDate with
      | none => exact le_refl _
      | some earlierFiling =>
          dsimp only
          by_cases hlate : published < late
          · rw [if_pos hlate]
            exact Nat.zero_le _
          · have hearly : ¬ published < early := fun hlt => hlate (hlt.trans_le h)
            rw [if_neg hlate, if_neg hearly]
            by_cases hconflict : earlierFiling < late ∧ document.filedInChina = true
            · rw [if_pos hconflict]
              split <;> decide
            · have hearly' :
                  ¬ (earlierFiling < early ∧ document.filedInChina = true) :=
                fun hc => hconflict ⟨hc.1.trans_le h, hc.2⟩
              rw [if_neg hconflict, if_neg hearly']

/-- The least usable kind is the kind at the earliest date. -/
theorem mostSevere_kindAt (document : CandidateDocument) (date : Date)
    (dates : List Date) :
    mostSevere (kindAt document date) (dates.map (kindAt document))
      = kindAt document (dates.foldl min date) := by
  induction dates generalizing date with
  | nil => rfl
  | cons next dates ih =>
      rw [List.map_cons, mostSevere, List.foldl_cons, ← ih]
      congr 1
      rcases le_or_gt date next with hle | hlt
      · rw [if_neg (not_lt.mpr (severity_kindAt document hle)),
          min_eq_left hle]
      · rw [min_eq_right hlt.le]
        split
        · rfl
        · next hnot =>
            exact severity_injective
              (le_antisymm (severity_kindAt document hlt.le) (not_lt.mp hnot))

-- ================================================= the kind of a document

/-- The earliest date a document's features are judged by. -/
def earliestReference (verification : PriorityVerification)
    (rows : List FeatureComparisonRow) (docId : String) : Date :=
  match sortedFeatureCodes ((rowsByDoc rows).getD docId []) with
  | [] => verification.defaultReferenceDate
  | code :: codes =>
      (codes.map fun code => verification.referenceDateFor (some code)).foldl min
        (verification.referenceDateFor (some code))

theorem classifyDocument_eq (subject : SubjectApplication)
    (verification : PriorityVerification) (rows : List FeatureComparisonRow)
    (document : CandidateDocument) :
    classifyDocument subject (some verification) rows document
      = kindAt document (earliestReference verification rows document.docId) := by
  unfold classifyDocument earliestReference
  dsimp only
  cases sortedFeatureCodes ((rowsByDoc rows).getD document.docId []) with
  | nil => rfl
  | cons code codes =>
      have hkinds : codes.map (fun code => classifyReference document subject
            (some verification) (some code))
          = (codes.map fun code => verification.referenceDateFor
            (some code)).map (kindAt document) := by
        rw [List.map_map]
        rfl
      dsimp only
      rw [hkinds]
      exact mostSevere_kindAt document _ _

-- =================================================== the date of the gate

/-- The claims of an application that hold. -/
def SubjectApplication.holding (subject : SubjectApplication) :
    List PriorityClaim :=
  subject.claims.filter fun claim =>
    claimVerdict subject.filingDate (priorityTermMonths subject.applicationType)
      claim = some none

/-- Every deadline is a day of the calendar. -/
def SubjectApplication.Dated (subject : SubjectApplication) : Prop :=
  ∀ claim ∈ subject.claims,
    addMonths claim.priorityDate (priorityTermMonths subject.applicationType)
      ≠ none

section Dates

variable {filingDate : Date} {termMonths : Nat} {codes : List String}
  {claims : List PriorityClaim} {t u : PriorityTally}

theorem claimVerdict_eq_none_iff (filingDate : Date) {claim : PriorityClaim} :
    claimVerdict filingDate termMonths claim = none
      ↔ addMonths claim.priorityDate termMonths = none := by
  rw [claimVerdict]
  cases addMonths claim.priorityDate termMonths with
  | none => exact iff_of_true rfl rfl
  | some deadline =>
      refine iff_of_false (fun h => ?_) (fun h => nomatch h)
      simp only [Option.bind_eq_bind, Option.bind_some, Option.pure_def] at h
      split_ifs at h

theorem foldlM_ne_none_iff :
    claims.foldlM (verifyClaim filingDate termMonths codes) t ≠ none
      ↔ ∀ claim ∈ claims, addMonths claim.priorityDate termMonths ≠ none := by
  induction claims generalizing t with
  | nil => simp
  | cons claim claims ih =>
      rw [List.foldlM_cons, verifyClaim_eq, List.forall_mem_cons, ne_eq,
        ne_eq, ← claimVerdict_eq_none_iff filingDate]
      cases claimVerdict filingDate termMonths claim with
      | none => simp
      | some verdict => simp [ih]

/-- The first claim has a verdict, and the others are verified after it. -/
theorem exists_verdict_of_foldlM {claim : PriorityClaim}
    (h : (claim :: claims).foldlM (verifyClaim filingDate termMonths codes) t
      = some u) :
    ∃ verdict, claimVerdict filingDate termMonths claim = some verdict
      ∧ claims.foldlM (verifyClaim filingDate termMonths codes)
        (tallied codes t claim verdict) = some u := by
  rw [List.foldlM_cons, verifyClaim_eq] at h
  cases hverdict : claimVerdict filingDate termMonths claim with
  | none =>
      rw [hverdict] at h
      cases h
  | some verdict =>
      rw [hverdict] at h
      exact ⟨verdict, rfl, h⟩

/-- Bounds of a feature's date: the date before the claims, and the dates of
the claims that hold and cover the feature. -/
theorem le_featureDate_iff
    (h : claims.foldlM (verifyClaim filingDate termMonths codes) t = some u)
    (code : String) (d : Date) :
    d ≤ featureDate filingDate u.covered code
      ↔ d ≤ featureDate filingDate t.covered code
        ∧ ∀ claim ∈ claims, claimVerdict filingDate termMonths claim = some none →
          code ∈ coveredCodes codes claim → d ≤ claim.priorityDate := by
  induction claims generalizing t with
  | nil =>
      cases h
      simp
  | cons claim claims ih =>
      obtain ⟨verdict, hverdict, h⟩ := exists_verdict_of_foldlM h
      rw [ih h, List.forall_mem_cons, hverdict]
      cases verdict with
      | some reason => simp [tallied, rejectClaim]
      | none =>
          have hdate : d ≤ featureDate filingDate
                (tallied codes t claim none).covered code
              ↔ d ≤ featureDate filingDate t.covered code
                ∧ (code ∈ coveredCodes codes claim →
                  d ≤ claim.priorityDate) := by
            rw [featureDate, featureDate, Dict.getD, Dict.getD, tallied,
              acceptClaim, get?_foldl_coverCode]
            by_cases hcode : code ∈ coveredCodes codes claim
            · rw [if_pos hcode, Option.getD_some, min_earlier, le_min_iff,
                imp_iff_right hcode]
            · simp [hcode]
          rw [hdate]
          simp [and_assoc]

/-- The valid claims are those that hold. -/
theorem valid_foldlM
    (h : claims.foldlM (verifyClaim filingDate termMonths codes) t = some u) :
    u.valid = t.valid ++ (claims.filter fun claim =>
      claimVerdict filingDate termMonths claim = some none).map
        PriorityClaim.claimId := by
  induction claims generalizing t with
  | nil =>
      cases h
      simp
  | cons claim claims ih =>
      obtain ⟨verdict, hverdict, h⟩ := exists_verdict_of_foldlM h
      rw [ih h]
      cases verdict with
      | some reason => simp [hverdict, tallied, rejectClaim]
      | none => simp [hverdict, tallied, acceptClaim]

/-- Bounds of the earliest date of a valid claim. -/
theorem le_earliestValid_iff (valid : List String) (d : Date) :
    d ≤ min ((earliestValid valid claims).getD filingDate) filingDate
      ↔ d ≤ filingDate ∧ ∀ claim ∈ claims, claim.claimId ∈ valid →
        d ≤ claim.priorityDate := by
  have hfold (earliest : Option Date) :
      d ≤ min ((claims.foldl (fun earliest claim =>
          if claim.claimId ∈ valid then
            match earliest with
            | none => some claim.priorityDate
            | some date =>
                if claim.priorityDate < date then some claim.priorityDate
                else some date
          else earliest) earliest).getD filingDate) filingDate
        ↔ d ≤ min (earliest.getD filingDate) filingDate
          ∧ ∀ claim ∈ claims, claim.claimId ∈ valid →
            d ≤ claim.priorityDate := by
    induction claims generalizing earliest with
    | nil => simp
    | cons claim claims ih =>
        rw [List.foldl_cons, ih, List.forall_mem_cons]
        by_cases hvalid : claim.claimId ∈ valid
        · have hstep : (match earliest with
              | none => some claim.priorityDate
              | some date =>
                  if claim.priorityDate < date then some claim.priorityDate
                  else some date)
              = some (earlier claim.priorityDate earliest) := by
            cases earliest with
            | none => rfl
            | some date =>
                dsimp only [earlier]
                split
                · next hlt => rw [min_eq_left hlt.le]
                · next hnot => rw [min_eq_right (not_lt.mp hnot)]
          rw [if_pos hvalid, hstep, Option.getD_some, min_earlier, le_min_iff,
            imp_iff_right hvalid, and_assoc]
        · simp [hvalid]
  rw [earliestValid]
  refine (hfold none).trans ?_
  rw [Option.getD_none, min_self]

end Dates

section Gate

variable {subject : SubjectApplication} {codes : List String}
  {verification : PriorityVerification}

/-- Verifying priority raises only past the calendar. -/
theorem verifyPriority_ne_none_iff (codes : List String) :
    verifyPriority subject codes ≠ none ↔ subject.Dated := by
  rw [verifyPriority_eq, tallyOf, ne_eq, Option.map_eq_none_iff]
  exact foldlM_ne_none_iff

/-- Bounds of the date a feature is judged by. -/
theorem le_referenceDateFor_iff
    (h : verifyPriority subject codes = some verification) {code : String}
    (hcode : code ∈ codes) (d : Date) :
    d ≤ verification.referenceDateFor (some code)
      ↔ d ≤ subject.filingDate ∧ ∀ claim ∈ subject.holding,
        code ∈ coveredCodes codes claim → d ≤ claim.priorityDate := by
  rw [verifyPriority_eq] at h
  obtain ⟨tally, htally, rfl⟩ := Option.map_eq_some_iff.mp h
  rw [referenceDateFor_verificationOf, if_pos hcode,
    le_featureDate_iff htally]
  simp [featureDate, Dict.getD, SubjectApplication.holding]

/-- Bounds of the date that stands in for a feature that is not known. -/
theorem le_defaultReferenceDate_iff
    (h : verifyPriority subject codes = some verification) (d : Date) :
    d ≤ verification.defaultReferenceDate
      ↔ d ≤ subject.filingDate ∧ ∀ claim ∈ subject.claims,
        claim.claimId ∈ subject.holding.map PriorityClaim.claimId →
          d ≤ claim.priorityDate := by
  rw [verifyPriority_eq] at h
  obtain ⟨tally, htally, rfl⟩ := Option.map_eq_some_iff.mp h
  have hvalid : tally.valid
      = subject.holding.map PriorityClaim.claimId := valid_foldlM htally
  rw [← hvalid]
  exact le_earliestValid_iff tally.valid d

/-- The claims that count for a document: those that hold and cover one of
its features or, of a document without any, those that bear the id of one
that holds. -/
def SubjectApplication.counted (subject : SubjectApplication)
    (rows : List FeatureComparisonRow) (docId : String) : List PriorityClaim :=
  if rowsOf rows docId = [] then
    subject.claims.filter fun claim =>
      claim.claimId ∈ subject.holding.map PriorityClaim.claimId
  else
    subject.holding.filter fun claim => ∃ row ∈ rowsOf rows docId,
      row.featureCode ∈ coveredCodes (sortedFeatureCodes rows) claim

/-- The date the gate holds a document against. -/
def SubjectApplication.gateDate (subject : SubjectApplication)
    (rows : List FeatureComparisonRow) (docId : String) : Date :=
  ((subject.counted rows docId).map PriorityClaim.priorityDate).foldl min
    subject.filingDate

theorem mem_sortedFeatureCodes {rows : List FeatureComparisonRow}
    {code : String} :
    code ∈ sortedFeatureCodes rows
      ↔ ∃ row ∈ rows, row.featureCode = code := by
  rw [sortedFeatureCodes, List.mem_insertionSort, List.mem_dedup, List.mem_map]

theorem sortedFeatureCodes_eq_nil_iff {rows : List FeatureComparisonRow} :
    sortedFeatureCodes rows = [] ↔ rows = [] := by
  rw [List.eq_nil_iff_forall_not_mem, List.eq_nil_iff_forall_not_mem]
  simp only [mem_sortedFeatureCodes, not_exists, not_and]
  exact ⟨fun h row hrow => h row.featureCode row hrow rfl,
    fun h _ row hrow => absurd hrow (h row)⟩

/-- The earliest date a document's features are judged by is a date of the
application and its claims. -/
theorem earliestReference_eq {rows : List FeatureComparisonRow}
    (h : verifyPriority subject (sortedFeatureCodes rows) = some verification)
    (docId : String) :
    earliestReference verification rows docId
      = subject.gateDate rows docId := by
  refine eq_of_forall_le_iff fun d => ?_
  rw [SubjectApplication.gateDate, le_foldl_min_iff, List.forall_mem_map,
    SubjectApplication.counted, earliestReference, rowsByDoc_getD]
  cases hcodes : sortedFeatureCodes (rowsOf rows docId) with
  | nil =>
      have hrows := sortedFeatureCodes_eq_nil_iff.mp hcodes
      rw [if_pos hrows]
      dsimp only
      rw [le_defaultReferenceDate_iff h]
      simp
  | cons code rest =>
      have hrows : rowsOf rows docId ≠ [] := by
        rw [ne_eq, ← sortedFeatureCodes_eq_nil_iff, hcodes]
        exact List.cons_ne_nil _ _
      -- every feature of the document is a feature of the matrix
      have hin : ∀ row ∈ rowsOf rows docId,
          row.featureCode ∈ sortedFeatureCodes rows := fun row hrow =>
        mem_sortedFeatureCodes.mpr ⟨row, (List.mem_filter.mp hrow).1, rfl⟩
      have hall (p : String → Prop) : (p code ∧ ∀ k ∈ rest, p k)
          ↔ ∀ row ∈ rowsOf rows docId, p row.featureCode := by
        rw [← List.forall_mem_cons, ← hcodes]
        simp only [mem_sortedFeatureCodes]
        exact ⟨fun h row hrow => h _ ⟨row, hrow, rfl⟩,
          fun h k ⟨row, hrow, hk⟩ => hk ▸ h row hrow⟩
      rw [if_neg hrows]
      dsimp only
      rw [le_foldl_min_iff, List.forall_mem_map,
        hall fun k => d ≤ verification.referenceDateFor (some k)]
      obtain ⟨first, others, hfirst⟩ := List.exists_cons_of_ne_nil hrows
      constructor
      · intro hle
        have hdates := fun row hrow =>
          (le_referenceDateFor_iff h (hin row hrow) d).mp (hle row hrow)
        refine ⟨(hdates first (hfirst ▸ List.mem_cons_self ..)).1, ?_⟩
        intro claim hclaim
        obtain ⟨hholds, hcovers⟩ := List.mem_filter.mp hclaim
        obtain ⟨row, hrow, hcode⟩ := of_decide_eq_true hcovers
        exact (hdates row hrow).2 claim hholds hcode
      · rintro ⟨hfiling, hclaims⟩ row hrow
        refine (le_referenceDateFor_iff h (hin row hrow) d).mpr
          ⟨hfiling, fun claim hholds hcode => ?_⟩
        exact hclaims claim (List.mem_filter.mpr
          ⟨hholds, decide_eq_true ⟨row, hrow, hcode⟩⟩)

/-- The last document of an id has the kind of its date. -/
theorem get?_classifyAllReferences {rows : List FeatureComparisonRow}
    (h : verifyPriority subject (sortedFeatureCodes rows) = some verification)
    (documents : List CandidateDocument) (docId : String) :
    (classifyAllReferences documents subject (some verification) rows).get? docId
      = ((lastByKey CandidateDocument.docId documents).get? docId).map
        fun document => kindAt document (subject.gateDate rows docId) := by
  rw [classifyAllReferences, get?_foldl_set]
  cases hlast : (lastByKey CandidateDocument.docId documents).get? docId with
  | none => rfl
  | some document =>
      have hid := (get?_lastByKey_eq_some _ hlast).2
      rw [Option.map_some, Option.map_some, classifyDocument_eq,
        earliestReference_eq h, hid]

end Gate

end PatentEvidence.Assessment
