/-
A reading of the comparison matrix reaches a report only through the gate.

The sealer writes the facts the gate asks for in one shape whatever it is
handed: a boolean, any status, a list of blockers (`sealed_shape`). The
permissive parser of the gate then has no room left: a sealed block is
eligible only with a version, the text "approved" and no blocker
(`passes_of_eligible`); a status of another type prints as another text.

Where the gate refuses, section 6 asks the matrix for nothing it prints,
so the report is the same for every reading (`generate_eq`). It still
looks the badge of the risk level up, and a list or an object there raises
in the source; a report that comes out at all is the same one.

# Sections

- the sealed block;
- two runs;
- two readings.
-/
import PatentEvidence.Lib.Fallible
import PatentEvidence.Lib.Scan
import PatentEvidence.Reports.Generator
import PatentEvidence.Reports.Sealer

namespace PatentEvidence.Reports

open Fallible Json

variable {ν : Type _} [JsonNumber ν]

-- ======================================================= the sealed block

/-- The facts a block must have sealed for the gate to pass. -/
def Passes (block : Json ν) : Prop :=
  block.get "has_version" = .ok (.bool true)
    ∧ block.get "status" = .ok (.str "approved")
    ∧ block.get "blockers" = .ok (.arr [])

/-- What the sealer makes of any assessment data. -/
theorem sealed_shape {data block : Json ν} (h : sealAssessment data = .ok block) :
    ∃ hasVersion versionNumber status blockers flags rest,
      block = .obj (("has_version", .bool hasVersion)
        :: ("version_number", versionNumber) :: ("status", status)
        :: ("blockers", .arr blockers) :: ("flags", .arr flags) :: rest) := by
  simp only [sealAssessment, listField, bind_eq_ok, pure_eq_ok] at h
  obtain ⟨hasVersion, -, versionNumber, -, status, -, blockers,
    ⟨_, -, items, -, rfl⟩, flags, ⟨_, -, items', -, rfl⟩, sha, -, rules, -,
    prompts, -, created, -, payload, -, rfl⟩ := h
  exact ⟨_, _, _, _, _, _, rfl⟩

section Gate

variable [Printable] [Text.Digits]

omit [Text.Digits] in
/-- Only the text itself prints as "approved". -/
theorem eq_str_of_toStr {status : Json ν} (h : status.toStr = "approved") :
    status = .str "approved" := by
  have hlist := congrArg String.toList h
  cases status with
  | null => exact absurd (show "None" = "approved" from h) (by decide)
  | bool b =>
      cases b with
      | true => exact absurd (show "True" = "approved" from h) (by decide)
      | false => exact absurd (show "False" = "approved" from h) (by decide)
  | num n =>
      have htext : JsonNumber.text n = "approved".toList := by
        simpa [toStr, Json.repr, fold, reprAlg] using hlist
      have ha : 'a' ∈ JsonNumber.text n := by
        rw [htext]
        decide
      exact absurd (JsonNumber.isNumberChar_of_mem n 'a' ha) (by decide)
  | str s => exact congrArg Json.str h
  | arr items =>
      have hrepr : (Json.arr items).toStr = (Json.arr items).repr := rfl
      rw [hrepr, Json.repr, fold_arr] at hlist
      simp [reprAlg] at hlist
  | obj entries =>
      have hrepr : (Json.obj entries).toStr = (Json.obj entries).repr := rfl
      rw [hrepr, Json.repr, fold_obj] at hlist
      simp [reprAlg] at hlist

/-- The facts read off a block of the sealed shape. -/
theorem fromMapping_sealed {hasVersion : Bool}
    {versionNumber status : Json ν} {blockers flags : List (Json ν)}
    {rest : List (String × Json ν)} :
    AssessmentSummary.fromMapping (.obj (("has_version", .bool hasVersion)
        :: ("version_number", versionNumber) :: ("status", status)
        :: ("blockers", .arr blockers) :: ("flags", .arr flags) :: rest))
      = (do
        let number ← unlessNone versionNumber toInt
        let text ← unlessNone status strOf
        let sha ← unlessNone ((rest.lookup "payload_sha256").getD .null) strOf
        return { hasVersion, versionNumber := number, status := text
                 blockers := blockersOf (.arr blockers)
                 payloadSha256 := sha }) := rfl

omit [Text.Digits] in
/-- No item is lost from a list of blockers. -/
theorem blockersOf_eq_nil {blockers : List (Json ν)}
    (h : blockersOf (.arr blockers) = []) : blockers = [] := by
  cases blockers with
  | nil => rfl
  | cons b bs => cases h

omit [Text.Digits] in
/-- A status that reads as approved is the text itself. -/
theorem eq_str_of_unlessNone {status : Json ν}
    (h : unlessNone status strOf = .ok (some approvedStatus)) :
    status = .str "approved" := by
  cases status with
  | null => cases h
  | _ => exact eq_str_of_toStr (Option.some.inj (Except.ok.inj h))

/-- A sealed block is eligible only with the facts the gate asks for. -/
theorem passes_of_eligible {data block : Json ν} {e : ConclusionEligibility}
    (hseal : sealAssessment data = .ok block)
    (heval : evaluateMapping block = .ok e) (he : e.eligible = true) :
    Passes block := by
  obtain ⟨hasVersion, versionNumber, status, blockers, flags, rest, rfl⟩ :=
    sealed_shape hseal
  obtain ⟨summary, hsummary, heval⟩ := bind_eq_ok.mp heval
  rw [← pure_eq_ok.mp heval] at he
  rw [fromMapping_sealed] at hsummary
  obtain ⟨number, -, hsummary⟩ := bind_eq_ok.mp hsummary
  obtain ⟨text, htext, hsummary⟩ := bind_eq_ok.mp hsummary
  obtain ⟨sha, -, hsummary⟩ := bind_eq_ok.mp hsummary
  rw [← pure_eq_ok.mp hsummary] at he
  obtain ⟨hhas, hstatus, hblockers⟩ := eligible_iff.mp he
  have hhas' : hasVersion = true := hhas
  have htext' : text = some approvedStatus := hstatus
  obtain rfl := blockersOf_eq_nil hblockers
  rw [htext'] at htext
  rw [hhas', eq_str_of_unlessNone htext]
  exact ⟨rfl, rfl, rfl⟩

-- ============================================================== two runs

/-- Two objects with the same values under all other keys. -/
def AgreeOutside (keys : List String) (v w : Json ν) : Prop :=
  ∃ es fs, v = .obj es ∧ w = .obj fs
    ∧ ∀ k, k ∉ keys → es.lookup k = fs.lookup k

omit [JsonNumber ν] [Printable] [Text.Digits] in
theorem AgreeOutside.getD_eq {keys : List String} {v w : Json ν}
    (h : AgreeOutside keys v w) {key : String} (hkey : key ∉ keys)
    (default : Json ν) : v.getD key default = w.getD key default := by
  obtain ⟨es, fs, rfl, rfl, hagree⟩ := h
  rw [getD_obj, getD_obj, hagree key hkey]

omit [JsonNumber ν] [Printable] [Text.Digits] in
theorem AgreeOutside.get_eq {keys : List String} {v w : Json ν}
    (h : AgreeOutside keys v w) {key : String} (hkey : key ∉ keys) :
    v.get key = w.get key := h.getD_eq hkey .null

omit [JsonNumber ν] [Printable] [Text.Digits] in
theorem AgreeOutside.symm {keys : List String} {v w : Json ν}
    (h : AgreeOutside keys v w) : AgreeOutside keys w v := by
  obtain ⟨es, fs, hv, hw, hagree⟩ := h
  exact ⟨fs, es, hw, hv, fun k hk => (hagree k hk).symm⟩

/-- Two payloads whose comparisons, `c` and `d`, differ in the reading of
the matrix, and that differ in nothing else. -/
structure DifferInReading (p q c d : Json ν) : Prop where
  payload : AgreeOutside ["comparison"] p q
  left : p.get "comparison" = .ok c
  right : q.get "comparison" = .ok d
  comparison : AgreeOutside ["summary", "risk_level"] c d

/-- A payload whose sealed assessment the gate refuses. -/
def Withheld (p : Json ν) : Prop :=
  ∃ assessment, p.get "assessment" = .ok assessment
    ∧ ∀ e, evaluateMapping assessment = .ok e → e.eligible = false

/-- A comparison whose risk level a dictionary can be asked for, as every
text can. -/
def HasBadge (comparison : Json ν) : Prop :=
  ∃ level, comparison.getD "risk_level" (.str "unknown") = .ok level
    ∧ level.hashable = true

/-- Withheld is a payload without an assessment, and one in whose sealed
assessment the facts the gate asks for are not all there. -/
theorem withheld_of_not_passes {p assessment : Json ν}
    (hget : p.get "assessment" = .ok assessment)
    (h : assessment = .null
      ∨ ∃ data, sealAssessment data = .ok assessment ∧ ¬ Passes assessment) :
    Withheld p := by
  refine ⟨assessment, hget, fun e heval => ?_⟩
  rcases h with rfl | ⟨data, hseal, hnot⟩
  · have he : e = evaluateConclusionEligibility {} := (Except.ok.inj heval).symm
    rw [he]
    rfl
  · cases he : e.eligible with
    | false => rfl
    | true => exact absurd (passes_of_eligible hseal heval he) hnot

omit [JsonNumber ν] [Printable] [Text.Digits] in
theorem riskBadge_of_hashable {level : Json ν} (h : level.hashable = true) :
    ∃ badge, riskBadge level = .ok badge := by
  cases level with
  | arr items => cases h
  | obj entries => cases h
  | _ => exact ⟨_, rfl⟩

omit [JsonNumber ν] [Printable] [Text.Digits] in
theorem hashable_of_riskBadge {level : Json ν} {badge : String}
    (h : riskBadge level = .ok badge) : level.hashable = true := by
  cases level with
  | arr items => cases h
  | obj entries => cases h
  | _ => rfl

omit [Text.Digits] in
/-- Section 6 of a withheld reading does not mention it. -/
theorem conclusionLines_withheld {comparison : Json ν}
    {e : ConclusionEligibility} (he : e.eligible = false)
    (hbadge : HasBadge comparison) :
    conclusionLines comparison e
      = .ok (["", "---", "", "## 6. 专利性与法律风险论证（候选判断）", ""]
        ++ withheldLines e) := by
  obtain ⟨level, hlevel, hhashable⟩ := hbadge
  obtain ⟨badge, hbadge⟩ := riskBadge_of_hashable hhashable
  have hread : conclusionLines comparison e = (do
      let badge ← riskBadge level
      if e.eligible then
        return ["", "---", "", "## 6. 专利性与法律风险论证（候选判断）", ""]
          ++ publishedLines e badge
            (← fieldText comparison "summary" "暂无全案综合评述。")
      else
        return ["", "---", "", "## 6. 专利性与法律风险论证（候选判断）", ""]
          ++ withheldLines e) := by
    rw [conclusionLines, hlevel]
    rfl
  rw [hread, hbadge, he]
  rfl

omit [JsonNumber ν] [Printable] [Text.Digits] in
/-- A comparison that is there is read without its default. -/
theorem getD_comparison {p c default : Json ν} {keys : List String} {d : Json ν}
    (hget : p.get "comparison" = .ok c) (hobj : AgreeOutside keys c d) :
    p.getD "comparison" default = .ok c := by
  obtain ⟨es, fs, rfl, -, -⟩ := hobj
  cases p with
  | obj entries =>
      rw [get_obj] at hget
      rw [getD_obj]
      cases hlookup : entries.lookup "comparison" with
      | none =>
          rw [hlookup] at hget
          cases hget
      | some v =>
          rw [hlookup] at hget
          exact hget
  | _ => cases hget

/-- With badges to look up, a withheld reading makes no difference to the
run. -/
theorem generate_eq {p q c d : Json ν} (h : DifferInReading p q c d)
    (hp : Withheld p) (hc : HasBadge c) (hd : HasBadge d) (root : String) :
    generate p root = generate q root := by
  obtain ⟨assessment, hget, hrefused⟩ := hp
  have hassessment : q.get "assessment" = .ok assessment :=
    (h.payload.get_eq (by decide)).symm.trans hget
  have hother : ∀ {key : String} (default : Json ν), key ∉ ["comparison"] →
      p.getD key default = q.getD key default :=
    fun default hkey => h.payload.getD_eq hkey default
  have hcp : p.getD "comparison" (.obj []) = .ok c :=
    getD_comparison h.left h.comparison
  have hdq : q.getD "comparison" (.obj []) = .ok d :=
    getD_comparison h.right h.comparison.symm
  have hitems : c.getD "comparisons" (.arr []) = d.getD "comparisons" (.arr []) :=
    h.comparison.getD_eq (by decide) _
  unfold generate
  rw [hget, hassessment, ok_bind, ok_bind]
  refine bind_congr_ok fun e he => ?_
  have hrefuse := hrefused e he
  simp only [fieldText, hcp, hdq, ok_bind, hitems,
    conclusionLines_withheld hrefuse hc, conclusionLines_withheld hrefuse hd]
  rw [hother _ (by decide : "case" ∉ _), hother _ (by decide : "document" ∉ _),
    hother _ (by decide : "features" ∉ _), hother _ (by decide : "search" ∉ _),
    hother _ (by decide : "candidates" ∉ _),
    hother _ (by decide : "sealed_at" ∉ _),
    hother _ (by decide : "sealed_by" ∉ _)]

omit [Text.Digits] in
/-- A section 6 that comes out had a badge to look up. -/
theorem hasBadge_of_conclusionLines {c : Json ν} {e : ConclusionEligibility}
    {lines : List String} (h : conclusionLines c e = .ok lines) :
    HasBadge c := by
  obtain ⟨level, hlevel, h⟩ := bind_eq_ok.mp h
  obtain ⟨badge, hbadge, -⟩ := bind_eq_ok.mp h
  exact ⟨level, hlevel, hashable_of_riskBadge hbadge⟩

/-- So had a report that comes out. -/
theorem hasBadge_of_generate {p c : Json ν} {root t : String}
    (hc : p.getD "comparison" (.obj []) = .ok c)
    (h : generate p root = .ok t) : HasBadge c := by
  unfold generate at h
  rw [hc] at h
  simp only [bind_eq_ok, ok_bind] at h
  obtain ⟨_, -, _, -, _, -, _, -, _, -, _, -, _, -, _, -, _, -, _, -, _, -, _,
    -, _, -, _, -, _, -, _, -, _, -, _, -, _, -, _, -, _, hconclusion, -⟩ := h
  exact hasBadge_of_conclusionLines hconclusion

/-- Where the gate refuses, the report does not depend on the reading of
the matrix: the texts of two runs are one text, and with risk levels that
have a badge the runs agree also where they raise. A sealed block is
eligible only with a version, the status "approved" and no blockers, so the
gate refuses every other one, and a payload without one. -/
theorem reading_needs_gate :
    (∀ (p q c d : Json ν) (root t t' : String), DifferInReading p q c d →
      Withheld p → generate p root = .ok t → generate q root = .ok t' → t = t')
      ∧ (∀ (p q c d : Json ν) (root : String), DifferInReading p q c d →
        Withheld p → HasBadge c → HasBadge d →
          generate p root = generate q root)
      ∧ (∀ (data block : Json ν) (e : ConclusionEligibility),
        sealAssessment data = .ok block → evaluateMapping block = .ok e →
          e.eligible = true → Passes block)
      ∧ ∀ p assessment : Json ν, p.get "assessment" = .ok assessment →
        (assessment = .null
          ∨ ∃ data, sealAssessment data = .ok assessment ∧ ¬ Passes assessment) →
        Withheld p := by
  refine ⟨?_, ?_, fun data block e => passes_of_eligible,
    fun p assessment => withheld_of_not_passes⟩
  · intro p q c d root t t' h hp ht ht'
    have hc : HasBadge c :=
      hasBadge_of_generate (getD_comparison h.left h.comparison) ht
    have hd : HasBadge d :=
      hasBadge_of_generate (getD_comparison h.right h.comparison.symm) ht'
    rw [generate_eq h hp hc hd root, ht'] at ht
    exact (Except.ok.inj ht).symm
  · exact fun p q c d root h hp hc hd => generate_eq h hp hc hd root

end Gate

-- ========================================================== two readings

section Readings

local instance readingDigits : Text.Digits := Scan.asciiDigits

local instance readingPrintable : Printable := ⟨fun _ => false⟩

/-- The facts of a version without blockers. -/
def factsOf (status : String) : Json Int :=
  .obj [("has_version", .bool true), ("version_number", .num 2),
    ("status", .str status), ("blockers", .arr [])]

/-- As they are sealed. -/
def sealedVersion (status : String) : Json Int :=
  .obj [("has_version", .bool true), ("version_number", .num 2),
    ("status", .str status), ("blockers", .arr []), ("flags", .arr []),
    ("payload_sha256", .null), ("rules_version", .null),
    ("prompt_versions", .obj []), ("created_at", .null), ("payload", .obj [])]

/-- The comparison of one cell, with a reading of it. -/
def readComparison (level summary : String) : Json Int :=
  .obj [("risk_level", .str level), ("summary", .str summary),
    ("comparisons", .arr [.obj [("feature_code", .str "F1"),
      ("candidate_pub_number", .str "CN1A"), ("judgment", .str "identical"),
      ("citation_quote", .str "转轴"), ("reasoning_analysis", .str "相同")]])]

def readPayload (level summary : String) (assessment : Json Int) : Json Int :=
  .obj [("case", .obj [("case_number", .str "PE-1"), ("title", .str "铰链")]),
    ("comparison", readComparison level summary), ("assessment", assessment)]

theorem sealAssessment_factsOf (status : String) :
    sealAssessment (factsOf status) = .ok (sealedVersion status) := rfl

theorem differInReading_readPayload (level level' summary summary' : String)
    (assessment : Json Int) :
    DifferInReading (readPayload level summary assessment)
      (readPayload level' summary' assessment) (readComparison level summary)
      (readComparison level' summary') where
  payload := ⟨_, _, rfl, rfl, fun k hk => by
    have hne : (k == "comparison") = false := by simpa using hk
    simp [List.lookup_cons, hne]⟩
  left := rfl
  right := rfl
  comparison := ⟨_, _, rfl, rfl, fun k hk => by
    have hlevel : (k == "risk_level") = false := by
      simpa using fun h : k = "risk_level" => hk (by simp [h])
    have hsummary : (k == "summary") = false := by
      simpa using fun h : k = "summary" => hk (by simp [h])
    simp [List.lookup_cons, hlevel, hsummary]⟩

/-- A submitted version keeps two readings apart from the report, an approved
one has what the gate asks for. -/
theorem reading_needs_gate_submitted :
    (∃ report,
      generate (readPayload "high_novelty_risk" "全部公开"
          (sealedVersion "submitted")) "ab12" = .ok report
        ∧ generate (readPayload "clear_difference" "存在差异"
          (sealedVersion "submitted")) "ab12" = .ok report)
      ∧ Passes (sealedVersion "approved") := by
  obtain ⟨htexts, hruns, hpasses, hwithheld⟩ := reading_needs_gate (ν := Int)
  have hread := differInReading_readPayload "high_novelty_risk" "clear_difference"
    "全部公开" "存在差异" (sealedVersion "submitted")
  have hrefused : Withheld (readPayload "high_novelty_risk" "全部公开"
      (sealedVersion "submitted")) :=
    hwithheld _ _ rfl (.inr ⟨_, sealAssessment_factsOf "submitted",
      fun h => absurd (Json.str.inj (Except.ok.inj h.2.1)) (by decide)⟩)
  have hsome : (generate (readPayload "high_novelty_risk" "全部公开"
      (sealedVersion "submitted")) "ab12").toOption.isSome = true := by
    decide +kernel
  have hsome' : (generate (readPayload "clear_difference" "存在差异"
      (sealedVersion "submitted")) "ab12").toOption.isSome = true := by
    decide +kernel
  obtain ⟨report, hreport⟩ := Option.isSome_iff_exists.mp hsome
  obtain ⟨report', hreport'⟩ := Option.isSome_iff_exists.mp hsome'
  rw [toOption_eq_some] at hreport hreport'
  obtain rfl := htexts _ _ _ _ _ _ _ hread hrefused hreport hreport'
  have heligible : (evaluateMapping (sealedVersion "approved")).toOption.map
      ConclusionEligibility.eligible = some true := by decide +kernel
  obtain ⟨e, heval, he⟩ := Option.map_eq_some_iff.mp heligible
  exact ⟨⟨report, hreport, hreport'⟩, hpasses _ _ _
    (sealAssessment_factsOf "approved") (toOption_eq_some.mp heval) he⟩

end Readings

end PatentEvidence.Reports
