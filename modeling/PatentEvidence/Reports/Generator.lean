/-
The Markdown report of a sealed snapshot (modules/reports/generator.py).

The report is a list of lines; each section of the source's `generate` is
one function here that reads its part of the payload and answers the lines
it appends. Only the last of them, section 6, looks at the reading of the
comparison matrix (`risk_level` and `summary`), and prints it only where
the gate of Conclusion.lean lets it.

A payload is read with `get` throughout, so a part of the wrong type
raises as it does in the source.
-/
import PatentEvidence.Reports.Conclusion

namespace PatentEvidence.Reports

open Json Text

-- =============================================================== labels

/-- `FINDING_KIND`. -/
def findingKind : List (String × String) :=
  [("novelty", "新颖性"), ("inventive_combination", "创造性组合"),
    ("evidence_completeness", "证据完备度")]

/-- `FINDING_LEVEL`. -/
def findingLevel : List (String × String) :=
  [("high_novelty_risk", "新颖性高风险（候选）"),
    ("high_inventive_risk", "创造性高风险（候选）"),
    ("needs_confirmation", "需人工确认"), ("low", "低")]

/-- `ASSESSMENT_CANDIDATE_NOTICE`. -/
def assessmentCandidateNotice : String :=
  "本节全部内容为候选信号，**须人工确认**，不构成专利性结论或审查意见。"

/-- `RISK_BADGE`. -/
def riskBadges : List (String × String) :=
  [("high_novelty_risk", "⚠️ 候选提示：新颖性需重点核查"),
    ("inventiveness_risk", "⚡ 候选提示：创造性需重点论证"),
    ("clear_difference", "○ 候选提示：未发现全覆盖的对比文件"),
    ("unknown", "— 无可用计数")]

variable {ν : Type _} [JsonNumber ν] [Printable] [Text.Digits]

-- ============================================================= formatting

/-- A field as it is formatted into a line, with a default text. -/
def fieldText (data : Json ν) (key default : String) : Py String := do
  return (← data.getD key (.str default)).toStr

/-- `data.get(key) or default`, formatted. -/
def fieldOr (data : Json ν) (key default : String) : Py String := do
  return ((← data.get key).orElse (.str default)).toStr

/-- `data.get(key)`, formatted; a missing field is shown as `None`. -/
def fieldShown (data : Json ν) (key : String) : Py String := do
  return (← data.get key).toStr

/-- `len(data.get(key) or [])`. -/
def fieldCount (data : Json ν) (key : String) : Py Nat := do
  ((← data.get key).orElse (.arr [])).len

/-- `_basis_text`, of one item. -/
def basisItemText : Json ν → String
  | .obj entries =>
      join "；" (entries.map fun e => e.1 ++ "=" ++ e.2.toStr)
  | item => item.toStr

/-- `_basis_text`. -/
def basisText (basis : Json ν) : Py String := do
  return textOr (join " / " ((← basis.iter).map basisItemText)) "—"

-- ============================================== the assessment section

/-- The lines of a case without an assessment version. -/
def noVersionLines : List String :=
  ["**本案尚无预评估版本。** 日期门禁、新颖性与创造性覆盖检查、证据完备度检查"
      ++ "均未在本案上运行过，因此本报告不含任何评估结论或候选发现。",
    "",
    "如需评估，须先登记本案申请日与对比文件日期后组装预评估版本。",
    ""]

/-- `prompt_text`. -/
def promptText (promptVersions : Json ν) : String :=
  match promptVersions with
  | .obj entries =>
      join "、" ((sortEntries entries).map fun e => e.1 ++ " " ++ e.2.toStr)
  | _ => ""

/-- The lines naming the version, its rules and its status. -/
def versionLines (assessment payload : Json ν) : Py (List String) := do
  let version ← fieldShown assessment "version_number"
  let status := ((← assessment.get "status").orElse (.str "")).toStr
  let promptVersions := ((← payload.get "prompt_versions").orElse
    (← assessment.get "prompt_versions")).orElse (.obj [])
  let prompts := promptText promptVersions
  let sha ← assessment.get "payload_sha256"
  let rulesVersion := ((← payload.get "rules_version").orElse
    (← assessment.get "rules_version")).orElse (.str "N/A")
  return [
    "- **预评估版本**：v" ++ version
      ++ (if sha.truthy then "（内容摘要 `" ++ sha.toStr ++ "`）" else ""),
    "- **规则版本**：`" ++ rulesVersion.toStr ++ "`"
      ++ (if prompts = "" then "" else " ｜ **提示词版本**：" ++ prompts),
    "- **复核状态**：" ++ statusLabel status (textOr status "未知")
      ++ "（仅表示本候选评估包是否通过内部复核，不代表该方案具备专利性）",
    ""]

/-- The lines of the blockers. -/
def blockerLines (blockers : List (Json ν)) : List String :=
  if blockers.isEmpty then
    ["### 未解决的阻塞项", "",
      "- 无。未发现阻塞项**不等于**结论成立，仅表示当前材料未触发阻塞条件。", ""]
  else
    ["### 未解决的阻塞项（因此该版本不能给出结论）", ""]
      ++ blockers.map (fun item => "- " ++ item.toStr) ++ [""]

/-- The lines of the flags. -/
def flagLines (flags : List (Json ν)) : List String :=
  if flags.isEmpty then []
  else
    ["### 提示性标记", ""] ++ flags.map (fun item => "- " ++ item.toStr) ++ [""]

/-- The table of the evidence. -/
def evidenceLines (evidence : Json ν) : Py (List String) := do
  let coverage ← fieldText evidence "source_coverage" "N/A"
  let verified ← fieldText evidence "verified_citations" "0"
  let total ← fieldText evidence "total_citations" "0"
  let missing ← fieldCount evidence "missing_anchors"
  let unverified ← fieldCount evidence "unverified_citations"
  let failed ← fieldCount evidence "failed_sources"
  let blocks ← evidence.get "blocks_conclusion"
  return [
    "### 证据完备度",
    "",
    "| 来源覆盖率 | 已核验引文 | 缺锚点 | 未核验引文 | 失败数据源 | 阻断结论 |",
    "| :--- | :--- | :--- | :--- | :--- | :--- |",
    "| " ++ coverage ++ " | " ++ verified ++ "/" ++ total ++ " | "
      ++ toString missing ++ " | " ++ toString unverified ++ " | "
      ++ toString failed ++ " | " ++ (if blocks.truthy then "是" else "否")
      ++ " |",
    ""]

/-- The lines of the three-step scaffold, if there is one. -/
def scaffoldLines (scaffold : Json ν) : Py (List String) := do
  if !scaffold.truthy then
    return []
  let distinguishing :=
    (← scaffold.get "distinguishing_features").orElse (.arr [])
  let closest ← fieldOr scaffold "closest_prior_art" "N/A"
  let identical ← fieldText scaffold "closest_prior_art_identical" "0"
  let features ←
    if distinguishing.truthy then do
      pure (join "、" ((← distinguishing.iter).map toStr))
    else pure "N/A"
  let problem ← fieldOr scaffold "actual_technical_problem" "N/A"
  return [
    "### 创造性三步法脚手架（待代理师填写的部分照实留空）",
    "",
    "- **最接近的现有技术（候选）**：`" ++ closest ++ "`（相同特征 " ++ identical
      ++ " 项）",
    "- **区别特征**：" ++ features,
    "- **实际解决的技术问题**：" ++ problem,
    ""]

/-- The table row of one finding. -/
def findingLine (finding : Json ν) : Py String := do
  let kind ← fieldShown finding "risk_kind"
  let level ← fieldShown finding "level"
  let basis ← basisText ((← finding.get "basis").orElse (.arr []))
  let confirmation ← finding.getD "requires_human_confirmation" (.bool true)
  return "| " ++ (findingKind.lookup kind).getD kind ++ " | "
    ++ (findingLevel.lookup level).getD level ++ " | " ++ basis ++ " | "
    ++ (if confirmation.truthy then "须确认" else "—") ++ " |"

/-- The lines of the findings. -/
def findingLines (findings : Json ν) : Py (List String) := do
  if !findings.truthy then
    return ["### 候选发现（逐条须人工确认）", "", "- 无候选发现。", ""]
  let rows ← (← findings.iter).mapM findingLine
  return ["### 候选发现（逐条须人工确认）", "",
      "| 类别 | 候选层级 | 依据 | 人工确认 |",
      "| :--- | :--- | :--- | :--- |"]
    ++ rows ++ [""]

/-- The declaration that closes the section: a report does not change when
versions are added. -/
def freezeLines (sealedAt version : String) : List String :=
  ["> **版本冻结声明**：本报告封存于 `" ++ sealedAt
      ++ "`，引用的是封存时刻最新的预评估版本" ++ " v" ++ version
      ++ "。此后若发生修订将产生**新的版本号**，本报告不随之更新；"
      ++ "如需引用最新版本，须重新封存并重新出具报告。",
    ""]

/-- The lines of a case with an assessment version. -/
def assessedLines (assessment : Json ν) (sealedAt : String) :
    Py (List String) := do
  let payload := (← assessment.get "payload").orElse (.obj [])
  let blockers ← ((← assessment.get "blockers").orElse (.arr [])).iter
  let flags ← ((← assessment.get "flags").orElse (.arr [])).iter
  let evidence := (← payload.get "evidence").orElse (.obj [])
  let scaffold := (← payload.get "three_step").orElse (.obj [])
  let findings := (← payload.get "findings").orElse (.arr [])
  let version ← fieldShown assessment "version_number"
  return (← versionLines assessment payload) ++ blockerLines blockers
    ++ flagLines flags ++ (← evidenceLines evidence)
    ++ (← scaffoldLines scaffold) ++ (← findingLines findings)
    ++ freezeLines sealedAt version

/-- `render_assessment_section`. -/
def renderAssessmentSection (assessment : Json ν) (sealedAt : String) :
    Py (List String) := do
  let opening := ["## 5. 预评估门禁与候选发现（须人工确认）", "",
    "> " ++ assessmentCandidateNotice, ""]
  if !assessment.truthy then
    return opening ++ noVersionLines
  if !(← assessment.get "has_version").truthy then
    return opening ++ noVersionLines
  return opening ++ (← assessedLines assessment sealedAt)

-- ======================================================== the other sections

/-- The title lines and section 1 up to its table. -/
def headingLines (case_ doc : Json ν) (sealedAt sealedBy rootSha256 : String) :
    Py (List String) := do
  let caseNumber ← fieldText case_ "case_number" "N/A"
  let title ← fieldText case_ "title" "N/A"
  let technicalField ← fieldText case_ "technical_field" "N/A"
  let filename ← fieldText doc "filename" "N/A"
  let versionNumber ← fieldText doc "version_number" "1"
  let fileSha256 ← fieldText doc "file_sha256" "N/A"
  return [
    "# 专利证据分析与法律评估报告",
    "",
    "> **案件编号**：`" ++ caseNumber ++ "`  ",
    "> **案件名称**：" ++ title ++ "  ",
    "> **技术领域**：" ++ technicalField ++ "  ",
    "> **封存时间**：" ++ sealedAt ++ "  ",
    "> **责任代理师**：" ++ sealedBy ++ "  ",
    "> **防篡改根哈希**：`" ++ rootSha256 ++ "`  ",
    "",
    "---",
    "",
    "## 1. 技术交底文档与权利要求特征分解",
    "",
    "- **交底文档**：`" ++ filename ++ "` (版本 v" ++ versionNumber ++ ")",
    "- **原始文件 SHA-256**：`" ++ fileSha256 ++ "`",
    "",
    "### 权利要求技术特征明细表",
    "",
    "| 特征编号 | 特征类型 | 所在段落 | 特征具体技术内容 |",
    "| :--- | :--- | :--- | :--- |"]

/-- The table row of one feature. -/
def featureLine (f : Json ν) : Py String := do
  let featureType ← f.get "feature_type"
  let typeText :=
    if featureType.equal (.str "preamble") then "前序特征" else "表征特征"
  return "| `" ++ (← fieldShown f "feature_code") ++ "` | " ++ typeText ++ " | `"
    ++ (← fieldOr f "source_paragraph_id" "全文") ++ "` | "
    ++ (← fieldShown f "feature_statement") ++ " |"

/-- Section 2 and the head of section 3. -/
def searchLines (search : Json ν) : Py (List String) := do
  let query ← fieldText search "boolean_query_cnipr" "N/A"
  return [
    "",
    "---",
    "",
    "## 2. 专利检索策略与 CNIPR 人工交接留痕",
    "",
    "### 官方 CNIPR 检索表达式",
    "```text",
    query,
    "```",
    "",
    "---",
    "",
    "## 3. 候选文献初筛与排除理由审计",
    "",
    "| 公开号 | 发明名称 | 初筛结论 | 排除原因与代理师批注 |",
    "| :--- | :--- | :--- | :--- |"]

/-- The table row of one candidate. -/
def candidateLine (c : Json ν) : Py String := do
  let status ← c.get "triage_status"
  let statusText :=
    if status.equal (.str "included") then "✓ 纳入比对" else "✕ 排除"
  let reason := ((← c.get "exclusion_reason").orElse (← c.get "notes")).orElse
    (.str "符合对比条件")
  return "| `" ++ (← fieldShown c "publication_number") ++ "` | "
    ++ (← fieldShown c "title") ++ " | " ++ statusText ++ " | "
    ++ reason.toStr ++ " |"

/-- The head of section 4. -/
def chartHeading : List String :=
  ["",
    "---",
    "",
    "## 4. 权利要求特征深度比对表 (Claim Chart Matrix)",
    "",
    "| 特征项 | 对比文献 | 判定结论 | 引文位置与原文摘录 | 技术论证分析 |",
    "| :--- | :--- | :--- | :--- | :--- |"]

/-- The table row of one cell. -/
def comparisonLine (item : Json ν) : Py String := do
  let judgment ← item.get "judgment"
  let judgmentText :=
    if judgment.equal (.str "identical") then "🔴 相同公开"
    else if judgment.equal (.str "equivalent") then "🟡 等同替代"
    else "🟢 存在差异"
  let location ← fieldOr item "citation_location" "全文"
  let quote ← item.get "citation_quote"
  let quoteText :=
    if quote.truthy then "“" ++ quote.toStr ++ "”" else "无明确公开"
  return "| `" ++ (← fieldShown item "feature_code") ++ "` | `"
    ++ (← fieldShown item "candidate_pub_number") ++ "` | " ++ judgmentText
    ++ " | " ++ location ++ "<br>" ++ quoteText ++ " | "
    ++ (← fieldShown item "reasoning_analysis") ++ " |"

/-- The badge of a risk level; only what a dictionary can be asked for has
one. -/
def riskBadge (riskLevel : Json ν) : Py String :=
  let unknown := (riskBadges.lookup "unknown").getD ""
  match riskLevel with
  | .str level => .ok ((riskBadges.lookup level).getD unknown)
  | level => if level.hashable then .ok unknown else .error .typeError

/-- Section 6 where the gate refuses. -/
def withheldLines (eligibility : ConclusionEligibility) : List String :=
  ["> **本节不输出任何倾向性判断。**",
    "",
    "比对矩阵本身可用于核对事实，但将其计数结果作为专利性判断发布，"
      ++ "需要先通过预评估门禁。当前未通过，原因：",
    ""]
    ++ eligibility.reasons.map (fun reason => "- " ++ reason)
    ++ ["",
      "因此本节仅陈述：该计数尚未与日期门禁、优先权核验、引文核验及三步法论证的结果对齐，"
        ++ "不能作为新颖性或创造性的结论使用。",
      ""]

/-- Section 6 where the gate lets the reading through. -/
def publishedLines (eligibility : ConclusionEligibility) (badge summary : String) :
    List String :=
  let sha := eligibility.payloadSha256.getD ""
  ["> **全案候选评级**：**" ++ badge ++ "**",
    "",
    summary,
    "",
    "> " ++ publicationDisclaimer,
    "",
    "对应预评估版本：v" ++ numberText eligibility.versionNumber
      ++ (if sha = "" then "" else "（内容摘要 `" ++ sha ++ "`）")
      ++ "，门禁版本 `" ++ eligibility.gateVersion ++ "`。",
    ""]

/-- Section 6: the reading of the comparison matrix, or why it is withheld. -/
def conclusionLines (comparison : Json ν) (eligibility : ConclusionEligibility) :
    Py (List String) := do
  let badge ← riskBadge (← comparison.getD "risk_level" (.str "unknown"))
  let heading := ["", "---", "", "## 6. 专利性与法律风险论证（候选判断）", ""]
  if eligibility.eligible then
    return heading ++ publishedLines eligibility badge
      (← fieldText comparison "summary" "暂无全案综合评述。")
  else
    return heading ++ withheldLines eligibility

/-- Section 7. -/
def integrityLines (sealedAt sealedBy rootSha256 : String) : List String :=
  ["",
    "---",
    "",
    "## 7. 证据完整性与审计溯源说明",
    "",
    "1. **完整性校验值**：本报告由 PatentEvidence 根据已封存的证据快照生成。证据快照根哈希（对规范化 JSON 计算的 SHA-256）为：",
    "   ```text",
    "   " ++ rootSha256,
    "   ```",
    "2. **校验方法与范围**：持有该证据快照规范化数据者，可重新计算其 SHA-256 并与上述根哈希比对，以确认快照自封存后未被改动。该校验值只说明完整性，不证明快照内容的真实性；本报告未附可信时间戳。",
    "3. **生成系统**：PatentEvidence",
    "4. **封存人**：`" ++ sealedBy ++ "` 于 `" ++ sealedAt ++ "` 封存",
    ""]

-- =============================================================== the report

/-- `MarkdownReportGenerator.generate`. -/
def generate (snapshotPayload : Json ν) (rootSha256 : String) : Py String := do
  let assessment ← snapshotPayload.get "assessment"
  let eligibility ← evaluateMapping assessment
  let case_ ← snapshotPayload.getD "case" (.obj [])
  let doc ← snapshotPayload.getD "document" (.obj [])
  let featuresPart ← snapshotPayload.getD "features" (.obj [])
  let features ← featuresPart.getD "items" (.arr [])
  let search ← snapshotPayload.getD "search" (.obj [])
  let candidates ← snapshotPayload.getD "candidates" (.arr [])
  let comparison ← snapshotPayload.getD "comparison" (.obj [])
  let sealedAt ← fieldText snapshotPayload "sealed_at" ""
  let sealedBy ← fieldText snapshotPayload "sealed_by" ""
  let heading ← headingLines case_ doc sealedAt sealedBy rootSha256
  let featureLines ← (← features.iter).mapM featureLine
  let searchPart ← searchLines search
  let candidateLines ← (← candidates.iter).mapM candidateLine
  let compItems ← comparison.getD "comparisons" (.arr [])
  let comparisonLines ← (← compItems.iter).mapM comparisonLine
  let assessmentLines ← renderAssessmentSection assessment sealedAt
  let conclusion ← conclusionLines comparison eligibility
  return join "\n" (heading ++ featureLines ++ searchPart ++ candidateLines
    ++ chartHeading ++ comparisonLines ++ ["", "---", ""] ++ assessmentLines
    ++ conclusion ++ integrityLines sealedAt sealedBy rootSha256)

end PatentEvidence.Reports
