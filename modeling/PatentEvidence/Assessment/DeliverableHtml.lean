/-
The printable page of a deliverable (modules/assessment/deliverable_html.py).

The page is a template that every value of the deliverable is escaped into.
A part the deliverable does not have, or that is empty, is left out or
replaced by a dash; a part of the wrong type raises where it is read.
-/
import PatentEvidence.Lib.Html
import PatentEvidence.Lib.Python

namespace PatentEvidence.Assessment.DeliverableHtml

open Json Html

variable {ν : Type _} [JsonNumber ν] [Printable]

/-- `RISK_KIND_LABELS`. -/
def riskKindLabels : List (String × String) :=
  [("novelty", "新颖性"), ("inventiveness", "创造性"), ("priority", "优先权"),
    ("evidence", "证据"), ("formality", "形式")]

/-- `LEVEL_LABELS`. -/
def levelLabels : List (String × String) :=
  [("high", "高"), ("medium", "中"), ("low", "低"), ("info", "提示")]

/-- `_e`. -/
def e : Json ν → String
  | .null => "—"
  | value => escape value.toStr

/-- `_label`. -/
def label (mapping : List (String × String)) : Json ν → String
  | .null => "—"
  | key => escape ((mapping.lookup key.toStr).getD key.toStr)

/-- `_bool_label`. -/
def boolLabel (value : Json ν) : String := if value.truthy then "是" else "否"

-- ======================================================= items and rows

def item (text : String) : String := "<li>" ++ (text ++ "</li>")

def cell (text : String) : String := "<td>" ++ (text ++ "</td>")

/-- `<li>{_e(item)}</li>`, for each. -/
def items (values : List (Json ν)) : String :=
  Text.join "" (values.map fun value => item (e value))

/-- `'；'.join(str(b) for b in basis) or None`. -/
def joinedBasis (basis : List (Json ν)) : Json ν :=
  let joined := Text.join "；" (basis.map Json.toStr)
  if joined = "" then .null else .str joined

/-- A row of `finding_rows`. -/
def findingRow (f : Json ν) : Py String := do
  let riskKind ← f.get "risk_kind"
  let level ← f.get "level"
  let basis ← ((← f.get "basis").orElse (.arr [])).iter
  let requiresHumanConfirmation ←
    f.getD "requires_human_confirmation" (.bool true)
  return "<tr>" ++ (cell (label riskKindLabels riskKind)
    ++ (cell (label levelLabels level) ++ (cell (e (joinedBasis basis))
    ++ (cell (boolLabel requiresHumanConfirmation) ++ "</tr>"))))

/-- A row of `observation_rows`. -/
def observationRow (o : Json ν) : Py String := do
  let featureCode ← o.get "feature_code"
  let docId ← o.get "doc_id"
  let effect ← o.get "effect"
  let reasoning ← o.get "reasoning"
  return "<tr>" ++ (cell (e featureCode) ++ (cell (e docId)
    ++ (cell (e effect) ++ (cell (e reasoning) ++ "</tr>"))))

-- ============================================================= sections

/-- A line of a definition list. -/
def definition (term description : String) : String :=
  "      <dt>" ++ (term ++ ("</dt>" ++ ("<dd>" ++ (description ++ "</dd>\n"))))

/-- `blockers_section`. -/
def blockersSection (blockers : Json ν) (blockerItems : String) : String :=
  if blockers.truthy then
    "\n    <section>\n      <h2>尚未解决的阻塞项（因此不能给出结论）</h2>\n"
      ++ ("      <ul class=\"blockers\">" ++ (blockerItems ++ "</ul>\n    </section>"))
  else ""

/-- `flags_section`. -/
def flagsSection (flags : Json ν) (flagItems : String) : String :=
  if flags.truthy then
    "\n    <section>\n      <h2>提示标记</h2>\n"
      ++ ("      <ul>" ++ (flagItems ++ "</ul>\n    </section>"))
  else ""

/-- `findings_section`. -/
def findingsSection (findings : Json ν) (findingRows : String) : String :=
  if findings.truthy then
    "\n    <section>\n      <h2>候选发现（须人工确认）</h2>\n"
      ++ ("      <table>\n        <thead><tr><th>类别</th><th>等级</th><th>依据</th>"
        ++ "<th>须人工确认</th></tr></thead>\n        <tbody>"
      ++ (findingRows ++ "</tbody>\n      </table>\n    </section>"))
  else ""

/-- `observations_section`. -/
def observationsSection (entityObservations : Json ν) (observationRows : String) :
    String :=
  if entityObservations.truthy then
    "\n    <section>\n      <h2>实体级候选观察项</h2>\n"
      ++ ("      <table>\n        <thead><tr><th>特征</th><th>对比文件</th><th>效果</th>"
        ++ "<th>候选说理</th></tr></thead>\n        <tbody>"
      ++ (observationRows ++ "</tbody>\n      </table>\n    </section>"))
  else ""

/-- `distinguishing_section`. -/
def distinguishingSection (distinguishing : String) : String :=
  if distinguishing ≠ "" then
    "<p><strong>区别特征（候选）：</strong></p><ul>" ++ (distinguishing ++ "</ul>")
  else "<p>区别特征：照实留空，待代理师填写。</p>"

/-- The style sheet of the page. -/
def style : String :=
  "  body \x7b font-family: -apple-system, \"PingFang SC\", \"Microsoft YaHei\", sans-serif;
         color: #1a1a1a; background: #fff; max-width: 800px; margin: 2em auto;
         padding: 0 1.5em; line-height: 1.6; \x7d
  h1 \x7b font-size: 1.4em; border-bottom: 2px solid #333; padding-bottom: .3em; \x7d
  h2 \x7b font-size: 1.05em; margin-top: 1.6em; color: #333; \x7d
  .notice \x7b background: #fff8e6; border: 1px solid #e6c34a; padding: .8em 1em;
            border-radius: 6px; font-weight: 600; \x7d
  .gate-ok \x7b background: #eef7ee; border: 1px solid #7ab87a; \x7d
  .gate-no \x7b background: #fdeeee; border: 1px solid #d98a8a; \x7d
  .meta dt \x7b font-weight: 600; float: left; clear: left; width: 9em; \x7d
  .meta dd \x7b margin-left: 9.5em; \x7d
  .mono \x7b font-family: ui-monospace, monospace; font-size: .85em; word-break: break-all; \x7d
  table \x7b border-collapse: collapse; width: 100%; font-size: .92em; \x7d
  th, td \x7b border: 1px solid #ccc; padding: .4em .6em; text-align: left;
           vertical-align: top; \x7d
  th \x7b background: #f2f2f2; \x7d
  ul.blockers li \x7b color: #a33; \x7d
  .footer \x7b margin-top: 2em; padding-top: 1em; border-top: 1px solid #ccc;
            font-size: .88em; color: #444; \x7d
  @media print \x7b body \x7b margin: 0; \x7d .notice \x7b -webkit-print-color-adjust: exact; \x7d \x7d
"

/-- The page up to its body. -/
def head (versionNumber : Json ν) : String :=
  "<!DOCTYPE html>\n<html lang=\"zh-CN\">\n<head>\n<meta charset=\"utf-8\">\n"
    ++ ("<title>预评估意见（候选） v" ++ (e versionNumber ++ ("</title>\n<style>\n"
    ++ (style ++ "</style>\n</head>\n<body>\n"))))

/-- The heading, the notice and the version. -/
def reviewSection (deliverable : Json ν) : Py String := do
  let versionNumber ← deliverable.get "version_number"
  let candidateNotice ← deliverable.get "candidate_notice"
  let statusLabel ← deliverable.get "status_label"
  let statusCaveat ← deliverable.get "status_caveat"
  let requiresHumanConfirmation ←
    deliverable.getD "requires_human_confirmation" (.bool true)
  let rulesVersion ← deliverable.get "rules_version"
  let payloadSha256 ← deliverable.get "payload_sha256"
  let generatedAt ← deliverable.get "generated_at"
  return "  <h1>预评估意见（候选 · 非结论）—— 版本 v" ++ (e versionNumber ++ ("</h1>\n\n"
    ++ ("  <p class=\"notice\">" ++ (e candidateNotice ++ ("</p>\n\n"
    ++ ("  <section>\n    <h2>版本与复核信息</h2>\n    <dl class=\"meta\">\n"
    ++ (definition "评估版本" ("v" ++ e versionNumber)
    ++ (definition "复核状态"
        (e statusLabel ++ ("（" ++ (e statusCaveat ++ "）")))
    ++ (definition "须人工确认" (boolLabel requiresHumanConfirmation)
    ++ (definition "规则版本" (e rulesVersion)
    ++ ("      <dt>内容摘要</dt>" ++ ("<dd class=\"mono\">" ++ (e payloadSha256 ++ ("</dd>\n"
    ++ (definition "生成时间" (e generatedAt)
    ++ "    </dl>\n  </section>\n\n")))))))))))))))

/-- The verdict of the conclusion gate. -/
def gateSection (eligible : Bool) (reasonItems : String) : String :=
  "  <section>\n    <h2>是否允许发布候选判断（结论门禁）</h2>\n"
    ++ ((if eligible then
        "    <p class=\"notice gate-ok\">\n      允许发布候选判断\n    </p>\n"
      else "    <p class=\"notice gate-no\">\n      不允许发布候选判断\n    </p>\n")
    ++ ("    <ul>" ++ (reasonItems ++ "</ul>\n  </section>\n")))

def evidenceSection (evidence : Json ν) : Py String := do
  let sourceCoverage ← evidence.get "source_coverage"
  let verifiedCitations ← evidence.get "verified_citations"
  let totalCitations ← evidence.get "total_citations"
  let missingAnchors ← evidence.get "missing_anchors"
  let unverifiedCitations ← evidence.get "unverified_citations"
  let failedSources ← evidence.get "failed_sources"
  let blocksConclusion ← evidence.get "blocks_conclusion"
  return "  <section>\n    <h2>证据覆盖摘要</h2>\n    <dl class=\"meta\">\n"
    ++ (definition "来源覆盖" (e sourceCoverage)
    ++ (definition "已核验引证"
        (e verifiedCitations ++ (" / " ++ e totalCitations))
    ++ (definition "缺失锚点" (e missingAnchors)
    ++ (definition "未核验引证" (e unverifiedCitations)
    ++ (definition "失败来源" (e failedSources)
    ++ (definition "阻塞结论" (boolLabel blocksConclusion)
    ++ "    </dl>\n  </section>\n\n"))))))

def threeStepSection (threeStep : Json ν) (distinguishing : String) : Py String := do
  let closestPriorArt ← threeStep.get "closest_prior_art"
  let closestPriorArtIdentical ← threeStep.get "closest_prior_art_identical"
  let actualTechnicalProblem ← threeStep.get "actual_technical_problem"
  let note ← threeStep.get "note"
  return "  <section>\n    <h2>三步法脚手架（待填写，非结论）</h2>\n    <dl class=\"meta\">\n"
    ++ (definition "最接近现有技术" (e closestPriorArt)
    ++ (definition "相同特征数" (e closestPriorArtIdentical)
    ++ (definition "实际技术问题" (e actualTechnicalProblem)
    ++ ("    </dl>\n    " ++ (distinguishingSection distinguishing
    ++ ("\n    <p><em>" ++ (e note ++ "</em></p>\n  </section>\n")))))))

def footer (deliverable : Json ν) : Py String := do
  let publicationDisclaimer ← deliverable.get "publication_disclaimer"
  let versionFreezeDeclaration ← deliverable.get "version_freeze_declaration"
  return "  <div class=\"footer\">\n    <p>" ++ (e publicationDisclaimer
    ++ ("</p>\n    " ++ ("<p>" ++ (e versionFreezeDeclaration
    ++ "</p>\n  </div>\n</body>\n</html>\n"))))

-- ============================================================= the page

/-- `render_deliverable_html`. -/
def renderDeliverableHtml (deliverable : Json ν) : Py String := do
  let eligibility := (← deliverable.get "eligibility").orElse (.obj [])
  let evidence := (← deliverable.get "evidence").orElse (.obj [])
  let threeStep := (← deliverable.get "three_step").orElse (.obj [])
  let blockers := (← deliverable.get "blockers").orElse (.arr [])
  let flags := (← deliverable.get "flags").orElse (.arr [])
  let findings := (← deliverable.get "findings").orElse (.arr [])
  let entityObservations :=
    (← deliverable.get "entity_observations").orElse (.arr [])
  let eligible := (← eligibility.get "eligible").truthy
  let blockerItems := items (← blockers.iter)
  let flagItems := items (← flags.iter)
  let reasonItems :=
    items (← ((← eligibility.get "reasons").orElse (.arr [])).iter)
  let findingRows := Text.join "" (← (← findings.iter).mapM findingRow)
  let observationRows :=
    Text.join "" (← (← entityObservations.iter).mapM observationRow)
  let distinguishing :=
    items (← ((← threeStep.get "distinguishing_features").orElse (.arr [])).iter)
  let versionNumber ← deliverable.get "version_number"
  let review ← reviewSection deliverable
  let evidencePart ← evidenceSection evidence
  let threeStepPart ← threeStepSection threeStep distinguishing
  let footerPart ← footer deliverable
  return head versionNumber ++ (review ++ (gateSection eligible reasonItems
    ++ ("  " ++ (blockersSection blockers blockerItems
    ++ ("\n  " ++ (flagsSection flags flagItems ++ ("\n\n"
    ++ (evidencePart ++ (threeStepPart
    ++ ("  " ++ (findingsSection findings findingRows
    ++ ("\n  " ++ (observationsSection entityObservations observationRows
    ++ ("\n\n" ++ footerPart))))))))))))))

end PatentEvidence.Assessment.DeliverableHtml
