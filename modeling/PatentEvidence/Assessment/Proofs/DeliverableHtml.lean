/-
What a printed deliverable says.

Read back, the page has the cells of a `DeliverableView`: fixed headings and
terms, and behind them the texts of the deliverable as they are, whatever
characters they are made of. No text opens or closes a tag, and none is
lost: two deliverables that print alike have the same view.

The page is read section by section, each from the fixed parts of its
template and from the escaped texts between them.

# Sections

- the texts;
- pieces of the page;
- sections;
- the page.
-/
import PatentEvidence.Assessment.DeliverableHtml
import PatentEvidence.Assessment.Proofs.DeliverableView
import PatentEvidence.Lib.Fallible

namespace PatentEvidence.Assessment.DeliverableHtml

open Json Html Fallible

-- ============================================================ the texts

variable {ν : Type _} [JsonNumber ν] [Printable]

/-- The text of a value. -/
def shown : Json ν → String
  | .null => "—"
  | value => value.toStr

def shownLabel (mapping : List (String × String)) : Json ν → String
  | .null => "—"
  | key => (mapping.lookup key.toStr).getD key.toStr

/-- The items of `value or []`. -/
def listed (value : Json ν) : List (Json ν) :=
  match (value.orElse (.arr [])).iter with
  | .ok items => items
  | .error _ => []

/-- `value.get(key, True)` of an object. -/
def fieldOrTrue (value : Json ν) (key : String) : Json ν :=
  match value.getD key (.bool true) with
  | .ok found => found
  | .error _ => .bool true

def findingView (f : Json ν) : FindingView where
  category := shownLabel riskKindLabels (f.field "risk_kind")
  level := shownLabel levelLabels (f.field "level")
  basis := shown (joinedBasis (listed (f.field "basis")))
  confirmation := boolLabel (fieldOrTrue f "requires_human_confirmation")

def observationView (o : Json ν) : ObservationView where
  featureCode := shown (o.field "feature_code")
  docId := shown (o.field "doc_id")
  effect := shown (o.field "effect")
  reasoning := shown (o.field "reasoning")

/-- The texts of a deliverable. -/
def viewOf (deliverable : Json ν) : DeliverableView :=
  let eligibility := (deliverable.field "eligibility").orElse (.obj [])
  let evidence := (deliverable.field "evidence").orElse (.obj [])
  let threeStep := (deliverable.field "three_step").orElse (.obj [])
  { versionNumber := shown (deliverable.field "version_number")
    candidateNotice := shown (deliverable.field "candidate_notice")
    status := shown (deliverable.field "status_label")
      ++ ("（" ++ (shown (deliverable.field "status_caveat") ++ "）"))
    requiresHumanConfirmation :=
      boolLabel (fieldOrTrue deliverable "requires_human_confirmation")
    rulesVersion := shown (deliverable.field "rules_version")
    payloadSha256 := shown (deliverable.field "payload_sha256")
    generatedAt := shown (deliverable.field "generated_at")
    eligible := (eligibility.field "eligible").truthy
    reasons := (listed (eligibility.field "reasons")).map shown
    blockers := (listed (deliverable.field "blockers")).map shown
    flags := (listed (deliverable.field "flags")).map shown
    sourceCoverage := shown (evidence.field "source_coverage")
    citations := shown (evidence.field "verified_citations")
      ++ (" / " ++ shown (evidence.field "total_citations"))
    missingAnchors := shown (evidence.field "missing_anchors")
    unverifiedCitations := shown (evidence.field "unverified_citations")
    failedSources := shown (evidence.field "failed_sources")
    blocksConclusion := boolLabel (evidence.field "blocks_conclusion")
    closestPriorArt := shown (threeStep.field "closest_prior_art")
    closestPriorArtIdentical := shown (threeStep.field "closest_prior_art_identical")
    actualTechnicalProblem := shown (threeStep.field "actual_technical_problem")
    distinguishingFeatures :=
      (listed (threeStep.field "distinguishing_features")).map shown
    note := shown (threeStep.field "note")
    findings := (listed (deliverable.field "findings")).map findingView
    observations := (listed (deliverable.field "entity_observations")).map observationView
    publicationDisclaimer := shown (deliverable.field "publication_disclaimer")
    versionFreezeDeclaration := shown (deliverable.field "version_freeze_declaration") }

-- ==================================================== pieces of the page

omit [JsonNumber ν] [Printable] in
theorem get_eq_ok {v value : Json ν} {key : String} (h : v.get key = .ok value) :
    value = v.field key := by
  cases v with
  | obj entries => exact (Except.ok.inj h).symm
  | _ => cases h

omit [Printable] in
theorem listed_eq {value : Json ν} {values : List (Json ν)}
    (h : (value.orElse (.arr [])).iter = .ok values) : values = listed value := by
  unfold listed
  rw [h]

omit [JsonNumber ν] [Printable] in
theorem fieldOrTrue_eq {value found : Json ν} {key : String}
    (h : value.getD key (.bool true) = .ok found) :
    found = fieldOrTrue value key := by
  unfold fieldOrTrue
  rw [h]

theorem plain_e (value : Json ν) : Plain (e value) (shown value) := by
  unfold e shown
  cases value with
  | null => exact (plain_ofList (by decide) : Plain "—" "—")
  | _ => exact plain_escape _

theorem plain_label (mapping : List (String × String)) (key : Json ν) :
    Plain (label mapping key) (shownLabel mapping key) := by
  unfold label shownLabel
  cases key with
  | null => exact (plain_ofList (by decide) : Plain "—" "—")
  | _ => exact plain_escape _

omit [Printable] in
theorem plain_boolLabel (value : Json ν) :
    Plain (boolLabel value) (boolLabel value) := by
  unfold boolLabel
  split
  · exact plain_ofList (by decide)
  · exact plain_ofList (by decide)

omit [JsonNumber ν] [Printable] in
theorem shows_item {html text : String} (h : Plain html text) :
    Shows isContent (item html) (itemCells text) := by
  have hopen : read "<li>" = some ⟨"", [] ++ [⟨"li", ""⟩]⟩ :=
    read_ofList (by decide)
  have hclose : Closes isContent "</li>" [] :=
    closes_ofList (by decide)
  exact shows_element hopen (by decide) h hclose

omit [JsonNumber ν] [Printable] in
theorem shows_cell {html text : String} (h : Plain html text) :
    Shows isContent (cell html) [⟨"td", text⟩] := by
  have hopen : read "<td>" = some ⟨"", [] ++ [⟨"td", ""⟩]⟩ :=
    read_ofList (by decide)
  have hclose : Closes isContent "</td>" [] :=
    closes_ofList (by decide)
  exact shows_element hopen (by decide) h hclose

theorem shows_items (values : List (Json ν)) :
    Shows isContent (items values) ((values.map shown).flatMap itemCells) := by
  rw [List.flatMap_map]
  apply shows_join
  rw [List.forall₂_map_right_iff, List.forall₂_same]
  intro value _
  exact shows_item (plain_e value)

omit [JsonNumber ν] [Printable] in
theorem shows_definition {term html text : String} (hterm : Plain term term)
    (h : Plain html text) :
    Shows isContent (definition term html) (lineCells term text) := by
  have hdt : read "      <dt>" = some ⟨"      ", [] ++ [⟨"dt", ""⟩]⟩ :=
    read_ofList (by decide)
  have hbetween : Closes isContent "</dt>" [] :=
    closes_ofList (by decide)
  have hdd : read "<dd>" = some ⟨"", [] ++ [⟨"dd", ""⟩]⟩ :=
    read_ofList (by decide)
  have hclose : Closes isContent "</dd>\n" [] :=
    closes_ofList (by decide)
  exact shows_element hdt (by decide) hterm
    (hbetween.append (shows_element hdd (by decide) h hclose))

theorem shows_findingRow {f : Json ν} {row : String} (h : findingRow f = .ok row) :
    Shows isContent row (findingView f).cells := by
  obtain ⟨riskKind, hriskKind, h⟩ := bind_eq_ok.mp h
  obtain ⟨level, hlevel, h⟩ := bind_eq_ok.mp h
  obtain ⟨basisField, hbasisField, h⟩ := bind_eq_ok.mp h
  obtain ⟨basis, hbasis, h⟩ := bind_eq_ok.mp h
  obtain ⟨confirmation, hconfirmation, h⟩ := bind_eq_ok.mp h
  obtain rfl := Except.ok.inj h
  obtain rfl := get_eq_ok hriskKind
  obtain rfl := get_eq_ok hlevel
  obtain rfl := get_eq_ok hbasisField
  obtain rfl := listed_eq hbasis
  obtain rfl := fieldOrTrue_eq hconfirmation
  have hopen : Shows isContent "<tr>" [] :=
    shows_ofList (by decide)
  have hclose : Shows isContent "</tr>" [] :=
    shows_ofList (by decide)
  exact hopen.append ((shows_cell (plain_label _ _)).append
    ((shows_cell (plain_label _ _)).append ((shows_cell (plain_e _)).append
      ((shows_cell (plain_boolLabel _)).append hclose))))

theorem shows_observationRow {o : Json ν} {row : String}
    (h : observationRow o = .ok row) :
    Shows isContent row (observationView o).cells := by
  obtain ⟨featureCode, hfeatureCode, h⟩ := bind_eq_ok.mp h
  obtain ⟨docId, hdocId, h⟩ := bind_eq_ok.mp h
  obtain ⟨effect, heffect, h⟩ := bind_eq_ok.mp h
  obtain ⟨reasoning, hreasoning, h⟩ := bind_eq_ok.mp h
  obtain rfl := Except.ok.inj h
  obtain rfl := get_eq_ok hfeatureCode
  obtain rfl := get_eq_ok hdocId
  obtain rfl := get_eq_ok heffect
  obtain rfl := get_eq_ok hreasoning
  have hopen : Shows isContent "<tr>" [] :=
    shows_ofList (by decide)
  have hclose : Shows isContent "</tr>" [] :=
    shows_ofList (by decide)
  exact hopen.append ((shows_cell (plain_e _)).append
    ((shows_cell (plain_e _)).append ((shows_cell (plain_e _)).append
      ((shows_cell (plain_e _)).append hclose))))

-- ============================================================= sections

variable {deliverable : Json ν} {html : String}

omit [Printable] in
/-- A section is there exactly where its list is not empty. -/
theorem truthy_iff_of_iter {value : Json ν} {values : List (Json ν)}
    (h : value.iter = .ok values) : value.truthy = true ↔ values ≠ [] := by
  cases value with
  | arr items =>
      cases h
      cases values <;> simp [truthy]
  | obj entries =>
      cases h
      cases entries <;> simp [truthy]
  | str s =>
      cases h
      simp [truthy, ← String.toList_eq_nil_iff]
  | _ => cases h

omit [Printable] in
/-- What it lists is between fixed parts. -/
theorem shows_section {value : Json ν} {values : List (Json ν)}
    (hvalues : value.iter = .ok values) {α : Type} {view : Json ν → α}
    {cells : α → List Cell} {title front middle rows back : String}
    (hfront : Shows isContent front [⟨"h2", title⟩])
    (hmiddle : Shows isContent middle [])
    (hrows : Shows isContent rows ((values.map view).flatMap cells))
    (hback : Shows isContent back []) :
    Shows isContent
      (if value.truthy then front ++ (middle ++ (rows ++ back)) else "")
      (sectionCells title cells (values.map view)) := by
  have htruthy := truthy_iff_of_iter hvalues
  cases values with
  | nil =>
      rw [if_neg fun h => htruthy.mp h rfl]
      exact (shows_ofList (by decide) : Shows isContent "" [])
  | cons a as =>
      rw [if_pos (htruthy.mpr (List.cons_ne_nil a as))]
      have h := hfront.append (hmiddle.append (hrows.append hback))
      simp only [List.nil_append, List.append_nil] at h
      exact h

omit [JsonNumber ν] [Printable] in
set_option maxRecDepth 8000 in
theorem plain_style : Plain style style := plain_ofList (by decide)

theorem shows_head (versionNumber : Json ν) :
    Shows isContent (head versionNumber)
      [⟨"title", "预评估意见（候选） v" ++ shown versionNumber⟩] := by
  have hdoctype : Shows isContent
      "<!DOCTYPE html>\n<html lang=\"zh-CN\">\n<head>\n<meta charset=\"utf-8\">\n" [] :=
    shows_ofList (by decide)
  have htitle : read "<title>预评估意见（候选） v"
      = some ⟨"", [] ++ [⟨"title", "预评估意见（候选） v"⟩]⟩ :=
    read_ofList (by decide)
  have hstyle : Closes isContent "</title>\n<style>\n" [] :=
    closes_ofList (by decide)
  have hend : Shows isContent "</style>\n</head>\n<body>\n" [] :=
    shows_ofList (by decide)
  exact hdoctype.append (shows_text htitle (by decide) (plain_e versionNumber)
    (hstyle.append (plain_style.shows.append hend)))

theorem shows_reviewSection (h : reviewSection deliverable = .ok html) :
    Shows isContent html (viewOf deliverable).reviewCells := by
  obtain ⟨versionNumber, hversionNumber, h⟩ := bind_eq_ok.mp h
  obtain ⟨candidateNotice, hcandidateNotice, h⟩ := bind_eq_ok.mp h
  obtain ⟨statusLabel, hstatusLabel, h⟩ := bind_eq_ok.mp h
  obtain ⟨statusCaveat, hstatusCaveat, h⟩ := bind_eq_ok.mp h
  obtain ⟨confirmation, hconfirmation, h⟩ := bind_eq_ok.mp h
  obtain ⟨rulesVersion, hrulesVersion, h⟩ := bind_eq_ok.mp h
  obtain ⟨payloadSha256, hpayloadSha256, h⟩ := bind_eq_ok.mp h
  obtain ⟨generatedAt, hgeneratedAt, h⟩ := bind_eq_ok.mp h
  obtain rfl := Except.ok.inj h
  obtain rfl := get_eq_ok hversionNumber
  obtain rfl := get_eq_ok hcandidateNotice
  obtain rfl := get_eq_ok hstatusLabel
  obtain rfl := get_eq_ok hstatusCaveat
  obtain rfl := fieldOrTrue_eq hconfirmation
  obtain rfl := get_eq_ok hrulesVersion
  obtain rfl := get_eq_ok hpayloadSha256
  obtain rfl := get_eq_ok hgeneratedAt
  have hh1 : read "  <h1>预评估意见（候选 · 非结论）—— 版本 v" = some ⟨"  ",
      [] ++ [⟨"h1", "预评估意见（候选 · 非结论）—— 版本 v"⟩]⟩ :=
    read_ofList (by decide)
  have hh1End : Closes isContent "</h1>\n\n" [] :=
    closes_ofList (by decide)
  have hp : read "  <p class=\"notice\">"
      = some ⟨"  ", [] ++ [⟨"p class=\"notice\"", ""⟩]⟩ :=
    read_ofList (by decide)
  have hpEnd : Closes isContent "</p>\n\n" [] :=
    closes_ofList (by decide)
  have hh2 : Shows isContent
      "  <section>\n    <h2>版本与复核信息</h2>\n    <dl class=\"meta\">\n"
      [⟨"h2", "版本与复核信息"⟩] :=
    shows_ofList (by decide)
  have hdt : Shows isContent "      <dt>内容摘要</dt>" [⟨"dt", "内容摘要"⟩] :=
    shows_ofList (by decide)
  have hmono : read "<dd class=\"mono\">"
      = some ⟨"", [] ++ [⟨"dd class=\"mono\"", ""⟩]⟩ :=
    read_ofList (by decide)
  have hmonoEnd : Closes isContent "</dd>\n" [] :=
    closes_ofList (by decide)
  have hend : Shows isContent "    </dl>\n  </section>\n\n" [] :=
    shows_ofList (by decide)
  have hv : Plain "v" "v" :=
    plain_ofList (by decide)
  have hbracket : Plain "（" "（" :=
    plain_ofList (by decide)
  have hbracketEnd : Plain "）" "）" :=
    plain_ofList (by decide)
  have hlines := (shows_definition (plain_ofList (by decide) : Plain "评估版本" "评估版本")
      (hv.append (plain_e (deliverable.field "version_number")))).append
    ((shows_definition (plain_ofList (by decide) : Plain "复核状态" "复核状态")
      ((plain_e (deliverable.field "status_label")).append (hbracket.append
        ((plain_e (deliverable.field "status_caveat")).append hbracketEnd)))).append
    ((shows_definition (plain_ofList (by decide) : Plain "须人工确认" "须人工确认")
      (plain_boolLabel (fieldOrTrue deliverable "requires_human_confirmation"))).append
    ((shows_definition (plain_ofList (by decide) : Plain "规则版本" "规则版本")
      (plain_e (deliverable.field "rules_version"))).append
    (hdt.append (shows_element hmono (by decide)
      (plain_e (deliverable.field "payload_sha256")) (hmonoEnd.append
    ((shows_definition (plain_ofList (by decide) : Plain "生成时间" "生成时间")
      (plain_e (deliverable.field "generated_at"))).append hend)))))))
  have hpage := shows_text hh1 (by decide)
    (plain_e (deliverable.field "version_number")) (hh1End.append
      (shows_element hp (by decide)
        (plain_e (deliverable.field "candidate_notice")) (hpEnd.append
          (hh2.append hlines))))
  exact hpage

theorem shows_gateSection (eligible : Bool) (reasons : List (Json ν)) :
    Shows isContent (gateSection eligible (items reasons))
      (⟨"h2", "是否允许发布候选判断（结论门禁）"⟩ ::
        (if eligible then
          ⟨"p class=\"notice gate-ok\"", "\n      允许发布候选判断\n    "⟩
        else ⟨"p class=\"notice gate-no\"", "\n      不允许发布候选判断\n    "⟩) ::
        (reasons.map shown).flatMap itemCells) := by
  have hh2 : Shows isContent
      "  <section>\n    <h2>是否允许发布候选判断（结论门禁）</h2>\n"
      [⟨"h2", "是否允许发布候选判断（结论门禁）"⟩] := shows_ofList (by decide)
  have hok : Shows isContent
      "    <p class=\"notice gate-ok\">\n      允许发布候选判断\n    </p>\n"
      [⟨"p class=\"notice gate-ok\"", "\n      允许发布候选判断\n    "⟩] :=
    shows_ofList (by decide)
  have hno : Shows isContent
      "    <p class=\"notice gate-no\">\n      不允许发布候选判断\n    </p>\n"
      [⟨"p class=\"notice gate-no\"", "\n      不允许发布候选判断\n    "⟩] :=
    shows_ofList (by decide)
  have hul : Shows isContent "    <ul>" [] := shows_ofList (by decide)
  have hend : Shows isContent "</ul>\n  </section>\n" [] :=
    shows_ofList (by decide)
  have hlist := hul.append ((shows_items reasons).append hend)
  rw [List.nil_append, List.append_nil] at hlist
  unfold gateSection
  cases eligible with
  | true => exact hh2.append (hok.append hlist)
  | false => exact hh2.append (hno.append hlist)

theorem shows_evidenceSection {deliverable evidence : Json ν}
    (hevidence : evidence = (deliverable.field "evidence").orElse (.obj []))
    (h : evidenceSection evidence = .ok html) :
    Shows isContent html (viewOf deliverable).evidenceCells := by
  subst hevidence
  obtain ⟨sourceCoverage, hsourceCoverage, h⟩ := bind_eq_ok.mp h
  obtain ⟨verified, hverified, h⟩ := bind_eq_ok.mp h
  obtain ⟨total, htotal, h⟩ := bind_eq_ok.mp h
  obtain ⟨missing, hmissing, h⟩ := bind_eq_ok.mp h
  obtain ⟨unverified, hunverified, h⟩ := bind_eq_ok.mp h
  obtain ⟨failed, hfailed, h⟩ := bind_eq_ok.mp h
  obtain ⟨blocks, hblocks, h⟩ := bind_eq_ok.mp h
  obtain rfl := Except.ok.inj h
  obtain rfl := get_eq_ok hsourceCoverage
  obtain rfl := get_eq_ok hverified
  obtain rfl := get_eq_ok htotal
  obtain rfl := get_eq_ok hmissing
  obtain rfl := get_eq_ok hunverified
  obtain rfl := get_eq_ok hfailed
  obtain rfl := get_eq_ok hblocks
  have hh2 : Shows isContent
      "  <section>\n    <h2>证据覆盖摘要</h2>\n    <dl class=\"meta\">\n"
      [⟨"h2", "证据覆盖摘要"⟩] := shows_ofList (by decide)
  have hslash : Plain " / " " / " := plain_ofList (by decide)
  have hend : Shows isContent "    </dl>\n  </section>\n\n" [] :=
    shows_ofList (by decide)
  exact hh2.append
    ((shows_definition (plain_ofList (by decide) : Plain "来源覆盖" "来源覆盖")
      (plain_e _)).append
    ((shows_definition (plain_ofList (by decide) : Plain "已核验引证" "已核验引证")
      ((plain_e _).append (hslash.append (plain_e _)))).append
    ((shows_definition (plain_ofList (by decide) : Plain "缺失锚点" "缺失锚点")
      (plain_e _)).append
    ((shows_definition (plain_ofList (by decide) : Plain "未核验引证" "未核验引证")
      (plain_e _)).append
    ((shows_definition (plain_ofList (by decide) : Plain "失败来源" "失败来源")
      (plain_e _)).append
    ((shows_definition (plain_ofList (by decide) : Plain "阻塞结论" "阻塞结论")
      (plain_boolLabel _)).append hend))))))

/-- Items are no text only where there are none. -/
theorem items_eq_empty_iff (values : List (Json ν)) :
    items values = "" ↔ values = [] := by
  constructor
  · intro h
    cases values with
    | nil => rfl
    | cons value values =>
        have hcells := shows_items (value :: values)
        rw [h] at hcells
        obtain ⟨x, hx, hkept, -⟩ := hcells
        obtain rfl := Option.some.inj hx
        cases hkept
  · intro h
    subst h
    rfl

theorem shows_distinguishingSection (v : DeliverableView) (values : List (Json ν))
    (hv : v.distinguishingFeatures = values.map shown) :
    Shows isContent (distinguishingSection (items values)) v.distinguishingCells := by
  unfold distinguishingSection DeliverableView.distinguishingCells
  rw [hv]
  cases values with
  | nil =>
      rw [if_neg (not_not_intro ((items_eq_empty_iff []).mpr rfl))]
      have hnone : Shows isContent "<p>区别特征：照实留空，待代理师填写。</p>"
          [⟨"p", "区别特征：照实留空，待代理师填写。"⟩] := shows_ofList (by decide)
      exact hnone
  | cons value values =>
      have hne : items (value :: values) ≠ "" := by
        rw [Ne, items_eq_empty_iff]
        exact List.cons_ne_nil _ _
      rw [if_pos hne]
      have hopen : Shows isContent "<p><strong>区别特征（候选）：</strong></p><ul>"
          [⟨"p", ""⟩] := shows_ofList (by decide)
      have hclose : Shows isContent "</ul>" [] := shows_ofList (by decide)
      have h := hopen.append ((shows_items (value :: values)).append hclose)
      rw [List.append_nil] at h
      exact h

theorem shows_threeStepSection {deliverable threeStep : Json ν}
    (hthreeStep : threeStep = (deliverable.field "three_step").orElse (.obj []))
    (h : threeStepSection threeStep
      (items (listed (threeStep.field "distinguishing_features"))) = .ok html) :
    Shows isContent html (viewOf deliverable).threeStepCells := by
  subst hthreeStep
  obtain ⟨closest, hclosest, h⟩ := bind_eq_ok.mp h
  obtain ⟨identical, hidentical, h⟩ := bind_eq_ok.mp h
  obtain ⟨problem, hproblem, h⟩ := bind_eq_ok.mp h
  obtain ⟨note, hnote, h⟩ := bind_eq_ok.mp h
  obtain rfl := Except.ok.inj h
  obtain rfl := get_eq_ok hclosest
  obtain rfl := get_eq_ok hidentical
  obtain rfl := get_eq_ok hproblem
  obtain rfl := get_eq_ok hnote
  have hh2 : Shows isContent
      "  <section>\n    <h2>三步法脚手架（待填写，非结论）</h2>\n    <dl class=\"meta\">\n"
      [⟨"h2", "三步法脚手架（待填写，非结论）"⟩] := shows_ofList (by decide)
  have hdl : Shows isContent "    </dl>\n    " [] := shows_ofList (by decide)
  have hem : read "\n    <p><em>" = some ⟨"\n    ", [⟨"p", ""⟩] ++ [⟨"em", ""⟩]⟩ :=
    read_ofList (by decide)
  have hend : Closes isContent "</em></p>\n  </section>\n" [] :=
    closes_ofList (by decide)
  have hdistinguishing := shows_distinguishingSection (viewOf deliverable) _ rfl
  exact hh2.append
    ((shows_definition (plain_ofList (by decide) : Plain "最接近现有技术" "最接近现有技术")
      (plain_e _)).append
    ((shows_definition (plain_ofList (by decide) : Plain "相同特征数" "相同特征数")
      (plain_e _)).append
    ((shows_definition (plain_ofList (by decide) : Plain "实际技术问题" "实际技术问题")
      (plain_e _)).append
    (hdl.append (hdistinguishing.append
      (shows_element hem (by decide) (plain_e _) hend))))))

theorem shows_footer (h : footer deliverable = .ok html) :
    Shows isContent html (viewOf deliverable).footerCells := by
  obtain ⟨disclaimer, hdisclaimer, h⟩ := bind_eq_ok.mp h
  obtain ⟨freeze, hfreeze, h⟩ := bind_eq_ok.mp h
  obtain rfl := Except.ok.inj h
  obtain rfl := get_eq_ok hdisclaimer
  obtain rfl := get_eq_ok hfreeze
  have hfront : read "  <div class=\"footer\">\n    <p>"
      = some ⟨"  ", [⟨"div class=\"footer\"", "\n    "⟩] ++ [⟨"p", ""⟩]⟩ :=
    read_ofList (by decide)
  have hbetween : Closes isContent "</p>\n    " [] := closes_ofList (by decide)
  have hp : read "<p>" = some ⟨"", [] ++ [⟨"p", ""⟩]⟩ := read_ofList (by decide)
  have hend : Closes isContent "</p>\n  </div>\n</body>\n</html>\n" [] :=
    closes_ofList (by decide)
  exact shows_element hfront (by decide) (plain_e _)
    (hbetween.append (shows_element hp (by decide) (plain_e _) hend))

omit [JsonNumber ν] [Printable] in
theorem shows_rows {values : List (Json ν)} {rows : List String}
    {row : Json ν → Py String} {α : Type} {view : Json ν → α} {cells : α → List Cell}
    (hrow : ∀ value html, row value = .ok html →
      Shows isContent html (cells (view value)))
    (h : values.mapM row = .ok rows) :
    Shows isContent (Text.join "" rows) ((values.map view).flatMap cells) := by
  rw [List.flatMap_map]
  apply shows_join
  exact (mapM_eq_ok_iff.mp h).imp hrow

theorem shows_blockersSection {blockers : Json ν} {values : List (Json ν)}
    (h : blockers.iter = .ok values) :
    Shows isContent (blockersSection blockers (items values))
      (sectionCells "尚未解决的阻塞项（因此不能给出结论）" itemCells (values.map shown)) := by
  have hh2 : Shows isContent
      "\n    <section>\n      <h2>尚未解决的阻塞项（因此不能给出结论）</h2>\n"
      [⟨"h2", "尚未解决的阻塞项（因此不能给出结论）"⟩] := shows_ofList (by decide)
  have hul : Shows isContent "      <ul class=\"blockers\">" [] :=
    shows_ofList (by decide)
  have hend : Shows isContent "</ul>\n    </section>" [] :=
    shows_ofList (by decide)
  exact shows_section h hh2 hul (shows_items values) hend

theorem shows_flagsSection {flags : Json ν} {values : List (Json ν)}
    (h : flags.iter = .ok values) :
    Shows isContent (flagsSection flags (items values))
      (sectionCells "提示标记" itemCells (values.map shown)) := by
  have hh2 : Shows isContent "\n    <section>\n      <h2>提示标记</h2>\n"
      [⟨"h2", "提示标记"⟩] := shows_ofList (by decide)
  have hul : Shows isContent "      <ul>" [] := shows_ofList (by decide)
  have hend : Shows isContent "</ul>\n    </section>" [] :=
    shows_ofList (by decide)
  exact shows_section h hh2 hul (shows_items values) hend

theorem shows_findingsSection {findings : Json ν} {values : List (Json ν)}
    {rows : List String} (h : findings.iter = .ok values)
    (hrows : values.mapM findingRow = .ok rows) :
    Shows isContent (findingsSection findings (Text.join "" rows))
      (sectionCells "候选发现（须人工确认）" FindingView.cells (values.map findingView)) := by
  have hh2 : Shows isContent "\n    <section>\n      <h2>候选发现（须人工确认）</h2>\n"
      [⟨"h2", "候选发现（须人工确认）"⟩] := shows_ofList (by decide)
  have htable : Shows isContent
      "      <table>\n        <thead><tr><th>类别</th><th>等级</th><th>依据</th>" [] :=
    shows_ofList (by decide)
  have hbody : Shows isContent "<th>须人工确认</th></tr></thead>\n        <tbody>" [] :=
    shows_ofList (by decide)
  have hend : Shows isContent "</tbody>\n      </table>\n    </section>" [] :=
    shows_ofList (by decide)
  have hlist := shows_rows (fun f html => shows_findingRow) hrows
  exact shows_section h hh2 (htable.append hbody) hlist hend

theorem shows_observationsSection {observations : Json ν} {values : List (Json ν)}
    {rows : List String} (h : observations.iter = .ok values)
    (hrows : values.mapM observationRow = .ok rows) :
    Shows isContent (observationsSection observations (Text.join "" rows))
      (sectionCells "实体级候选观察项" ObservationView.cells
        (values.map observationView)) := by
  have hh2 : Shows isContent "\n    <section>\n      <h2>实体级候选观察项</h2>\n"
      [⟨"h2", "实体级候选观察项"⟩] := shows_ofList (by decide)
  have htable : Shows isContent
      "      <table>\n        <thead><tr><th>特征</th><th>对比文件</th><th>效果</th>" [] :=
    shows_ofList (by decide)
  have hbody : Shows isContent "<th>候选说理</th></tr></thead>\n        <tbody>" [] :=
    shows_ofList (by decide)
  have hend : Shows isContent "</tbody>\n      </table>\n    </section>" [] :=
    shows_ofList (by decide)
  have hlist := shows_rows (fun o html => shows_observationRow) hrows
  exact shows_section h hh2 (htable.append hbody) hlist hend

-- ============================================================= the page

/-- The page of a deliverable has the cells of its view. -/
theorem shows_renderDeliverableHtml (h : renderDeliverableHtml deliverable = .ok html) :
    Shows isContent html (viewOf deliverable).page := by
  obtain ⟨eligibilityField, heligibility, h⟩ := bind_eq_ok.mp h
  obtain ⟨evidenceField, hevidence, h⟩ := bind_eq_ok.mp h
  obtain ⟨threeStepField, hthreeStep, h⟩ := bind_eq_ok.mp h
  obtain ⟨blockersField, hblockers, h⟩ := bind_eq_ok.mp h
  obtain ⟨flagsField, hflags, h⟩ := bind_eq_ok.mp h
  obtain ⟨findingsField, hfindings, h⟩ := bind_eq_ok.mp h
  obtain ⟨observationsField, hobservations, h⟩ := bind_eq_ok.mp h
  obtain ⟨eligible, heligible, h⟩ := bind_eq_ok.mp h
  obtain ⟨blockers, hblockersIter, h⟩ := bind_eq_ok.mp h
  obtain ⟨flags, hflagsIter, h⟩ := bind_eq_ok.mp h
  obtain ⟨reasonsField, hreasons, h⟩ := bind_eq_ok.mp h
  obtain ⟨reasons, hreasonsIter, h⟩ := bind_eq_ok.mp h
  obtain ⟨findings, hfindingsIter, h⟩ := bind_eq_ok.mp h
  obtain ⟨findingRows, hfindingRows, h⟩ := bind_eq_ok.mp h
  obtain ⟨observations, hobservationsIter, h⟩ := bind_eq_ok.mp h
  obtain ⟨observationRows, hobservationRows, h⟩ := bind_eq_ok.mp h
  obtain ⟨featuresField, hfeatures, h⟩ := bind_eq_ok.mp h
  obtain ⟨features, hfeaturesIter, h⟩ := bind_eq_ok.mp h
  obtain ⟨versionNumber, hversionNumber, h⟩ := bind_eq_ok.mp h
  obtain ⟨review, hreview, h⟩ := bind_eq_ok.mp h
  obtain ⟨evidencePart, hevidencePart, h⟩ := bind_eq_ok.mp h
  obtain ⟨threeStepPart, hthreeStepPart, h⟩ := bind_eq_ok.mp h
  obtain ⟨footerPart, hfooter, h⟩ := bind_eq_ok.mp h
  obtain rfl := Except.ok.inj h
  obtain rfl := get_eq_ok heligibility
  obtain rfl := get_eq_ok hevidence
  obtain rfl := get_eq_ok hthreeStep
  obtain rfl := get_eq_ok hblockers
  obtain rfl := get_eq_ok hflags
  obtain rfl := get_eq_ok hfindings
  obtain rfl := get_eq_ok hobservations
  obtain rfl := get_eq_ok heligible
  obtain rfl := get_eq_ok hreasons
  obtain rfl := get_eq_ok hfeatures
  obtain rfl := get_eq_ok hversionNumber
  obtain rfl := listed_eq hblockersIter
  obtain rfl := listed_eq hflagsIter
  obtain rfl := listed_eq hreasonsIter
  obtain rfl := listed_eq hfindingsIter
  obtain rfl := listed_eq hobservationsIter
  obtain rfl := listed_eq hfeaturesIter
  have hindent : Shows isContent "  " [] := shows_ofList (by decide)
  have hnext : Shows isContent "\n  " [] := shows_ofList (by decide)
  have hblank : Shows isContent "\n\n" [] := shows_ofList (by decide)
  exact (shows_head _).append ((shows_reviewSection hreview).append
    ((shows_gateSection _ _).append (hindent.append
    ((shows_blockersSection hblockersIter).append (hnext.append
    ((shows_flagsSection hflagsIter).append (hblank.append
    ((shows_evidenceSection rfl hevidencePart).append
    ((shows_threeStepSection rfl hthreeStepPart).append (hindent.append
    ((shows_findingsSection hfindingsIter hfindingRows).append (hnext.append
    ((shows_observationsSection hobservationsIter hobservationRows).append
      (hblank.append (shows_footer hfooter)))))))))))))))

/-- Whatever the texts of a deliverable are made of, its page is read back
as the page of its view: every heading, line, item and table cell is there
with the text as it is, and no other. Deliverables of other texts have
another page. -/
theorem printed_deliverable_reads_back (h : renderDeliverableHtml deliverable = .ok html) :
    Shows isContent html (viewOf deliverable).page
      ∧ ∀ deliverable' : Json ν, renderDeliverableHtml deliverable' = .ok html →
        viewOf deliverable' = viewOf deliverable := by
  have hshows := shows_renderDeliverableHtml h
  refine ⟨hshows, fun deliverable' h' => ?_⟩
  obtain ⟨x, hread, hkept, -⟩ := hshows
  obtain ⟨y, hread', hkept', -⟩ := shows_renderDeliverableHtml h'
  obtain rfl := Option.some.inj (hread.symm.trans hread')
  exact page_injective (hkept'.symm.trans hkept)

/-- A blocker that would be a tag. -/
def taggedDeliverable : Json Int :=
  .obj [("blockers", .arr [.str "<script>", .str "a & b"])]

omit [Printable] in
theorem printed_deliverable_reads_back_tagged :
    ∃ html cells, Shows isContent html cells
      ∧ cells.filter (fun c => c.tag = "li") = [⟨"li", "<script>"⟩, ⟨"li", "a & b"⟩] := by
  let ascii : Printable := ⟨fun _ => false⟩
  have hok : (renderDeliverableHtml taggedDeliverable).isOk = true := by decide
  cases hhtml : renderDeliverableHtml taggedDeliverable with
  | error raised =>
      rw [hhtml] at hok
      cases hok
  | ok html =>
      refine ⟨html, _, (printed_deliverable_reads_back hhtml).1, ?_⟩
      decide +kernel

end PatentEvidence.Assessment.DeliverableHtml
