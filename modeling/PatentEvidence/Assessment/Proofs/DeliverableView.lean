/-
What a printed deliverable says, as cells, and why no two say it alike.

A `DeliverableView` has the texts of a page; `page` puts them behind the
headings and terms that are always there. A list is as long as the cells of
its tag go on and ends at the next heading or paragraph, so the cells of a
page are those of one view only (`page_injective`).
-/
import PatentEvidence.Lib.Html

namespace PatentEvidence.Assessment.DeliverableHtml

open Html

-- ============================================================= the view

/-- The tags whose texts are read. -/
def contentTags : List String :=
  ["title", "h1", "h2", "p", "p class=\"notice\"", "p class=\"notice gate-ok\"",
    "p class=\"notice gate-no\"", "dt", "dd", "dd class=\"mono\"", "li", "td", "em"]

def isContent (tag : String) : Bool := contentTags.contains tag

structure FindingView where
  category : String
  level : String
  basis : String
  confirmation : String
  deriving DecidableEq

structure ObservationView where
  featureCode : String
  docId : String
  effect : String
  reasoning : String
  deriving DecidableEq

/-- The texts of a page. -/
structure DeliverableView where
  versionNumber : String
  candidateNotice : String
  /-- the label and the caveat -/
  status : String
  requiresHumanConfirmation : String
  rulesVersion : String
  payloadSha256 : String
  generatedAt : String
  eligible : Bool
  reasons : List String
  blockers : List String
  flags : List String
  sourceCoverage : String
  /-- verified of all -/
  citations : String
  missingAnchors : String
  unverifiedCitations : String
  failedSources : String
  blocksConclusion : String
  closestPriorArt : String
  closestPriorArtIdentical : String
  actualTechnicalProblem : String
  distinguishingFeatures : List String
  note : String
  findings : List FindingView
  observations : List ObservationView
  publicationDisclaimer : String
  versionFreezeDeclaration : String
  deriving DecidableEq

def itemCells (text : String) : List Cell := [⟨"li", text⟩]

def lineCells (term text : String) : List Cell := [⟨"dt", term⟩, ⟨"dd", text⟩]

def FindingView.cells (f : FindingView) : List Cell :=
  [⟨"td", f.category⟩, ⟨"td", f.level⟩, ⟨"td", f.basis⟩, ⟨"td", f.confirmation⟩]

def ObservationView.cells (o : ObservationView) : List Cell :=
  [⟨"td", o.featureCode⟩, ⟨"td", o.docId⟩, ⟨"td", o.effect⟩, ⟨"td", o.reasoning⟩]

/-- A section that is there for what it lists. -/
def sectionCells {α : Type _} (title : String) (cells : α → List Cell) :
    List α → List Cell
  | [] => []
  | a :: as => ⟨"h2", title⟩ :: (a :: as).flatMap cells

namespace DeliverableView

variable (v : DeliverableView)

def headCells : List Cell := [⟨"title", "预评估意见（候选） v" ++ v.versionNumber⟩]

def reviewCells : List Cell :=
  [⟨"h1", "预评估意见（候选 · 非结论）—— 版本 v" ++ v.versionNumber⟩,
    ⟨"p class=\"notice\"", v.candidateNotice⟩, ⟨"h2", "版本与复核信息"⟩]
  ++ (lineCells "评估版本" ("v" ++ v.versionNumber)
  ++ (lineCells "复核状态" v.status
  ++ (lineCells "须人工确认" v.requiresHumanConfirmation
  ++ (lineCells "规则版本" v.rulesVersion
  ++ ([⟨"dt", "内容摘要"⟩, ⟨"dd class=\"mono\"", v.payloadSha256⟩]
  ++ lineCells "生成时间" v.generatedAt)))))

def gateCells : List Cell :=
  ⟨"h2", "是否允许发布候选判断（结论门禁）"⟩ ::
    (if v.eligible then
      ⟨"p class=\"notice gate-ok\"", "\n      允许发布候选判断\n    "⟩
    else ⟨"p class=\"notice gate-no\"", "\n      不允许发布候选判断\n    "⟩) ::
    v.reasons.flatMap itemCells

def evidenceCells : List Cell :=
  ⟨"h2", "证据覆盖摘要"⟩ :: (lineCells "来源覆盖" v.sourceCoverage
    ++ (lineCells "已核验引证" v.citations
    ++ (lineCells "缺失锚点" v.missingAnchors
    ++ (lineCells "未核验引证" v.unverifiedCitations
    ++ (lineCells "失败来源" v.failedSources
    ++ lineCells "阻塞结论" v.blocksConclusion)))))

def distinguishingCells : List Cell :=
  match v.distinguishingFeatures with
  | [] => [⟨"p", "区别特征：照实留空，待代理师填写。"⟩]
  | features => ⟨"p", ""⟩ :: features.flatMap itemCells

def threeStepCells : List Cell :=
  ⟨"h2", "三步法脚手架（待填写，非结论）"⟩ :: (lineCells "最接近现有技术" v.closestPriorArt
    ++ (lineCells "相同特征数" v.closestPriorArtIdentical
    ++ (lineCells "实际技术问题" v.actualTechnicalProblem
    ++ (v.distinguishingCells ++ [⟨"p", ""⟩, ⟨"em", v.note⟩]))))

def footerCells : List Cell :=
  [⟨"p", v.publicationDisclaimer⟩, ⟨"p", v.versionFreezeDeclaration⟩]

/-- What the page says. -/
def page : List Cell :=
  v.headCells ++ (v.reviewCells ++ (v.gateCells
    ++ (sectionCells "尚未解决的阻塞项（因此不能给出结论）" itemCells v.blockers
    ++ (sectionCells "提示标记" itemCells v.flags
    ++ (v.evidenceCells ++ (v.threeStepCells
    ++ (sectionCells "候选发现（须人工确认）" FindingView.cells v.findings
    ++ (sectionCells "实体级候选观察项" ObservationView.cells v.observations
    ++ v.footerCells))))))))

end DeliverableView

-- ===================================================== pages that agree

variable {α : Type} {cells : α → List Cell} {tag : String} {n : Nat} {l l' : List α}
  {rest rest' : List Cell}

/-- No row of the tag comes next. -/
def EndsRows (tag : String) (rest : List Cell) : Prop := ∀ c ∈ rest.head?, c.tag ≠ tag

/-- Rows of one tag are read up to the first other tag. -/
theorem rows_append_inj (hcells : Function.Injective cells)
    (hlength : ∀ a, (cells a).length = n + 1) (htag : ∀ a, ∀ c ∈ cells a, c.tag = tag)
    (hrest : EndsRows tag rest) (hrest' : EndsRows tag rest')
    (h : l.flatMap cells ++ rest = l'.flatMap cells ++ rest') :
    l = l' ∧ rest = rest' := by
  have hhead (a : α) (more : List Cell) :
      ∃ c, (cells a ++ more).head? = some c ∧ c.tag = tag := by
    cases hcase : cells a with
    | nil =>
        have hlen := hlength a
        rw [hcase] at hlen
        cases hlen
    | cons c cs => exact ⟨c, rfl, htag a c (by rw [hcase]; exact List.mem_cons_self)⟩
  induction l generalizing l' with
  | nil =>
      cases l' with
      | nil => exact ⟨rfl, h⟩
      | cons a l' =>
          obtain ⟨c, hc, htagged⟩ := hhead a (l'.flatMap cells ++ rest')
          rw [List.flatMap_nil, List.nil_append, List.flatMap_cons, List.append_assoc] at h
          rw [← h] at hc
          exact absurd htagged (hrest c hc)
  | cons a l ih =>
      cases l' with
      | nil =>
          obtain ⟨c, hc, htagged⟩ := hhead a (l.flatMap cells ++ rest)
          rw [List.flatMap_nil, List.nil_append, List.flatMap_cons, List.append_assoc] at h
          rw [h] at hc
          exact absurd htagged (hrest' c hc)
      | cons a' l' =>
          rw [List.flatMap_cons, List.flatMap_cons, List.append_assoc,
            List.append_assoc] at h
          obtain ⟨hfirst, h⟩ := List.append_inj h (by rw [hlength, hlength])
          obtain ⟨rfl, hrests⟩ := ih h
          exact ⟨by rw [hcells hfirst], hrests⟩

/-- So are sections, up to one of another title. -/
theorem section_append_inj (tag title : String) (hcells : Function.Injective cells)
    (hlength : ∀ a, (cells a).length = n + 1) (htag : ∀ a, ∀ c ∈ cells a, c.tag = tag)
    (hrest : EndsRows tag rest) (hrest' : EndsRows tag rest')
    (htitle : ⟨"h2", title⟩ ∉ rest.head?) (htitle' : ⟨"h2", title⟩ ∉ rest'.head?)
    (h : sectionCells title cells l ++ rest = sectionCells title cells l' ++ rest') :
    l = l' ∧ rest = rest' := by
  cases l with
  | nil =>
      cases l' with
      | nil => exact ⟨rfl, h⟩
      | cons a l' =>
          have hhead : rest.head? = some ⟨"h2", title⟩ := congrArg List.head? h
          exact absurd hhead htitle
  | cons a l =>
      cases l' with
      | nil =>
          have hhead : rest'.head? = some ⟨"h2", title⟩ := congrArg List.head? h.symm
          exact absurd hhead htitle'
      | cons a' l' =>
          exact rows_append_inj hcells hlength htag hrest hrest' (List.cons.inj h).2

theorem itemCells_injective : Function.Injective itemCells := by
  intro text text' h
  simpa [itemCells] using h

theorem findingCells_injective : Function.Injective FindingView.cells := by
  intro f f' h
  cases f
  cases f'
  simpa [FindingView.cells] using h

theorem observationCells_injective : Function.Injective ObservationView.cells := by
  intro o o' h
  cases o
  cases o'
  simpa [ObservationView.cells] using h

theorem endsRows_section {title : String} (htag : "h2" ≠ tag)
    (hrest : EndsRows tag rest) : EndsRows tag (sectionCells title cells l ++ rest) := by
  cases l with
  | nil => exact hrest
  | cons a as =>
      intro c hc
      obtain rfl := Option.some.inj hc
      exact htag

theorem title_notMem_section {title title' : String} (htitle : title ≠ title')
    (hrest : ⟨"h2", title⟩ ∉ rest.head?) :
    ⟨"h2", title⟩ ∉ (sectionCells title' cells l ++ rest).head? := by
  cases l with
  | nil => exact hrest
  | cons a as =>
      intro hc
      exact htitle (congrArg Cell.text (Option.some.inj hc)).symm

theorem items_append_inj {texts texts' : List String} (hrest : EndsRows "li" rest)
    (hrest' : EndsRows "li" rest')
    (h : texts.flatMap itemCells ++ rest = texts'.flatMap itemCells ++ rest') :
    texts = texts' ∧ rest = rest' :=
  rows_append_inj (n := 0) itemCells_injective (fun _ => rfl)
    (fun _ _ hc => by rw [List.mem_singleton.mp hc]) hrest hrest' h

/-- The distinguishing features are told from what comes behind them. -/
theorem distinguishingCells_append_inj {v v' : DeliverableView}
    (hrest : EndsRows "li" rest) (hrest' : EndsRows "li" rest')
    (h : v.distinguishingCells ++ rest = v'.distinguishingCells ++ rest') :
    v.distinguishingFeatures = v'.distinguishingFeatures ∧ rest = rest' := by
  unfold DeliverableView.distinguishingCells at h
  cases hv : v.distinguishingFeatures with
  | nil =>
      cases hv' : v'.distinguishingFeatures with
      | nil =>
          rw [hv, hv'] at h
          exact ⟨rfl, (List.cons.inj h).2⟩
      | cons text texts =>
          rw [hv, hv'] at h
          have htext := congrArg Cell.text (List.cons.inj h).1
          simp at htext
  | cons text texts =>
      cases hv' : v'.distinguishingFeatures with
      | nil =>
          rw [hv, hv'] at h
          have htext := congrArg Cell.text (List.cons.inj h).1
          simp at htext
      | cons text' texts' =>
          rw [hv, hv'] at h
          exact items_append_inj hrest hrest' (List.cons.inj h).2

theorem gateCells_append_inj {v v' : DeliverableView}
    (hrest : EndsRows "li" rest) (hrest' : EndsRows "li" rest')
    (h : v.gateCells ++ rest = v'.gateCells ++ rest') :
    v.eligible = v'.eligible ∧ v.reasons = v'.reasons ∧ rest = rest' := by
  obtain ⟨hverdict, h⟩ := List.cons.inj (List.cons.inj h).2
  have htag := congrArg Cell.tag hverdict
  have heligible : v.eligible = v'.eligible := by
    cases hv : v.eligible <;> cases hv' : v'.eligible <;> simp_all
  exact ⟨heligible, items_append_inj hrest hrest' h⟩

theorem threeStepCells_append_inj {v v' : DeliverableView}
    (h : v.threeStepCells ++ rest = v'.threeStepCells ++ rest') :
    v.closestPriorArt = v'.closestPriorArt
      ∧ v.closestPriorArtIdentical = v'.closestPriorArtIdentical
      ∧ v.actualTechnicalProblem = v'.actualTechnicalProblem
      ∧ v.distinguishingFeatures = v'.distinguishingFeatures
      ∧ v.note = v'.note ∧ rest = rest' := by
  simp only [DeliverableView.threeStepCells, lineCells, List.cons_append,
    List.nil_append, List.append_assoc, List.cons.injEq, Cell.mk.injEq, true_and] at h
  obtain ⟨hclosest, hidentical, hproblem, h⟩ := h
  have hends (note : String) (rest : List Cell) :
      EndsRows "li" (⟨"p", ""⟩ :: ⟨"em", note⟩ :: rest) := by
    intro c hc
    obtain rfl := Option.some.inj hc
    decide
  obtain ⟨hfeatures, h⟩ := distinguishingCells_append_inj (hends v.note rest)
    (hends v'.note rest') h
  simp only [List.cons.injEq, Cell.mk.injEq, true_and] at h
  exact ⟨hclosest, hidentical, hproblem, hfeatures, h⟩

/-- A page says all the texts of its view. -/
theorem page_injective : Function.Injective DeliverableView.page := by
  intro v v' h
  have hfooter (tag : String) (hp : "p" ≠ tag) (v : DeliverableView) :
      EndsRows tag v.footerCells := by
    intro c hc
    obtain rfl := Option.some.inj hc
    exact hp
  have hevidence (tag : String) (hh2 : "h2" ≠ tag) (v : DeliverableView)
      (rest : List Cell) : EndsRows tag (v.evidenceCells ++ rest) := by
    intro c hc
    obtain rfl := Option.some.inj hc
    exact hh2
  obtain ⟨hhead, h⟩ := List.append_inj h rfl
  obtain ⟨hreview, h⟩ := List.append_inj h rfl
  obtain ⟨heligible, hreasons, h⟩ := gateCells_append_inj
    (endsRows_section (by decide) (endsRows_section (by decide)
      (hevidence "li" (by decide) v _)))
    (endsRows_section (by decide) (endsRows_section (by decide)
      (hevidence "li" (by decide) v' _))) h
  have htitle (title : String) (htitle : title ≠ "证据覆盖摘要") (v : DeliverableView)
      (rest : List Cell) : ⟨"h2", title⟩ ∉ (v.evidenceCells ++ rest).head? := by
    intro hc
    exact htitle (congrArg Cell.text (Option.some.inj hc)).symm
  obtain ⟨hblockers, h⟩ := section_append_inj (n := 0) "li" _ itemCells_injective
    (fun _ => rfl) (fun _ _ hc => by rw [List.mem_singleton.mp hc])
    (endsRows_section (by decide) (hevidence "li" (by decide) v _))
    (endsRows_section (by decide) (hevidence "li" (by decide) v' _))
    (title_notMem_section (by decide) (htitle _ (by decide) v _))
    (title_notMem_section (by decide) (htitle _ (by decide) v' _)) h
  obtain ⟨hflags, h⟩ := section_append_inj (n := 0) "li" _ itemCells_injective
    (fun _ => rfl) (fun _ _ hc => by rw [List.mem_singleton.mp hc])
    (hevidence "li" (by decide) v _) (hevidence "li" (by decide) v' _)
    (htitle _ (by decide) v _) (htitle _ (by decide) v' _) h
  obtain ⟨hevidenceCells, h⟩ := List.append_inj h rfl
  obtain ⟨hclosest, hidentical, hproblem, hfeatures, hnote, h⟩ :=
    threeStepCells_append_inj h
  have hlast (title : String) (v : DeliverableView) :
      ⟨"h2", title⟩ ∉ v.footerCells.head? := by
    intro hc
    have htag := congrArg Cell.tag (Option.some.inj hc)
    simp at htag
  obtain ⟨hfindings, h⟩ := section_append_inj (n := 3) "td" _ findingCells_injective
    (fun _ => rfl) (fun f c hc => by
      simp only [FindingView.cells, List.mem_cons, List.not_mem_nil, or_false] at hc
      rcases hc with rfl | rfl | rfl | rfl <;> rfl)
    (endsRows_section (by decide) (hfooter "td" (by decide) v))
    (endsRows_section (by decide) (hfooter "td" (by decide) v'))
    (title_notMem_section (by decide) (hlast _ v))
    (title_notMem_section (by decide) (hlast _ v')) h
  obtain ⟨hobservations, h⟩ := section_append_inj (n := 3) "td" _
    observationCells_injective (fun _ => rfl) (fun o c hc => by
      simp only [ObservationView.cells, List.mem_cons, List.not_mem_nil, or_false] at hc
      rcases hc with rfl | rfl | rfl | rfl <;> rfl)
    (hfooter "td" (by decide) v) (hfooter "td" (by decide) v') (hlast _ v) (hlast _ v') h
  simp only [DeliverableView.headCells, DeliverableView.reviewCells,
    DeliverableView.evidenceCells, DeliverableView.footerCells, lineCells,
    List.cons_append, List.nil_append, List.cons.injEq, Cell.mk.injEq, true_and,
    and_true, String.append_right_inj] at hhead hreview hevidenceCells h
  cases v
  cases v'
  simp_all

end PatentEvidence.Assessment.DeliverableHtml
