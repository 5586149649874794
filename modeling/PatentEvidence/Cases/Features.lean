/-
The feature service (apps/api/…/features/services.py): extraction, draft
editing, confirmation and revision of feature-set versions.

Feature codes come from five sources: the extractor's text, the caller's
text, `F<n>` for a blank one, and `<code>.1` or `<code>b` for the second
half of a split. The table has no uniqueness constraint on them;
Proofs/Codes.lean says when they stay distinct.
-/
import PatentEvidence.Cases.Store
import PatentEvidence.Lib.Fallible
import PatentEvidence.Lib.Grouping
import PatentEvidence.Lib.Text

namespace PatentEvidence.Cases

open Grouping Text

-- ============================================================= requests

inductive FeatureOp
  /-- `drafts` is what `extract_features_with_ai` returned -/
  | extract (documentVersionId : Option String) (drafts : List DraftFeature)
  | add (versionId featureCode featureType featureStatement : String)
      (sourceParagraphId citationQuote : Option String)
  | update (versionId featureId : String)
      (featureCode featureType featureStatement sourceParagraphId
        citationQuote : Option String) (sortOrder : Option Int)
  | delete (versionId featureId : String)
  | split (versionId featureId part1Statement part2Statement : String)
  | merge (versionId featureId1 featureId2 mergedStatement : String)
  | confirm (versionId : String)
  | revise (baseVersionId : String)

structure FeatureEvent where
  op : FeatureOp
  env : Env

-- ============================================================== helpers

/-- A version of the case by id. -/
def findVersion (store : CaseStore) (versionId : String) :
    Option FeatureSetVersion :=
  store.versions.find? versionId

/-- `_assert_draft_version`. -/
def assertDraftVersion (store : CaseStore) (versionId : String) :
    Except Refusal Unit :=
  match findVersion store versionId with
  | none => .error (.http 404 "feature_set_version_not_found")
  | some version =>
      if version.status = .draft then .ok ()
      else .error
        (.http 400 "version_is_locked_and_immutable_create_revision_to_edit")

/-- The open draft of the case, if any. -/
def existingDraft (store : CaseStore) :
    Except Refusal (Option FeatureSetVersion) :=
  oneOrNone (store.versions.rows.filter fun v => v.status = .draft)

/-- `COALESCE(MAX(version_number), 0) + 1`. -/
def nextVersionNumber (store : CaseStore) : Nat :=
  (store.versions.rows.map FeatureSetVersion.versionNumber).foldl max 0 + 1

/-- `COALESCE(MAX(sort_order), 0) + 1`, with 1 for a zero. -/
def nextSortOrder (features : List ClaimFeature) : Int :=
  let next := match (features.map ClaimFeature.sortOrder).max? with
    | some highest => highest + 1
    | none => 1
  if next = 0 then 1 else next

/-- The order in which `get_feature_set` lists features: by `sort_order`, and
those of one by their code, as the database's collation compares texts. -/
def listingRank {κ : Type _} (collate : String → κ) (f : ClaimFeature) :
    Int ×ₗ κ :=
  toLex (f.sortOrder, collate f.featureCode)

/-- The first `n` characters of a text. -/
def textPrefix (n : Nat) (s : String) : String := String.ofList (s.toList.take n)

-- =========================================================== extraction

/-- The document version an extraction reads. -/
def extractionDocument (store : CaseStore)
    (documentVersionId : Option String) : Option DocumentVersion :=
  match documentVersionId with
  | some id => store.documents.find? fun d => d.id = id
  | none =>
      match store.documents with
      | [] => none
      | d :: ds =>
          some (firstBy (fun d => OrderDual.toDual d.versionNumber) d ds)

/-- The single draft that stands in when the extractor finds nothing. -/
def fallbackDraft (paragraphs : List Paragraph) : DraftFeature :=
  { featureCode := "F1"
    featureType := "characterizing"
    featureStatement := "本发明的主体技术方案"
    sourceParagraphId := some (match paragraphs with
      | p :: _ => p.id
      | [] => "p1")
    citationQuote := some (match paragraphs with
      | p :: _ => textPrefix 60 p.text
      | [] => "引文")
    sortOrder := 1 }

/-- The drafts an extraction inserts. -/
def draftsOrFallback (paragraphs : List Paragraph)
    (drafts : List DraftFeature) : List DraftFeature :=
  if drafts = [] then [fallbackDraft paragraphs] else drafts

/-- The row of a draft. -/
def draftRow (env : Env) (versionId id : String) (draft : DraftFeature) :
    ClaimFeature :=
  { id
    featureSetVersionId := versionId
    featureCode := draft.featureCode
    featureType := draft.featureType
    featureStatement := draft.featureStatement
    sourceParagraphId := draft.sourceParagraphId
    citationQuote := draft.citationQuote
    sortOrder := draft.sortOrder
    createdAt := env.now
    updatedAt := env.now }

/-- The rows of a list of drafts; ids are drawn from `uuids` on. -/
def draftRows (env : Env) (versionId : String) (first : Nat)
    (drafts : List DraftFeature) : List ClaimFeature :=
  drafts.mapIdx fun i draft => draftRow env versionId (env.uuids (first + i)) draft

/-- `extract_draft_features`. -/
def extractDraftFeatures (store : CaseStore) (env : Env)
    (documentVersionId : Option String) (drafts : List DraftFeature) :
    Except Refusal CaseStore :=
  match extractionDocument store documentVersionId with
  | none => .error (.http 404 "no_document_version_available_for_case")
  | some document => do
      let drafts := draftsOrFallback document.paragraphs drafts
      match ← existingDraft store with
      | some draft =>
          let cleared := store.deleteFeatures fun f =>
            f.featureSetVersionId = draft.id
          let features ← orDatabase
            (cleared.features.insertAll? (draftRows env draft.id 0 drafts))
          return { cleared with
            versions := cleared.versions.update (fun v => v.id = draft.id)
              fun v => { v with documentVersionId := document.id
                                updatedAt := env.now }
            features := features }
      | none =>
          let versionId := env.uuids 0
          let versions ← orDatabase (store.versions.insert? {
            id := versionId
            documentVersionId := document.id
            versionNumber := nextVersionNumber store
            parentVersionId := none
            status := .draft
            summary := "AI 自动提取技术特征草稿"
            createdAt := env.now
            updatedAt := env.now })
          let features ← orDatabase
            (store.features.insertAll? (draftRows env versionId 1 drafts))
          return { store with versions := versions, features := features }

-- ============================================================== editing

/-- The code `add_feature` stores. -/
def addedCode (store : CaseStore) (versionId featureCode : String) : String :=
  if Blank featureCode then
    "F" ++ toString (nextSortOrder (store.featuresOf versionId))
  else strip featureCode

/-- `add_feature`. -/
def addFeature (store : CaseStore) (env : Env)
    (versionId featureCode featureType featureStatement : String)
    (sourceParagraphId citationQuote : Option String) :
    Except Refusal CaseStore := do
  assertDraftVersion store versionId
  let features ← orDatabase (store.features.insert? {
    id := env.uuids 0
    featureSetVersionId := versionId
    featureCode := addedCode store versionId featureCode
    featureType := if featureType = "" then "characterizing" else featureType
    featureStatement := strip featureStatement
    sourceParagraphId := sourceParagraphId
    citationQuote := citationQuote
    sortOrder := nextSortOrder (store.featuresOf versionId)
    createdAt := env.now
    updatedAt := env.now })
  return { store with features := features }

/-- `x.strip() if x else None`. -/
def strippedIfGiven (value : Option String) : Option String :=
  match value with
  | some value => if value = "" then none else some (strip value)
  | none => none

/-- `update_feature`: a column no value is given for keeps its own. -/
def updateFeature (store : CaseStore) (env : Env)
    (versionId featureId : String)
    (featureCode featureType featureStatement sourceParagraphId
      citationQuote : Option String) (sortOrder : Option Int) :
    Except Refusal CaseStore := do
  assertDraftVersion store versionId
  return { store with
    features := store.features.update
      (fun f => f.id = featureId ∧ f.featureSetVersionId = versionId)
      fun f => { f with
        featureCode := (strippedIfGiven featureCode).getD f.featureCode
        featureType := featureType.getD f.featureType
        featureStatement :=
          (strippedIfGiven featureStatement).getD f.featureStatement
        sourceParagraphId := sourceParagraphId.or f.sourceParagraphId
        citationQuote := citationQuote.or f.citationQuote
        sortOrder := sortOrder.getD f.sortOrder
        updatedAt := env.now } }

/-- `delete_feature`. -/
def deleteFeature (store : CaseStore) (versionId featureId : String) :
    Except Refusal CaseStore := do
  assertDraftVersion store versionId
  return store.deleteFeatures fun f =>
    f.id = featureId ∧ f.featureSetVersionId = versionId

/-- The code of the second half of a split. -/
def part2Code (code : String) : String :=
  if '.' ∈ code.toList then code ++ "b" else code ++ ".1"

/-- `split_feature`. -/
def splitFeature (store : CaseStore) (env : Env)
    (versionId featureId part1Statement part2Statement : String) :
    Except Refusal CaseStore := do
  assertDraftVersion store versionId
  match (store.featuresOf versionId).find? fun f => f.id = featureId with
  | none => .error (.http 404 "feature_not_found")
  | some old =>
      let part1 := store.features.update (fun f => f.id = featureId)
        fun f => { f with featureStatement := strip part1Statement
                          updatedAt := env.now }
      let features ← orDatabase (part1.insert? {
        id := env.uuids 0
        featureSetVersionId := versionId
        featureCode := part2Code old.featureCode
        featureType := old.featureType
        featureStatement := strip part2Statement
        sourceParagraphId := old.sourceParagraphId
        citationQuote := some (textPrefix 80 part2Statement)
        sortOrder := old.sortOrder + 1
        createdAt := env.now
        updatedAt := env.now })
      return { store with features := features }

/-- `merge_features`. -/
def mergeFeatures (store : CaseStore) (env : Env)
    (versionId featureId1 featureId2 mergedStatement : String) :
    Except Refusal CaseStore := do
  assertDraftVersion store versionId
  let merged : CaseStore := { store with
    features := store.features.update
      (fun f => f.id = featureId1 ∧ f.featureSetVersionId = versionId)
      fun f => { f with featureStatement := strip mergedStatement
                        updatedAt := env.now } }
  return merged.deleteFeatures fun f =>
    f.id = featureId2 ∧ f.featureSetVersionId = versionId

-- ============================================================= versions

/-- `confirm_version`. -/
def confirmVersion (store : CaseStore) (env : Env) (versionId : String) :
    Except Refusal CaseStore := do
  assertDraftVersion store versionId
  if store.featuresOf versionId = [] then
    .error (.http 400 "cannot_confirm_empty_feature_set")
  else
    return { store with
      status := "features_confirmed"
      versions := store.versions.update (fun v => v.id = versionId)
        fun v => { v with status := .confirmed
                          confirmedBy := some env.actorIdentityId
                          confirmedAt := some env.now
                          updatedAt := env.now } }

/-- The copy of a feature into a revision. -/
def revisedRow (env : Env) (versionId id : String) (f : ClaimFeature) :
    ClaimFeature :=
  { f with id, featureSetVersionId := versionId, createdAt := env.now
           updatedAt := env.now }

/-- `create_revision`; an open draft is handed back as it is. -/
def createRevision (store : CaseStore) (env : Env) (baseVersionId : String) :
    Except Refusal CaseStore :=
  match findVersion store baseVersionId with
  | none => .error (.http 404 "base_feature_set_version_not_found")
  | some base => do
      match ← existingDraft store with
      | some _ => return store
      | none =>
          let versionId := env.uuids 0
          let versions ← orDatabase (store.versions.insert? {
            id := versionId
            documentVersionId := base.documentVersionId
            versionNumber := nextVersionNumber store
            parentVersionId := some baseVersionId
            status := .draft
            summary := "基于上个版本的新修订草稿"
            createdAt := env.now
            updatedAt := env.now })
          let old := CaseStore.sortedBy ClaimFeature.sortOrder
            (store.featuresOf baseVersionId)
          let features ← orDatabase (store.features.insertAll?
            (old.mapIdx fun i f =>
              revisedRow env versionId (env.uuids (1 + i)) f))
          return { store with versions := versions, features := features }

-- ============================================================== service

/-- What a request asks for, up to its commit. -/
def executeFeature (store : CaseStore) (env : Env) :
    FeatureOp → Except Refusal CaseStore
  | .extract documentVersionId drafts =>
      extractDraftFeatures store env documentVersionId drafts
  | .add versionId code type statement paragraph quote =>
      addFeature store env versionId code type statement paragraph quote
  | .update versionId featureId code type statement paragraph quote order =>
      updateFeature store env versionId featureId code type statement
        paragraph quote order
  | .delete versionId featureId => deleteFeature store versionId featureId
  | .split versionId featureId part1 part2 =>
      splitFeature store env versionId featureId part1 part2
  | .merge versionId featureId1 featureId2 statement =>
      mergeFeatures store env versionId featureId1 featureId2 statement
  | .confirm versionId => confirmVersion store env versionId
  | .revise baseVersionId => createRevision store env baseVersionId

/-- One request to the feature service. -/
def serveFeature (store : CaseStore) (event : FeatureEvent) :
    Except Refusal CaseStore := do
  commit event.env (← executeFeature store event.env event.op)

/-- The case after one request. -/
def afterFeature (store : CaseStore) (event : FeatureEvent) : CaseStore :=
  Fallible.settle store (serveFeature store event)

end PatentEvidence.Cases
