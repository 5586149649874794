/-
Product descriptions and their technical features
(apps/api/…/fto/product_features.py).

The state is the rows of one organization; every query is scoped to it.
Descriptions are append-only versions. A feature set is edited while it is
a draft; confirmed, it changes only through a revision. What the splitter
found is anchored in the description by spans, and Proofs/ProductFeatures
says what the edits keep of that.
-/
import Mathlib.Data.String.Basic
import PatentEvidence.Cases.Store
import PatentEvidence.Fto.Product
import PatentEvidence.Lib.Fallible

namespace PatentEvidence.Fto

open Cases (DraftStatus Env Refusal orDatabase)
open Text

-- ============================================================== tables

/-- `product_descriptions`. -/
structure ProductDescription where
  id : String
  caseId : String
  versionNumber : Nat
  descriptionText : String
  createdBy : String
  createdAt : Instant

/-- `product_feature_sets`. -/
structure ProductFeatureSet where
  id : String
  caseId : String
  descriptionId : String
  versionNumber : Nat
  parentSetId : Option String
  status : DraftStatus
  splitterVersion : String
  createdBy : String
  createdAt : Instant
  updatedAt : Instant
  confirmedBy : Option String := none
  confirmedAt : Option Instant := none

/-- `product_features`. -/
structure ProductFeatureRow where
  featureSetId : String
  featureCode : String
  featureText : String
  spans : List Span
  origin : FeatureOrigin
  sortOrder : Nat
  createdAt : Instant
  updatedAt : Instant

/-- The unique columns of `product_features`. -/
def ProductFeatureRow.key (f : ProductFeatureRow) : String × String :=
  (f.featureSetId, f.featureCode)

structure ProductStore where
  cases : List String
  descriptions : Table ProductDescription.id
  sets : Table ProductFeatureSet.id
  features : Table ProductFeatureRow.key

-- ============================================================== reading

namespace ProductStore

/-- The features of a set, in table order. -/
def featuresOf (store : ProductStore) (setId : String) :
    List ProductFeatureRow :=
  store.features.rows.filter fun f => f.featureSetId = setId

/-- The features of a set, `ORDER BY sort_order, feature_code`. -/
def orderedFeatures (store : ProductStore) (setId : String) :
    List ProductFeatureRow :=
  Cases.CaseStore.sortedBy (fun f => toLex (f.sortOrder, f.featureCode))
    (store.featuresOf setId)

/-- `_load_set`: the set, with its features. -/
def loadSet (store : ProductStore) (setId : String) :
    Except Refusal (ProductFeatureSet × List ProductFeatureRow) :=
  match store.sets.find? setId with
  | none => .error (.http 404 "product_feature_set_not_found")
  | some set => .ok (set, store.orderedFeatures setId)

/-- `_load_draft`. -/
def loadDraft (store : ProductStore) (setId : String) :
    Except Refusal (ProductFeatureSet × List ProductFeatureRow) := do
  let data ← store.loadSet setId
  if data.1.status = .draft then return data
  else throw (.http 409 "product_feature_set_confirmed")

end ProductStore

/-- `_feature`. -/
def findFeature (features : List ProductFeatureRow) (code : String) :
    Except Refusal ProductFeatureRow :=
  match features.find? fun f => f.featureCode = code with
  | some feature => .ok feature
  | none => .error (.http 404 "product_feature_not_found")

/-- The number of a code `P<n>`; codes are numbered by the service itself,
in ASCII digits. -/
def codeNumber (code : String) : Option Nat :=
  match code.toList with
  | 'P' :: digits =>
      if digits ≠ [] ∧ digits.all Char.isDigit then
        some (Nat.ofDigitChars 10 digits 0)
      else none
  | _ => none

/-- `_next_code`. -/
def nextCode (features : List ProductFeatureRow) : String :=
  let numbers := features.filterMap fun f => codeNumber f.featureCode
  "P" ++ toString (numbers.foldl max 0 + 1)

/-- `max(sort_order, default=-1) + 1`. -/
def nextOrder (features : List ProductFeatureRow) : Nat :=
  match (features.map ProductFeatureRow.sortOrder).max? with
  | some highest => highest + 1
  | none => 0

/-- `_next_version`. -/
def nextVersion (versions : List Nat) : Nat := versions.foldl max 0 + 1

-- ============================================================== writing

namespace ProductStore

/-- `_insert_set`. -/
def insertSet (store : ProductStore) (env : Env) (caseId descriptionId : String)
    (parent : Option String) : Except Refusal ProductStore := do
  let versions := (store.sets.rows.filter fun s => s.caseId = caseId).map
    ProductFeatureSet.versionNumber
  let sets ← orDatabase (store.sets.insert? {
    id := env.uuids 0
    caseId := caseId
    descriptionId := descriptionId
    versionNumber := nextVersion versions
    parentSetId := parent
    status := .draft
    splitterVersion := splitterVersion
    createdBy := env.actorIdentityId
    createdAt := env.now
    updatedAt := env.now })
  return { store with sets := sets }

/-- The row of `_insert_feature`. -/
def featureRow (env : Env) (setId code body : String) (spans : List Span)
    (origin : FeatureOrigin) (order : Nat) : ProductFeatureRow where
  featureSetId := setId
  featureCode := code
  featureText := body
  spans := spans
  origin := origin
  sortOrder := order
  createdAt := env.now
  updatedAt := env.now

/-- `_insert_feature`, one row after another. -/
def insertFeatures (store : ProductStore) (rows : List ProductFeatureRow) :
    Except Refusal ProductStore := do
  let features ← orDatabase (store.features.insertAll? rows)
  return { store with features := features }

/-- `_update_feature`. -/
def updateFeature (store : ProductStore) (env : Env) (setId code body : String)
    (spans : List Span) (origin : FeatureOrigin) : ProductStore :=
  { store with
    features := store.features.update
      (fun f => f.featureSetId = setId ∧ f.featureCode = code)
      fun f => { f with featureText := body, spans := spans, origin := origin
                        updatedAt := env.now } }

/-- `_shift_orders_after`. -/
def shiftOrdersAfter (store : ProductStore) (setId : String) (order : Nat) :
    ProductStore :=
  { store with
    features := store.features.update
      (fun f => f.featureSetId = setId ∧ order < f.sortOrder)
      fun f => { f with sortOrder := f.sortOrder + 1 } }

/-- `DELETE FROM product_features` of a set, by code. -/
def removeFeatures (store : ProductStore) (setId : String)
    (codes : List String) : ProductStore :=
  { store with
    features := store.features.delete
      fun f => f.featureSetId = setId ∧ f.featureCode ∈ codes }

end ProductStore

-- ============================================================== service

/-- `MAX_DESCRIPTION_CHARS`. -/
def maxDescriptionChars : Nat := 50000

inductive ProductOp
  | addDescription (caseId description : String)
  | createDraft (caseId descriptionId : String)
  | revise (setId : String)
  | confirm (setId : String)
  | edit (setId code newText : String)
  | add (setId featureText : String)
  | delete (setId code : String)
  | split (setId code : String) (index : Nat)
  | merge (setId : String) (codes : List String)

variable [Digits] [Alphanumeric] (store : ProductStore) (env : Env)

omit [Digits] [Alphanumeric] in
/-- `add_description`. -/
def addDescription (caseId description : String) :
    Except Refusal ProductStore := do
  let body := strip description
  if body = "" then throw (.http 422 "product_description_empty")
  else if maxDescriptionChars < body.toList.length then
    throw (.http 422 "product_description_too_long")
  else if caseId ∉ store.cases then throw (.http 404 "case_not_found")
  else
    let versions := (store.descriptions.rows.filter fun d =>
      d.caseId = caseId).map ProductDescription.versionNumber
    let descriptions ← orDatabase (store.descriptions.insert? {
      id := env.uuids 0
      caseId := caseId
      versionNumber := nextVersion versions
      descriptionText := body
      createdBy := env.actorIdentityId
      createdAt := env.now })
    return { store with descriptions := descriptions }

/-- The rows of a draft's candidates. -/
def draftRows (setId : String) (features : List ProductFeature) :
    List ProductFeatureRow :=
  features.mapIdx fun order feature => ProductStore.featureRow env setId
    feature.featureId feature.text feature.spans .split order

/-- `create_draft`. -/
def createDraft (caseId descriptionId : String) :
    Except Refusal ProductStore := do
  match store.descriptions.rows.find? fun d =>
      d.id = descriptionId && d.caseId = caseId with
  | none => throw (.http 404 "product_description_not_found")
  | some description =>
      let result := splitDescription description.descriptionText
      (← store.insertSet env caseId descriptionId none).insertFeatures
        (draftRows env (env.uuids 0) result.features)

/-- The copies of a confirmed set's features. -/
def revisionRows (setId : String) (features : List ProductFeatureRow) :
    List ProductFeatureRow :=
  features.map fun f => ProductStore.featureRow env setId f.featureCode
    f.featureText f.spans f.origin f.sortOrder

/-- `create_revision`. -/
def createRevision (setId : String) : Except Refusal ProductStore := do
  let (source, features) ← store.loadSet setId
  if source.status ≠ .confirmed then
    throw (.http 409 "only_confirmed_sets_can_be_revised")
  else
    (← store.insertSet env source.caseId source.descriptionId
      (some setId)).insertFeatures (revisionRows env (env.uuids 0) features)

/-- `confirm`. -/
def confirmSet (setId : String) : Except Refusal ProductStore := do
  let (_, features) ← store.loadDraft setId
  if features = [] then
    throw (.http 422 "cannot_confirm_empty_feature_set")
  else
    return { store with
      sets := store.sets.update (fun s => s.id = setId)
        fun s => { s with status := .confirmed
                          confirmedBy := some env.actorIdentityId
                          confirmedAt := some env.now
                          updatedAt := env.now } }

/-- The origin an edited feature has. -/
def editedOrigin (feature : ProductFeatureRow) (body : String) :
    FeatureOrigin :=
  if body = feature.featureText then feature.origin
  else if feature.origin = .manual then .manual
  else .edited

/-- `edit_feature`. -/
def editFeature (setId code newText : String) :
    Except Refusal ProductStore := do
  let (_, features) ← store.loadDraft setId
  let feature ← findFeature features code
  let body := strip newText
  if body = "" then throw (.http 422 "feature_text_empty")
  else
    return store.updateFeature env setId code body feature.spans
      (editedOrigin feature body)

/-- `add_feature`. -/
def addFeature (setId featureText : String) : Except Refusal ProductStore := do
  let (_, features) ← store.loadDraft setId
  let body := strip featureText
  if body = "" then throw (.http 422 "feature_text_empty")
  else
    store.insertFeatures [ProductStore.featureRow env setId (nextCode features)
      body [] .manual (nextOrder features)]

/-- `delete_feature`. -/
def deleteFeature (setId code : String) : Except Refusal ProductStore := do
  let (_, features) ← store.loadDraft setId
  let _ ← findFeature features code
  return store.removeFeatures setId [code]

/-- What a split makes of the spans and the origin: unedited, contiguous
split features keep exact spans on both sides. -/
def splitParts (feature : ProductFeatureRow) (index : Nat) :
    List Span × List Span × FeatureOrigin :=
  match feature.origin, feature.spans with
  | .split, [(start, stop)] =>
      let rawLeft := feature.featureText.toList.take index
      let rawRight := feature.featureText.toList.drop index
      let leftEnd := start + (rawLeft.rdropWhile isSpace).length
      let rightStart := start + index
        + (rawRight.length - (rawRight.dropWhile isSpace).length)
      ([(start, leftEnd)], [(rightStart, stop)], .split)
  | origin, spans =>
      (spans, [], if origin ≠ .manual then .edited else .manual)

/-- `split_feature`. -/
def splitFeature (setId code : String) (index : Nat) :
    Except Refusal ProductStore := do
  let (_, features) ← store.loadDraft setId
  let feature ← findFeature features code
  let left := String.ofList
    (stripChars (feature.featureText.toList.take index))
  let right := String.ofList
    (stripChars (feature.featureText.toList.drop index))
  if left = "" ∨ right = "" then
    throw (.http 422 "split_would_create_empty_feature")
  else
    let (leftSpans, rightSpans, origin) := splitParts feature index
    ((store.updateFeature env setId code left leftSpans origin).shiftOrdersAfter
      setId feature.sortOrder).insertFeatures
        [ProductStore.featureRow env setId (nextCode features) right rightSpans
          origin (feature.sortOrder + 1)]

/-- `merge_features`. -/
def mergeFeatures (setId : String) (codes : List String) :
    Except Refusal ProductStore := do
  let (_, features) ← store.loadDraft setId
  if codes.dedup.length < 2 then throw (.http 422 "merge_needs_two_features")
  else
    match Cases.CaseStore.sortedBy ProductFeatureRow.sortOrder
        (← codes.dedup.mapM (findFeature features)) with
    | [] => return store
    | first :: rest =>
        let chosen := first :: rest
        let origin : FeatureOrigin :=
          if chosen.all fun f => f.origin = .split then .split else .edited
        return (store.updateFeature env setId first.featureCode
          (join " " (chosen.map ProductFeatureRow.featureText))
          (chosen.flatMap ProductFeatureRow.spans) origin).removeFeatures setId
            (rest.map ProductFeatureRow.featureCode)

/-- What a request asks for, up to its commit. -/
def executeProduct : ProductOp → Except Refusal ProductStore
  | .addDescription caseId description =>
      addDescription store env caseId description
  | .createDraft caseId descriptionId =>
      createDraft store env caseId descriptionId
  | .revise setId => createRevision store env setId
  | .confirm setId => confirmSet store env setId
  | .edit setId code newText => editFeature store env setId code newText
  | .add setId featureText => addFeature store env setId featureText
  | .delete setId code => deleteFeature store setId code
  | .split setId code index => splitFeature store env setId code index
  | .merge setId codes => mergeFeatures store env setId codes

/-- The rows after one request: one that is refused, or whose transaction
does not commit, leaves them. -/
def afterProduct (event : ProductOp × Env) : ProductStore :=
  Fallible.settle store (do
    let next ← executeProduct store event.2 event.1
    if event.2.commits then return next else throw .database)

end PatentEvidence.Fto
