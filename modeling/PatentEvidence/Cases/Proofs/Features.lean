/-
What an accepted request of the feature service leaves.

Seven of the eight operations do two things to the features at most: they
delete some, with their cells, and they extend a version by rows with
given codes, without touching code, id or version of the others
(`Extends`). An update rewrites the code of one feature (`Recodes`). One
inversion per operation says which; the proofs about codes and about
comparison matrices start from these and unfold no operation again.
-/
import PatentEvidence.Cases.Features

namespace PatentEvidence.Cases

open Fallible Text

variable {store store' : CaseStore} {env : Env}

-- =============================================================== labels

/-- Version and code of a feature. -/
def ClaimFeature.label (f : ClaimFeature) : String × String :=
  (f.featureSetVersionId, f.featureCode)

def CaseStore.labels (store : CaseStore) : List (String × String) :=
  store.features.rows.map ClaimFeature.label

/-- The codes of a version. -/
def CaseStore.codesOf (store : CaseStore) (versionId : String) : List String :=
  (store.featuresOf versionId).map ClaimFeature.featureCode

/-- The ids of the case's feature-set versions. -/
def CaseStore.versionIds (store : CaseStore) : List String :=
  store.versions.rows.map FeatureSetVersion.id

theorem mem_featuresOf {versionId : String} {f : ClaimFeature} :
    f ∈ store.featuresOf versionId
      ↔ f ∈ store.features.rows ∧ f.featureSetVersionId = versionId := by
  unfold CaseStore.featuresOf
  rw [List.mem_filter, decide_eq_true_eq]

theorem eq_of_id_eq {f f' : ClaimFeature} (hf : f ∈ store.features.rows)
    (hf' : f' ∈ store.features.rows) (h : f.id = f'.id) : f = f' :=
  store.features.eq_of_key_eq hf hf' h

-- ============================================================== the effects

/-- What no feature request touches, and the versions it keeps. -/
structure Frame (store store' : CaseStore) : Prop where
  matrices : store'.matrices = store.matrices
  candidates : store'.candidates = store.candidates
  versions : store.versionIds ⊆ store'.versionIds

/-- The features, with their texts edited perhaps, and after them new ones
of one version with the given codes. -/
structure Extends (store store' : CaseStore) (versionId : String)
    (codes : List String) : Prop extends Frame store store' where
  features : ∃ (edit : ClaimFeature → ClaimFeature) (new : List ClaimFeature),
    store'.features.rows = store.features.rows.map edit ++ new
      ∧ (∀ f, (edit f).id = f.id ∧ (edit f).label = f.label)
      ∧ new.map ClaimFeature.label = codes.map fun code => (versionId, code)
  cells : store'.cells = store.cells
  version : versionId ∈ store'.versionIds

/-- A feature of a version by another code; the other features as they
were. -/
structure Recodes (store store' : CaseStore) (versionId featureId : String)
    (code : Option String) : Prop extends Frame store store' where
  features : ∃ edit : ClaimFeature → ClaimFeature,
    store'.features.rows = store.features.rows.map edit
      ∧ ∀ f, (edit f).id = f.id ∧ (edit f).label
        = if f.id = featureId ∧ f.featureSetVersionId = versionId then
            (versionId, code.getD f.featureCode)
          else f.label
  cells : store'.cells = store.cells

theorem frame_deleteFeatures (p : ClaimFeature → Bool) :
    Frame store (store.deleteFeatures p) :=
  ⟨rfl, rfl, fun _ h => h⟩

theorem Extends.labels {versionId : String} {codes : List String}
    (h : Extends store store' versionId codes) :
    store'.labels = store.labels ++ codes.map fun code =>
      (versionId, code) := by
  obtain ⟨edit, new, hrows, hedit, hnew⟩ := h.features
  unfold CaseStore.labels
  rw [hrows, List.map_append, hnew, List.map_map]
  congr 1
  exact List.map_congr_left fun f _ => (hedit f).2

theorem Recodes.labels {versionId featureId : String} {code : Option String}
    (h : Recodes store store' versionId featureId code) :
    store'.labels = store.features.rows.map fun f =>
      if f.id = featureId ∧ f.featureSetVersionId = versionId then
        (versionId, code.getD f.featureCode)
      else f.label := by
  obtain ⟨edit, hrows, hedit⟩ := h.features
  unfold CaseStore.labels
  rw [hrows, List.map_map]
  exact List.map_congr_left fun f _ => (hedit f).2

-- ================================================================ the parts

theorem mem_versionIds_of_assertDraft {versionId : String} {u : Unit}
    (h : assertDraftVersion store versionId = .ok u) :
    versionId ∈ store.versionIds := by
  unfold assertDraftVersion at h
  cases hfind : findVersion store versionId with
  | none =>
      rw [hfind] at h
      cases h
  | some version =>
      obtain ⟨hmem, hid⟩ := Table.find?_eq_some hfind
      exact List.mem_map.mpr ⟨version, hmem, hid⟩

theorem mem_versionIds_of_existingDraft {draft : FeatureSetVersion}
    (h : existingDraft store = .ok (some draft)) :
    draft.id ∈ store.versionIds := by
  have hone := oneOrNone_eq_some h
  have hmem : draft ∈ store.versions.rows.filter fun v => v.status = .draft :=
    hone ▸ List.mem_singleton_self draft
  exact List.mem_map_of_mem (List.mem_filter.mp hmem).1

theorem versionIds_update (p : FeatureSetVersion → Bool)
    (f : FeatureSetVersion → FeatureSetVersion)
    (hf : ∀ v, (f v).id = v.id) :
    (store.versions.update p f hf).rows.map FeatureSetVersion.id
      = store.versionIds := by
  unfold CaseStore.versionIds
  rw [Table.rows_update]
  exact Table.map_rewrite_of_fixed hf _ _

theorem mem_of_eq {ids ids' : List String} {id : String} (h : ids = ids')
    (hid : id ∈ ids') : id ∈ ids :=
  h ▸ hid

theorem labels_draftRows (versionId : String) (first : Nat)
    (drafts : List DraftFeature) :
    (draftRows env versionId first drafts).map ClaimFeature.label
      = (drafts.map DraftFeature.featureCode).map fun code =>
          (versionId, code) := by
  rw [List.map_map]
  exact Table.map_mapIdx_of_forall
    (fun i draft => draftRow env versionId (env.uuids (first + i)) draft)
    (fun _ _ => rfl) drafts

/-- Rows appended to the features, and nothing else. -/
theorem extends_of_append {versionId : String} {codes : List String}
    {new : List ClaimFeature} (hframe : Frame store store')
    (hrows : store'.features.rows = store.features.rows ++ new)
    (hnew : new.map ClaimFeature.label = codes.map fun code =>
      (versionId, code))
    (hcells : store'.cells = store.cells)
    (hversion : versionId ∈ store'.versionIds) :
    Extends store store' versionId codes :=
  { hframe with
    features := ⟨id, new, by rw [List.map_id]; exact hrows,
      fun _ => ⟨rfl, rfl⟩, hnew⟩
    cells := hcells
    version := hversion }

-- =========================================================== the operations

/-- The store with the features of a version deleted. -/
def CaseStore.clear (store : CaseStore) (versionId : String) : CaseStore :=
  store.deleteFeatures fun f => f.featureSetVersionId = versionId

/-- An extraction refills the open draft or fills a new version. -/
theorem extract_leaves {documentVersionId : Option String}
    {drafts : List DraftFeature}
    (h : extractDraftFeatures store env documentVersionId drafts
      = .ok store') :
    ∃ versionId codes,
      ((versionId ∈ store.versionIds
          ∧ Extends (store.clear versionId) store' versionId codes)
        ∨ (versionId ∉ store.versionIds
          ∧ Extends store store' versionId codes))
      ∧ (codes.Nodup ↔ (drafts.map DraftFeature.featureCode).Nodup) := by
  unfold extractDraftFeatures at h
  cases hdoc : extractionDocument store documentVersionId with
  | none =>
      rw [hdoc] at h
      cases h
  | some document =>
      rw [hdoc] at h
      obtain ⟨existing, hexisting, h⟩ := bind_eq_ok.mp h
      have hcodes : ((draftsOrFallback document.paragraphs drafts).map
          DraftFeature.featureCode).Nodup
            ↔ (drafts.map DraftFeature.featureCode).Nodup := by
        unfold draftsOrFallback
        by_cases hd : drafts = []
        · simp [hd]
        · rw [if_neg hd]
      cases existing with
      | some draft =>
          obtain ⟨features, hins, h⟩ := bind_eq_ok.mp h
          cases Except.ok.inj h
          have hids : (List.map FeatureSetVersion.id
              (store.versions.update (fun v => v.id = draft.id) fun v =>
                { v with documentVersionId := document.id
                         updatedAt := env.now }).rows)
              = store.versionIds := versionIds_update _ _ _
          have hdraft := mem_versionIds_of_existingDraft hexisting
          refine ⟨draft.id, _, .inl ⟨hdraft, extends_of_append
            ⟨rfl, rfl, ?_⟩
            (Table.rows_of_insertAll? (orDatabase_eq_ok.mp hins))
            (labels_draftRows ..) rfl ?_⟩, hcodes⟩
          · exact fun _ hid => mem_of_eq hids hid
          · exact mem_of_eq hids hdraft
      | none =>
          obtain ⟨versions, hver, h⟩ := bind_eq_ok.mp h
          obtain ⟨features, hins, h⟩ := bind_eq_ok.mp h
          cases Except.ok.inj h
          have hinserted := orDatabase_eq_ok.mp hver
          have hfresh := (Table.insert?_eq_some.mp hinserted).1
          have hids : versions.rows.map FeatureSetVersion.id
              = store.versionIds ++ [env.uuids 0] :=
            Table.keys_of_insert? hinserted
          refine ⟨env.uuids 0, _, .inr ⟨hfresh, extends_of_append
            ⟨rfl, rfl, ?_⟩
            (Table.rows_of_insertAll? (orDatabase_eq_ok.mp hins))
            (labels_draftRows ..) rfl ?_⟩, hcodes⟩
          · exact fun _ hid => mem_of_eq hids (List.mem_append_left _ hid)
          · exact mem_of_eq hids
              (List.mem_append_right _ (List.mem_singleton_self _))

/-- A revision hands back the open draft or copies the base version. -/
theorem revise_leaves {baseVersionId : String}
    (h : createRevision store env baseVersionId = .ok store') :
    store' = store ∨ ∃ versionId codes, versionId ∉ store.versionIds
      ∧ Extends store store' versionId codes
      ∧ codes.Perm (store.codesOf baseVersionId) := by
  unfold createRevision at h
  cases hbase : findVersion store baseVersionId with
  | none =>
      rw [hbase] at h
      cases h
  | some base =>
      rw [hbase] at h
      obtain ⟨existing, hexisting, h⟩ := bind_eq_ok.mp h
      cases existing with
      | some draft =>
          left
          exact (Except.ok.inj h).symm
      | none =>
          right
          obtain ⟨versions, hver, h⟩ := bind_eq_ok.mp h
          obtain ⟨features, hins, h⟩ := bind_eq_ok.mp h
          cases Except.ok.inj h
          have hinserted := orDatabase_eq_ok.mp hver
          have hfresh := (Table.insert?_eq_some.mp hinserted).1
          have hids : versions.rows.map FeatureSetVersion.id
              = store.versionIds ++ [env.uuids 0] :=
            Table.keys_of_insert? hinserted
          refine ⟨env.uuids 0, (CaseStore.sortedBy ClaimFeature.sortOrder
            (store.featuresOf baseVersionId)).map ClaimFeature.featureCode,
            hfresh, extends_of_append ⟨rfl, rfl, ?_⟩
              (Table.rows_of_insertAll? (orDatabase_eq_ok.mp hins)) ?_ rfl ?_,
            (List.perm_insertionSort ..).map _⟩
          · exact fun _ hid => mem_of_eq hids (List.mem_append_left _ hid)
          · rw [List.map_map]
            exact Table.map_mapIdx_of_forall (fun i f =>
              revisedRow env (env.uuids 0) (env.uuids (1 + i)) f)
              (fun _ _ => rfl) _
          · exact mem_of_eq hids
              (List.mem_append_right _ (List.mem_singleton_self _))

theorem add_leaves {versionId code type statement : String}
    {paragraph quote : Option String}
    (h : addFeature store env versionId code type statement paragraph quote
      = .ok store') :
    versionId ∈ store.versionIds ∧ Extends store store' versionId
      [addedCode store versionId code] := by
  unfold addFeature at h
  obtain ⟨u, hdraft, h⟩ := bind_eq_ok.mp h
  obtain ⟨features, hins, h⟩ := bind_eq_ok.mp h
  cases Except.ok.inj h
  have hversion := mem_versionIds_of_assertDraft hdraft
  exact ⟨hversion, extends_of_append ⟨rfl, rfl, fun _ hid => hid⟩
    (Table.insert?_eq_some.mp (orDatabase_eq_ok.mp hins)).2 rfl rfl hversion⟩

/-- A split adds the code of the second half; the first keeps its code. -/
theorem split_leaves {versionId featureId part1 part2 : String}
    (h : splitFeature store env versionId featureId part1 part2
      = .ok store') :
    versionId ∈ store.versionIds ∧ ∃ old ∈ store.featuresOf versionId,
      old.id = featureId
        ∧ Extends store store' versionId [part2Code old.featureCode] := by
  unfold splitFeature at h
  obtain ⟨u, hdraft, h⟩ := bind_eq_ok.mp h
  have hversion := mem_versionIds_of_assertDraft hdraft
  cases hold : (store.featuresOf versionId).find? fun f => f.id = featureId with
  | none =>
      rw [hold] at h
      cases h
  | some old =>
      rw [hold] at h
      obtain ⟨features, hins, h⟩ := bind_eq_ok.mp h
      cases Except.ok.inj h
      have hrows := (Table.insert?_eq_some.mp (orDatabase_eq_ok.mp hins)).2
      refine ⟨hversion, old, List.mem_of_find?_eq_some hold,
        by simpa using List.find?_some hold,
        { matrices := rfl, candidates := rfl, versions := fun _ hid => hid
          features := ⟨_, _, hrows, fun f => ?_, rfl⟩
          cells := rfl, version := hversion }⟩
      split
      · exact ⟨rfl, rfl⟩
      · exact ⟨rfl, rfl⟩

theorem delete_leaves {versionId featureId : String}
    (h : deleteFeature store versionId featureId = .ok store') :
    ∃ p, store' = store.deleteFeatures p := by
  unfold deleteFeature at h
  obtain ⟨u, -, h⟩ := bind_eq_ok.mp h
  exact ⟨_, (Except.ok.inj h).symm⟩

/-- A merge edits one text and deletes the other feature. -/
theorem merge_leaves {versionId featureId1 featureId2 statement : String}
    (h : mergeFeatures store env versionId featureId1 featureId2 statement
      = .ok store') :
    ∃ mid p, Extends store mid versionId [] ∧ store' = mid.deleteFeatures p := by
  unfold mergeFeatures at h
  obtain ⟨u, hdraft, h⟩ := bind_eq_ok.mp h
  refine ⟨_, _, ?_, (Except.ok.inj h).symm⟩
  refine
    { matrices := rfl, candidates := rfl, versions := fun _ hid => hid
      features := ⟨_, [], (List.append_nil _).symm, fun f => ?_, rfl⟩
      cells := rfl, version := mem_versionIds_of_assertDraft hdraft }
  split
  · exact ⟨rfl, rfl⟩
  · exact ⟨rfl, rfl⟩

theorem confirm_leaves {versionId : String}
    (h : confirmVersion store env versionId = .ok store') :
    Extends store store' versionId [] := by
  unfold confirmVersion at h
  obtain ⟨u, hdraft, h⟩ := bind_eq_ok.mp h
  have hversion := mem_versionIds_of_assertDraft hdraft
  split at h
  · cases h
  · cases Except.ok.inj h
    have hids : (List.map FeatureSetVersion.id
        (store.versions.update (fun v => v.id = versionId) fun v =>
          { v with status := .confirmed
                   confirmedBy := some env.actorIdentityId
                   confirmedAt := some env.now
                   updatedAt := env.now }).rows)
        = store.versionIds := versionIds_update _ _ _
    exact extends_of_append ⟨rfl, rfl, fun _ hid => mem_of_eq hids hid⟩
      (List.append_nil _).symm rfl rfl (mem_of_eq hids hversion)

/-- An update gives its target the code it is given, if any. -/
theorem update_leaves {versionId featureId : String}
    {code type statement paragraph quote : Option String}
    {order : Option Int}
    (h : updateFeature store env versionId featureId code type statement
      paragraph quote order = .ok store') :
    Recodes store store' versionId featureId (strippedIfGiven code) := by
  unfold updateFeature at h
  obtain ⟨u, -, h⟩ := bind_eq_ok.mp h
  cases Except.ok.inj h
  refine
    { matrices := rfl, candidates := rfl, versions := fun _ hid => hid
      features := ⟨_, rfl, fun f => ?_⟩
      cells := rfl }
  by_cases hf : f.id = featureId ∧ f.featureSetVersionId = versionId
  · simp [hf, ClaimFeature.label]
  · simp [hf]

-- ================================================================== service

theorem execute_of_serve {event : FeatureEvent}
    (h : serveFeature store event = .ok store') :
    executeFeature store event.env event.op = .ok store' := by
  obtain ⟨after, hafter, h⟩ := bind_eq_ok.mp h
  rw [(commit_eq_ok.mp h).2]
  exact hafter

end PatentEvidence.Cases
