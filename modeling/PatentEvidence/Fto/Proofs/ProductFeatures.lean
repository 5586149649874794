/-
Every reachable feature set is well formed, and a confirmed one stays.

`Edits` carries a change of the features of one set to the tables: an
operation on a set leaves every other alone. It needs a draft, so the
confirmed sets are among those left alone (`Frozen`). That codes are
distinct is the table's own constraint (`nodup_codes`).

# Sections

- what an operation does to the tables;
- all operations;
- runs.
-/
import PatentEvidence.Fto.Proofs.FeatureSets
import PatentEvidence.Lib.Run

namespace PatentEvidence.Fto

open Cases (Env orDatabase_eq_ok)
open Fallible Runs Text

-- =================================== what an operation does to the tables

section Tables

variable {store store' store'' : ProductStore} {env : Env} {setId : String}

theorem mem_featuresOf {f : ProductFeatureRow} :
    f ∈ store.featuresOf setId ↔ f ∈ store.features.rows ∧ f.featureSetId = setId := by
  rw [ProductStore.featuresOf, List.mem_filter, decide_eq_true_eq]

/-- The table's constraint on codes, set by set. -/
theorem nodup_codes (store : ProductStore) (setId : String) :
    ((store.featuresOf setId).map ProductFeatureRow.featureCode).Nodup := by
  refine List.Nodup.of_map (fun code => (setId, code)) ?_
  have hkeys : (store.featuresOf setId).map
        ((fun code => (setId, code)) ∘ ProductFeatureRow.featureCode)
      = (store.featuresOf setId).map ProductFeatureRow.key := by
    refine List.map_congr_left fun f hf => ?_
    rw [Function.comp_apply, ProductFeatureRow.key, (mem_featuresOf.mp hf).2]
  rw [List.map_map, hkeys]
  exact store.features.nodup.sublist (List.filter_sublist.map _)

theorem perm_orderedFeatures (store : ProductStore) (setId : String) :
    (store.orderedFeatures setId).Perm (store.featuresOf setId) :=
  List.perm_insertionSort ..

/-- The features of one set are changed and nothing else. -/
structure Edits (store store' : ProductStore) (setId : String)
    (features : List ProductFeatureRow) : Prop where
  descriptions : store'.descriptions = store.descriptions
  sets : store'.sets = store.sets
  others : ∀ other, other ≠ setId → store'.featuresOf other = store.featuresOf other
  edited : store'.featuresOf setId = features

theorem Edits.trans {features features' : List ProductFeatureRow}
    (h : Edits store store' setId features)
    (h' : Edits store' store'' setId features') :
    Edits store store'' setId features' where
  descriptions := h'.descriptions.trans h.descriptions
  sets := h'.sets.trans h.sets
  others := fun other hne => (h'.others other hne).trans (h.others other hne)
  edited := h'.edited

/-- An update of features of one set. -/
theorem edits_update {p : ProductFeatureRow → Bool}
    {f change : ProductFeatureRow → ProductFeatureRow}
    (hf : ∀ r, ProductFeatureRow.key (f r) = ProductFeatureRow.key r)
    (hp : ∀ r, p r = true → r.featureSetId = setId)
    (hchange : ∀ r, r.featureSetId = setId → (if p r then f r else r) = change r) :
    Edits store { store with features := store.features.update p f hf } setId
      ((store.featuresOf setId).map change) := by
  have hrows (other : String) :
      ({ store with features := store.features.update p f hf }
        : ProductStore).featuresOf other
        = (store.featuresOf other).map fun r => if p r then f r else r := by
    unfold ProductStore.featuresOf
    rw [Table.rows_update, List.filter_map]
    refine congrArg _ (List.filter_congr fun r _ => ?_)
    rw [Function.comp_apply]
    split
    · have hset : (f r).featureSetId = r.featureSetId := congrArg Prod.fst (hf r)
      rw [hset]
    · rfl
  refine ⟨rfl, rfl, fun other hne => ?_, ?_⟩
  · rw [hrows]
    refine (List.map_congr_left fun r hr => ?_).trans (List.map_id _)
    exact if_neg fun hpr => hne ((mem_featuresOf.mp hr).2.symm.trans (hp r hpr))
  · rw [hrows]
    exact List.map_congr_left fun r hr => hchange r (mem_featuresOf.mp hr).2

theorem edits_updateFeature (store : ProductStore) (env : Env)
    (setId code body : String) (spans : List Span) (origin : FeatureOrigin) :
    Edits store (store.updateFeature env setId code body spans origin) setId
      ((store.featuresOf setId).map
        (rewritten code body spans origin env.now)) := by
  refine edits_update _ (fun r hr => (of_decide_eq_true hr).1) fun r hset => ?_
  unfold rewritten
  simp only [hset, true_and, decide_eq_true_eq]

theorem edits_shiftOrdersAfter (store : ProductStore) (setId : String)
    (order : Nat) : Edits store (store.shiftOrdersAfter setId order) setId
      ((store.featuresOf setId).map (shifted order)) := by
  refine edits_update _ (fun r hr => (of_decide_eq_true hr).1) fun r hset => ?_
  unfold shifted
  simp only [hset, true_and, decide_eq_true_eq]

theorem edits_removeFeatures (store : ProductStore) (setId : String)
    (codes : List String) : Edits store (store.removeFeatures setId codes) setId
      ((store.featuresOf setId).filter fun f => f.featureCode ∉ codes) where
  descriptions := rfl
  sets := rfl
  others := by
    intro other hne
    unfold ProductStore.featuresOf ProductStore.removeFeatures
    rw [Table.rows_delete, List.filter_filter]
    refine List.filter_congr fun r _ => ?_
    by_cases hset : r.featureSetId = other
    · have hother : r.featureSetId ≠ setId := fun h => hne (hset.symm.trans h)
      simp [hset, hne]
    · simp [hset]
  edited := by
    unfold ProductStore.featuresOf ProductStore.removeFeatures
    rw [Table.rows_delete, List.filter_filter, List.filter_filter]
    refine List.filter_congr fun r _ => ?_
    by_cases hset : r.featureSetId = setId
    · simp [hset]
    · simp [hset]

theorem rows_of_insertFeatures {rows : List ProductFeatureRow}
    (h : store.insertFeatures rows = .ok store') :
    store'.descriptions = store.descriptions ∧ store'.sets = store.sets
      ∧ store'.features.rows = store.features.rows ++ rows := by
  obtain ⟨features, hfeatures, h⟩ := bind_eq_ok.mp h
  rw [pure_eq_ok] at h
  subst h
  exact ⟨rfl, rfl, Table.rows_of_insertAll? (orDatabase_eq_ok.mp hfeatures)⟩

/-- The features of the sets once rows of one set are inserted. -/
theorem featuresOf_append {rows : List ProductFeatureRow}
    (h : store'.features.rows = store.features.rows ++ rows)
    (hrows : ∀ r ∈ rows, r.featureSetId = setId) (other : String) :
    store'.featuresOf other
      = store.featuresOf other ++ if other = setId then rows else [] := by
  unfold ProductStore.featuresOf
  rw [h, List.filter_append]
  congr 1
  split
  · next heq =>
      refine List.filter_eq_self.mpr fun r hr => decide_eq_true ?_
      rw [hrows r hr, heq]
  · next hne =>
      refine List.filter_eq_nil_iff.mpr fun r hr heq => hne ?_
      rw [← hrows r hr]
      exact (of_decide_eq_true heq).symm

theorem edits_insertFeature {row : ProductFeatureRow}
    (hrow : row.featureSetId = setId)
    (h : store.insertFeatures [row] = .ok store') :
    Edits store store' setId (store.featuresOf setId ++ [row]) := by
  obtain ⟨hdescriptions, hsets, hrows⟩ := rows_of_insertFeatures h
  have hfeatures := featuresOf_append hrows
    (List.forall_mem_singleton.mpr hrow)
  refine ⟨hdescriptions, hsets, fun other hne => ?_, ?_⟩
  · rw [hfeatures, if_neg hne, List.append_nil]
  · rw [hfeatures, if_pos rfl]

/-- A new draft with features. -/
structure Creates (store store' : ProductStore) (set : ProductFeatureSet)
    (rows : List ProductFeatureRow) : Prop where
  descriptions : store'.descriptions = store.descriptions
  sets : store'.sets.rows = store.sets.rows ++ [set]
  features : store'.features.rows = store.features.rows ++ rows
  ofSet : ∀ r ∈ rows, r.featureSetId = set.id

theorem creates_of_insert {caseId descriptionId : String} {parent : Option String}
    {rows : List ProductFeatureRow}
    (hrows : ∀ r ∈ rows, r.featureSetId = env.uuids 0)
    (h : (store.insertSet env caseId descriptionId parent >>= fun store =>
      store.insertFeatures rows) = .ok store') :
    ∃ set : ProductFeatureSet, set.descriptionId = descriptionId
      ∧ set.id ∉ store.sets.rows.map ProductFeatureSet.id
      ∧ Creates store store' set rows := by
  obtain ⟨mid, hmid, h⟩ := bind_eq_ok.mp h
  obtain ⟨sets, hsets, hmid⟩ := bind_eq_ok.mp hmid
  rw [pure_eq_ok] at hmid
  subst hmid
  obtain ⟨hfresh, hsetRows⟩ := Table.insert?_eq_some.mp (orDatabase_eq_ok.mp hsets)
  obtain ⟨hdescriptions, hsets', hfeatures⟩ := rows_of_insertFeatures h
  refine ⟨_, rfl, hfresh, hdescriptions, ?_, hfeatures, hrows⟩
  rw [hsets']
  exact hsetRows

theorem loadSet_eq_ok {data : ProductFeatureSet × List ProductFeatureRow}
    (h : store.loadSet setId = .ok data) :
    data.1 ∈ store.sets.rows ∧ data.1.id = setId
      ∧ data.2 = store.orderedFeatures setId := by
  unfold ProductStore.loadSet at h
  split at h
  · cases h
  · next set hset =>
      cases h
      obtain ⟨hin, hid⟩ := Table.find?_eq_some hset
      exact ⟨hin, hid, rfl⟩

theorem loadDraft_eq_ok {data : ProductFeatureSet × List ProductFeatureRow}
    (h : store.loadDraft setId = .ok data) :
    data.1 ∈ store.sets.rows ∧ data.1.id = setId ∧ data.1.status = .draft
      ∧ data.2 = store.orderedFeatures setId := by
  obtain ⟨data', hload, h⟩ := bind_eq_ok.mp h
  split at h
  · next hdraft =>
      rw [pure_eq_ok] at h
      subst h
      obtain ⟨hin, hid, hfeatures⟩ := loadSet_eq_ok hload
      exact ⟨hin, hid, hdraft, hfeatures⟩
  · cases h

end Tables

-- ========================================================= all operations

/-- What holds of the tables: features belong to sets, and every set is
well formed, of its description. -/
structure Valid (store : ProductStore) : Prop where
  owned : ∀ f ∈ store.features.rows, ∃ set ∈ store.sets.rows,
    set.id = f.featureSetId
  sets : ∀ set ∈ store.sets.rows, ∃ d ∈ store.descriptions.rows,
    d.id = set.descriptionId
      ∧ SetOk d.descriptionText (store.featuresOf set.id)

/-- Confirmed sets and their features are as they were. -/
def Frozen (store store' : ProductStore) : Prop :=
  ∀ set ∈ store.sets.rows, set.status = .confirmed →
    set ∈ store'.sets.rows ∧ store'.featuresOf set.id = store.featuresOf set.id

section Steps

variable {store store' : ProductStore} {env : Env} {setId : String}

theorem valid_of_edits {set : ProductFeatureSet} {features : List ProductFeatureRow}
    (hv : Valid store) (h : Edits store store' setId features)
    (hset : set ∈ store.sets.rows ∧ set.id = setId ∧ set.status = .draft)
    (hok : ∀ text, SetOk text (store.featuresOf setId) → SetOk text features) :
    Valid store' ∧ Frozen store store' := by
  obtain ⟨hin, hid, hdraft⟩ := hset
  refine ⟨⟨?_, ?_⟩, ?_⟩
  · intro f hf
    rw [h.sets]
    by_cases heq : f.featureSetId = setId
    · exact ⟨set, hin, hid.trans heq.symm⟩
    · have hold : f ∈ store.featuresOf f.featureSetId := by
        rw [← h.others _ heq]
        exact mem_featuresOf.mpr ⟨hf, rfl⟩
      exact hv.owned f (mem_featuresOf.mp hold).1
  · rw [h.sets, h.descriptions]
    intro other hother
    obtain ⟨d, hd, hdescription, hfeatures⟩ := hv.sets other hother
    refine ⟨d, hd, hdescription, ?_⟩
    by_cases heq : other.id = setId
    · rw [heq] at hfeatures ⊢
      rw [h.edited]
      exact hok _ hfeatures
    · rw [h.others _ heq]
      exact hfeatures
  · intro other hother hconfirmed
    rw [h.sets]
    refine ⟨hother, h.others _ fun heq => ?_⟩
    have hsame := store.sets.eq_of_key_eq hother hin (heq.trans hid.symm)
    rw [hsame, hdraft] at hconfirmed
    cases hconfirmed

theorem valid_of_creates {set : ProductFeatureSet} {rows : List ProductFeatureRow}
    (hv : Valid store) (hfresh : set.id ∉ store.sets.rows.map ProductFeatureSet.id)
    (h : Creates store store' set rows)
    (hd : ∃ d ∈ store.descriptions.rows, d.id = set.descriptionId
      ∧ SetOk d.descriptionText rows) : Valid store' ∧ Frozen store store' := by
  have hfeatures := featuresOf_append h.features h.ofSet
  have hnone : store.featuresOf set.id = [] := by
    refine List.eq_nil_iff_forall_not_mem.mpr fun f hf => ?_
    obtain ⟨hf, hset⟩ := mem_featuresOf.mp hf
    obtain ⟨owner, howner, hid⟩ := hv.owned f hf
    exact hfresh (List.mem_map.mpr ⟨owner, howner, hid.trans hset⟩)
  have hold (other : ProductFeatureSet) (hother : other ∈ store.sets.rows) :
      store'.featuresOf other.id = store.featuresOf other.id := by
    have hne : other.id ≠ set.id := fun heq =>
      hfresh (List.mem_map.mpr ⟨other, hother, heq⟩)
    rw [hfeatures, if_neg hne, List.append_nil]
  refine ⟨⟨?_, ?_⟩, ?_⟩
  · intro f hf
    rw [h.features] at hf
    rw [h.sets]
    rcases List.mem_append.mp hf with hf | hf
    · obtain ⟨owner, howner, hid⟩ := hv.owned f hf
      exact ⟨owner, List.mem_append_left _ howner, hid⟩
    · exact ⟨set, List.mem_append_right _ (List.mem_singleton.mpr rfl),
        (h.ofSet f hf).symm⟩
  · rw [h.sets, h.descriptions]
    intro other hother
    rcases List.mem_append.mp hother with hother | hother
    · rw [hold other hother]
      exact hv.sets other hother
    · rw [List.mem_singleton.mp hother, hfeatures, if_pos rfl, hnone,
        List.nil_append]
      exact hd
  · intro other hother _
    rw [h.sets]
    exact ⟨List.mem_append_left _ hother, hold other hother⟩

/-- An edit of a loaded draft: what it needs of the draft's features. -/
theorem valid_of_draft {data : ProductFeatureSet × List ProductFeatureRow}
    {features : List ProductFeatureRow} (hv : Valid store)
    (hload : store.loadDraft setId = .ok data)
    (h : Edits store store' setId features)
    (hok : ∀ text, SetOk text (store.featuresOf setId) → SetOk text features) :
    Valid store' ∧ Frozen store store' := by
  obtain ⟨hin, hid, hdraft, -⟩ := loadDraft_eq_ok hload
  exact valid_of_edits hv h ⟨hin, hid, hdraft⟩ hok

theorem mem_of_loadDraft {data : ProductFeatureSet × List ProductFeatureRow}
    (hload : store.loadDraft setId = .ok data) {f : ProductFeatureRow} :
    f ∈ data.2 ↔ f ∈ store.featuresOf setId := by
  rw [(loadDraft_eq_ok hload).2.2.2, (perm_orderedFeatures store setId).mem_iff]

theorem valid_addDescription {caseId description : String} (hv : Valid store)
    (h : addDescription store env caseId description = .ok store') :
    Valid store' ∧ Frozen store store' := by
  unfold addDescription at h
  dsimp only at h
  split at h
  · cases h
  · split at h
    · cases h
    · split at h
      · cases h
      · obtain ⟨descriptions, hinsert, h⟩ := bind_eq_ok.mp h
        rw [pure_eq_ok] at h
        subst h
        obtain ⟨-, hrows⟩ := Table.insert?_eq_some.mp (orDatabase_eq_ok.mp hinsert)
        refine ⟨⟨hv.owned, fun set hset => ?_⟩, fun set hset _ => ⟨hset, rfl⟩⟩
        obtain ⟨d, hd, hrest⟩ := hv.sets set hset
        refine ⟨d, ?_, hrest⟩
        dsimp only
        rw [hrows]
        exact List.mem_append_left _ hd

theorem valid_createRevision (hv : Valid store)
    (h : createRevision store env setId = .ok store') :
    Valid store' ∧ Frozen store store' := by
  obtain ⟨⟨source, features⟩, hload, h⟩ := bind_eq_ok.mp h
  obtain ⟨hin, hid, hfeatures⟩ := loadSet_eq_ok hload
  dsimp only at h hin hid hfeatures
  split at h
  · cases h
  · have hrows : ∀ r ∈ revisionRows env (env.uuids 0) features,
        r.featureSetId = env.uuids 0 := by
      intro r hr
      obtain ⟨f, -, rfl⟩ := List.mem_map.mp hr
      rfl
    obtain ⟨set, hdescription, hfresh, hcreates⟩ := creates_of_insert hrows h
    obtain ⟨d, hd, hdid, hok⟩ := hv.sets source hin
    refine valid_of_creates hv hfresh hcreates
      ⟨d, hd, hdid.trans hdescription.symm, setOk_revisionRows ?_ env _⟩
    rw [hfeatures]
    rw [hid] at hok
    exact hok.perm (perm_orderedFeatures store setId)

theorem valid_confirmSet (hv : Valid store)
    (h : confirmSet store env setId = .ok store') :
    Valid store' ∧ Frozen store store' := by
  obtain ⟨⟨draft, features⟩, hload, h⟩ := bind_eq_ok.mp h
  obtain ⟨hin, hid, hdraft, -⟩ := loadDraft_eq_ok hload
  dsimp only at h hin hid hdraft
  split at h
  · cases h
  · rw [pure_eq_ok] at h
    subst h
    refine ⟨⟨fun f hf => ?_, fun set hset => ?_⟩, fun set hset hconfirmed => ?_⟩
    · obtain ⟨owner, howner, hid'⟩ := hv.owned f hf
      refine ⟨_, List.mem_map_of_mem howner, ?_⟩
      split
      · exact hid'
      · exact hid'
    · obtain ⟨old, hold, rfl⟩ := List.mem_map.mp hset
      obtain ⟨d, hd, hdescription, hok⟩ := hv.sets old hold
      refine ⟨d, hd, ?_⟩
      split
      · exact ⟨hdescription, hok⟩
      · exact ⟨hdescription, hok⟩
    · refine ⟨List.mem_map.mpr ⟨set, hset, if_neg fun heq => ?_⟩, rfl⟩
      have hsame := store.sets.eq_of_key_eq hset hin
        ((of_decide_eq_true heq).trans hid.symm)
      rw [hsame, hdraft] at hconfirmed
      cases hconfirmed

theorem valid_editFeature {code newText : String} (hv : Valid store)
    (h : editFeature store env setId code newText = .ok store') :
    Valid store' ∧ Frozen store store' := by
  obtain ⟨data, hload, h⟩ := bind_eq_ok.mp h
  obtain ⟨feature, hfind, h⟩ := bind_eq_ok.mp h
  obtain ⟨hfeature, rfl⟩ := findFeature_eq_ok hfind
  rw [mem_of_loadDraft hload] at hfeature
  dsimp only at h
  split at h
  · cases h
  · next hbody =>
      rw [pure_eq_ok] at h
      subst h
      refine valid_of_draft hv hload (edits_updateFeature ..) fun text hok => ?_
      refine hok.rewrite (fun f htext hspans horigin => featureOk_edited
        (hok.each feature hfeature) hbody htext hspans horigin) ?_
      exact fun g hg hne => hok.apart feature hfeature g hg hne.symm

theorem valid_addFeature {newText : String} (hv : Valid store)
    (h : addFeature store env setId newText = .ok store') :
    Valid store' ∧ Frozen store store' := by
  obtain ⟨data, hload, h⟩ := bind_eq_ok.mp h
  dsimp only at h
  split at h
  · cases h
  · next hbody =>
      refine valid_of_draft hv hload (edits_insertFeature rfl h) fun text hok => ?_
      refine hok.concat (featureOk_added hbody) ?_ fun _ _ _ hs => nomatch hs
      have hperm := perm_orderedFeatures store setId
      rw [← (hperm.map ProductFeatureRow.sortOrder).mem_iff,
        ← (loadDraft_eq_ok hload).2.2.2]
      exact nextOrder_notMem data.2

theorem valid_deleteFeature {code : String} (hv : Valid store)
    (h : deleteFeature store setId code = .ok store') :
    Valid store' ∧ Frozen store store' := by
  obtain ⟨data, hload, h⟩ := bind_eq_ok.mp h
  obtain ⟨feature, -, h⟩ := bind_eq_ok.mp h
  rw [pure_eq_ok] at h
  subst h
  exact valid_of_draft hv hload (edits_removeFeatures ..)
    fun _ hok => hok.filter _

theorem valid_splitFeature {code : String} {index : Nat} (hv : Valid store)
    (h : splitFeature store env setId code index = .ok store') :
    Valid store' ∧ Frozen store store' := by
  obtain ⟨data, hload, h⟩ := bind_eq_ok.mp h
  obtain ⟨feature, hfind, h⟩ := bind_eq_ok.mp h
  obtain ⟨hfeature, rfl⟩ := findFeature_eq_ok hfind
  rw [mem_of_loadDraft hload] at hfeature
  dsimp only at h
  split at h
  · cases h
  · next hor =>
      have hempty (cs : List Char) (hne : String.ofList cs ≠ "") : cs ≠ [] := by
        rintro rfl
        exact hne rfl
      rw [not_or] at hor
      refine valid_of_draft hv hload (((edits_updateFeature ..).trans
        (edits_shiftOrdersAfter ..)).trans (edits_insertFeature rfl h))
        fun text hok => ?_
      rw [(edits_shiftOrdersAfter ..).edited, (edits_updateFeature ..).edited]
      exact setOk_split hok hfeature (splitOk_splitParts
        (hok.each feature hfeature) (hempty _ hor.1) (hempty _ hor.2))
        rfl rfl rfl rfl

theorem valid_mergeFeatures {codes : List String} (hv : Valid store)
    (h : mergeFeatures store env setId codes = .ok store') :
    Valid store' ∧ Frozen store store' := by
  obtain ⟨data, hload, h⟩ := bind_eq_ok.mp h
  dsimp only at h
  split at h
  · cases h
  · obtain ⟨found, hfound, h⟩ := bind_eq_ok.mp h
    obtain ⟨hcodes, hin⟩ := codes_of_mapM_findFeature hfound
    have hperm : (Cases.CaseStore.sortedBy ProductFeatureRow.sortOrder found).Perm
        found := List.perm_insertionSort ..
    split at h
    · rw [pure_eq_ok] at h
      subst h
      exact ⟨hv, fun set hset _ => ⟨hset, rfl⟩⟩
    · next first rest hchosen =>
        rw [hchosen] at hperm
        rw [pure_eq_ok] at h
        subst h
        have hchosenIn : ∀ f ∈ first :: rest, f ∈ store.featuresOf setId :=
          fun f hf => (mem_of_loadDraft hload).mp (hin f (hperm.mem_iff.mp hf))
        have hchosenCodes :
            ((first :: rest).map ProductFeatureRow.featureCode).Nodup := by
          rw [(hperm.map _).nodup_iff, hcodes]
          exact List.nodup_dedup codes
        refine valid_of_draft hv hload ((edits_updateFeature ..).trans
          (edits_removeFeatures ..)) fun text hok => ?_
        rw [(edits_updateFeature ..).edited]
        exact setOk_merge hok hchosenIn hchosenCodes

variable [Digits] [Alphanumeric]

theorem valid_createDraft {caseId descriptionId : String} (hv : Valid store)
    (h : createDraft store env caseId descriptionId = .ok store') :
    Valid store' ∧ Frozen store store' := by
  unfold createDraft at h
  split at h
  · cases h
  · next description hfind =>
      have hin := List.mem_of_find?_eq_some hfind
      have hid : description.id = descriptionId := by
        have hfound := List.find?_some hfind
        rw [Bool.and_eq_true] at hfound
        exact of_decide_eq_true hfound.1
      have hrows : ∀ r ∈ draftRows env (env.uuids 0)
          (splitDescription description.descriptionText).features,
          r.featureSetId = env.uuids 0 := by
        intro r hr
        obtain ⟨i, hi, rfl⟩ := List.mem_mapIdx.mp hr
        rfl
      obtain ⟨set, hdescription, hfresh, hcreates⟩ := creates_of_insert hrows h
      exact valid_of_creates hv hfresh hcreates ⟨description, hin,
        hid.trans hdescription.symm, setOk_draftRows ..⟩

/-- Every operation keeps the sets well formed and the confirmed ones as
they are. -/
theorem valid_execute {op : ProductOp} (hv : Valid store)
    (h : executeProduct store env op = .ok store') :
    Valid store' ∧ Frozen store store' := by
  cases op with
  | addDescription caseId description => exact valid_addDescription hv h
  | createDraft caseId descriptionId => exact valid_createDraft hv h
  | revise setId => exact valid_createRevision hv h
  | confirm setId => exact valid_confirmSet hv h
  | edit setId code newText => exact valid_editFeature hv h
  | add setId featureText => exact valid_addFeature hv h
  | delete setId code => exact valid_deleteFeature hv h
  | split setId code index => exact valid_splitFeature hv h
  | merge setId codes => exact valid_mergeFeatures hv h

omit [Digits] [Alphanumeric] in
theorem frozen_refl (store : ProductStore) : Frozen store store :=
  fun _ hset _ => ⟨hset, rfl⟩

theorem valid_afterProduct (hv : Valid store) (event : ProductOp × Env) :
    Valid (afterProduct store event) ∧ Frozen store (afterProduct store event) := by
  refine settle_of_forall (I := fun store' => Valid store' ∧ Frozen store store')
    ⟨hv, frozen_refl store⟩ fun store' h => ?_
  obtain ⟨next, hnext, h⟩ := bind_eq_ok.mp h
  split at h
  · rw [pure_eq_ok] at h
    subst h
    exact valid_execute hv hnext
  · cases h

end Steps

-- ================================================================== runs

section Runs

variable [Digits] [Alphanumeric]

/-- Descriptions of any text, and no feature sets yet. -/
def newProductStore (cases : List String)
    (descriptions : Table ProductDescription.id) : ProductStore :=
  { cases, descriptions, sets := .empty, features := .empty }

omit [Digits] [Alphanumeric] in
theorem valid_newProductStore (cases : List String)
    (descriptions : Table ProductDescription.id) :
    Valid (newProductStore cases descriptions) :=
  ⟨fun _ hf => (nomatch hf), fun _ hset => (nomatch hset)⟩

theorem valid_run {store : ProductStore} (hv : Valid store)
    (events : List (ProductOp × Env)) : Valid (run afterProduct store events) :=
  run_invariant_of_forall (I := Valid)
    (fun _ event h => (valid_afterProduct h event).1) hv

theorem frozen_run {store : ProductStore} (hv : Valid store)
    (events : List (ProductOp × Env)) :
    Frozen store (run afterProduct store events) := by
  induction events generalizing store with
  | nil => exact frozen_refl store
  | cons event events ih =>
      obtain ⟨hnext, hfrozen⟩ := valid_afterProduct hv event
      intro set hset hconfirmed
      obtain ⟨hin, hfeatures⟩ := hfrozen set hset hconfirmed
      obtain ⟨hin', hfeatures'⟩ := ih hnext set hin hconfirmed
      exact ⟨hin', hfeatures'.trans hfeatures⟩

/-- Whatever is requested, every feature set is well formed, of its
description: its codes and its orders are distinct, and so on (`SetOk`).
And a set, once confirmed, stays as it is with its features. -/
theorem product_sets_stay_valid (cases : List String)
    (descriptions : Table ProductDescription.id)
    (events later : List (ProductOp × Env)) :
    let reached := run afterProduct (newProductStore cases descriptions) events
    ∀ set ∈ reached.sets.rows,
      ((reached.featuresOf set.id).map ProductFeatureRow.featureCode).Nodup
        ∧ (∃ d ∈ reached.descriptions.rows, d.id = set.descriptionId
          ∧ SetOk d.descriptionText (reached.featuresOf set.id))
        ∧ (set.status = .confirmed →
          set ∈ (run afterProduct reached later).sets.rows
            ∧ (run afterProduct reached later).featuresOf set.id
              = reached.featuresOf set.id) := by
  intro reached set hset
  have hv : Valid reached :=
    valid_run (valid_newProductStore cases descriptions) events
  exact ⟨nodup_codes reached set.id, hv.sets set hset,
    frozen_run hv later set hset⟩

end Runs

/-- A request of one caller, which names the row it inserts. -/
def productRequest (id : String) (op : ProductOp) : ProductOp × Env :=
  (op, { now := .ofNumbers (.ofNumbers 2026 10 4 (.refl true)) 9 0 0 0 (.refl true)
         uuids := fun _ => id
         ties := fun _ => 0
         actorIdentityId := "i"
         commits := true })

/-- A description of two parts, of which the first is split at the pin, the
pin merged with the spring, and the set confirmed. -/
def sampleProductEvents : List (ProductOp × Env) :=
  [ productRequest "d" (.addDescription "c" " 1) a hinge a pin; a spring "),
    productRequest "s" (.createDraft "c" "d"),
    productRequest "" (.split "s" "P1" 7),
    productRequest "" (.merge "s" ["P2", "P3"]),
    productRequest "" (.confirm "s") ]

/-- The confirmed set is edited, revised, and its revision edited. -/
def sampleProductLater : List (ProductOp × Env) :=
  [ productRequest "" (.edit "s" "P1" "a lid"),
    productRequest "t" (.revise "s"),
    productRequest "" (.edit "t" "P1" "a lid") ]

def sampleReached : ProductStore :=
  let _ : Digits := Scan.asciiDigits
  let _ : Alphanumeric := Scan.asciiAlphanumeric
  run afterProduct (newProductStore ["c"] .empty) sampleProductEvents

theorem product_sets_stay_valid_sample :
    let _ : Digits := Scan.asciiDigits
    let _ : Alphanumeric := Scan.asciiAlphanumeric
    let last := run afterProduct sampleReached sampleProductLater
    ∃ set ∈ sampleReached.sets.rows,
      ((sampleReached.featuresOf set.id).map ProductFeatureRow.featureCode).Nodup
        ∧ (∃ d ∈ sampleReached.descriptions.rows, d.id = set.descriptionId
          ∧ SetOk d.descriptionText (sampleReached.featuresOf set.id))
        ∧ set ∈ last.sets.rows
        ∧ last.featuresOf set.id = sampleReached.featuresOf set.id := by
  intro _ _ last
  have hconfirmed : sampleReached.sets.rows.map ProductFeatureSet.status
      = [.confirmed] := by decide +kernel
  obtain ⟨set, hin, hstatus⟩ := List.mem_map.mp
    (hconfirmed ▸ List.mem_singleton_self Cases.DraftStatus.confirmed)
  obtain ⟨hcodes, hok, hstays⟩ := product_sets_stay_valid ["c"] .empty
    sampleProductEvents sampleProductLater set hin
  exact ⟨set, hin, hcodes, hok, hstays hstatus⟩

end PatentEvidence.Fto
