/-
What a merge does to a draft.

It rewrites the text of the first feature and deletes the second, by their
ids and without looking for either. Where both are there and are two, the
version is left with the first under its new text and with the others as
they were (`merge_rows`). Otherwise the request goes through all the same:
two ids of one feature delete it, a first id that is not there drops the
second feature and keeps the merged text nowhere, and a second one that is
not there leaves a copy of its text behind. The split of the same service
refuses an id that is not there (`feature_not_found`), and so does the
merge of product features.

Every request on a draft is accepted, so a merge is what it should be
exactly for two features of the version, and then the merged text is there
once exactly if no third feature has it already.
-/
import PatentEvidence.Cases.Proofs.Splitting

namespace PatentEvidence.Cases

open Fallible Text

variable {store store' : CaseStore} {env : Env}
  {versionId featureId1 featureId2 statement : String}

-- =============================================================== the rows

/-- A merge never refuses a draft. -/
theorem exists_mergeFeatures (env : Env) (featureId1 featureId2 statement : String)
    (h : assertDraftVersion store versionId = .ok ()) :
    ∃ store', mergeFeatures store env versionId featureId1 featureId2 statement
      = .ok store' := by
  rw [mergeFeatures, h]
  exact ⟨_, rfl⟩

/-- The features after a merge: the text is rewritten, then a feature is
dropped. -/
theorem featuresOf_merge
    (h : mergeFeatures store env versionId featureId1 featureId2 statement
      = .ok store') :
    store'.featuresOf versionId
      = ((store.featuresOf versionId).map fun f =>
          if f.id = featureId1 then part1Of env statement f else f).filter
        fun f => f.id ≠ featureId2 := by
  unfold mergeFeatures at h
  obtain ⟨u, -, h⟩ := bind_eq_ok.mp h
  cases Except.ok.inj h
  have hversion : (store.features.rows.map fun f =>
        if f.id = featureId1 ∧ f.featureSetVersionId = versionId then
          part1Of env statement f else f).filter
          (fun f => f.featureSetVersionId = versionId)
      = (store.featuresOf versionId).map fun f =>
        if f.id = featureId1 then part1Of env statement f else f := by
    rw [List.filter_map, CaseStore.featuresOf]
    refine (congrArg _ (List.filter_congr fun f _ => ?_)).trans
      (List.map_congr_left fun f hf => ?_)
    · rw [Function.comp_apply]
      split
      · rfl
      · rfl
    · have hf : f.featureSetVersionId = versionId :=
        of_decide_eq_true (List.mem_filter.mp hf).2
      exact if_congr (and_iff_left hf) rfl rfl
  rw [← hversion, CaseStore.featuresOf, CaseStore.deleteFeatures]
  simp only [Table.rows_delete, Table.rows_update, List.filter_filter,
    decide_eq_true_eq]
  refine List.filter_congr fun f _ => ?_
  by_cases hf : f.featureSetVersionId = versionId
  · simp [hf]
  · simp [hf]

/-- A merge of two features leaves the first, rewritten, and the others. -/
theorem merge_rows {f1 f2 : ClaimFeature}
    (h : mergeFeatures store env versionId f1.id f2.id statement = .ok store')
    (h1 : f1 ∈ store.featuresOf versionId) (h2 : f2 ∈ store.featuresOf versionId)
    (hne : f1.id ≠ f2.id) :
    (store'.featuresOf versionId).Perm (part1Of env statement f1
      :: ((store.featuresOf versionId).erase f1).erase f2) := by
  have hperm := (perm_map_edit (part1Of env statement) h1).filter
    fun f => f.id ≠ f2.id
  have hfirst : (part1Of env statement f1).id ≠ f2.id := hne
  rw [← featuresOf_merge h,
    List.filter_cons_of_pos (by exact decide_eq_true hfirst)] at hperm
  refine hperm.trans (.cons _ (.of_eq ?_))
  rw [(nodup_featuresOf.erase f1).erase_eq_filter]
  refine List.filter_congr fun f hf => ?_
  have hf := ((mem_erase_iff_id h1).mp hf).1
  have hsame : f = f2 ↔ f.id = f2.id :=
    ⟨congrArg _, eq_of_id_eq (mem_featuresOf.mp hf).1 (mem_featuresOf.mp h2).1⟩
  rw [Bool.eq_iff_iff, decide_eq_true_eq, bne_iff_ne]
  exact not_congr hsame.symm

-- ============================================================ the merge

/-- A feature of the version with this id. -/
def HasFeature (store : CaseStore) (versionId featureId : String) : Prop :=
  ∃ f ∈ store.featuresOf versionId, f.id = featureId

/-- The features after a merge of two: one with the merged text, one fewer,
and the others unchanged. -/
structure MergedInto (before after : List ClaimFeature)
    (featureId1 featureId2 statement : String) : Prop where
  once : after.countP (fun f => f.featureStatement = statement) = 1
  fewer : after.length + 1 = before.length
  others : ∀ f, f.id ≠ featureId1 → f.id ≠ featureId2 → (f ∈ after ↔ f ∈ before)

/-- What a merge is to do: an accepted one merges, and one of features that
are not there or not two is refused and leaves the case as it is. -/
structure MergesOrRefuses (store : CaseStore) (env : Env)
    (versionId featureId1 featureId2 statement : String) : Prop where
  merges : ∀ store',
    mergeFeatures store env versionId featureId1 featureId2 statement = .ok store' →
      MergedInto (store.featuresOf versionId) (store'.featuresOf versionId)
        featureId1 featureId2 (strip statement)
  refuses : ¬ HasFeature store versionId featureId1
      ∨ ¬ HasFeature store versionId featureId2 ∨ featureId1 = featureId2 →
    (∃ e, mergeFeatures store env versionId featureId1 featureId2 statement
        = .error e)
      ∧ afterFeature store
        ⟨.merge versionId featureId1 featureId2 statement, env⟩ = store

/-- Two features of the version, and no third has the merged text. -/
structure MergesTwo (store : CaseStore)
    (versionId featureId1 featureId2 statement : String) : Prop where
  first : HasFeature store versionId featureId1
  second : HasFeature store versionId featureId2
  two : featureId1 ≠ featureId2
  unsaid : ∀ f ∈ store.featuresOf versionId, f.id ≠ featureId1 →
    f.id ≠ featureId2 → f.featureStatement ≠ strip statement

/-- A merge of two features, and when the merged text is there once. -/
theorem mergedInto_iff {f1 f2 : ClaimFeature}
    (h : mergeFeatures store env versionId f1.id f2.id statement = .ok store')
    (h1 : f1 ∈ store.featuresOf versionId) (h2 : f2 ∈ store.featuresOf versionId)
    (hne : f1.id ≠ f2.id) :
    MergedInto (store.featuresOf versionId) (store'.featuresOf versionId) f1.id
        f2.id (strip statement)
      ↔ ∀ f ∈ store.featuresOf versionId, f.id ≠ f1.id → f.id ≠ f2.id →
        f.featureStatement ≠ strip statement := by
  have hrows := merge_rows h h1 h2 hne
  have h2' : f2 ∈ (store.featuresOf versionId).erase f1 :=
    (mem_erase_iff_id h1).mpr ⟨h2, hne.symm⟩
  have hothers (f : ClaimFeature) :
      f ∈ ((store.featuresOf versionId).erase f1).erase f2
        ↔ f ∈ store.featuresOf versionId ∧ f.id ≠ f1.id ∧ f.id ≠ f2.id := by
    rw [(nodup_featuresOf.erase f1).mem_erase_iff, mem_erase_iff_id h1]
    constructor
    · rintro ⟨hf2, hf, hf1⟩
      refine ⟨hf, hf1, fun hid => hf2 ?_⟩
      exact eq_of_id_eq (mem_featuresOf.mp hf).1 (mem_featuresOf.mp h2).1 hid
    · rintro ⟨hf, hf1, hf2⟩
      exact ⟨fun heq => hf2 (congrArg _ heq), hf, hf1⟩
  have hcount : (store'.featuresOf versionId).countP
        (fun f => f.featureStatement = strip statement)
      = (((store.featuresOf versionId).erase f1).erase f2).countP
          (fun f => f.featureStatement = strip statement) + 1 := by
    rw [hrows.countP_eq, List.countP_cons_of_pos (by exact decide_eq_true rfl)]
  constructor
  · intro hmerged f hf hne1 hne2 hsaid
    have hzero := hmerged.once
    rw [hcount, Nat.add_eq_right, List.countP_eq_zero] at hzero
    exact hzero f ((hothers f).mpr ⟨hf, hne1, hne2⟩) (decide_eq_true hsaid)
  · intro hunsaid
    refine ⟨?_, ?_, fun f hne1 hne2 => ?_⟩
    · rw [hcount, Nat.add_eq_right, List.countP_eq_zero]
      intro f hf hsaid
      obtain ⟨hf, hne1, hne2⟩ := (hothers f).mp hf
      exact hunsaid f hf hne1 hne2 (of_decide_eq_true hsaid)
    · have hall := (List.perm_cons_erase h1).trans ((List.perm_cons_erase h2').cons _)
      rw [hrows.length_eq, hall.length_eq]
      rfl
    · rw [hrows.mem_iff, List.mem_cons, hothers, and_iff_left ⟨hne1, hne2⟩]
      exact or_iff_right fun heq => hne1 (heq ▸ rfl)

/-- A merge does what it should exactly for two features of the draft, with no
third that has the merged text. -/
theorem mergeFeatures_merges_iff
    (hdraft : assertDraftVersion store versionId = .ok ()) :
    MergesOrRefuses store env versionId featureId1 featureId2 statement
      ↔ MergesTwo store versionId featureId1 featureId2 statement := by
  obtain ⟨store', h⟩ := exists_mergeFeatures env featureId1 featureId2 statement
    hdraft
  have haccepted : ¬ ∃ e, mergeFeatures store env versionId featureId1 featureId2
      statement = .error e := by
    rintro ⟨e, he⟩
    rw [h] at he
    cases he
  constructor
  · intro hmerge
    have hthere := fun hrefused => haccepted (hmerge.refuses hrefused).1
    have hfirst : HasFeature store versionId featureId1 :=
      not_not.mp fun hno => hthere (.inl hno)
    have hsecond : HasFeature store versionId featureId2 :=
      not_not.mp fun hno => hthere (.inr (.inl hno))
    have htwo : featureId1 ≠ featureId2 := fun heq => hthere (.inr (.inr heq))
    refine ⟨hfirst, hsecond, htwo, ?_⟩
    obtain ⟨f1, h1, rfl⟩ := hfirst
    obtain ⟨f2, h2, rfl⟩ := hsecond
    exact (mergedInto_iff h h1 h2 htwo).mp (hmerge.merges store' h)
  · rintro ⟨⟨f1, h1, rfl⟩, ⟨f2, h2, rfl⟩, htwo, hunsaid⟩
    refine ⟨fun after hafter => ?_, ?_⟩
    · exact (mergedInto_iff hafter h1 h2 htwo).mpr hunsaid
    · rintro (hmissing | hmissing | heq)
      · exact absurd ⟨f1, h1, rfl⟩ hmissing
      · exact absurd ⟨f2, h2, rfl⟩ hmissing
      · exact absurd heq htwo

-- ------------------------------------------------------- one or two features

theorem mergeFeatures_merges_iff_f1_f2 :
    MergesOrRefuses (draftOf "F1" "F2" 1) splitEnv "v1" "f1" "f2" "带壳体的装置" := by
  refine (mergeFeatures_merges_iff (by decide)).mpr ⟨?_, ?_, by decide, by decide⟩
  · exact (by decide : ∃ f ∈ (draftOf "F1" "F2" 1).featuresOf "v1", f.id = "f1")
  · exact (by decide : ∃ f ∈ (draftOf "F1" "F2" 1).featuresOf "v1", f.id = "f2")

/-- A merge of a feature with itself is not refused: it deletes the
feature. -/
theorem not_mergesOrRefuses_f1_f1 :
    ¬ MergesOrRefuses (draftOf "F1" "F2" 1) splitEnv "v1" "f1" "f1"
      "带壳体的装置" := by
  intro hmerge
  obtain ⟨⟨e, he⟩, -⟩ := hmerge.refuses (.inr (.inr rfl))
  have haccepted : (mergeFeatures (draftOf "F1" "F2" 1) splitEnv "v1" "f1" "f1"
      "带壳体的装置").toOption.isSome = true := by
    decide
  rw [he] at haccepted
  cases haccepted

end PatentEvidence.Cases
