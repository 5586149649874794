/-
When feature codes stay distinct.

A code matters together with its version, so the argument is about the
labels (version, code) of all features: the codes are distinct in every
version iff the labels have no duplicate. Each operation then is one
equation on the labels: it appends some, drops some, or rewrites one.
What it appends must be new (`FreshCodes`), and `codes_distinct_iff_fresh`
says that this is all there is to it, for every run.

The generated codes are not always new: splitting F1 twice stores F1.1
twice (`split_twice_repeats_code`). The sibling service for product
features draws the next free code and has a uniqueness constraint.
-/
import PatentEvidence.Cases.Proofs.Features
import PatentEvidence.Lib.Run

namespace PatentEvidence.Cases

open Fallible Runs Text

variable {store store' : CaseStore} {env : Env}

-- =============================================================== labels

/-- In every version the codes are pairwise distinct. -/
def DistinctCodes (store : CaseStore) : Prop :=
  ∀ versionId, (store.codesOf versionId).Nodup

/-- Every feature belongs to a version of the case. -/
def Owned (store : CaseStore) : Prop :=
  ∀ label ∈ store.labels, label.1 ∈ store.versionIds

theorem distinctCodes_iff : DistinctCodes store ↔ store.labels.Nodup := by
  unfold DistinctCodes CaseStore.codesOf CaseStore.featuresOf CaseStore.labels
  simp only [List.Nodup, List.pairwise_map, List.pairwise_filter,
    decide_eq_true_eq]
  constructor
  · intro h
    refine List.pairwise_iff_forall_sublist.mpr fun {a b} hab heq => ?_
    exact List.pairwise_iff_forall_sublist.mp (h b.featureSetVersionId) hab
      (congrArg Prod.fst heq) rfl (congrArg Prod.snd heq)
  · intro h versionId
    refine h.imp fun {a b} hab ha hb hcode => hab ?_
    exact Prod.ext (ha.trans hb.symm) hcode

theorem mem_codesOf {versionId code : String} :
    code ∈ store.codesOf versionId ↔ (versionId, code) ∈ store.labels := by
  unfold CaseStore.codesOf CaseStore.featuresOf CaseStore.labels
  simp only [List.mem_map, List.mem_filter, decide_eq_true_eq,
    ClaimFeature.label, Prod.mk.injEq]
  constructor
  · rintro ⟨f, ⟨hf, hv⟩, hc⟩
    exact ⟨f, hf, hv, hc⟩
  · rintro ⟨f, hf, hv, hc⟩
    exact ⟨f, ⟨hf, hv⟩, hc⟩

/-- One more label keeps the labels distinct exactly when it is new. -/
theorem nodup_concat_iff {labels : List (String × String)}
    {label : String × String} (h : labels.Nodup) :
    (labels ++ [label]).Nodup ↔ label ∉ labels := by
  rw [List.nodup_append_comm]
  simp [h]

-- ==================================================== labels, by effect

theorem labels_clear (versionId : String) :
    (store.clear versionId).labels
      = store.labels.filter fun l => l.1 ≠ versionId := by
  unfold CaseStore.labels
  rw [List.filter_map]
  congr 1
  apply List.filter_congr
  intro f _
  by_cases hf : f.featureSetVersionId = versionId
  · simp [hf, ClaimFeature.label]
  · simp [hf, ClaimFeature.label]

theorem labels_deleteFeatures (p : ClaimFeature → Bool) :
    (store.deleteFeatures p).labels.Sublist store.labels :=
  List.filter_sublist.map _

theorem owned_deleteFeatures (p : ClaimFeature → Bool) (ho : Owned store) :
    Owned (store.deleteFeatures p) :=
  fun label hl => ho label ((labels_deleteFeatures p).subset hl)

theorem Extends.owned {versionId : String} {codes : List String}
    (h : Extends store store' versionId codes) (ho : Owned store) :
    Owned store' := by
  intro label hl
  rw [h.labels, List.mem_append] at hl
  rcases hl with hl | hl
  · exact h.versions (ho label hl)
  · obtain ⟨code, -, rfl⟩ := List.mem_map.mp hl
    exact h.version

/-- Filling a version without features: the codes must be distinct. -/
theorem Extends.nodup_iff_of_empty {versionId : String} {codes : List String}
    (h : Extends store store' versionId codes)
    (hempty : ∀ label ∈ store.labels, label.1 ≠ versionId)
    (hd : store.labels.Nodup) : store'.labels.Nodup ↔ codes.Nodup := by
  have hinj : Function.Injective fun code : String => (versionId, code) :=
    fun _ _ heq => congrArg Prod.snd heq
  rw [h.labels, List.nodup_append, List.nodup_map_iff hinj]
  refine ⟨fun hnd => hnd.2.1, fun hnd => ⟨hd, hnd, ?_⟩⟩
  rintro a ha b hb rfl
  obtain ⟨code, -, rfl⟩ := List.mem_map.mp hb
  exact hempty _ ha rfl

/-- Adding one code: it must be new. -/
theorem Extends.nodup_iff_of_one {versionId code : String}
    (h : Extends store store' versionId [code]) (hd : store.labels.Nodup) :
    store'.labels.Nodup ↔ code ∉ store.codesOf versionId := by
  rw [h.labels, List.map_singleton, nodup_concat_iff hd, mem_codesOf]

theorem Extends.labels_of_nil {versionId : String}
    (h : Extends store store' versionId []) : store'.labels = store.labels := by
  rw [h.labels, List.map_nil, List.append_nil]

/-- Filling a version: the open draft, cleared, or a new one. -/
theorem refilled_nodup_iff {versionId : String} {codes : List String}
    (ho : Owned store) (hd : store.labels.Nodup)
    (h : (versionId ∈ store.versionIds
        ∧ Extends (store.clear versionId) store' versionId codes)
      ∨ (versionId ∉ store.versionIds
        ∧ Extends store store' versionId codes)) :
    store'.labels.Nodup ↔ codes.Nodup := by
  rcases h with ⟨-, h⟩ | ⟨hfresh, h⟩
  · refine h.nodup_iff_of_empty (fun label hl => ?_)
      (hd.sublist (labels_deleteFeatures _))
    rw [labels_clear] at hl
    simpa using (List.mem_filter.mp hl).2
  · refine h.nodup_iff_of_empty (fun label hl heq => ?_) hd
    exact hfresh (heq ▸ ho label hl)

-- ============================================================ the condition

/-- The codes an operation stores are new to the version they go to. -/
def FreshCodes (store : CaseStore) : FeatureOp → Prop
  | .extract _ drafts => (drafts.map DraftFeature.featureCode).Nodup
  | .add versionId code _ _ _ _ =>
      addedCode store versionId code ∉ store.codesOf versionId
  | .update versionId featureId code _ _ _ _ _ =>
      ∀ new, strippedIfGiven code = some new →
        ∀ target ∈ store.featuresOf versionId, target.id = featureId →
          ∀ other ∈ store.featuresOf versionId, other ≠ target →
            other.featureCode ≠ new
  | .split versionId featureId _ _ =>
      ∀ old ∈ store.featuresOf versionId, old.id = featureId →
        part2Code old.featureCode ∉ store.codesOf versionId
  | .delete .. => True
  | .merge .. => True
  | .confirm _ => True
  | .revise _ => True

theorem update_nodup_iff {versionId featureId : String}
    {code type statement paragraph quote : Option String}
    {order : Option Int} (hd : store.labels.Nodup)
    (h : Recodes store store' versionId featureId (strippedIfGiven code)) :
    store'.labels.Nodup ↔ FreshCodes store (.update versionId featureId code
      type statement paragraph quote order) := by
  rw [h.labels]
  simp only [FreshCodes]
  cases hcode : strippedIfGiven code with
  | none =>
      have hkept : (store.features.rows.map fun f =>
          if f.id = featureId ∧ f.featureSetVersionId = versionId then
            (versionId, (none : Option String).getD f.featureCode)
          else f.label) = store.labels := by
        apply List.map_congr_left
        intro f _
        by_cases hf : f.id = featureId ∧ f.featureSetVersionId = versionId
        · simp [hf, ClaimFeature.label]
        · rw [if_neg hf]
      rw [hkept]
      exact ⟨fun _ _ hnone => (by cases hnone), fun _ => hd⟩
  | some new =>
      have hiff := Table.nodup_map_rewrite_iff
        (fun f => f.id = featureId ∧ f.featureSetVersionId = versionId)
        (versionId, new) hd fun r hr r' hr' hp hp' => by
          rw [decide_eq_true_eq] at hp hp'
          exact eq_of_id_eq hr hr' (hp.1.trans hp'.1.symm)
      simp only [decide_eq_true_eq] at hiff
      simp only [Option.getD_some]
      rw [hiff]
      constructor
      · intro hother new' hnew target ht hid other ho hne hcode'
        obtain ⟨htm, htv⟩ := mem_featuresOf.mp ht
        obtain ⟨hom, hov⟩ := mem_featuresOf.mp ho
        apply hother target htm ⟨hid, htv⟩ other hom hne
        rw [ClaimFeature.label, hov, hcode', Option.some.inj hnew]
      · intro hother target ht hp other ho hne hlabel
        have hov : other.featureSetVersionId = versionId :=
          congrArg Prod.fst hlabel
        exact hother new rfl target (mem_featuresOf.mpr ⟨ht, hp.2⟩) hp.1 other
          (mem_featuresOf.mpr ⟨ho, hov⟩) hne (congrArg Prod.snd hlabel)

-- ------------------------------------------------------------ one step

theorem Recodes.owned {versionId featureId : String} {code : Option String}
    (h : Recodes store store' versionId featureId code) (ho : Owned store) :
    Owned store' := by
  intro label hl
  rw [h.labels] at hl
  obtain ⟨f, hf, rfl⟩ := List.mem_map.mp hl
  have howned := h.versions (ho f.label (List.mem_map_of_mem hf))
  by_cases hp : f.id = featureId ∧ f.featureSetVersionId = versionId
  · rw [if_pos hp, ← hp.2]
    exact howned
  · rw [if_neg hp]
    exact howned

/-- Features stay with versions of the case. -/
theorem owned_execute {op : FeatureOp} (ho : Owned store)
    (h : executeFeature store env op = .ok store') : Owned store' := by
  cases op with
  | extract documentVersionId drafts =>
      obtain ⟨versionId, codes, ⟨-, hleft⟩ | ⟨-, hleft⟩, -⟩ := extract_leaves h
      · exact hleft.owned (owned_deleteFeatures _ ho)
      · exact hleft.owned ho
  | add versionId code type statement paragraph quote =>
      exact (add_leaves h).2.owned ho
  | update versionId featureId code type statement paragraph quote order =>
      exact (update_leaves h).owned ho
  | delete versionId featureId =>
      obtain ⟨p, rfl⟩ := delete_leaves h
      exact owned_deleteFeatures p ho
  | split versionId featureId part1 part2 =>
      obtain ⟨-, old, -, -, hleft⟩ := split_leaves h
      exact hleft.owned ho
  | merge versionId featureId1 featureId2 statement =>
      obtain ⟨mid, p, hmid, rfl⟩ := merge_leaves h
      exact owned_deleteFeatures p (hmid.owned ho)
  | confirm versionId => exact (confirm_leaves h).owned ho
  | revise baseVersionId =>
      rcases revise_leaves h with rfl | ⟨versionId, codes, -, hleft, -⟩
      · exact ho
      · exact hleft.owned ho

/-- An operation keeps the labels distinct exactly when its codes are
new. -/
theorem nodup_execute_iff {op : FeatureOp} (ho : Owned store)
    (hd : store.labels.Nodup)
    (h : executeFeature store env op = .ok store') :
    store'.labels.Nodup ↔ FreshCodes store op := by
  cases op with
  | extract documentVersionId drafts =>
      obtain ⟨versionId, codes, hleft, hcodes⟩ := extract_leaves h
      exact (refilled_nodup_iff ho hd hleft).trans hcodes
  | add versionId code type statement paragraph quote =>
      exact (add_leaves h).2.nodup_iff_of_one hd
  | update versionId featureId code type statement paragraph quote order =>
      exact update_nodup_iff hd (update_leaves h)
  | delete versionId featureId =>
      obtain ⟨p, rfl⟩ := delete_leaves h
      exact iff_of_true (hd.sublist (labels_deleteFeatures p)) trivial
  | split versionId featureId part1 part2 =>
      obtain ⟨-, old, hold, hid, hleft⟩ := split_leaves h
      rw [hleft.nodup_iff_of_one hd]
      constructor
      · intro hfresh old' hold' hid'
        have heq : old' = old := eq_of_id_eq (mem_featuresOf.mp hold').1
          (mem_featuresOf.mp hold).1 (hid'.trans hid.symm)
        rw [heq]
        exact hfresh
      · intro hfresh
        exact hfresh old hold hid
  | merge versionId featureId1 featureId2 statement =>
      obtain ⟨mid, p, hmid, rfl⟩ := merge_leaves h
      refine iff_of_true (List.Nodup.sublist (labels_deleteFeatures p) ?_) trivial
      rw [hmid.labels_of_nil]
      exact hd
  | confirm versionId =>
      rw [(confirm_leaves h).labels_of_nil]
      exact iff_of_true hd trivial
  | revise baseVersionId =>
      refine iff_of_true ?_ trivial
      rcases revise_leaves h with rfl | ⟨versionId, codes, hfresh, hleft, hperm⟩
      · exact hd
      · rw [refilled_nodup_iff ho hd (.inr ⟨hfresh, hleft⟩), hperm.nodup_iff]
        exact distinctCodes_iff.mpr hd baseVersionId

-- ============================================================== every run

/-- An accepted request stores new codes only. -/
def StoresFreshCodes (store : CaseStore) (event : FeatureEvent) : Prop :=
  ∀ after, serveFeature store event = .ok after → FreshCodes store event.op

theorem owned_afterFeature (store : CaseStore) (event : FeatureEvent)
    (ho : Owned store) : Owned (afterFeature store event) :=
  settle_of_forall ho fun _ h => owned_execute ho (execute_of_serve h)

theorem distinctCodes_afterFeature_iff (store : CaseStore)
    (event : FeatureEvent) (ho : Owned store) (hd : DistinctCodes store) :
    DistinctCodes (afterFeature store event)
      ↔ StoresFreshCodes store event := by
  refine settle_iff hd fun after h => ?_
  rw [distinctCodes_iff]
  exact nodup_execute_iff ho (distinctCodes_iff.mp hd) (execute_of_serve h)

/-- The codes stay distinct along a run of the service exactly when every
accepted request stores codes that are new to their version. -/
theorem codes_distinct_iff_fresh (base : CaseStore)
    (events : List FeatureEvent) :
    Always afterFeature DistinctCodes base.newCase events
      ↔ Along afterFeature StoresFreshCodes base.newCase events := by
  apply always_iff_along owned_afterFeature distinctCodes_afterFeature_iff
  · intro label hl
    cases hl
  · exact distinctCodes_iff.mpr List.nodup_nil

-- ------------------------------------------------------ a repeated code

/-- A case with one document. -/
def oneDocument : CaseStore :=
  { status := "modeling"
    documents := [{ id := "doc", versionNumber := 1, paragraphs := [] }]
    versions := .empty
    features := .empty
    candidates := .empty
    triage := .empty
    matrices := .empty
    cells := .empty
    applicationProfile := none
    candidateProfiles := []
    searchJobs := [] }

/-- A request of one caller, at one time, drawing the given ids. -/
def request (uuids : Nat → String) (op : FeatureOp) : FeatureEvent :=
  { op
    env :=
      { now := .ofNumbers (.ofNumbers 2025 1 6 (.refl true)) 9 0 0 0
          (.refl true)
        uuids
        actorIdentityId := "agent"
        commits := true
        ties := fun _ => 0 } }

/-- An extraction that finds one feature, and two splits of it. -/
def splitTwice : List FeatureEvent :=
  [ request (fun n => if n = 0 then "v1" else "f1")
      (.extract none [⟨"F1", "characterizing", "一种装置", none, none, 1⟩]),
    request (fun _ => "f2") (.split "v1" "f1" "外壳" "阀门"),
    request (fun _ => "f3") (.split "v1" "f1" "外壳" "弹簧") ]

theorem split_twice_repeats_code :
    (run afterFeature oneDocument.newCase splitTwice).codesOf "v1"
        = ["F1", "F1.1", "F1.1"]
      ∧ ¬ Always afterFeature DistinctCodes oneDocument.newCase splitTwice := by
  have hcodes : (run afterFeature oneDocument.newCase splitTwice).codesOf "v1"
      = ["F1", "F1.1", "F1.1"] := by decide
  refine ⟨hcodes, fun h => ?_⟩
  have hdistinct := h splitTwice (List.prefix_refl _) "v1"
  rw [hcodes] at hdistinct
  exact absurd hdistinct (by decide)

end PatentEvidence.Cases
