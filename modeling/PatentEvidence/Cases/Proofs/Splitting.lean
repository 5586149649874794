/-
Where the second half of a split is listed.

It gets the next `sort_order` and a longer code, and the features behind it
are not moved. The listing is by `sort_order` and then by code, so the
halves stand side by side exactly if no other feature of the version is
ranked between them (`RoomBehind`): neither one with the same order and a
code behind that of the first half, nor one with the next order and a code
in front of that of the second. What is listed otherwise are the features
as they were.

Collations are a parameter: any order of codes.
-/
import Mathlib.Data.String.Basic
import PatentEvidence.Cases.Proofs.Codes
import PatentEvidence.Lib.Listing

namespace PatentEvidence.Cases

open Fallible Runs Text

variable {κ : Type _} [LinearOrder κ] {collate : String → κ}
  {store store' : CaseStore} {env : Env}
  {versionId featureId statement1 statement2 : String}

-- =============================================================== the rows

/-- The first half: the feature with another text. -/
def part1Of (env : Env) (statement : String) (old : ClaimFeature) : ClaimFeature :=
  { old with featureStatement := strip statement, updatedAt := env.now }

/-- The second half, a new row. -/
def part2Of (env : Env) (statement : String) (old : ClaimFeature) : ClaimFeature :=
  { id := env.uuids 0
    featureSetVersionId := old.featureSetVersionId
    featureCode := part2Code old.featureCode
    featureType := old.featureType
    featureStatement := strip statement
    sourceParagraphId := old.sourceParagraphId
    citationQuote := some (textPrefix 80 statement)
    sortOrder := old.sortOrder + 1
    createdAt := env.now
    updatedAt := env.now }

theorem nodup_featuresOf : (store.featuresOf versionId).Nodup :=
  (List.Nodup.of_map _ store.features.nodup).filter _

/-- The other features of a version are those with another id. -/
theorem mem_erase_iff_id {f g : ClaimFeature}
    (hf : f ∈ store.featuresOf versionId) :
    g ∈ (store.featuresOf versionId).erase f
      ↔ g ∈ store.featuresOf versionId ∧ g.id ≠ f.id := by
  rw [nodup_featuresOf.mem_erase_iff, and_comm]
  refine and_congr_right fun hg => not_congr ⟨congrArg _, fun hid => ?_⟩
  exact eq_of_id_eq (mem_featuresOf.mp hg).1 (mem_featuresOf.mp hf).1 hid

/-- The features of a version after an edit of one of them, which keeps its
version. -/
theorem perm_map_edit (edit : ClaimFeature → ClaimFeature) {old : ClaimFeature}
    (hold : old ∈ store.featuresOf versionId) :
    ((store.featuresOf versionId).map fun f =>
        if f.id = old.id then edit f else f).Perm
      (edit old :: (store.featuresOf versionId).erase old) := by
  have hothers : ((store.featuresOf versionId).erase old).map
      (fun f => if f.id = old.id then edit f else f)
        = (store.featuresOf versionId).erase old := by
    refine (List.map_congr_left fun f hf => ?_).trans (List.map_id _)
    exact if_neg ((mem_erase_iff_id hold).mp hf).2
  have hperm := (List.perm_cons_erase hold).map fun f =>
    if f.id = old.id then edit f else f
  rw [List.map_cons, if_pos rfl, hothers] at hperm
  exact hperm

/-- What a split leaves of a version: the halves, and the other features as
they were. -/
theorem split_rows
    (h : splitFeature store env versionId featureId statement1 statement2
      = .ok store') :
    ∃ old ∈ store.featuresOf versionId, old.id = featureId
      ∧ env.uuids 0 ∉ store.features.rows.map ClaimFeature.id
      ∧ (store'.featuresOf versionId).Perm
        (part1Of env statement1 old :: part2Of env statement2 old
          :: (store.featuresOf versionId).erase old) := by
  unfold splitFeature at h
  obtain ⟨u, hdraft, h⟩ := bind_eq_ok.mp h
  cases hfind : (store.featuresOf versionId).find? fun f => f.id = featureId with
  | none =>
      rw [hfind] at h
      cases h
  | some old =>
      rw [hfind] at h
      obtain ⟨features, hins, h⟩ := bind_eq_ok.mp h
      cases Except.ok.inj h
      have hold := List.mem_of_find?_eq_some hfind
      have hid : old.id = featureId := by simpa using List.find?_some hfind
      have hversion := (mem_featuresOf.mp hold).2
      obtain ⟨hfresh, hrows⟩ := Table.insert?_eq_some.mp (orDatabase_eq_ok.mp hins)
      have hnew : part2Of env statement2 old = ClaimFeature.mk (env.uuids 0) versionId
          (part2Code old.featureCode) old.featureType (strip statement2)
          old.sourceParagraphId (some (textPrefix 80 statement2))
          (old.sortOrder + 1) env.now env.now := by
        rw [part2Of, hversion]
      have hfeatures : features.rows.filter
          (fun f => f.featureSetVersionId = versionId)
            = ((store.featuresOf versionId).map fun f =>
                if f.id = old.id then part1Of env statement1 f else f)
              ++ [part2Of env statement2 old] := by
        rw [hrows, List.filter_append, Table.rows_update, List.filter_map, hnew,
          CaseStore.featuresOf, hid]
        refine congrArg₂ _ ?_ (List.filter_cons_of_pos (decide_eq_true rfl))
        refine (congrArg _ (List.filter_congr fun f _ => ?_)).trans
          (List.map_congr_left fun f _ => ?_)
        · rw [Function.comp_apply]
          split
          · rfl
          · rfl
        · simp only [decide_eq_true_eq]
          rfl
      refine ⟨old, hold, hid, ?_, ?_⟩
      · intro hmem
        obtain ⟨f, hf, hfid⟩ := List.mem_map.mp hmem
        refine hfresh (List.mem_map.mpr ⟨_, List.mem_map.mpr ⟨f, hf, rfl⟩, ?_⟩)
        split
        · exact hfid
        · exact hfid
      · have hperm := (perm_map_edit (part1Of env statement1) hold).append_right
          [part2Of env statement2 old]
        rw [CaseStore.featuresOf]
        dsimp only
        rw [hfeatures]
        refine hperm.trans ?_
        rw [List.cons_append]
        exact (List.perm_append_singleton _ _).cons _

-- ============================================================ the listing

/-- However the version is listed, the halves stand side by side in the place
of the feature, and the others are listed as they were. -/
def SplitsInPlace (collate : String → κ) (before after : List ClaimFeature)
    (old part1 part2 : ClaimFeature) : Prop :=
  ∀ l, Lists (listingRank collate) after l → ∃ front behind,
    l = front ++ part1 :: part2 :: behind
      ∧ Lists (listingRank collate) before (front ++ old :: behind)

/-- No other feature is ranked from the feature to its second half. -/
def RoomBehind (collate : String → κ) (features : List ClaimFeature)
    (old : ClaimFeature) : Prop :=
  ∀ g ∈ features, g.id ≠ old.id →
    listingRank collate g < listingRank collate old
      ∨ toLex (old.sortOrder + 1, collate (part2Code old.featureCode))
        < listingRank collate g

theorem listingRank_halves (collate : String → κ) (env : Env)
    (statement1 statement2 : String) (old : ClaimFeature) :
    listingRank collate (part1Of env statement1 old)
      < listingRank collate (part2Of env statement2 old) :=
  Prod.Lex.toLex_lt_toLex.mpr (.inl (Int.lt_succ _))

/-- The halves of a split are listed side by side exactly if there is room for
the second. -/
theorem splitFeature_in_place_iff (collate : String → κ)
    (h : splitFeature store env versionId featureId statement1 statement2
      = .ok store') :
    ∃ old ∈ store.featuresOf versionId, old.id = featureId
      ∧ (SplitsInPlace collate (store.featuresOf versionId)
          (store'.featuresOf versionId) old (part1Of env statement1 old)
          (part2Of env statement2 old)
        ↔ RoomBehind collate (store.featuresOf versionId) old) := by
  obtain ⟨old, hold, hid, hfresh, hrows⟩ := split_rows h
  refine ⟨old, hold, hid, ?_⟩
  have hfollows := Lists.follows_iff nodup_featuresOf
    (hrows.mem_iff.mpr (List.mem_cons_self ..))
    (hrows.mem_iff.mpr (List.mem_cons_of_mem _ (List.mem_cons_self ..)))
    (listingRank_halves collate env statement1 statement2 old)
  have hplace : SplitsInPlace collate (store.featuresOf versionId)
      (store'.featuresOf versionId) old (part1Of env statement1 old)
      (part2Of env statement2 old)
        ↔ ∀ l, Lists (listingRank collate) (store'.featuresOf versionId) l →
          ∃ front behind, l = front ++ part1Of env statement1 old
            :: part2Of env statement2 old :: behind := by
    refine forall₂_congr fun l hl => exists₂_congr fun front behind => ?_
    refine ⟨And.left, fun heq => ⟨heq, ?_⟩⟩
    rw [heq] at hl
    exact hl.replace hrows (List.perm_cons_erase hold) rfl
  rw [hplace, hfollows]
  constructor
  · intro hbetween g hg hgid
    have hgo := (mem_erase_iff_id hold).mpr ⟨hg, hgid⟩
    refine hbetween g (hrows.mem_iff.mpr (List.mem_cons_of_mem _
      (List.mem_cons_of_mem _ hgo))) (fun heq => hgid ?_) (fun heq => hfresh ?_)
    · rw [heq, part1Of]
    · have hgstore := List.mem_map_of_mem (mem_featuresOf.mp hg).1 (f := ClaimFeature.id)
      rw [heq] at hgstore
      exact hgstore
  · intro hroom g hg hg1 hg2
    rcases List.mem_cons.mp (hrows.mem_iff.mp hg) with heq | hg
    · exact absurd heq hg1
    · rcases List.mem_cons.mp hg with heq | hg
      · exact absurd heq hg2
      · obtain ⟨hg, hgid⟩ := (mem_erase_iff_id hold).mp hg
        exact hroom g hg hgid

-- ------------------------------------------------------------ two splits

/-- A draft of two features, numbered in turn. -/
def draftOf (code1 code2 : String) (order : Int) : CaseStore :=
  run afterFeature oneDocument.newCase [request
    (fun n => if n = 0 then "v1" else if n = 1 then "f1" else "f2")
    (.extract none [⟨code1, "characterizing", "一种装置", none, none, order⟩,
      ⟨code2, "characterizing", "外壳", none, none, order + 1⟩])]

/-- What a split of its first feature brings along. -/
def splitEnv : Env :=
  (request (fun _ => "f3") (.split "v1" "f1" "壳体" "阀门")).env

theorem splitFeature_in_place_iff_f2 :
    ∃ store', splitFeature (draftOf "F1" "F2" 1) splitEnv "v1" "f1" "壳体" "阀门"
        = .ok store'
      ∧ ∃ old ∈ (draftOf "F1" "F2" 1).featuresOf "v1", old.id = "f1"
        ∧ SplitsInPlace id ((draftOf "F1" "F2" 1).featuresOf "v1")
          (store'.featuresOf "v1") old (part1Of splitEnv "壳体" old)
          (part2Of splitEnv "阀门" old) := by
  have haccepted : (splitFeature (draftOf "F1" "F2" 1) splitEnv "v1" "f1" "壳体"
      "阀门").toOption.isSome = true := by
    decide
  have hroom : ∀ old ∈ (draftOf "F1" "F2" 1).featuresOf "v1", old.id = "f1" →
      ∀ g ∈ (draftOf "F1" "F2" 1).featuresOf "v1", g.id ≠ old.id →
        listingRank id g < listingRank id old
          ∨ toLex (old.sortOrder + 1, part2Code old.featureCode)
            < listingRank id g := by
    decide
  cases h : splitFeature (draftOf "F1" "F2" 1) splitEnv "v1" "f1" "壳体" "阀门" with
  | error e =>
      rw [h] at haccepted
      cases haccepted
  | ok store' =>
      obtain ⟨old, hold, hid, hiff⟩ := splitFeature_in_place_iff id h
      exact ⟨store', rfl, old, hold, hid, hiff.mpr (hroom old hold hid)⟩

/-- The code `F10` stands between `F9` and `F9.1`. -/
theorem f10_listed_between_halves :
    ∃ store', splitFeature (draftOf "F9" "F10" 9) splitEnv "v1" "f1" "壳体" "阀门"
        = .ok store'
      ∧ ∃ old ∈ (draftOf "F9" "F10" 9).featuresOf "v1", old.id = "f1"
        ∧ ¬ SplitsInPlace id ((draftOf "F9" "F10" 9).featuresOf "v1")
          (store'.featuresOf "v1") old (part1Of splitEnv "壳体" old)
          (part2Of splitEnv "阀门" old) := by
  have hold : ∃ old ∈ (draftOf "F9" "F10" 9).featuresOf "v1", old.id = "f1" := by
    decide
  have hlisted : (splitFeature (draftOf "F9" "F10" 9) splitEnv "v1" "f1" "壳体"
      "阀门").toOption.any (fun store' =>
        (Lists.sortedWith (listingRank id) (fun _ => 0)
          (store'.featuresOf "v1")).map ClaimFeature.id = ["f1", "f2", "f3"])
      = true := by
    decide
  cases h : splitFeature (draftOf "F9" "F10" 9) splitEnv "v1" "f1" "壳体" "阀门" with
  | error e =>
      rw [h] at hlisted
      cases hlisted
  | ok store' =>
      rw [h] at hlisted
      obtain ⟨old, hold, hid⟩ := hold
      refine ⟨store', rfl, old, hold, hid, fun hplace => ?_⟩
      obtain ⟨front, behind, heq, -⟩ := hplace _ (Lists.lists_sortedWith
        (listingRank id) (fun _ => 0) (store'.featuresOf "v1"))
      have hids := of_decide_eq_true hlisted
      rw [heq, List.map_append, List.map_cons, List.map_cons, part1Of, part2Of,
        hid] at hids
      have hinfix : ["f1", "f3"] <:+: ["f1", "f2", "f3"] :=
        ⟨front.map ClaimFeature.id, behind.map ClaimFeature.id, by
          rw [← hids, List.append_assoc]
          rfl⟩
      exact absurd hinfix (by decide)

end PatentEvidence.Cases
