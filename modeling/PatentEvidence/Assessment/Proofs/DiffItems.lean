/-
What the comparison of two versions shows of their findings and
observations, and what it hides.

A finding's key is made of its kind, level and reasoning and of the document
and feature of each item of its basis; an observation's key of its feature,
document and effect. The other entries stay outside: the judgments of a
basis, the kind and the reasoning of an observation. And a dictionary keeps
one item of a key. So two versions with the same keys can differ without
anything being added or removed, and items of the newer version can be in
neither list.

Hidden is an item that the other version has under its key with another
entry only, and how often an item occurs (`HidesItems`); in view is an item
whose key the other version has not (`ItemsDifferInView`). The comparison hides
nothing exactly when newer items of one key have the same entries, and where
something hidden differs something in view does too (`hides_nothing_iff`).

A key is read off the content of an item, that is, off its canonical form
without the rules version (`findingKeyOf_contentOf`); that is all the
matching of `Lib.Keyed` asks for.

# Sections

- keys and contents;
- the statement;
- behind the keys;
- one item for each key.
-/
import PatentEvidence.Assessment.Proofs.Diff

namespace PatentEvidence.Assessment

open Json Keyed

variable {ν : Type} [JsonNumber ν] [Printable]

-- ==================================================== keys and contents

/-- What an item contains, up to the rules version and the order of
entries. -/
def contentOf (item : Json ν) : Json ν :=
  (item.eraseKey "rules_version").canonical

/-- A text read of the canonical form. -/
theorem textOf_canonical {value : Json ν} (hdistinct : value.DistinctKeys)
    {key : String} (h : (value.field key).hashable = true) :
    textOf value.canonical key = textOf value key := by
  cases value with
  | obj entries =>
      rw [canonical_obj, textOf, textOf,
        lookup_canonical (distinctKeys_obj.mp hdistinct).1]
      cases hlookup : entries.lookup key with
      | none => rfl
      | some v =>
          rw [field, hlookup, Option.getD_some] at h
          rw [Option.map_some, Option.getD_some, Option.getD_some,
            canonical_of_hashable h]
  | arr items => rw [canonical_arr]; rfl
  | _ => rfl

/-- A text read beside an erased key. -/
theorem textOf_eraseKey (value : Json ν) {key erased : String}
    (h : key ≠ erased) :
    textOf (value.eraseKey erased) key = textOf value key := by
  cases value with
  | obj entries =>
      rw [eraseKey, textOf, textOf]
      exact congrArg (fun o => (o.getD (.str "")).toStr)
        (lookup_filter_ne entries h)
  | _ => rfl

omit [JsonNumber ν] [Printable] in
theorem itemsOf_canonical (value : Json ν) :
    itemsOf value.canonical = (itemsOf value).map canonical := by
  cases value with
  | arr items => rw [canonical_arr]; rfl
  | _ => rfl

omit [JsonNumber ν] [Printable] in
theorem distinctKeys_of_mem_itemsOf {value item : Json ν}
    (h : value.DistinctKeys) (hitem : item ∈ itemsOf value) :
    item.DistinctKeys := by
  cases value with
  | arr items => exact distinctKeys_arr.mp h item hitem
  | _ => cases hitem

/-- The key of a finding is that of its canonical form. -/
theorem findingKeyOf_canonical {finding : Json ν} (h : IsFinding finding)
    (hdistinct : finding.DistinctKeys) :
    findingKeyOf finding.canonical = findingKeyOf finding := by
  obtain ⟨⟨-, htexts⟩, hbasis⟩ := h
  have htext (key : String) (hkey : key ∈ ["risk_kind", "level", "reasoning"]) :
      textOf finding.canonical key = textOf finding key :=
    textOf_canonical hdistinct (htexts key hkey)
  have hitems := (listOf_of_isRecordsOf hbasis).2
  have hpairs : (itemsOf (finding.canonical.field "basis")).map basisPairOf
      = (itemsOf (finding.field "basis")).map basisPairOf := by
    rw [field_canonical hdistinct, itemsOf_canonical, List.map_map]
    refine List.map_congr_left fun item hitem => ?_
    have hitemDistinct := distinctKeys_of_mem_itemsOf
      (distinctKeys_field hdistinct "basis") hitem
    have hplain := (hitems item hitem).2
    exact Prod.ext
      (textOf_canonical hitemDistinct (hplain "doc_id" (by simp)))
      (textOf_canonical hitemDistinct (hplain "feature_code" (by simp)))
  rw [findingKeyOf, findingKeyOf, hpairs, htext "risk_kind" (by simp),
    htext "level" (by simp), htext "reasoning" (by simp)]

theorem observationKeyOf_canonical {observation : Json ν}
    (h : IsObservation observation) (hdistinct : observation.DistinctKeys) :
    observationKeyOf observation.canonical = observationKeyOf observation := by
  have htext (key : String) (hkey : key ∈ ["feature_code", "doc_id", "effect"]) :
      textOf observation.canonical key = textOf observation key :=
    textOf_canonical hdistinct (h.2 key hkey)
  rw [observationKeyOf, observationKeyOf, htext "feature_code" (by simp),
    htext "doc_id" (by simp), htext "effect" (by simp)]

omit [JsonNumber ν] [Printable] in
/-- Erasing the rules version leaves a record a record. -/
theorem isRecord_eraseKey {keys : List String} {value : Json ν} {erased : String}
    (hkeys : erased ∉ keys) (h : IsRecord keys value) :
    IsRecord keys (value.eraseKey erased) := by
  obtain ⟨⟨entries, rfl⟩, hplain⟩ := h
  refine ⟨⟨_, rfl⟩, fun key hkey => ?_⟩
  have hne : key ≠ erased := fun heq => hkeys (heq ▸ hkey)
  rw [field_eraseKey _ hne]
  exact hplain key hkey

/-- The key of a finding is read off its content. -/
theorem findingKeyOf_contentOf {finding : Json ν} (h : IsFinding finding)
    (hdistinct : finding.DistinctKeys) :
    findingKeyOf (contentOf finding) = findingKeyOf finding := by
  have herased : IsFinding (finding.eraseKey "rules_version") := by
    refine ⟨isRecord_eraseKey (by simp) h.1, ?_⟩
    rw [field_eraseKey _ (by simp)]
    exact h.2
  rw [contentOf,
    findingKeyOf_canonical herased (distinctKeys_eraseKey hdistinct _)]
  simp only [findingKeyOf, field_eraseKey finding
      (show "basis" ≠ "rules_version" by simp),
    textOf_eraseKey finding (show "risk_kind" ≠ "rules_version" by simp),
    textOf_eraseKey finding (show "level" ≠ "rules_version" by simp),
    textOf_eraseKey finding (show "reasoning" ≠ "rules_version" by simp)]

theorem observationKeyOf_contentOf {observation : Json ν}
    (h : IsObservation observation) (hdistinct : observation.DistinctKeys) :
    observationKeyOf (contentOf observation) = observationKeyOf observation := by
  have herased : IsObservation (observation.eraseKey "rules_version") :=
    isRecord_eraseKey (by simp) h
  rw [contentOf, observationKeyOf_canonical herased
    (distinctKeys_eraseKey hdistinct _)]
  simp only [observationKeyOf,
    textOf_eraseKey observation (show "feature_code" ≠ "rules_version" by simp),
    textOf_eraseKey observation (show "doc_id" ≠ "rules_version" by simp),
    textOf_eraseKey observation (show "effect" ≠ "rules_version" by simp)]

-- ======================================================== the statement

/-- The versions have the same items, each equally often, up to the rules
version. -/
def SameItems (older newer : List (Json ν)) : Prop :=
  (older.map contentOf).Perm (newer.map contentOf)

/-- Every item is retained or added. -/
def AllShown (split : Split (Json ν)) (newer : List (Json ν)) : Prop :=
  ∀ item ∈ newer,
    ∃ shown ∈ split.retained ++ split.added, SameValue shown item

/-- A comparison of two payloads hides no change of findings and
observations. -/
structure HidesNothing (d : AssessmentVersionDiff ν) (older newer : Json ν) :
    Prop where
  changes : d.findings.added = [] → d.findings.removed = [] →
    d.entityObservations.added = [] → d.entityObservations.removed = [] →
      SameItems (findingsOf older) (findingsOf newer)
        ∧ SameItems (observationsOf older) (observationsOf newer)
  findings : AllShown d.findings (findingsOf newer)
  observations : AllShown d.entityObservations (observationsOf newer)

/-- The payload of the lower version and that of the higher. -/
def inOrder (older newer : VersionSide ν) : VersionSide ν × VersionSide ν :=
  if newer.version < older.version then (newer, older) else (older, newer)

-- ======================================================= behind the keys

/-- The entries the key of a finding is made of; of its `basis` it reads the
documents and features only. -/
def findingKeyEntries : List String := ["risk_kind", "level", "reasoning"]

/-- The entries the key of an observation is made of. -/
def observationKeyEntries : List String := ["feature_code", "doc_id", "effect"]

/-- Two items differ outside the entries their key is made of, the rules
version apart; or in these, where different values have one text. -/
def DiffersBehind (keyEntries : List String) (a b : Json ν) : Prop :=
  (∃ name ∉ keyEntries, name ≠ "rules_version" ∧ ¬ SameEntry name a b)
    ∨ ∃ name ∈ keyEntries, ¬ SameEntry name a b

/-- An item whose key the other list has, with items that differ behind it
only. -/
def HidesItem (keyOf : Json ν → String) (keyEntries : List String)
    (l l' : List (Json ν)) : Prop :=
  ∃ a ∈ l, (∃ b ∈ l', keyOf b = keyOf a)
    ∧ ∀ b ∈ l', keyOf b = keyOf a → DiffersBehind keyEntries a b

open Classical in
/-- Two versions differ behind the keys of their items: in an item, or in
how often one occurs. -/
def HidesItems (keyOf : Json ν → String) (keyEntries : List String)
    (older newer : List (Json ν)) : Prop :=
  HidesItem keyOf keyEntries older newer
    ∨ HidesItem keyOf keyEntries newer older
    ∨ Recounted contentOf older newer

/-- Something hidden from the comparison differs. -/
def ItemsDifferHidden (older newer : Json ν) : Prop :=
  HidesItems findingKeyOf findingKeyEntries (findingsOf older) (findingsOf newer)
    ∨ HidesItems observationKeyOf observationKeyEntries (observationsOf older)
      (observationsOf newer)

/-- Something in its view differs: a finding or an observation of one version
whose key the other has not. -/
def ItemsDifferInView (older newer : Json ν) : Prop :=
  (Unmatched findingKeyOf (findingsOf older) (findingsOf newer)
      ∨ Unmatched findingKeyOf (findingsOf newer) (findingsOf older))
    ∨ Unmatched observationKeyOf (observationsOf older) (observationsOf newer)
      ∨ Unmatched observationKeyOf (observationsOf newer) (observationsOf older)

/-- Two items of one key with a different entry: the dictionary keeps the
later one. -/
def Collapses (keyOf : Json ν → String) (items : List (Json ν)) : Prop :=
  ∃ a ∈ items, ∃ b ∈ items, keyOf a = keyOf b ∧ ∃ name, ¬ SameEntry name a b

-- ================================================= one item for each key

/-- Items whose keys are read off their canonical form, and off their
content. -/
structure Keyable (keyOf : Json ν → String) (items : List (Json ν)) : Prop where
  object : ∀ item ∈ items, IsObject item
  distinct : ∀ item ∈ items, item.DistinctKeys
  canonical : ∀ item ∈ items, keyOf item = keyOf item.canonical
  content : ∀ item ∈ items, keyOf item = keyOf (contentOf item)

theorem keyable_findings {payload : Json ν} (h : VersionShaped payload) :
    Keyable findingKeyOf (findingsOf payload) := by
  have hfinding := (listOf_of_isRecordsOf h.findings).2
  have hdistinct : ∀ item ∈ findingsOf payload, item.DistinctKeys :=
    fun item hitem => distinctKeys_of_mem_itemsOf
      (distinctKeys_field h.distinct _) hitem
  exact ⟨fun item hitem => (hfinding item hitem).1.1, hdistinct,
    fun item hitem => (findingKeyOf_canonical (hfinding item hitem)
      (hdistinct item hitem)).symm,
    fun item hitem => (findingKeyOf_contentOf (hfinding item hitem)
      (hdistinct item hitem)).symm⟩

theorem keyable_observations {payload : Json ν} (h : VersionShaped payload) :
    Keyable observationKeyOf (observationsOf payload) := by
  have hobservation := (listOf_of_isRecordsOf h.entityObservations).2
  have hdistinct : ∀ item ∈ observationsOf payload, item.DistinctKeys :=
    fun item hitem => distinctKeys_of_mem_itemsOf
      (distinctKeys_field h.distinct _) hitem
  exact ⟨fun item hitem => (hobservation item hitem).1, hdistinct,
    fun item hitem => (observationKeyOf_canonical (hobservation item hitem)
      (hdistinct item hitem)).symm,
    fun item hitem => (observationKeyOf_contentOf (hobservation item hitem)
      (hdistinct item hitem)).symm⟩

section Sections

variable {keyOf : Json ν → String} {older newer l l' : List (Json ν)}

omit [JsonNumber ν] [Printable]

/-- Objects with the same content have the same entries, the rules version
apart. -/
theorem contentOf_eq_iff {a b : Json ν} (ha : IsObject a) (hb : IsObject b)
    (hda : a.DistinctKeys) (hdb : b.DistinctKeys) :
    contentOf a = contentOf b ↔ ∀ name ≠ "rules_version", SameEntry name a b := by
  obtain ⟨es, rfl⟩ := ha
  obtain ⟨fs, rfl⟩ := hb
  unfold contentOf
  have herased := canonical_eq_iff_entries
    (distinctKeys_eraseKey hda "rules_version")
    (distinctKeys_eraseKey hdb "rules_version")
  refine Iff.trans herased (forall_congr' fun name => ?_)
  by_cases hname : name = "rules_version"
  · subst hname
    have hnone : SameEntry "rules_version" ((Json.obj es).eraseKey "rules_version")
        ((Json.obj fs).eraseKey "rules_version") := by
      rw [SameEntry, lookup?_eraseKey_self, lookup?_eraseKey_self]
      exact .none
    exact iff_of_true hnone fun h => absurd rfl h
  · rw [imp_iff_right hname, SameEntry, SameEntry]
    have hes := lookup?_eraseKey (Json.obj es) hname
    have hfs := lookup?_eraseKey (Json.obj fs) hname
    rw [← hes, ← hfs]
    rfl

theorem differsBehind_iff {keyEntries : List String} {a b : Json ν}
    (hkeys : "rules_version" ∉ keyEntries) (ha : IsObject a) (hb : IsObject b)
    (hda : a.DistinctKeys) (hdb : b.DistinctKeys) :
    DiffersBehind keyEntries a b ↔ contentOf b ≠ contentOf a := by
  rw [ne_comm, ne_eq, contentOf_eq_iff ha hb hda hdb]
  push Not
  constructor
  · rintro (⟨name, -, hne, hdiffers⟩ | ⟨name, hin, hdiffers⟩)
    · exact ⟨name, hne, hdiffers⟩
    · exact ⟨name, fun heq => hkeys (heq ▸ hin), hdiffers⟩
  · rintro ⟨name, hne, hdiffers⟩
    by_cases hin : name ∈ keyEntries
    · exact .inr ⟨name, hin, hdiffers⟩
    · exact .inl ⟨name, hin, hne, hdiffers⟩

theorem hidesItem_iff {keyEntries : List String}
    (hkeys : "rules_version" ∉ keyEntries) (hl : Keyable keyOf l)
    (hl' : Keyable keyOf l') :
    HidesItem keyOf keyEntries l l' ↔ Masked keyOf contentOf l l' :=
  exists_congr fun a => and_congr_right fun ha => and_congr_right fun _ =>
    forall₃_congr fun b hb _ => differsBehind_iff hkeys (hl.object a ha)
      (hl'.object b hb) (hl.distinct a ha) (hl'.distinct b hb)

/-- Where every key is matched the versions have the same items exactly when
nothing behind the keys differs. -/
theorem sameItems_iff {keyEntries : List String}
    (hkeys : "rules_version" ∉ keyEntries) (holder : Keyable keyOf older)
    (hnewer : Keyable keyOf newer) (h : ¬ Unmatched keyOf older newer)
    (h' : ¬ Unmatched keyOf newer older) :
    SameItems older newer ↔ ¬ HidesItems keyOf keyEntries older newer := by
  classical
  unfold HidesItems
  rw [hidesItem_iff hkeys holder hnewer, hidesItem_iff hkeys hnewer holder]
  exact perm_iff_not_behind holder.content hnewer.content h h'

/-- All newer items are shown exactly when none collapse. -/
theorem allShown_iff (older : List (Json ν)) (h : Keyable keyOf newer) :
    AllShown (splitByKey (lastByKey keyOf older) (lastByKey keyOf newer)) newer
      ↔ ¬ Collapses keyOf newer := by
  have hshown := forall_shown_iff older h.canonical
  unfold Collapses
  push Not
  refine Iff.trans ?_ (hshown.trans ?_)
  · refine forall₂_congr fun item hitem =>
      exists_congr fun shown => and_congr_right' ?_
    rw [show SameValue shown item ↔ SameValue item shown from
      ⟨SameValue.symm, SameValue.symm⟩,
      sameValue_iff_canonical (h.distinct item hitem), eq_comm]
  · refine forall₂_congr fun a ha => forall₂_congr fun b hb =>
      imp_congr_right fun _ => ?_
    obtain ⟨es, rfl⟩ := h.object a ha
    obtain ⟨fs, rfl⟩ := h.object b hb
    exact canonical_eq_iff_entries (h.distinct _ ha) (h.distinct _ hb)

/-- Nothing is added or removed exactly when every key is matched. -/
theorem nothing_changed_iff (keyOf : Json ν → String)
    (older newer : List (Json ν)) :
    ((splitByKey (lastByKey keyOf older) (lastByKey keyOf newer)).added = []
        ∧ (splitByKey (lastByKey keyOf older) (lastByKey keyOf newer)).removed
          = [])
      ↔ ¬ Unmatched keyOf older newer ∧ ¬ Unmatched keyOf newer older := by
  rw [added_eq_nil_iff, removed_eq_nil_iff, not_unmatched_iff, not_unmatched_iff,
    and_comm]

end Sections

/-- Where nothing in view differs the items are the same exactly when nothing
hidden differs either. -/
theorem sameItems_iff_not_hidden {older newer : Json ν} (holder : VersionShaped older)
    (hnewer : VersionShaped newer) (h : ¬ ItemsDifferInView older newer) :
    SameItems (findingsOf older) (findingsOf newer)
        ∧ SameItems (observationsOf older) (observationsOf newer)
      ↔ ¬ ItemsDifferHidden older newer := by
  rw [ItemsDifferInView, not_or, not_or, not_or] at h
  obtain ⟨⟨hmatched, hmatched'⟩, hobserved, hobserved'⟩ := h
  have hfindings : "rules_version" ∉ findingKeyEntries := by decide
  have hobservations : "rules_version" ∉ observationKeyEntries := by decide
  rw [sameItems_iff hfindings (keyable_findings holder) (keyable_findings hnewer)
      hmatched hmatched',
    sameItems_iff hobservations (keyable_observations holder)
      (keyable_observations hnewer) hobserved hobserved',
    ItemsDifferHidden, not_or]

/-- The two sections between them hide nothing exactly when no newer items
collapse, and where something hidden differs something in view does too. -/
theorem hidesNothing_iff {older newer : DiffSide ν}
    (holder : VersionShaped older.payload) (hnewer : VersionShaped newer.payload)
    {a b : Option InputSnapshot} {d : AssessmentVersionDiff ν}
    (hd : diffOrdered older newer a b = .ok d) :
    HidesNothing d older.payload newer.payload
      ↔ ¬ Collapses findingKeyOf (findingsOf newer.payload)
        ∧ ¬ Collapses observationKeyOf (observationsOf newer.payload)
        ∧ (ItemsDifferHidden older.payload newer.payload →
          ItemsDifferInView older.payload newer.payload) := by
  obtain ⟨d', hd', hfindings, hobservations, -⟩ :=
    exists_diffOrdered holder hnewer a b
  obtain rfl := Except.ok.inj (hd'.symm.trans hd)
  have hshown :=
    allShown_iff (findingsOf older.payload) (keyable_findings hnewer)
  have hshown' :=
    allShown_iff (observationsOf older.payload) (keyable_observations hnewer)
  have hkeys := nothing_changed_iff findingKeyOf (findingsOf older.payload)
    (findingsOf newer.payload)
  have hkeys' := nothing_changed_iff observationKeyOf
    (observationsOf older.payload) (observationsOf newer.payload)
  rw [← hfindings] at hshown hkeys
  rw [← hobservations] at hshown' hkeys'
  have hview : ¬ ItemsDifferInView older.payload newer.payload
      ↔ (d'.findings.added = [] ∧ d'.findings.removed = [])
        ∧ d'.entityObservations.added = []
        ∧ d'.entityObservations.removed = [] := by
    rw [hkeys, hkeys', ItemsDifferInView, not_or, not_or, not_or]
  have hitems := sameItems_iff_not_hidden holder hnewer
  rw [← hshown, ← hshown']
  constructor
  · intro h
    refine ⟨h.findings, h.observations, fun hhidden => ?_⟩
    by_contra hnot
    obtain ⟨⟨hadded, hremoved⟩, hadded', hremoved'⟩ := hview.mp hnot
    exact (hitems hnot).mp (h.changes hadded hremoved hadded' hremoved') hhidden
  · rintro ⟨hall, hall', himp⟩
    refine ⟨fun hadded hremoved hadded' hremoved' => ?_, hall, hall'⟩
    have hnot := hview.mpr ⟨⟨hadded, hremoved⟩, hadded', hremoved'⟩
    exact (hitems hnot).mpr fun hhidden => hnot (himp hhidden)

/-- The sides as `diff_payloads` compares them. -/
theorem diffPayloads_eq_inOrder (older newer : VersionSide ν)
    (a b : Option InputSnapshot) :
    diffPayloads older.toDiffSide newer.toDiffSide a b
      = diffOrdered (inOrder older newer).1.toDiffSide
        (inOrder older newer).2.toDiffSide a b := by
  rw [diffPayloads, inOrder]
  split <;> rfl

/-- `diff_payloads` hides nothing of two versions exactly when newer items of
one key have the same entries, and where something hidden differs something
in view does too. -/
theorem hides_nothing_iff (older newer : VersionSide ν)
    (a b : Option InputSnapshot) :
    let p := (inOrder older newer).1.payload
    let q := (inOrder older newer).2.payload
    (∃ d, diffPayloads older.toDiffSide newer.toDiffSide a b = .ok d
        ∧ HidesNothing d p q)
      ↔ ¬ Collapses findingKeyOf (findingsOf q)
        ∧ ¬ Collapses observationKeyOf (observationsOf q)
        ∧ (ItemsDifferHidden p q → ItemsDifferInView p q) := by
  intro p q
  have hp := (inOrder older newer).1.shaped
  have hq := (inOrder older newer).2.shaped
  obtain ⟨d, hd, -⟩ := exists_diffOrdered hp hq a b
  rw [diffPayloads_eq_inOrder, ← hidesNothing_iff hp hq hd]
  constructor
  · rintro ⟨d', hd', h⟩
    obtain rfl := Except.ok.inj (hd.symm.trans hd')
    exact h
  · exact fun h => ⟨d, hd, h⟩

/-- One observation of a feature and a document. -/
def oneObservation (kind : String) : Json Int :=
  .obj [("kind", .str kind), ("feature_code", .str "F1"), ("doc_id", .str "D1"),
    ("effect", .str "may_defeat_novelty")]

omit [Printable] in
theorem distinctKeys_oneObservation (kind : String) :
    (oneObservation kind).DistinctKeys := by
  refine distinctKeys_obj.mpr ⟨by simp, fun e he => ?_⟩
  simp only [List.mem_cons, List.not_mem_nil, or_false] at he
  rcases he with rfl | rfl | rfl | rfl <;> exact trivial

omit [Printable] in
theorem isObservation_oneObservation (kind : String) :
    IsObservation (oneObservation kind) := by
  refine ⟨⟨_, rfl⟩, fun key hkey => ?_⟩
  simp only [List.mem_cons, List.not_mem_nil, or_false] at hkey
  rcases hkey with rfl | rfl | rfl <;> rfl

/-- A version with that observation. -/
def observationSide (version : Int) (kind : String) : VersionSide Int where
  payload := .obj [("entity_observations", .arr [oneObservation kind])]
  version
  payloadSha256 := ""
  shaped := {
    isObject := ⟨_, rfl⟩
    distinct := distinctKeys_obj.mpr ⟨List.nodup_singleton _, fun e he => by
      rw [List.mem_singleton.mp he]
      exact distinctKeys_arr.mpr fun item hitem => by
        rw [List.mem_singleton.mp hitem]
        exact distinctKeys_oneObservation kind⟩
    blockers := .inl rfl
    flags := .inl rfl
    promptVersions := .inl rfl
    findings := .inl rfl
    entityObservations := .inr ⟨_, rfl, fun item hitem => by
      rw [List.mem_singleton.mp hitem]
      exact isObservation_oneObservation kind⟩
    evidence := .inl rfl
    evidenceLists := fun _ _ => .inl rfl
    threeStep := .inl rfl
    distinguishingFeatures := .inl rfl }

omit [JsonNumber ν] [Printable] in
/-- An observation whose kind changed is neither added nor removed. -/
theorem not_forall_hides_nothing :
    ¬ ∀ (_ : Printable) (older newer : VersionSide Int)
        (a b : Option InputSnapshot),
      ∃ d, diffPayloads older.toDiffSide newer.toDiffSide a b = .ok d
        ∧ HidesNothing d (inOrder older newer).1.payload
          (inOrder older newer).2.payload := by
  intro h
  let _ := everyPrintable
  let older := observationSide 1 "numeric_range"
  let newer := observationSide 2 "concept_generality"
  obtain ⟨d, hd, hhides⟩ := h everyPrintable older newer none none
  rw [diffPayloads_eq_inOrder] at hd
  obtain ⟨d', hd', hfindings, hobservations, -⟩ :=
    exists_diffOrdered (inOrder older newer).1.shaped
      (inOrder older newer).2.shaped none none
  obtain rfl := Except.ok.inj (hd'.symm.trans hd)
  have hkey (kind : String) :
      observationKeyOf (oneObservation kind) = "F1|D1|may_defeat_novelty" := by
    simp [observationKeyOf, oneObservation, textOf, List.lookup_cons, toStr]
  have hnone : (splitByKey
      (lastByKey observationKeyOf [oneObservation "numeric_range"])
      (lastByKey observationKeyOf [oneObservation "concept_generality"])).added = []
      ∧ (splitByKey
      (lastByKey observationKeyOf [oneObservation "numeric_range"])
      (lastByKey observationKeyOf [oneObservation "concept_generality"])).removed
        = [] := by
    rw [nothing_changed_iff, not_unmatched_iff, not_unmatched_iff]
    simp [hkey]
  have hperm := (hhides.changes (by rw [hfindings]; rfl) (by rw [hfindings]; rfl)
    (by rw [hobservations]; exact hnone.1)
    (by rw [hobservations]; exact hnone.2)).2
  have hcontent : [contentOf (oneObservation "numeric_range")]
      = [contentOf (oneObservation "concept_generality")] :=
    List.perm_singleton.mp hperm
  have hkind := congrArg (fun item => textOf item "kind")
    (List.singleton_injective hcontent)
  revert hkind
  decide

end PatentEvidence.Assessment
