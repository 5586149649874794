/-
Two version payloads can always be compared, and the direction the
comparison is asked for in matters for the input snapshots only.

Of payloads a version stores, every step of the comparison returns
(`exists_diffOrdered`); the lemmas before it say what each part returns,
and with which keys findings and observations are matched.

`diff_payloads` exchanges the payloads, versions and digests when it is
asked from a newer version to an older one, and leaves the two snapshots
where they are. So a comparison and its reverse agree exactly when the
snapshots compare alike both ways (`diffPayloads_comm_iff`): when one is
missing, or they agree on everything the comparison reads
(`diffInputs_comm_iff`).

# Sections

- texts and keys;
- the parts return;
- snapshots compared both ways;
- the direction.
-/
import PatentEvidence.Assessment.Proofs.DiffInputs
import PatentEvidence.Assessment.ToDict
import PatentEvidence.Lib.Fallible

namespace PatentEvidence.Assessment

open Json Keyed Fallible

variable {ν : Type} [JsonNumber ν] [Printable]

-- ======================================================= texts and keys

/-- What `textAt` answers of an object. -/
def textOf (value : Json ν) (key : String) : String :=
  match value with
  | .obj entries => ((entries.lookup key).getD (.str "")).toStr
  | _ => ""

theorem textAt_of_isObject {value : Json ν} (h : IsObject value) (key : String) :
    textAt value key = .ok (textOf value key) := by
  obtain ⟨entries, rfl⟩ := h
  rfl

def basisPairOf (item : Json ν) : String × String :=
  (textOf item "doc_id", textOf item "feature_code")

/-- The key of a finding. -/
def findingKeyOf (finding : Json ν) : String :=
  let pairs := (itemsOf (finding.field "basis")).map basisPairOf
  textOf finding "risk_kind" ++ "|" ++ textOf finding "level" ++ "|"
    ++ reprPairs (pairs.insertionSort fun a b => toLex a ≤ toLex b) ++ "|"
    ++ textOf finding "reasoning"

/-- The key of an observation. -/
def observationKeyOf (observation : Json ν) : String :=
  textOf observation "feature_code" ++ "|" ++ textOf observation "doc_id"
    ++ "|" ++ textOf observation "effect"

theorem findingKey_of_isFinding {finding : Json ν} (h : IsFinding finding) :
    findingKey finding = .ok (findingKeyOf finding) := by
  obtain ⟨⟨hobject, -⟩, hbasis⟩ := h
  obtain ⟨hitems, hrecords⟩ := listOf_of_isRecordsOf hbasis
  have hpairs : (itemsOf (finding.field "basis")).mapM basisPair
      = .ok ((itemsOf (finding.field "basis")).map basisPairOf) := by
    refine mapM_eq_ok_map fun item hitem => ?_
    have hitem := (hrecords item hitem).1
    rw [basisPair, textAt_of_isObject hitem, textAt_of_isObject hitem]
    rfl
  rw [findingKey, get_of_isObject hobject, ok_bind, hitems, ok_bind, hpairs,
    ok_bind, textAt_of_isObject hobject, textAt_of_isObject hobject,
    textAt_of_isObject hobject]
  rfl

theorem observationKey_of_isObservation {observation : Json ν}
    (h : IsObservation observation) :
    observationKey observation = .ok (observationKeyOf observation) := by
  rw [observationKey, textAt_of_isObject h.1, textAt_of_isObject h.1,
    textAt_of_isObject h.1]
  rfl

-- ===================================================== the parts return

omit [Printable] in
theorem splitLists_of_hashable {older newer : List (Json ν)}
    (holder : older.all Json.hashable = true)
    (hnewer : newer.all Json.hashable = true) :
    splitLists older newer = .ok (splitBy Json.isIn older newer) := by
  rw [splitLists, setOf, if_pos holder, ok_bind, setOf, if_pos hnewer]
  rfl

omit [JsonNumber ν] [Printable] in
/-- A dictionary of items whose keys can be computed. -/
theorem dictBy_eq {key : Json ν → Py String} {keyOf : Json ν → String}
    {items : List (Json ν)} (h : ∀ item ∈ items, key item = .ok (keyOf item)) :
    dictBy key items = .ok (lastByKey keyOf items) := by
  rw [dictBy, lastByKey]
  generalize Dict.empty = d
  induction items generalizing d with
  | nil => rfl
  | cons item items ih =>
      rw [List.foldlM_cons, h item (List.mem_cons_self ..), List.foldl_cons]
      exact ih (fun i hi => h i (List.mem_cons_of_mem _ hi)) _

omit [JsonNumber ν] [Printable] in
theorem splitItems_eq {key : Json ν → Py String} {keyOf : Json ν → String}
    {older newer : List (Json ν)}
    (holder : ∀ item ∈ older, key item = .ok (keyOf item))
    (hnewer : ∀ item ∈ newer, key item = .ok (keyOf item)) :
    splitItems older newer key
      = .ok (splitByKey (lastByKey keyOf older) (lastByKey keyOf newer)) := by
  rw [splitItems, dictBy_eq holder, ok_bind, dictBy_eq hnewer]
  rfl

omit [Printable] in
theorem exists_differsAt {older newer : Json ν} (holder : IsObject older)
    (hnewer : IsObject newer) (key : String) :
    ∃ change, differsAt older newer key = .ok change := by
  rw [differsAt, get_of_isObject holder, ok_bind, get_of_isObject hnewer]
  exact ⟨_, rfl⟩

omit [Printable] in
/-- Evidence sections whose lists are lists of texts compare. -/
theorem exists_evidenceDelta {older newer : Json ν} (holder : IsObject older)
    (hnewer : IsObject newer)
    (holderTexts : ∀ key ∈ evidenceLists, IsTexts (older.field key))
    (hnewerTexts : ∀ key ∈ evidenceLists, IsTexts (newer.field key)) :
    ∃ delta, evidenceDelta older newer = .ok delta := by
  obtain ⟨scalars, hscalars⟩ := exists_mapM_ok_iff.mpr fun key
      (_ : key ∈ evidenceScalars) => by
    obtain ⟨change, hchange⟩ := exists_differsAt holder hnewer key
    exact (⟨change.map fun c => (key, c), by rw [hchange]; rfl⟩ :
      ∃ scalar, (do
        return (← differsAt older newer key).map fun change => (key, change))
          = Except.ok scalar)
  obtain ⟨lists, hlists⟩ := exists_mapM_ok_iff.mpr fun key
      (hkey : key ∈ evidenceLists) => by
    obtain ⟨hold, hholdHash⟩ := listOf_of_isTexts (holderTexts key hkey)
    obtain ⟨hnew, hnewHash⟩ := listOf_of_isTexts (hnewerTexts key hkey)
    have hturn : ∃ list, evidenceListDelta older newer key = .ok list := by
      rw [evidenceListDelta, get_of_isObject holder, ok_bind, hold, ok_bind,
        setOf, if_pos hholdHash, ok_bind, get_of_isObject hnewer, ok_bind, hnew,
        ok_bind, setOf, if_pos hnewHash, ok_bind]
      split
      · rw [splitLists_of_hashable hholdHash hnewHash]
        exact ⟨_, rfl⟩
      · exact ⟨_, rfl⟩
    exact hturn
  rw [evidenceDelta, hscalars, ok_bind, hlists]
  exact ⟨_, rfl⟩

omit [Printable] in
theorem exists_threeStepDelta {older newer : Json ν} (holder : IsSection older)
    (hnewer : IsSection newer)
    (holderTexts : IsTexts (older.field "distinguishing_features"))
    (hnewerTexts : IsTexts (newer.field "distinguishing_features")) :
    ∃ delta, threeStepDelta older newer = .ok delta := by
  obtain ⟨hold, holdField⟩ := orElse_of_isSection holder
  obtain ⟨hnew, hnewField⟩ := orElse_of_isSection hnewer
  obtain ⟨c₁, hc₁⟩ := exists_differsAt hold hnew "closest_prior_art"
  obtain ⟨c₂, hc₂⟩ := exists_differsAt hold hnew "actual_technical_problem"
  obtain ⟨hlist, hhash⟩ := listOf_of_isTexts holderTexts
  obtain ⟨hlist', hhash'⟩ := listOf_of_isTexts hnewerTexts
  simp only [threeStepDelta, hc₁, hc₂, get_of_isObject hold,
    get_of_isObject hnew, holdField, hnewField, hlist, hlist', ok_bind,
    splitLists_of_hashable hhash hhash']
  exact ⟨_, rfl⟩

/-- The findings of a payload. -/
def findingsOf (payload : Json ν) : List (Json ν) :=
  itemsOf (payload.field "findings")

/-- The observations of a payload. -/
def observationsOf (payload : Json ν) : List (Json ν) :=
  itemsOf (payload.field "entity_observations")

/-- Two version payloads compare; findings and observations are matched by
their keys, and the inputs are those of the snapshots. -/
theorem exists_diffOrdered {older newer : DiffSide ν}
    (holder : VersionShaped older.payload)
    (hnewer : VersionShaped newer.payload) (a b : Option InputSnapshot) :
    ∃ d, diffOrdered older newer a b = .ok d
      ∧ d.findings = splitByKey
        (lastByKey findingKeyOf (findingsOf older.payload))
        (lastByKey findingKeyOf (findingsOf newer.payload))
      ∧ d.entityObservations = splitByKey
        (lastByKey observationKeyOf (observationsOf older.payload))
        (lastByKey observationKeyOf (observationsOf newer.payload))
      ∧ d.inputs = comparedInputs a b := by
  have hold := get_of_isObject holder.isObject
  have hnew := get_of_isObject hnewer.isObject
  obtain ⟨hblockers, hblockersHash⟩ := listOf_of_isTexts holder.blockers
  obtain ⟨hblockers', hblockersHash'⟩ := listOf_of_isTexts hnewer.blockers
  obtain ⟨hflags, hflagsHash⟩ := listOf_of_isTexts holder.flags
  obtain ⟨hflags', hflagsHash'⟩ := listOf_of_isTexts hnewer.flags
  obtain ⟨hfindings, hfinding⟩ := listOf_of_isRecordsOf holder.findings
  obtain ⟨hfindings', hfinding'⟩ := listOf_of_isRecordsOf hnewer.findings
  obtain ⟨hobs, hob⟩ := listOf_of_isRecordsOf holder.entityObservations
  obtain ⟨hobs', hob'⟩ := listOf_of_isRecordsOf hnewer.entityObservations
  obtain ⟨⟨prompts, hprompts⟩, -⟩ := orElse_of_isSection holder.promptVersions
  obtain ⟨⟨prompts', hprompts'⟩, -⟩ := orElse_of_isSection hnewer.promptVersions
  obtain ⟨⟨evidence, hevidence⟩, hfield⟩ := orElse_of_isSection holder.evidence
  obtain ⟨⟨evidence', hevidence'⟩, hfield'⟩ := orElse_of_isSection hnewer.evidence
  obtain ⟨delta, hdelta⟩ := exists_evidenceDelta ⟨evidence, rfl⟩ ⟨evidence', rfl⟩
    (fun key hkey => by
      rw [← hevidence, hfield]
      exact holder.evidenceLists key hkey)
    (fun key hkey => by
      rw [← hevidence', hfield']
      exact hnewer.evidenceLists key hkey)
  obtain ⟨three, hthree⟩ := exists_threeStepDelta holder.threeStep
    hnewer.threeStep holder.distinguishingFeatures hnewer.distinguishingFeatures
  have hconfirm : ∀ {payload : Json ν}, IsObject payload → ∃ v, payload.getD
      "requires_human_confirmation" (.bool true) = .ok v := by
    rintro payload ⟨entries, rfl⟩
    exact ⟨_, rfl⟩
  obtain ⟨confirm, hconfirmed⟩ := hconfirm holder.isObject
  obtain ⟨confirm', hconfirmed'⟩ := hconfirm hnewer.isObject
  have hsplit := splitItems_eq (fun i hi => findingKey_of_isFinding (hfinding i hi))
    fun i hi => findingKey_of_isFinding (hfinding' i hi)
  have hsplit' := splitItems_eq
    (fun i hi => observationKey_of_isObservation (hob i hi))
    fun i hi => observationKey_of_isObservation (hob' i hi)
  simp only [diffOrdered, hold, hnew, textAt_of_isObject holder.isObject,
    textAt_of_isObject hnewer.isObject, ok_bind, hblockers, hblockers',
    splitLists_of_hashable hblockersHash hblockersHash', hfindings, hfindings',
    hsplit, hobs, hobs', hsplit', hprompts, hprompts', hflags, hflags',
    splitLists_of_hashable hflagsHash hflagsHash', hevidence, hevidence',
    Json.entries, hdelta, hthree, hconfirmed, hconfirmed']
  exact ⟨_, rfl, rfl, rfl, rfl⟩

-- ======================================================== the direction

omit [Printable] in
/-- Whether both snapshots are given does not depend on their order. -/
theorem isSome_comparedInputs_comm (a b : Option InputSnapshot) :
    (comparedInputs a b).isSome = (comparedInputs b a).isSome := by
  cases a with
  | none => cases b <;> rfl
  | some a => cases b <;> rfl

/-- The order of the snapshots shows in the inputs section only. -/
theorem diffOrdered_comm (older newer : DiffSide ν)
    (a b : Option InputSnapshot) :
    diffOrdered older newer a b
      = (diffOrdered older newer b a).map fun d =>
        { d with inputs := comparedInputs a b } := by
  simp only [diffOrdered, isSome_comparedInputs_comm a b, Fallible.map_bind]
  rfl

omit [Printable] in
/-- Snapshots that compare alike both ways. -/
theorem comparedInputs_comm_iff {a b : Option InputSnapshot} :
    comparedInputs a b = comparedInputs b a
      ↔ ∀ s t, a = some s → b = some t →
        SameRead s t ∧ claimKeys s = claimKeys t := by
  cases a with
  | none => cases b <;> simp [comparedInputs]
  | some s =>
      cases b with
      | none => simp [comparedInputs]
      | some t => simp [comparedInputs, diffInputs_comm_iff]

/-- Two sides in order compare alike under exchanged snapshots exactly when
the snapshots do. -/
theorem diffOrdered_comm_iff (older newer : VersionSide ν)
    (a b : Option InputSnapshot) :
    diffOrdered older.toDiffSide newer.toDiffSide a b
        = diffOrdered older.toDiffSide newer.toDiffSide b a
      ↔ comparedInputs a b = comparedInputs b a := by
  obtain ⟨d, hd, -, -, hinputs⟩ :=
    exists_diffOrdered older.shaped newer.shaped b a
  rw [diffOrdered_comm _ _ a b, hd, ← hinputs]
  constructor
  · intro h
    exact congrArg AssessmentVersionDiff.inputs (Except.ok.inj h)
  · intro h
    rw [h]
    rfl

/-- A comparison and its reverse put the sides in the same order. -/
theorem diffPayloads_eq_reverse_iff (older newer : VersionSide ν)
    (hversions : older.version ≠ newer.version) (a b : Option InputSnapshot) :
    diffPayloads older.toDiffSide newer.toDiffSide a b
        = diffPayloads newer.toDiffSide older.toDiffSide b a
      ↔ comparedInputs a b = comparedInputs b a := by
  rcases lt_or_gt_of_ne hversions with hlt | hgt
  · rw [diffPayloads, if_neg (not_lt_of_gt hlt), diffPayloads, if_pos hlt]
    exact diffOrdered_comm_iff older newer a b
  · rw [diffPayloads, if_pos hgt, diffPayloads, if_neg (not_lt_of_gt hgt)]
    exact diffOrdered_comm_iff newer older a b

/-- Asked either way, two versions compare alike exactly when a snapshot is
missing or the two agree on all that is read, their claims' keys in one
order. -/
theorem diffPayloads_comm_iff (older newer : VersionSide ν)
    (hversions : older.version ≠ newer.version) (a b : Option InputSnapshot) :
    diffPayloads older.toDiffSide newer.toDiffSide a b
        = diffPayloads newer.toDiffSide older.toDiffSide b a
      ↔ ∀ s t, a = some s → b = some t →
        SameRead s t ∧ claimKeys s = claimKeys t :=
  (diffPayloads_eq_reverse_iff older newer hversions a b).trans
    comparedInputs_comm_iff

/-- A table that shows every character as it is. -/
@[reducible] def everyPrintable : Printable := ⟨fun _ => true⟩

/-- A case of two features and two documents, of which the first discloses
the second feature or not; the proof of its priority is there or not. -/
def hingeInput (judgment : String) (proofVerified : Bool) : AssessmentInput where
  subject := {
    filingDate := .ofNumbers 2025 6 1 (.refl true)
    priorityClaims := [{
      claimId := "P1", priorityDate := .ofNumbers 2024 7 1 (.refl true)
      country := "CN", proofVerified, covers := ["F1", "F2"] }] }
  documents := [
    { docId := "D1", publicationNumber := "CN1A", title := "铰链"
      sourceVerified := true
      publicationDate := some (.ofNumbers 2020 3 1 (.refl true)) },
    { docId := "D2", publicationNumber := "CN2A", title := "阀门"
      publicationDate := some (.ofNumbers 2021 3 1 (.refl true)) }]
  rows := [
    { featureCode := "F1", docId := "D1", judgment := "identical" },
    { featureCode := "F2", docId := "D1", judgment },
    { featureCode := "F1", docId := "D2", judgment := "equivalent" },
    { featureCode := "F2", docId := "D2", judgment := "equivalent" }]
  citations := [{ docId := "D1", featureCode := "F1", location := "[0012]" }]

/-- A version of the case. -/
def hingeContext (versionNumber : Nat) : RecordContext where
  recordId := "v" ++ toString versionNumber
  organizationId := "o"
  caseId := "c"
  versionNumber
  createdByIdentityId := some "agent"
  createdAt := .ofNumbers (.ofNumbers 2025 7 1 (.refl true)) 9 0 0 0 (.refl true)

omit [JsonNumber ν] [Printable] in
/-- Two assessed versions with findings, gaps and blockers, the judgments
and the proof of priority changed in between. -/
theorem diffPayloads_comm_hinge :
    letI := everyPrintable
    let older := hingeInput "different" false
    let newer := hingeInput "identical" true
    ∃ p q, assessCase older = some p ∧ assessCase newer = some q
      ∧ p.findings ≠ q.findings ∧ p.blockers ≠ []
      ∧ ∀ sha256 : String → String,
        let a := p.side sha256 Rat.floor .empty (hingeContext 1)
        let b := q.side sha256 Rat.floor .empty (hingeContext 2)
        diffPayloads a.toDiffSide b.toDiffSide
            (some (inputProfileSnapshot older)) (some (inputProfileSnapshot newer))
          = diffPayloads b.toDiffSide a.toDiffSide
            (some (inputProfileSnapshot newer))
            (some (inputProfileSnapshot older)) := by
  intro older newer
  obtain ⟨p, hp⟩ : ∃ p, assessCase older = some p :=
    Option.isSome_iff_exists.mp (by decide +kernel)
  obtain ⟨q, hq⟩ : ∃ q, assessCase newer = some q :=
    Option.isSome_iff_exists.mp (by decide +kernel)
  have hfindings : (assessCase older).map AssessmentPackage.findings
      ≠ (assessCase newer).map AssessmentPackage.findings := by decide +kernel
  have hblockers : (assessCase older).map AssessmentPackage.blockers
      ≠ some [] := by decide +kernel
  rw [hp, hq] at hfindings
  rw [hp] at hblockers
  refine ⟨p, q, hp, hq, fun h => hfindings (congrArg some h),
    fun h => hblockers (congrArg some h), fun sha256 => ?_⟩
  let _ : Printable := everyPrintable
  refine (diffPayloads_comm_iff
    (p.side sha256 Rat.floor .empty (hingeContext 1))
    (q.side sha256 Rat.floor .empty (hingeContext 2)) ?_
    (some (inputProfileSnapshot older))
    (some (inputProfileSnapshot newer))).mpr ?_
  · show (1 : Int) ≠ 2
    decide
  · rintro _ _ ⟨⟩ ⟨⟩
    exact ⟨⟨rfl, rfl, fun _ => rfl⟩, rfl⟩

/-- A version whose payload has no section. -/
def emptySide (version : Int) : VersionSide Int where
  payload := .obj []
  version
  payloadSha256 := ""
  shaped := {
    isObject := ⟨[], rfl⟩
    distinct := distinctKeys_obj.mpr ⟨List.nodup_nil, fun _ h => nomatch h⟩
    blockers := .inl rfl
    flags := .inl rfl
    promptVersions := .inl rfl
    findings := .inl rfl
    entityObservations := .inl rfl
    evidence := .inl rfl
    evidenceLists := fun _ _ => .inl rfl
    threeStep := .inl rfl
    distinguishingFeatures := .inl rfl }

/-- The snapshot of an application without claims and candidates. -/
def bareSnapshot (filingDate : String) : InputSnapshot where
  applicationProfile := {
    filingDate := some filingDate, applicationType := "invention"
    priorityClaims := [] }
  candidateProfiles := []

omit [JsonNumber ν] [Printable] in
/-- A filing date that moved is reported the wrong way round when the newer
version is named first. -/
theorem not_forall_diffPayloads_comm :
    ¬ ∀ (_ : Printable) (older newer : VersionSide Int)
        (a b : Option InputSnapshot), older.version ≠ newer.version →
      diffPayloads older.toDiffSide newer.toDiffSide a b
        = diffPayloads newer.toDiffSide older.toDiffSide b a := by
  intro h
  let _ := everyPrintable
  have heq := h everyPrintable (emptySide 1) (emptySide 2)
    (some (bareSnapshot "2025-06-01")) (some (bareSnapshot "2025-07-01"))
    (by decide)
  rw [diffPayloads_eq_reverse_iff (emptySide 1) (emptySide 2) (by decide),
    comparedInputs_comm_iff] at heq
  have hfiling := (heq _ _ rfl rfl).1.filingDate
  simp [bareSnapshot] at hfiling

end PatentEvidence.Assessment
