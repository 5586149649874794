/-
What the comparison of two input snapshots reports, and what it hides.

Of the claims it reads their keys (`claim_id|priority_date|country`) and
whether each key occurs; of the candidates the last profile of each
publication number. So it reports nothing exactly when the snapshots agree
on those (`noChange_iff`). Hidden from it are the other attributes of a
claim, how often a claim is listed, and every profile but the last of its
number (`DiffersHidden`): a change of these goes unreported unless something
in view changes with it (`reports_changes_iff`).

Asked the other way round, the comparison answers the same exactly when it
has nothing to report and the claims come in the same order
(`diffInputs_comm_iff`).

# Sections

- fields;
- candidates;
- what is reported;
- asking the other way round;
- what is hidden.
-/
import PatentEvidence.Assessment.Diff

namespace PatentEvidence.Assessment

open Keyed

-- ============================================================== fields

section Fields

variable {α : Type _} {fields : List (String × (α → FieldValue))} {a b : α}

/-- No field is reported exactly when all agree. -/
theorem changedFields_eq_nil_iff :
    changedFields fields a b = [] ↔ ∀ f ∈ fields, f.2 a = f.2 b := by
  rw [changedFields, List.filterMap_eq_nil_iff]
  refine forall₂_congr fun f _ => ?_
  obtain ⟨field, read⟩ := f
  by_cases h : read a = read b
  · simp [h]
  · simp [h]

/-- A reported field tells the direction. -/
theorem changedFields_comm_iff :
    changedFields fields a b = changedFields fields b a
      ↔ ∀ f ∈ fields, f.2 a = f.2 b := by
  constructor
  · intro h
    induction fields with
    | nil => simp
    | cons f fields ih =>
        obtain ⟨field, read⟩ := f
        by_cases hread : read a = read b
        · have hrest : changedFields fields a b = changedFields fields b a := by
            simpa [changedFields, hread] using h
          exact List.forall_mem_cons.mpr ⟨hread, ih hrest⟩
        · have hread' : ¬ read b = read a := fun h' => hread h'.symm
          simp only [changedFields, List.filterMap_cons, ne_eq, hread, hread',
            not_false_eq_true, if_true, List.cons.injEq, ChangedField.mk.injEq,
            Change.mk.injEq] at h
          exact h.1.2.1.elim
  · intro h
    rw [changedFields_eq_nil_iff.mpr h,
      changedFields_eq_nil_iff.mpr fun f hf => (h f hf).symm]

end Fields

theorem applicationFields_agree_iff {a b : ApplicationProfile} :
    (∀ f ∈ applicationFields, f.2 a = f.2 b)
      ↔ a.filingDate = b.filingDate ∧ a.applicationType = b.applicationType := by
  simp [applicationFields]

/-- Profiles of one number that agree on the compared fields are equal. -/
theorem candidateFields_agree_iff {a b : CandidateProfile}
    (h : a.publicationNumber = b.publicationNumber) :
    (∀ f ∈ candidateFields, f.2 a = f.2 b) ↔ a = b := by
  cases a
  cases b
  simp_all [candidateFields]

-- =========================================================== candidates

/-- The last profile of each number is the same in both snapshots. -/
def SameCandidates (a b : InputSnapshot) : Prop :=
  ∀ cn, (candidatesByNumber a).get? cn = (candidatesByNumber b).get? cn

theorem publicationNumber_of_get? {a : InputSnapshot} {cn : String}
    {profile : CandidateProfile}
    (h : (candidatesByNumber a).get? cn = some profile) :
    profile.publicationNumber = cn :=
  (get?_lastByKey_eq_some CandidateProfile.publicationNumber h).2

/-- A number is added exactly when the newer snapshot alone has it. -/
theorem mem_added_iff {a b : InputSnapshot} {cn : String} :
    cn ∈ (diffInputs a b).added
      ↔ (candidatesByNumber b).get? cn ≠ none
        ∧ (candidatesByNumber a).get? cn = none := by
  have hkeys : cn ∈ (candidatesByNumber b).keys
      ↔ (candidatesByNumber b).get? cn ≠ none := by
    rw [ne_eq, Dict.get?_eq_none_iff, not_not]
  rw [diffInputs, List.mem_filter, Option.isNone_iff_eq_none, hkeys]

theorem removed_eq_added' (a b : InputSnapshot) :
    (diffInputs a b).removed = (diffInputs b a).added := rfl

/-- What is reported of a number both snapshots have. -/
theorem mem_changed_iff {a b : InputSnapshot} {entry : ChangedCandidate} :
    entry ∈ (diffInputs a b).changed
      ↔ ∃ old new,
        (candidatesByNumber a).get? entry.publicationNumber = some old
          ∧ (candidatesByNumber b).get? entry.publicationNumber = some new
          ∧ entry.changedFields = changedFields candidateFields old new
          ∧ old ≠ new := by
  have hfields {cn : String} {old new : CandidateProfile}
      (hold : (candidatesByNumber a).get? cn = some old)
      (hnew : (candidatesByNumber b).get? cn = some new) :
      changedFields candidateFields old new ≠ [] ↔ old ≠ new := by
    rw [ne_eq, ne_eq, changedFields_eq_nil_iff, candidateFields_agree_iff]
    rw [publicationNumber_of_get? hold, publicationNumber_of_get? hnew]
  simp only [diffInputs]
  rw [List.mem_filterMap]
  constructor
  · rintro ⟨⟨cn, new⟩, hmem, hentry⟩
    have hnew := Dict.get?_of_mem_entries hmem
    cases hold : (candidatesByNumber a).get? cn with
    | none => simp [hold] at hentry
    | some old =>
        simp only [hold, ite_eq_iff, reduceCtorEq, and_false, or_false,
          Option.some.injEq] at hentry
        obtain ⟨hne, rfl⟩ := hentry
        exact ⟨old, new, hold, hnew, rfl, (hfields hold hnew).mp hne⟩
  · rintro ⟨old, new, hold, hnew, hchanged, hne⟩
    have hreported := (hfields hold hnew).mpr hne
    rw [← hchanged] at hreported
    refine ⟨(entry.publicationNumber, new), Dict.mem_entries_of_get? hnew, ?_⟩
    simp only [hold, ← hchanged]
    rw [if_pos hreported]

/-- Nothing is reported of the candidates exactly when they are the
same. -/
theorem candidates_eq_nil_iff {a b : InputSnapshot} :
    (diffInputs a b).added = [] ∧ (diffInputs a b).removed = []
        ∧ (diffInputs a b).changed = []
      ↔ SameCandidates a b := by
  constructor
  · rintro ⟨hadded, hremoved, hchanged⟩ cn
    rw [removed_eq_added'] at hremoved
    cases hold : (candidatesByNumber a).get? cn with
    | none =>
        cases hnew : (candidatesByNumber b).get? cn with
        | none => rfl
        | some new =>
            have : cn ∈ (diffInputs a b).added :=
              mem_added_iff.mpr ⟨by simp [hnew], hold⟩
            simp [hadded] at this
    | some old =>
        cases hnew : (candidatesByNumber b).get? cn with
        | none =>
            have : cn ∈ (diffInputs b a).added :=
              mem_added_iff.mpr ⟨by simp [hold], hnew⟩
            simp [hremoved] at this
        | some new =>
            by_contra hne
            have : ⟨cn, changedFields candidateFields old new⟩
                ∈ (diffInputs a b).changed :=
              mem_changed_iff.mpr ⟨old, new, hold, hnew, rfl,
                fun h => hne (congrArg some h)⟩
            simp [hchanged] at this
  · intro h
    refine ⟨List.eq_nil_iff_forall_not_mem.mpr fun cn hcn => ?_,
      List.eq_nil_iff_forall_not_mem.mpr fun cn hcn => ?_,
      List.eq_nil_iff_forall_not_mem.mpr fun entry hentry => ?_⟩
    · obtain ⟨hnew, hold⟩ := mem_added_iff.mp hcn
      exact hnew ((h cn).symm.trans hold)
    · rw [removed_eq_added'] at hcn
      obtain ⟨hold, hnew⟩ := mem_added_iff.mp hcn
      exact hold ((h cn).trans hnew)
    · obtain ⟨old, new, hold, hnew, -, hne⟩ := mem_changed_iff.mp hentry
      rw [h, hnew] at hold
      exact hne (Option.some.inj hold).symm

-- ==================================================== what is reported

/-- `_diff_inputs` reports no change. -/
def NoChange (d : InputDiff) : Prop :=
  d.changedFields = [] ∧ d.priorityClaims.added = []
    ∧ d.priorityClaims.removed = [] ∧ d.added = [] ∧ d.removed = []
    ∧ d.changed = []

/-- The keys of a snapshot's claims, as `_diff_inputs` reads them. -/
def claimKeys (a : InputSnapshot) : List String :=
  a.applicationProfile.priorityClaims.map pcKey

/-- The snapshots agree on what the comparison reads of the application
and the candidates. -/
structure SameRead (a b : InputSnapshot) : Prop where
  filingDate : a.applicationProfile.filingDate = b.applicationProfile.filingDate
  applicationType :
    a.applicationProfile.applicationType = b.applicationProfile.applicationType
  candidates : SameCandidates a b

theorem splitTexts_added_eq_nil_iff {older newer : List String} :
    (splitTexts older newer).added = [] ↔ ∀ k ∈ newer, k ∈ older := by
  simp [splitTexts, splitBy, List.filter_eq_nil_iff]

theorem splitTexts_removed_eq_nil_iff {older newer : List String} :
    (splitTexts older newer).removed = [] ↔ ∀ k ∈ older, k ∈ newer := by
  simp [splitTexts, splitBy, List.filter_eq_nil_iff]

/-- No change is reported exactly when all that is read agrees. -/
theorem noChange_iff {a b : InputSnapshot} :
    NoChange (diffInputs a b)
      ↔ SameRead a b ∧ ∀ k, k ∈ claimKeys a ↔ k ∈ claimKeys b := by
  have hfields : (diffInputs a b).changedFields = [] ↔ _ :=
    changedFields_eq_nil_iff.trans applicationFields_agree_iff
  rw [NoChange, candidates_eq_nil_iff, hfields]
  constructor
  · rintro ⟨⟨hfiling, htype⟩, hadded, hremoved, hcandidates⟩
    exact ⟨⟨hfiling, htype, hcandidates⟩, fun k =>
      ⟨splitTexts_removed_eq_nil_iff.mp hremoved k,
        splitTexts_added_eq_nil_iff.mp hadded k⟩⟩
  · rintro ⟨⟨hfiling, htype, hcandidates⟩, hkeys⟩
    exact ⟨⟨hfiling, htype⟩,
      splitTexts_added_eq_nil_iff.mpr fun k hk => (hkeys k).mpr hk,
      splitTexts_removed_eq_nil_iff.mpr fun k hk => (hkeys k).mp hk, hcandidates⟩

-- ========================================= asking the other way round

/-- Lists of texts split alike both ways exactly when they are equal. -/
theorem splitTexts_comm_iff {older newer : List String} :
    splitTexts older newer = splitTexts newer older ↔ older = newer := by
  constructor
  · intro h
    -- what is added one way is removed the other, so nothing is
    have hadded : (splitTexts older newer).added = [] := by
      refine List.eq_nil_iff_forall_not_mem.mpr fun k hk => ?_
      have hk' := hk
      rw [h] at hk'
      simp only [splitTexts, splitBy, List.mem_filter, Bool.not_eq_true',
        decide_eq_false_iff_not] at hk hk'
      exact hk.2 hk'.1
    have hremoved : (splitTexts older newer).removed = [] := by
      have : (splitTexts older newer).removed
          = (splitTexts newer older).added := rfl
      rw [this, ← h, hadded]
    rw [splitTexts_added_eq_nil_iff] at hadded
    rw [splitTexts_removed_eq_nil_iff] at hremoved
    have hretained := congrArg Split.retained h
    simp only [splitTexts, splitBy] at hretained
    rw [List.filter_eq_self.mpr fun k hk => decide_eq_true (hadded k hk),
      List.filter_eq_self.mpr fun k hk => decide_eq_true (hremoved k hk)]
      at hretained
    exact hretained.symm
  · rintro rfl
    rfl

/-- The comparison and its reverse agree exactly when the snapshots agree
on all that is read, and list their claims' keys in one order. -/
theorem diffInputs_comm_iff {a b : InputSnapshot} :
    diffInputs a b = diffInputs b a
      ↔ SameRead a b ∧ claimKeys a = claimKeys b := by
  constructor
  · intro h
    have hfields : ∀ f ∈ applicationFields, f.2 a.applicationProfile
        = f.2 b.applicationProfile :=
      changedFields_comm_iff.mp (congrArg InputDiff.changedFields h)
    obtain ⟨hfiling, htype⟩ := applicationFields_agree_iff.mp hfields
    have hkeys : claimKeys a = claimKeys b :=
      splitTexts_comm_iff.mp (congrArg InputDiff.priorityClaims h)
    have hadded : (diffInputs a b).added = [] := by
      refine List.eq_nil_iff_forall_not_mem.mpr fun cn hcn => ?_
      have hcn' := hcn
      rw [h] at hcn'
      exact (mem_added_iff.mp hcn').1 (mem_added_iff.mp hcn).2
    have hchanged : (diffInputs a b).changed = [] := by
      refine List.eq_nil_iff_forall_not_mem.mpr fun entry hentry => ?_
      have hentry' := hentry
      rw [h] at hentry'
      obtain ⟨old, new, hold, hnew, hdelta, hne⟩ := mem_changed_iff.mp hentry
      obtain ⟨new', old', hnew', hold', hdelta', -⟩ :=
        mem_changed_iff.mp hentry'
      obtain rfl := Option.some.inj (hold.symm.trans hold')
      obtain rfl := Option.some.inj (hnew.symm.trans hnew')
      have hsame := changedFields_comm_iff.mp (hdelta.symm.trans hdelta')
      refine hne ((candidateFields_agree_iff ?_).mp hsame)
      rw [publicationNumber_of_get? hold, publicationNumber_of_get? hnew]
    have hremoved : (diffInputs a b).removed = [] := by
      rw [removed_eq_added', ← h, hadded]
    exact ⟨⟨hfiling, htype,
      candidates_eq_nil_iff.mp ⟨hadded, hremoved, hchanged⟩⟩, hkeys⟩
  · rintro ⟨hread, hkeys⟩
    have hback : SameRead b a :=
      ⟨hread.filingDate.symm, hread.applicationType.symm,
        fun cn => (hread.candidates cn).symm⟩
    have hnone : NoChange (diffInputs a b) :=
      noChange_iff.mpr ⟨hread, fun k => by rw [hkeys]⟩
    have hnone' : NoChange (diffInputs b a) :=
      noChange_iff.mpr ⟨hback, fun k => by rw [hkeys]⟩
    obtain ⟨hfields, -, -, hadded, hremoved, hchanged⟩ := hnone
    obtain ⟨hfields', -, -, hadded', hremoved', hchanged'⟩ := hnone'
    have hclaims : (diffInputs a b).priorityClaims
        = (diffInputs b a).priorityClaims := splitTexts_comm_iff.mpr hkeys
    exact InputDiff.ext (hfields.trans hfields'.symm) hclaims
      (hadded.trans hadded'.symm) (hremoved.trans hremoved'.symm)
      (hchanged.trans hchanged'.symm)

-- ======================================================= what is hidden

/-- Two snapshots carry the same facts: the same application, and the same
claims and profiles, each equally often. -/
structure SameFacts (a b : InputSnapshot) : Prop where
  filingDate : a.applicationProfile.filingDate = b.applicationProfile.filingDate
  applicationType :
    a.applicationProfile.applicationType = b.applicationProfile.applicationType
  priorityClaims : a.applicationProfile.priorityClaims.Perm
    b.applicationProfile.priorityClaims
  candidateProfiles : a.candidateProfiles.Perm b.candidateProfiles

/-- The profiles of a publication number. -/
def InputSnapshot.profilesOf (a : InputSnapshot) (cn : String) :
    List CandidateProfile :=
  a.candidateProfiles.filter fun c => c.publicationNumber = cn

/-- Something in view of the comparison differs: filing date or type, a
claim whose key the other snapshot has not, or the last profile of a
publication number. -/
def DiffersInView (a b : InputSnapshot) : Prop :=
  a.applicationProfile.filingDate ≠ b.applicationProfile.filingDate
    ∨ a.applicationProfile.applicationType
      ≠ b.applicationProfile.applicationType
    ∨ Unmatched pcKey a.applicationProfile.priorityClaims
      b.applicationProfile.priorityClaims
    ∨ Unmatched pcKey b.applicationProfile.priorityClaims
      a.applicationProfile.priorityClaims
    ∨ ∃ cn, (a.profilesOf cn).getLast? ≠ (b.profilesOf cn).getLast?

/-- What `_pc_key` leaves out of a claim. -/
def PriorityClaimProfile.attributes (c : PriorityClaimProfile) :
    Bool × Bool × Bool × List String :=
  (c.firstApplication, c.sameSubject, c.proofVerified, c.covers)

/-- What it runs together. -/
def PriorityClaimProfile.identity (c : PriorityClaimProfile) :
    String × Option String × String :=
  (c.claimId, c.priorityDate, c.country)

/-- A claim whose key the other list has, but with other attributes, or for
another filing whose texts run together to the same key. -/
def HidesClaim (l l' : List PriorityClaimProfile) : Prop :=
  ∃ c ∈ l, (∃ d ∈ l', pcKey d = pcKey c)
    ∧ ∀ d ∈ l', pcKey d = pcKey c →
      d.attributes ≠ c.attributes ∨ d.identity ≠ c.identity

/-- Something hidden from the comparison differs: a claim behind its key, how
often a claim is listed, or the profiles before the last of a publication
number. -/
def DiffersHidden (a b : InputSnapshot) : Prop :=
  HidesClaim a.applicationProfile.priorityClaims
      b.applicationProfile.priorityClaims
    ∨ HidesClaim b.applicationProfile.priorityClaims
      a.applicationProfile.priorityClaims
    ∨ (∃ c ∈ a.applicationProfile.priorityClaims,
      c ∈ b.applicationProfile.priorityClaims
        ∧ a.applicationProfile.priorityClaims.count c
          ≠ b.applicationProfile.priorityClaims.count c)
    ∨ ∃ cn, ¬ (a.profilesOf cn).dropLast.Perm (b.profilesOf cn).dropLast

/-- No change is reported exactly when nothing in view differs. -/
theorem noChange_iff_not_inView {a b : InputSnapshot} :
    NoChange (diffInputs a b) ↔ ¬ DiffersInView a b := by
  have hcandidates : SameCandidates a b
      ↔ ∀ cn, (a.profilesOf cn).getLast? = (b.profilesOf cn).getLast? :=
    forall_congr' fun cn => by
      rw [candidatesByNumber, candidatesByNumber, get?_lastByKey, get?_lastByKey]
      rfl
  have hkeys : (∀ k, k ∈ claimKeys a ↔ k ∈ claimKeys b)
      ↔ ¬ Unmatched pcKey a.applicationProfile.priorityClaims
          b.applicationProfile.priorityClaims
        ∧ ¬ Unmatched pcKey b.applicationProfile.priorityClaims
          a.applicationProfile.priorityClaims := by
    rw [not_unmatched_iff, not_unmatched_iff]
    exact ⟨fun h => ⟨fun k => (h k).mp, fun k => (h k).mpr⟩,
      fun h k => ⟨h.1 k, h.2 k⟩⟩
  unfold DiffersInView
  rw [noChange_iff, hkeys]
  push Not
  rw [← hcandidates]
  constructor
  · rintro ⟨⟨hfiling, htype, hsame⟩, hunmatched, hunmatched'⟩
    exact ⟨hfiling, htype, hunmatched, hunmatched', hsame⟩
  · rintro ⟨hfiling, htype, hunmatched, hunmatched', hsame⟩
    exact ⟨⟨hfiling, htype, hsame⟩, hunmatched, hunmatched'⟩

theorem hidesClaim_iff {l l' : List PriorityClaimProfile} :
    HidesClaim l l' ↔ Masked pcKey id l l' := by
  refine exists_congr fun c => and_congr_right fun _ => and_congr_right fun _ =>
    forall₃_congr fun d _ _ => ?_
  cases c
  cases d
  simp only [PriorityClaimProfile.attributes, PriorityClaimProfile.identity,
    id_eq, ne_eq, Prod.mk.injEq, PriorityClaimProfile.mk.injEq]
  tauto

/-- Where nothing in view differs, the facts are the same exactly when
nothing hidden differs. -/
theorem sameFacts_iff_not_hidden {a b : InputSnapshot}
    (h : ¬ DiffersInView a b) : SameFacts a b ↔ ¬ DiffersHidden a b := by
  unfold DiffersInView at h
  push Not at h
  obtain ⟨hfiling, htype, hmatched, hmatched', hlast⟩ := h
  have hclaims : (a.applicationProfile.priorityClaims.map id).Perm
      (b.applicationProfile.priorityClaims.map id)
        ↔ ¬ Behind pcKey id a.applicationProfile.priorityClaims
          b.applicationProfile.priorityClaims :=
    perm_iff_not_behind (fun _ _ => rfl) (fun _ _ => rfl) hmatched hmatched'
  have hprofiles := perm_iff_earlier CandidateProfile.publicationNumber hlast
  have hcounts (l l' : List PriorityClaimProfile) : Recounted id l l'
      ↔ ∃ c ∈ l, c ∈ l' ∧ l.count c ≠ l'.count c := by
    unfold Recounted
    rw [List.map_id, List.map_id]
    rfl
  rw [List.map_id, List.map_id, Behind, ← hidesClaim_iff, ← hidesClaim_iff,
    hcounts] at hclaims
  have hhidden : ¬ DiffersHidden a b
      ↔ a.applicationProfile.priorityClaims.Perm
          b.applicationProfile.priorityClaims
        ∧ a.candidateProfiles.Perm b.candidateProfiles := by
    unfold DiffersHidden
    rw [hclaims, hprofiles, ← not_exists_not, ← not_or, or_assoc, or_assoc]
    rfl
  rw [hhidden]
  exact ⟨fun hfacts => ⟨hfacts.priorityClaims, hfacts.candidateProfiles⟩,
    fun hperms => ⟨hfiling, htype, hperms.1, hperms.2⟩⟩

/-- Snapshots of which no change is reported have the same facts exactly
if, where something hidden from the comparison differs, something in its
view does too. -/
theorem reports_changes_iff (x y : AssessmentInput) :
    let a := inputProfileSnapshot x
    let b := inputProfileSnapshot y
    (NoChange (diffInputs a b) → SameFacts a b)
      ↔ (DiffersHidden a b → DiffersInView a b) := by
  intro a b
  rw [noChange_iff_not_inView]
  constructor
  · intro h hhidden
    by_contra hview
    exact (sameFacts_iff_not_hidden hview).mp (h hview) hhidden
  · intro h hview
    exact (sameFacts_iff_not_hidden hview).mpr fun hhidden => hview (h hhidden)

/-- An application of 2025 claiming the priority of one filing of 2024. -/
def oneClaimInput (sameSubject : Bool) : AssessmentInput where
  subject := {
    filingDate := .ofNumbers 2025 6 1 (.refl true)
    priorityClaims := [{
      claimId := "P1", priorityDate := .ofNumbers 2024 7 1 (.refl true)
      country := "CN", sameSubject }] }
  documents := []
  rows := []

/-- A claim found not to be of the same subject is no reported change. -/
theorem not_forall_reports_changes :
    ¬ ∀ x y : AssessmentInput,
      NoChange (diffInputs (inputProfileSnapshot x) (inputProfileSnapshot y)) →
        SameFacts (inputProfileSnapshot x) (inputProfileSnapshot y) := by
  intro h
  have hnone : NoChange (diffInputs (inputProfileSnapshot (oneClaimInput true))
      (inputProfileSnapshot (oneClaimInput false))) :=
    noChange_iff.mpr ⟨⟨rfl, rfl, fun _ => rfl⟩, fun _ => Iff.rfl⟩
  have hclaims := (h _ _ hnone).priorityClaims
  have hclaim := List.perm_singleton.mp hclaims
  have hsame := congrArg PriorityClaimProfile.sameSubject
    (List.singleton_injective hclaim)
  cases hsame

end PatentEvidence.Assessment
