/-
The gates over delivering a version agree.

All of them come down to one property of a version: its log says approved
and it has no blockers. The conclusion gate is true of a version's facts
exactly then (`satisfied_iff_eligible`); the search answers the first such
version of a list that runs from the newest down (`firstSatisfied_eq`); and
the attachment is the deliverable of the version the search answers, or of
the newest one (`getDeliveryAttachment_eq`).

A version number leads back to the version it was read from, since a case
has each number once; that is why asking for the status by number, as the
services do, asks about the version at hand (`getVersion_of_mem`).

# Sections

- looking versions up;
- building a deliverable;
- the search;
- the gates.
-/
import PatentEvidence.Assessment.Deliverable
import PatentEvidence.Lib.Fallible

namespace PatentEvidence.Assessment

open Fallible Json Reports

variable {ν : Type} [JsonNumber ν] (versions : AssessmentVersions ν)
  (log : ReviewTable) (organizationId caseId : String)

-- =================================================== looking versions up

/-- What is listed is a row of the case. -/
theorem mem_listVersions {v : AssessmentVersionRecord ν} :
    v ∈ versions.listVersions organizationId caseId
      ↔ ∃ row ∈ versions.ofCase organizationId caseId,
        rowToRecord row.record = v := by
  rw [AssessmentVersions.listVersions, List.mem_map]
  refine exists_congr fun row => and_congr_left' ?_
  exact (List.perm_insertionSort ..).mem_iff

omit [JsonNumber ν] in
/-- Rows of the case with one number are one row. -/
theorem eq_of_versionNumber {a b : StoredVersion ν}
    (ha : a ∈ versions.ofCase organizationId caseId)
    (hb : b ∈ versions.ofCase organizationId caseId)
    (h : a.record.versionNumber = b.record.versionNumber) : a = b := by
  obtain ⟨ha, hcasea⟩ := List.mem_filter.mp ha
  obtain ⟨hb, hcaseb⟩ := List.mem_filter.mp hb
  rw [decide_eq_true_eq] at hcasea hcaseb
  refine List.inj_on_of_nodup_map versions.numbered ha hb ?_
  exact Prod.ext (hcasea.2.trans hcaseb.2.symm) h

/-- The number of a listed version leads back to it. -/
theorem getVersion_of_mem {v : AssessmentVersionRecord ν}
    (hv : v ∈ versions.listVersions organizationId caseId) :
    versions.getVersion organizationId caseId v.versionNumber = .ok v := by
  obtain ⟨row, hrow, rfl⟩ := (mem_listVersions versions organizationId caseId).mp hv
  have hfind : (versions.ofCase organizationId caseId).find?
      (fun r => r.record.versionNumber = row.record.versionNumber) = some row := by
    cases hfound : (versions.ofCase organizationId caseId).find?
        (fun r => r.record.versionNumber = row.record.versionNumber) with
    | none =>
        have := List.find?_eq_none.mp hfound row hrow
        simp at this
    | some r =>
        have hnumber := List.find?_some hfound
        rw [decide_eq_true_eq] at hnumber
        rw [eq_of_versionNumber versions organizationId caseId
          (List.mem_of_find?_eq_some hfound) hrow hnumber]
  have hnumber : (rowToRecord row.record).versionNumber
      = row.record.versionNumber := rfl
  rw [AssessmentVersions.getVersion, hnumber, hfind]

/-- The status the log of a version says. -/
def statusOf (v : AssessmentVersionRecord ν) : VersionStatus :=
  deriveStatus (decisionSequence log v.toVersionRecord)

theorem currentStatus_of_mem {v : AssessmentVersionRecord ν}
    (hv : v ∈ versions.listVersions organizationId caseId) :
    currentStatus versions log organizationId caseId v.versionNumber
      = .ok (statusOf log v) := by
  rw [currentStatus, getVersion_of_mem versions organizationId caseId hv]
  rfl

/-- Newest first. -/
theorem pairwise_listVersions :
    (versions.listVersions organizationId caseId).Pairwise fun a b =>
      b.versionNumber ≤ a.versionNumber := by
  let newerFirst (a b : StoredVersion ν) : Prop :=
    b.record.versionNumber ≤ a.record.versionNumber
  have : Std.Total newerFirst :=
    ⟨fun a b => le_total b.record.versionNumber a.record.versionNumber⟩
  have : IsTrans (StoredVersion ν) newerFirst :=
    ⟨fun _ _ _ hab hbc => le_trans hbc hab⟩
  rw [AssessmentVersions.listVersions, List.pairwise_map]
  exact List.pairwise_insertionSort newerFirst _

-- ================================================= building a deliverable

/-- What a version is delivered under. -/
def eligibilityOf (v : AssessmentVersionRecord ν) : ConclusionEligibility :=
  evaluateConclusionEligibility (deliverySummary v (statusOf log v).value)

theorem exists_mapM_records {α : Type} {f : Json ν → Py α} {records : Json ν}
    (h : IsRecords records)
    (hf : ∀ entries, ∃ a, f (.obj entries) = .ok a) :
    ∃ items as, (records.orElse (.arr [])).iter = .ok items
      ∧ items.mapM f = .ok as := by
  obtain ⟨items, rfl, hitems⟩ := h
  have hiter : ((Json.arr items).orElse (.arr [])).iter = .ok items := by
    cases items with
    | nil => rfl
    | cons v vs => rfl
  obtain ⟨as, has⟩ : ∃ as, items.mapM f = .ok as := by
    refine exists_mapM_ok_iff.mpr fun v hv => ?_
    obtain ⟨entries, rfl⟩ := hitems v hv
    exact hf entries
  exact ⟨items, as, hiter, has⟩

theorem exists_countOf {evidence items : Json ν} {key : String}
    (hget : evidence.get key = .ok items) (hitems : IsList items) :
    ∃ n, countOf evidence key = .ok n := by
  obtain ⟨vs, rfl⟩ := hitems
  rw [countOf, hget]
  cases vs with
  | nil => exact ⟨0, rfl⟩
  | cons v vs => exact ⟨_, rfl⟩

/-- A package's payload can be made into a deliverable. -/
theorem exists_deliverable {record : AssessmentVersionRecord ν}
    (h : PackageShaped record.payload) (status : String)
    (eligibility : ConclusionEligibility) (now : Instant) :
    ∃ d, buildAssessmentDeliverable record status eligibility now = .ok d
      ∧ d.versionNumber = record.versionNumber
      ∧ d.eligibility = eligibility := by
  obtain ⟨evidence, hevidence, ⟨es, rfl⟩, hlists⟩ := h.evidence
  obtain ⟨scaffold, hscaffold, hshape⟩ := h.threeStep
  obtain ⟨findings, hfindings, hfrecords⟩ := h.findings
  obtain ⟨observations, hobservations, horecords⟩ := h.entityObservations
  have hpayload := orElse_of_get hevidence
  obtain ⟨items₁, hget₁, hlist₁⟩ := hlists "missing_anchors" (by decide)
  obtain ⟨items₂, hget₂, hlist₂⟩ := hlists "unverified_citations" (by decide)
  obtain ⟨items₃, hget₃, hlist₃⟩ := hlists "failed_sources" (by decide)
  obtain ⟨n₁, hn₁⟩ := exists_countOf hget₁ hlist₁
  obtain ⟨n₂, hn₂⟩ := exists_countOf hget₂ hlist₂
  obtain ⟨n₃, hn₃⟩ := exists_countOf hget₃ hlist₃
  obtain ⟨vs, fs, hvs, hfs⟩ := exists_mapM_records hfrecords
    (f := deliverableFinding) fun entries => ⟨_, rfl⟩
  obtain ⟨ws, os, hws, hos⟩ := exists_mapM_records horecords
    (f := deliverableObservation) fun entries => ⟨_, rfl⟩
  obtain ⟨threeStep, hthree⟩ : ∃ t, deliverableThreeStep
      (scaffold.orElse (.obj [])) = .ok t := by
    rcases hshape with rfl | ⟨entries, rfl⟩
    · exact ⟨_, rfl⟩
    · rw [orElse_obj]
      exact ⟨_, rfl⟩
  obtain ⟨ev, hev⟩ : ∃ ev, deliverableEvidence (.obj es) = .ok ev := by
    rw [deliverableEvidence, hn₁, hn₂, hn₃]
    exact ⟨_, rfl⟩
  rw [buildAssessmentDeliverable, hpayload, hevidence, hscaffold, hfindings,
    hobservations]
  simp only [ok_bind, orElse_obj, hev, hthree, hvs, hws, hfs, hos]
  exact ⟨_, rfl, rfl, rfl⟩

/-- A listed version can be delivered, under its own eligibility. -/
theorem exists_buildDeliverable {v : AssessmentVersionRecord ν}
    (hv : v ∈ versions.listVersions organizationId caseId) (now : Instant) :
    ∃ d, buildDeliverable versions log organizationId caseId now v.versionNumber
        = .ok d
      ∧ d.versionNumber = v.versionNumber
      ∧ d.eligibility = eligibilityOf log v := by
  obtain ⟨row, hrow, hrecord⟩ :=
    (mem_listVersions versions organizationId caseId).mp hv
  have hshaped : PackageShaped v.payload := by
    obtain ⟨evidence, hevidence, -, -⟩ := row.shaped.evidence
    have hload : (rowToRecord row.record).payload = row.record.payload :=
      orElse_of_get hevidence
    rw [← hrecord, hload]
    exact row.shaped
  obtain ⟨d, hd, hnumber, heligible⟩ := exists_deliverable hshaped
    (statusOf log v).value (eligibilityOf log v) now
  refine ⟨d, ?_, hnumber, heligible⟩
  rw [buildDeliverable, getVersion_of_mem versions organizationId caseId hv,
    currentStatus_of_mem versions log organizationId caseId hv, ok_bind, ok_bind]
  exact congrArg liftRaised hd

-- ============================================================ the search

/-- The condition the searches of the service look for. -/
def Satisfied (v : AssessmentVersionRecord ν) : Prop :=
  statusOf log v = .approved ∧ v.blockers = []

instance (v : AssessmentVersionRecord ν) : Decidable (Satisfied log v) :=
  inferInstanceAs (Decidable (_ ∧ _))

omit [JsonNumber ν] in
theorem value_eq_approved {status : VersionStatus} :
    status.value = approvedStatus ↔ status = .approved := by
  cases status <;> decide

omit [JsonNumber ν] in
/-- It is the condition of the conclusion gate. -/
theorem satisfied_iff_eligible {v : AssessmentVersionRecord ν} :
    Satisfied log v ↔ (eligibilityOf log v).eligible = true := by
  rw [eligibilityOf, eligible_iff, Satisfied]
  constructor
  · rintro ⟨hstatus, hblockers⟩
    exact ⟨rfl, congrArg some (value_eq_approved.mpr hstatus), hblockers⟩
  · rintro ⟨-, hstatus, hblockers⟩
    exact ⟨value_eq_approved.mp (Option.some.inj hstatus), hblockers⟩

/-- The search answers the first version that satisfies the gate. -/
theorem firstSatisfied_eq {l : List (AssessmentVersionRecord ν)}
    (hl : ∀ v ∈ l, v ∈ versions.listVersions organizationId caseId) :
    firstSatisfied versions log organizationId caseId l
      = .ok ((l.find? fun v => Satisfied log v).map
        fun v => (v, statusOf log v)) := by
  induction l with
  | nil => rfl
  | cons v l ih =>
      have hrest := ih fun w hw => hl w (List.mem_cons_of_mem _ hw)
      rw [firstSatisfied, currentStatus_of_mem versions log organizationId caseId
        (hl v (List.mem_cons_self ..)), ok_bind]
      by_cases hv : Satisfied log v
      · have hcond : statusOf log v = .approved ∧ v.blockers = [] := hv
        have hfirst : ((v :: l).find? fun w => Satisfied log w) = some v :=
          List.find?_cons_of_pos (by simpa using hv)
        rw [if_pos hcond, hfirst]
        rfl
      · have hcond : ¬ (statusOf log v = .approved ∧ v.blockers = []) := hv
        rw [if_neg hcond, List.find?_cons_of_neg (by simpa using hv)]
        exact hrest

theorem latestGateSatisfiedVersion_eq :
    latestGateSatisfiedVersion versions log organizationId caseId
      = .ok (((versions.listVersions organizationId caseId).find?
        fun v => Satisfied log v).map fun v => (v, statusOf log v)) :=
  firstSatisfied_eq versions log organizationId caseId fun _ hv => hv

-- ============================================================= the gates

/-- A listed version as an attachment. -/
def Attaches (a : DeliveryAttachment ν) (now : Instant)
    (v : AssessmentVersionRecord ν) : Prop :=
  buildDeliverable versions log organizationId caseId now v.versionNumber
      = .ok a.toAssessmentDeliverable
    ∧ a.versionNumber = v.versionNumber
    ∧ a.eligibility = eligibilityOf log v
    ∧ a.attachable = decide (Satisfied log v)

/-- The deliverable of a version, judged for attachment. -/
theorem exists_attachment {v : AssessmentVersionRecord ν}
    (hv : v ∈ versions.listVersions organizationId caseId) (now : Instant) :
    ∃ a, (do
        let deliverable ← buildDeliverable versions log organizationId caseId now
          v.versionNumber
        let attachable : Bool := statusOf log v = VersionStatus.approved
          ∧ v.blockers = []
        return some ({
          deliverable with
          attachable
          attachmentReason :=
            if attachable then none
            else some
              "所选版本尚未达到交付附件门禁：须为已批准且无阻塞项的评估版本。" }
          : DeliveryAttachment ν)) = .ok (some a)
      ∧ Attaches versions log organizationId caseId a now v := by
  obtain ⟨d, hd, hnumber, heligible⟩ :=
    exists_buildDeliverable versions log organizationId caseId hv now
  rw [hd, ok_bind]
  exact ⟨_, rfl, hd, hnumber, heligible, rfl⟩

/-- Without versions nothing is attached. -/
theorem getDeliveryAttachment_nil
    (hlisted : versions.listVersions organizationId caseId = [])
    (now : Instant) :
    getDeliveryAttachment versions log organizationId caseId now = .ok none := by
  rw [getDeliveryAttachment, hlisted]
  rfl

/-- Otherwise the chosen version is. -/
theorem getDeliveryAttachment_eq {newest : AssessmentVersionRecord ν}
    {older : List (AssessmentVersionRecord ν)}
    (hlisted : versions.listVersions organizationId caseId = newest :: older)
    (now : Instant) :
    ∃ a, getDeliveryAttachment versions log organizationId caseId now
        = .ok (some a)
      ∧ Attaches versions log organizationId caseId a now
        (((newest :: older).find? fun v => Satisfied log v).getD newest) := by
  have hnewest : newest ∈ versions.listVersions organizationId caseId :=
    hlisted ▸ List.mem_cons_self ..
  rw [getDeliveryAttachment, latestGateSatisfiedVersion_eq, hlisted]
  simp only [ok_bind]
  cases hfind : (newest :: older).find? fun v => Satisfied log v with
  | some v =>
      have hv : v ∈ versions.listVersions organizationId caseId :=
        hlisted ▸ List.mem_of_find?_eq_some hfind
      exact exists_attachment versions log organizationId caseId hv now
  | none =>
      obtain ⟨a, ha, hattaches⟩ :=
        exists_attachment versions log organizationId caseId hnewest now
      refine ⟨a, ?_, hattaches⟩
      simp only [Option.map_none,
        currentStatus_of_mem versions log organizationId caseId hnewest]
      exact ha

/-- A version the conclusion gate lets through. -/
def Eligible (v : AssessmentVersionRecord ν) : Prop :=
  (eligibilityOf log v).eligible = true

/-- A version of a list with the highest number of those with a property. -/
def Highest (p : AssessmentVersionRecord ν → Prop)
    (l : List (AssessmentVersionRecord ν)) (v : AssessmentVersionRecord ν) :
    Prop :=
  v ∈ l ∧ p v ∧ ∀ w ∈ l, p w → w.versionNumber ≤ v.versionNumber

omit [JsonNumber ν] in
/-- From the newest down, the first is the highest. -/
theorem highest_of_find? {l : List (AssessmentVersionRecord ν)}
    {v : AssessmentVersionRecord ν}
    (hl : l.Pairwise fun a b => b.versionNumber ≤ a.versionNumber)
    (hfind : (l.find? fun v => Satisfied log v) = some v) :
    Highest (Eligible log) l v := by
  obtain ⟨hv, before, after, rfl, hbefore⟩ := List.find?_eq_some_iff_append.mp hfind
  refine ⟨by simp, (satisfied_iff_eligible log).mp (of_decide_eq_true hv),
    fun w hw hwp => ?_⟩
  rw [List.pairwise_append, List.pairwise_cons] at hl
  rcases List.mem_append.mp hw with hw | hw
  · have hnot := hbefore w hw
    have : Satisfied log w := (satisfied_iff_eligible log).mpr hwp
    simp [this] at hnot
  · rcases List.mem_cons.mp hw with rfl | hw
    · exact le_refl _
    · exact hl.2.1.1 w hw

/-- Either the search finds the highest eligible version, or no version
is eligible. -/
theorem find?_cases :
    (∃ v, ((versions.listVersions organizationId caseId).find?
          fun v => Satisfied log v) = some v
        ∧ Highest (Eligible log) (versions.listVersions organizationId caseId) v)
      ∨ (((versions.listVersions organizationId caseId).find?
          fun v => Satisfied log v) = none
        ∧ ∀ v ∈ versions.listVersions organizationId caseId, ¬ Eligible log v) := by
  have hsorted := pairwise_listVersions versions organizationId caseId
  cases hfind : (versions.listVersions organizationId caseId).find?
      fun v => Satisfied log v with
  | some v => exact .inl ⟨v, rfl, highest_of_find? log hsorted hfind⟩
  | none =>
      refine .inr ⟨rfl, fun v hv heligible => ?_⟩
      have hnot := List.find?_eq_none.mp hfind v hv
      exact hnot (decide_eq_true ((satisfied_iff_eligible log).mpr heligible))

/-- The newest version has the highest number. -/
theorem highest_head {newest : AssessmentVersionRecord ν}
    {older : List (AssessmentVersionRecord ν)}
    (hlisted : versions.listVersions organizationId caseId = newest :: older) :
    Highest (fun _ => True) (newest :: older) newest := by
  have hsorted := pairwise_listVersions versions organizationId caseId
  rw [hlisted, List.pairwise_cons] at hsorted
  refine ⟨List.mem_cons_self .., trivial, fun w hw _ => ?_⟩
  rcases List.mem_cons.mp hw with rfl | hw
  · exact le_refl _
  · exact hsorted.1 w hw

/-- The case gate passes exactly when some version is eligible. -/
theorem assertDeliveryGate_iff :
    assertDeliveryGate versions log organizationId caseId = .ok ()
      ↔ ∃ v ∈ versions.listVersions organizationId caseId, Eligible log v := by
  rw [assertDeliveryGate, latestGateSatisfiedVersion_eq, ok_bind]
  rcases find?_cases versions log organizationId caseId with
    ⟨v, hfind, hv, heligible, -⟩ | ⟨hfind, hnone⟩
  · rw [hfind]
    exact iff_of_true rfl ⟨v, hv, heligible⟩
  · rw [hfind]
    refine iff_of_false (fun h => nomatch h) ?_
    rintro ⟨v, hv, heligible⟩
    exact hnone v hv heligible

/-- What is attached: nothing, the highest eligible version, or, where
none is eligible, the newest. -/
theorem attachment_cases (now : Instant) :
    (versions.listVersions organizationId caseId = []
        ∧ getDeliveryAttachment versions log organizationId caseId now = .ok none)
      ∨ ∃ a v, getDeliveryAttachment versions log organizationId caseId now
          = .ok (some a)
        ∧ Attaches versions log organizationId caseId a now v
        ∧ ((Highest (Eligible log)
              (versions.listVersions organizationId caseId) v)
          ∨ (Highest (fun _ => True)
              (versions.listVersions organizationId caseId) v
            ∧ ∀ w ∈ versions.listVersions organizationId caseId,
              ¬ Eligible log w)) := by
  have hcases := find?_cases versions log organizationId caseId
  cases hlisted : versions.listVersions organizationId caseId with
  | nil =>
      exact .inl ⟨rfl,
        getDeliveryAttachment_nil versions log organizationId caseId hlisted now⟩
  | cons newest older =>
      obtain ⟨a, ha, hattaches⟩ :=
        getDeliveryAttachment_eq versions log organizationId caseId hlisted now
      rw [hlisted] at hcases
      rcases hcases with ⟨v, hfind, hhighest⟩ | ⟨hfind, hnone⟩
      · rw [hfind] at hattaches
        exact .inr ⟨a, v, ha, hattaches, .inl hhighest⟩
      · rw [hfind] at hattaches
        have hnewest := highest_head versions organizationId caseId hlisted
        exact .inr ⟨a, newest, ha, hattaches, .inr ⟨hnewest, hnone⟩⟩

/-- An attachment is attachable exactly under a true eligibility, which is
the eligibility of the version it is made of. -/
theorem Attaches.attachable_iff {a : DeliveryAttachment ν} {now : Instant}
    {v : AssessmentVersionRecord ν}
    (h : Attaches versions log organizationId caseId a now v) :
    (a.attachable = true ↔ Eligible log v)
      ∧ (a.eligibility.eligible = a.attachable) := by
  obtain ⟨-, -, heligibility, hattachable⟩ := h
  have hiff : a.attachable = true ↔ Eligible log v := by
    rw [hattachable, decide_eq_true_eq]
    exact satisfied_iff_eligible log
  refine ⟨hiff, ?_⟩
  rw [Bool.eq_iff_iff, hiff, heligibility]
  rfl

/-- The gates agree on every case: the case gate passes, and the
attachment is attachable, exactly when some version is eligible; then the
highest-numbered eligible version is attached under a true eligibility.
Else the newest version is attached under a false one, or nothing where
there is no version. -/
theorem delivery_gates_agree (now : Instant) :
    let listed := versions.listVersions organizationId caseId
    let gate := assertDeliveryGate versions log organizationId caseId
    let attachment :=
      getDeliveryAttachment versions log organizationId caseId now
    let attaches := Attaches versions log organizationId caseId
    (gate = .ok () ↔ ∃ v ∈ listed, Eligible log v)
      ∧ ((∃ a, attachment = .ok (some a) ∧ a.attachable = true)
        ↔ ∃ v ∈ listed, Eligible log v)
      ∧ (∀ a, attachment = .ok (some a) → a.attachable = true →
        ∃ v, Highest (Eligible log) listed v ∧ attaches a now v
          ∧ a.eligibility.eligible = true)
      ∧ (∀ a, attachment = .ok (some a) → a.attachable = false →
        ∃ v, Highest (fun _ => True) listed v ∧ attaches a now v
          ∧ a.eligibility.eligible = false)
      ∧ (attachment = .ok none ↔ listed = [])
      ∧ ∃ result, attachment = .ok result := by
  intro listed gate attachment attaches
  refine ⟨assertDeliveryGate_iff versions log organizationId caseId, ?_⟩
  rcases attachment_cases versions log organizationId caseId now with
    ⟨hlisted, hattachment⟩ | ⟨b, v, hattachment, hattaches, hchosen⟩
  · have hlisted : listed = [] := hlisted
    have hattachment : attachment = .ok none := hattachment
    rw [hlisted, hattachment]
    simp
  · have hattachment : attachment = .ok (some b) := hattachment
    have hlisted : listed ≠ [] := by
      rcases hchosen with h | h
      · exact List.ne_nil_of_mem h.1
      · exact List.ne_nil_of_mem h.1.1
    obtain ⟨hiff, heligibility⟩ := hattaches.attachable_iff
    have honly : ∀ a, attachment = .ok (some a) → a = b := by
      intro a ha
      rw [hattachment] at ha
      exact (Option.some.inj (Except.ok.inj ha)).symm
    rcases hchosen with hhighest | ⟨hnewest, hnone⟩
    · have htrue : b.attachable = true := hiff.mpr hhighest.2.1
      refine ⟨iff_of_true ⟨b, hattachment, htrue⟩ ⟨v, hhighest.1, hhighest.2.1⟩,
        ?_, ?_, ?_, _, hattachment⟩
      · intro a ha _
        obtain rfl := honly a ha
        exact ⟨v, hhighest, hattaches, heligibility.trans htrue⟩
      · intro a ha hfalse
        obtain rfl := honly a ha
        exact absurd htrue (by rw [hfalse]; decide)
      · rw [hattachment]
        simp [hlisted]
    · have hnot : ¬ b.attachable = true := fun h => hnone v hnewest.1 (hiff.mp h)
      have hfalse : b.attachable = false := by simpa using hnot
      refine ⟨iff_of_false ?_ ?_, ?_, ?_, ?_, _, hattachment⟩
      · rintro ⟨a, ha, htrue⟩
        obtain rfl := honly a ha
        exact hnot htrue
      · rintro ⟨w, hw, heligible⟩
        exact hnone w hw heligible
      · intro a ha htrue
        obtain rfl := honly a ha
        exact absurd htrue hnot
      · intro a ha _
        obtain rfl := honly a ha
        exact ⟨v, hnewest, hattaches, heligibility.trans hfalse⟩
      · rw [hattachment]
        simp [hlisted]

end PatentEvidence.Assessment
