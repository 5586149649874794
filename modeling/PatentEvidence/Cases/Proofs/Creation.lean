/-
The quota of an organization holds, and its case numbers are unique,
however the creations of its cases interleave.

A request past `started` holds the authority lock, so at most one is. What
that one has checked (`StageSound`) stays true until it ends: other steps
either leave the cases alone or change no number and no date of them. So at
its commit there is still room in the period and the number is still free.

# Sections

- what a step does;
- the invariant;
- runs.
-/
import PatentEvidence.Cases.Creation
import PatentEvidence.Lib.Run

namespace PatentEvidence.Cases

open CaseRegister Organization Runs

variable {digestSecret lower : String → String}
  {register next : CaseRegister}

-- ==================================================== what a step does

namespace CaseRegister

def Trimmed (s : String) : Prop := Text.strip s = s

/-- The period has room for a case. -/
def HasRoom (register : CaseRegister) : Prop :=
  ∀ quota, register.quota = some quota →
    (register.caseCount quota : Int) < quota.monthlyCaseAllowance

def numbers (register : CaseRegister) : List String :=
  register.cases.rows.map CaseRow.caseNumber

/-- What a request at a stage has made sure of. -/
def StageSound (register : CaseRegister) : CreationStage → Prop
  | .started | .locked | .authorized => True
  | .drafted draft => Trimmed draft.caseNumber
  | .counted draft => Trimmed draft.caseNumber ∧ register.HasRoom
  | .unseen draft =>
      Trimmed draft.caseNumber ∧ register.HasRoom
        ∧ draft.caseNumber ∉ register.numbers
  | .inserted row =>
      Trimmed row.caseNumber ∧ register.HasRoom
        ∧ row.caseNumber ∉ register.numbers

/-- Everything but the organization's own rows, and its creations. -/
structure SameCases (register next : CaseRegister) : Prop where
  organizationId : next.organizationId = register.organizationId
  quota : next.quota = register.quota
  cases : next.cases = register.cases

end CaseRegister

open CaseRegister

/-- What a step of a request, or of nobody's, can do to the creations, the
lock and the cases. -/
inductive CreationStep (request : Option String)
    (register next : CaseRegister) : CreationResponse → Prop
  | quiet {response : CreationResponse}
      (hresponse : response = .waits ∨ response = .proceeds)
      (hsame : SameCases register next)
      (hcreations : next.creations = register.creations)
      (hlocks : next.locks = register.locks) :
      CreationStep request register next response
  | started (creation : CaseCreation) (hstage : creation.stage = .started)
      (hsame : SameCases register next)
      (hcreations :
        next.creations.rows = register.creations.rows ++ [creation])
      (hlocks : next.locks = register.locks) :
      CreationStep request register next .proceeds
  | locked (creation : CaseCreation) (locks : AdvisoryLocks String String)
      (hlocks : register.locks.acquire? creation.request register.authorityKey
        = some locks)
      (hnext : next = ({ register with locks := locks }.proceed
        creation.request .locked).1) :
      CreationStep request register next .proceeds
  | moved (creation : CaseCreation) (stage : CreationStage)
      (hin : creation ∈ register.creations.rows)
      (hpast : creation.stage ≠ .started)
      (hstage : register.StageSound creation.stage → register.StageSound stage)
      (hnext : next = (register.proceed creation.request stage).1) :
      CreationStep request register next .proceeds
  | refused (ended : String) (reason : Refusal) (hended : request = some ended)
      (hnext : next = register.close ended) :
      CreationStep request register next (.refused reason)
  | created (creation : CaseCreation) (row : CaseRow) (cases : Table CaseRow.id)
      (hin : creation ∈ register.creations.rows)
      (hstage : creation.stage = .inserted row)
      (hcases : cases.rows = register.cases.rows ++ [row])
      (hnext : next = { register.close creation.request with cases := cases }) :
      CreationStep request register next (.created row)
  | updated (caseId status : String) (now : Timestamp)
      (hnext : next = { register with
        cases := register.cases.update (fun c => c.id = caseId)
          fun c => { c with status := status, updatedAt := now } }) :
      CreationStep request register next .updated

namespace CaseRegister

/-- Nothing happens. -/
theorem step_waits {request : Option String} :
    CreationStep request register register .waits :=
  .quiet (Or.inl rfl) ⟨rfl, rfl, rfl⟩ rfl rfl

/-- The step of a request in progress is the step of its creation. -/
theorem step_advance {request : String}
    {step : CaseCreation → CaseRegister × CreationResponse}
    (h : ∀ creation ∈ register.creations.rows,
      CreationStep (some creation.request) register (step creation).1
        (step creation).2) :
    CreationStep (some request) register (register.advance request step).1
      (register.advance request step).2 := by
  unfold advance
  split
  · exact step_waits
  · next creation hfind =>
      obtain ⟨hin, rfl⟩ := Table.find?_eq_some hfind
      exact h creation hin

theorem step_start (request actor : String) (body : Option CaseCreateBody) :
    CreationStep (some request) register (register.start request actor body).1
      (register.start request actor body).2 := by
  unfold start
  split
  · exact step_waits
  · next creations hcreations =>
      obtain ⟨-, hrows⟩ := Table.insert?_eq_some.mp hcreations
      exact .started _ rfl ⟨rfl, rfl, rfl⟩ hrows rfl

variable {creation : CaseCreation} {now : Timestamp}

theorem step_lockAuthority :
    CreationStep (some creation.request) register
      (register.lockAuthority creation).1 (register.lockAuthority creation).2 := by
  unfold lockAuthority
  split
  · split
    · exact step_waits
    · next locks hlocks => exact .locked creation locks hlocks rfl
  · exact step_waits

theorem step_authorizeCreation (hin : creation ∈ register.creations.rows) :
    CreationStep (some creation.request) register
      (register.authorizeCreation now creation).1 (register.authorizeCreation now creation).2 := by
  unfold authorizeCreation
  split
  · next hstage =>
      simp only
      split
      · next reason _ => exact .refused _ reason rfl rfl
      · exact .moved creation .authorized hin (by simp [hstage])
          (fun _ => trivial) rfl
  · exact step_waits

/-- The number a request goes on with is trimmed. -/
theorem step_draft (hin : creation ∈ register.creations.rows) :
    CreationStep (some creation.request) register
      (register.draft now creation).1 (register.draft now creation).2 := by
  unfold draft
  split
  · next hstage =>
      split
      · exact .refused _ _ rfl rfl
      · next body _ =>
          split
          · exact .refused _ _ rfl rfl
          · simp only
            split
            · exact .refused _ _ rfl rfl
            · refine .moved creation _ hin (by simp [hstage]) (fun _ => ?_) rfl
              exact Text.strip_strip body.caseNumber
  · exact step_waits

theorem step_checkQuota (hin : creation ∈ register.creations.rows) :
    CreationStep (some creation.request) register
      (register.checkQuota creation).1 (register.checkQuota creation).2 := by
  unfold checkQuota
  split
  · next draft hstage =>
      split
      · next hquota =>
          refine .moved creation _ hin (by simp [hstage]) (fun h => ?_) rfl
          rw [hstage] at h
          refine ⟨h, fun quota hsome => ?_⟩
          rw [hquota] at hsome
          cases hsome
      · next quota hquota =>
          split
          · exact .refused _ _ rfl rfl
          · next hroom =>
              refine .moved creation _ hin (by simp [hstage]) (fun h => ?_) rfl
              rw [hstage] at h
              refine ⟨h, fun quota' hsome => ?_⟩
              obtain rfl := Option.some.inj (hquota.symm.trans hsome)
              exact Int.not_le.mp hroom
  · exact step_waits

theorem step_checkCaseNumber (hin : creation ∈ register.creations.rows) :
    CreationStep (some creation.request) register
      (register.checkCaseNumber creation).1 (register.checkCaseNumber creation).2 := by
  unfold checkCaseNumber
  split
  · next draft hstage =>
      split
      · exact .refused _ _ rfl rfl
      · next hfree =>
          refine .moved creation _ hin (by simp [hstage]) (fun h => ?_) rfl
          rw [hstage] at h
          exact ⟨h.1, h.2, hfree⟩
  · exact step_waits

theorem step_insertCase (caseId : String)
    (hin : creation ∈ register.creations.rows) :
    CreationStep (some creation.request) register
      (register.insertCase caseId creation).1 (register.insertCase caseId creation).2 := by
  unfold insertCase
  split
  · next draft hstage =>
      refine .moved creation _ hin (by simp [hstage]) (fun h => ?_) rfl
      rw [hstage] at h
      exact h
  · exact step_waits

theorem step_commit (hin : creation ∈ register.creations.rows) :
    CreationStep (some creation.request) register
      (register.commit creation).1 (register.commit creation).2 := by
  unfold commit
  split
  · next row hstage =>
      split
      · exact .refused _ _ rfl rfl
      · split
        · exact .refused _ _ rfl rfl
        · next cases hcases =>
            obtain ⟨-, hrows⟩ := Table.insert?_eq_some.mp hcases
            exact .created creation row cases hin hstage hrows rfl
  · exact step_waits

/-- What any step does. -/
theorem step_serve (op : CreationOp) :
    CreationStep op.request? register (register.serve digestSecret lower op).1
      (register.serve digestSecret lower op).2 := by
  cases op with
  | start request actor body => exact step_start request actor body
  | lockAuthority request => exact step_advance fun _ _ => step_lockAuthority
  | authorize request now =>
      exact step_advance fun _ hin => step_authorizeCreation hin
  | draft request now => exact step_advance fun _ hin => step_draft hin
  | checkQuota request => exact step_advance fun _ hin => step_checkQuota hin
  | checkCaseNumber request =>
      exact step_advance fun _ hin => step_checkCaseNumber hin
  | insert request caseId =>
      exact step_advance fun _ hin => step_insertCase caseId hin
  | commit request => exact step_advance fun _ hin => step_commit hin
  | abort request => exact .refused request .database rfl rfl
  | administer event =>
      simp only [serve]
      split
      · exact step_waits
      · exact .quiet (Or.inr rfl) ⟨rfl, rfl, rfl⟩ rfl rfl
  | setCaseStatus caseId status now => exact .updated caseId status now rfl

-- ========================================================= the invariant

structure Sound (register : CaseRegister) : Prop where
  /-- A request past `started` has the lock. -/
  holder : ∀ c ∈ register.creations.rows, c.stage ≠ .started →
    register.locks.Holds c.request register.authorityKey
  stages : ∀ c ∈ register.creations.rows, register.StageSound c.stage
  within : ∀ quota, register.quota = some quota →
    (register.caseCount quota : Int) ≤ quota.monthlyCaseAllowance
  distinct : register.numbers.Nodup
  trimmed : ∀ number ∈ register.numbers, Trimmed number

/-- What is known of a stage depends on the numbers and the count only. -/
theorem StageSound.congr {stage : CreationStage}
    (h : register.StageSound stage) (hquota : next.quota = register.quota)
    (hcount : ∀ quota, next.caseCount quota = register.caseCount quota)
    (hnumbers : next.numbers = register.numbers) : next.StageSound stage := by
  have hroom (hroom : register.HasRoom) : next.HasRoom := by
    intro quota hsome
    rw [hcount]
    exact hroom quota (hquota ▸ hsome)
  cases stage with
  | started | locked | authorized => trivial
  | drafted draft => exact h
  | counted draft => exact ⟨h.1, hroom h.2⟩
  | unseen draft => exact ⟨h.1, hroom h.2.1, hnumbers ▸ h.2.2⟩
  | inserted row => exact ⟨h.1, hroom h.2.1, hnumbers ▸ h.2.2⟩

/-- The numbers and dates being the same, creations and locks are left. -/
theorem Sound.of_numbers (h : register.Sound)
    (hquota : next.quota = register.quota)
    (hcount : ∀ quota, next.caseCount quota = register.caseCount quota)
    (hnumbers : next.numbers = register.numbers)
    (hholder : ∀ c ∈ next.creations.rows, c.stage ≠ .started →
      next.locks.Holds c.request next.authorityKey)
    (hstages : ∀ c ∈ next.creations.rows, register.StageSound c.stage) :
    next.Sound where
  holder := hholder
  stages c hc := (hstages c hc).congr hquota hcount hnumbers
  within quota hsome := by
    rw [hcount]
    exact h.within quota (hquota ▸ hsome)
  distinct := by rw [hnumbers]; exact h.distinct
  trimmed := by rw [hnumbers]; exact h.trimmed

/-- Where the cases are the same. -/
theorem Sound.of_cases (h : register.Sound) (hsame : SameCases register next)
    (hholder : ∀ c ∈ next.creations.rows, c.stage ≠ .started →
      next.locks.Holds c.request next.authorityKey)
    (hstages : ∀ c ∈ next.creations.rows, register.StageSound c.stage) :
    next.Sound :=
  h.of_numbers hsame.quota (fun _ => by rw [caseCount, caseCount, hsame.cases])
    (by rw [numbers, numbers, hsame.cases]) hholder hstages

/-- The creations after one has moved on. -/
theorem mem_proceed {request : String} {stage : CreationStage}
    {c : CaseCreation}
    (h : c ∈ (register.proceed request stage).1.creations.rows) :
    ∃ c' ∈ register.creations.rows, c.request = c'.request
      ∧ ((c'.request = request ∧ c.stage = stage)
        ∨ (c'.request ≠ request ∧ c.stage = c'.stage)) := by
  simp only [proceed, Table.rows_update, List.mem_map,
    decide_eq_true_eq] at h
  obtain ⟨c', hc', rfl⟩ := h
  refine ⟨c', hc', ?_⟩
  split
  · next hrequest => exact ⟨rfl, Or.inl ⟨hrequest, rfl⟩⟩
  · next hrequest => exact ⟨rfl, Or.inr ⟨hrequest, rfl⟩⟩

theorem mem_close {request : String} {c : CaseCreation} :
    c ∈ (register.close request).creations.rows
      ↔ c ∈ register.creations.rows ∧ c.request ≠ request := by
  simp [close]

/-- A request that ends leaves the others what they hold. -/
theorem Sound.holder_close (h : register.Sound) (request : String) :
    ∀ c ∈ (register.close request).creations.rows, c.stage ≠ .started →
      (register.close request).locks.Holds c.request register.authorityKey := by
  intro c hc hpast
  obtain ⟨hin, hne⟩ := mem_close.mp hc
  exact AdvisoryLocks.holds_release_iff.mpr ⟨h.holder c hin hpast, hne⟩

/-- At the commit of a row the lock is its request's, so no other request
is past `started`. -/
theorem Sound.created (h : register.Sound) {creation : CaseCreation}
    {row : CaseRow} {cases : Table CaseRow.id}
    (hin : creation ∈ register.creations.rows)
    (hstage : creation.stage = .inserted row)
    (hcases : cases.rows = register.cases.rows ++ [row])
    (hnext : next = { register.close creation.request with cases := cases }) :
    next.Sound := by
  subst hnext
  have hpast : creation.stage ≠ .started := by simp [hstage]
  have hsound := h.stages creation hin
  rw [hstage] at hsound
  obtain ⟨htrim, hroom, hfree⟩ := hsound
  have hnumbers : CaseRegister.numbers
      { register.close creation.request with cases := cases }
        = register.numbers ++ [row.caseNumber] := by
    rw [CaseRegister.numbers, CaseRegister.numbers]
    show cases.rows.map CaseRow.caseNumber = _
    rw [hcases, List.map_append]
    rfl
  refine ⟨h.holder_close creation.request, ?_, ?_, ?_, ?_⟩
  · intro c hc
    obtain ⟨hcin, hne⟩ := mem_close.mp hc
    have hstarted : c.stage = .started := by
      by_contra hcpast
      exact hne ((h.holder c hcin hcpast).unique (h.holder creation hin hpast))
    rw [hstarted]
    trivial
  · intro quota hsome
    have hlt := hroom quota hsome
    show ((cases.rows.countP (inPeriod quota) : Nat) : Int) ≤ _
    rw [hcases, List.countP_append, List.countP_singleton]
    rw [caseCount] at hlt
    split <;> omega
  · rw [hnumbers, ← List.concat_eq_append]
    exact List.Nodup.concat hfree h.distinct
  · rw [hnumbers]
    intro number hnumber
    rcases List.mem_append.mp hnumber with hold | hnew
    · exact h.trimmed number hold
    · rw [List.mem_singleton.mp hnew]
      exact htrim

theorem authorityKey_eq (hsame : SameCases register next) :
    next.authorityKey = register.authorityKey :=
  congrArg (fun id => "organization-admin-invariant:" ++ id)
    hsame.organizationId

/-- A request that begins holds nothing and has checked nothing. -/
theorem Sound.started (h : register.Sound) {creation : CaseCreation}
    (hstage : creation.stage = .started) (hsame : SameCases register next)
    (hcreations : next.creations.rows = register.creations.rows ++ [creation])
    (hlocks : next.locks = register.locks) : next.Sound := by
  refine h.of_cases hsame ?_ ?_
  · intro c hc hpast
    rw [hcreations] at hc
    rw [hlocks, authorityKey_eq hsame]
    rcases List.mem_append.mp hc with hold | hnew
    · exact h.holder c hold hpast
    · exact absurd (List.mem_singleton.mp hnew ▸ hstage) hpast
  · intro c hc
    rw [hcreations] at hc
    rcases List.mem_append.mp hc with hold | hnew
    · exact h.stages c hold
    · rw [List.mem_singleton.mp hnew, hstage]
      trivial

/-- The lock is the request's from here on. -/
theorem Sound.locked (h : register.Sound) {creation : CaseCreation}
    {locks : AdvisoryLocks String String}
    (hlocks : register.locks.acquire? creation.request register.authorityKey
      = some locks) :
    ({ register with locks := locks }.proceed creation.request .locked).1.Sound := by
  refine h.of_cases ⟨rfl, rfl, rfl⟩ ?_ ?_
  · intro c hc hpast
    obtain ⟨c', hc', hrequest, hmoved⟩ := mem_proceed hc
    refine (AdvisoryLocks.holds_acquire?_iff hlocks).mpr ?_
    rcases hmoved with ⟨hself, -⟩ | ⟨-, hstage⟩
    · exact Or.inr ⟨hrequest.trans hself, rfl⟩
    · rw [hrequest]
      exact Or.inl (h.holder c' hc' (hstage ▸ hpast))
  · intro c hc
    obtain ⟨c', hc', -, hmoved⟩ := mem_proceed hc
    rcases hmoved with ⟨-, hstage⟩ | ⟨-, hstage⟩
    · rw [hstage]
      trivial
    · rw [hstage]
      exact h.stages c' hc'

/-- A request goes on under its lock. -/
theorem Sound.moved (h : register.Sound) {creation : CaseCreation}
    {stage : CreationStage} (hin : creation ∈ register.creations.rows)
    (hpast : creation.stage ≠ .started)
    (hstage : register.StageSound creation.stage → register.StageSound stage) :
    (register.proceed creation.request stage).1.Sound := by
  refine h.of_cases ⟨rfl, rfl, rfl⟩ ?_ ?_
  · intro c hc hcpast
    obtain ⟨c', hc', hrequest, hmoved⟩ := mem_proceed hc
    rw [hrequest]
    rcases hmoved with ⟨hself, -⟩ | ⟨-, hcstage⟩
    · rw [hself]
      exact h.holder creation hin hpast
    · exact h.holder c' hc' (hcstage ▸ hcpast)
  · intro c hc
    obtain ⟨c', hc', -, hmoved⟩ := mem_proceed hc
    rcases hmoved with ⟨-, hcstage⟩ | ⟨-, hcstage⟩
    · rw [hcstage]
      exact hstage (h.stages creation hin)
    · rw [hcstage]
      exact h.stages c' hc'

/-- A new status changes no number and no date of creation. -/
theorem Sound.updated (h : register.Sound) (caseId status : String)
    (now : Timestamp) :
    Sound { register with
      cases := register.cases.update (fun c => c.id = caseId)
        fun c => { c with status := status, updatedAt := now } } := by
  refine h.of_numbers rfl (fun quota => ?_) ?_ h.holder h.stages
  · simp only [caseCount, Table.rows_update, List.countP_map]
    apply List.countP_congr
    intro c _
    simp only [Function.comp_apply]
    split <;> rfl
  · simp only [numbers, Table.rows_update, List.map_map]
    apply List.map_congr_left
    intro c _
    simp only [Function.comp_apply]
    split <;> rfl

/-- Every step keeps the invariant. -/
theorem Sound.step {request : Option String} {response : CreationResponse}
    (h : register.Sound) (hstep : CreationStep request register next response) :
    next.Sound := by
  cases hstep with
  | quiet hresponse hsame hcreations hlocks =>
      have hstages : ∀ c ∈ next.creations.rows, register.StageSound c.stage := by
        rw [hcreations]
        exact h.stages
      refine h.of_cases hsame ?_ hstages
      rw [hcreations, hlocks, authorityKey_eq hsame]
      exact h.holder
  | started creation hstage hsame hcreations hlocks =>
      exact h.started hstage hsame hcreations hlocks
  | locked creation locks hlocks hnext => exact hnext ▸ h.locked hlocks
  | moved creation stage hin hpast hstage hnext =>
      exact hnext ▸ h.moved hin hpast hstage
  | refused ended reason hended hnext =>
      subst hnext
      refine h.of_cases ⟨rfl, rfl, rfl⟩ (h.holder_close ended) ?_
      exact fun c hc => h.stages c (mem_close.mp hc).1
  | created creation row cases hin hstage hcases hnext =>
      exact h.created hin hstage hcases hnext
  | updated caseId status now hnext =>
      exact hnext ▸ h.updated caseId status now

-- ================================================================== runs

/-- The quota is kept, and no two trimmed numbers are the same. -/
structure QuotaHolds (quota : OrganizationPlanQuota)
    (register : CaseRegister) : Prop where
  within : (register.caseCount quota : Int) ≤ quota.monthlyCaseAllowance
  distinct : (register.cases.rows.map fun c => Text.strip c.caseNumber).Nodup

/-- A case is added where a request is answered with it, and nowhere else.
A refused request is over. -/
def AnswersSoundly (digestSecret lower : String → String)
    (register : CaseRegister) (op : CreationOp) : Prop :=
  let after := register.serve digestSecret lower op
  match after.2 with
  | .created row => after.1.cases.rows = register.cases.rows ++ [row]
  | .refused _ =>
      after.1.cases = register.cases
        ∧ ∀ c ∈ after.1.creations.rows, op.request? ≠ some c.request
  | .waits | .proceeds => after.1.cases = register.cases
  | .updated =>
      after.1.cases.rows.map (fun c => (c.id, c.caseNumber, c.createdAt))
        = register.cases.rows.map fun c => (c.id, c.caseNumber, c.createdAt)

theorem answersSoundly (op : CreationOp) :
    AnswersSoundly digestSecret lower register op := by
  have hstep : CreationStep op.request? register
      (register.serve digestSecret lower op).1
      (register.serve digestSecret lower op).2 := step_serve op
  unfold AnswersSoundly
  revert hstep
  generalize register.serve digestSecret lower op = after
  rcases after with ⟨next, response⟩
  intro hstep
  cases hstep with
  | quiet hresponse hsame hcreations hlocks =>
      rcases hresponse with rfl | rfl
      · exact hsame.cases
      · exact hsame.cases
  | started creation hstage hsame hcreations hlocks => exact hsame.cases
  | locked creation locks hlocks hnext =>
      subst hnext
      rfl
  | moved creation stage hin hpast hstage hnext =>
      subst hnext
      rfl
  | refused ended reason hended hnext =>
      subst hnext
      refine ⟨rfl, fun c hc => ?_⟩
      rw [hended]
      exact fun heq => (mem_close.mp hc).2 (Option.some.inj heq).symm
  | created creation row cases hin hstage hcases hnext =>
      subst hnext
      exact hcases
  | updated caseId status now hnext =>
      subst hnext
      simp only [Table.rows_update, List.map_map]
      apply List.map_congr_left
      intro c _
      simp only [Function.comp_apply]
      split <;> rfl

/-- Nothing writes the quota. -/
theorem quota_eq_of_step {request : Option String}
    {response : CreationResponse}
    (h : CreationStep request register next response) :
    next.quota = register.quota := by
  cases h with
  | quiet hresponse hsame hcreations hlocks => exact hsame.quota
  | started creation hstage hsame hcreations hlocks => exact hsame.quota
  | locked creation locks hlocks hnext => exact hnext ▸ rfl
  | moved creation stage hin hpast hstage hnext => exact hnext ▸ rfl
  | refused ended reason hended hnext => exact hnext ▸ rfl
  | created creation row cases hin hstage hcases hnext => exact hnext ▸ rfl
  | updated caseId status now hnext => exact hnext ▸ rfl

theorem Sound.quotaHolds (h : register.Sound) {quota : OrganizationPlanQuota}
    (hquota : register.quota = some quota) : QuotaHolds quota register where
  within := h.within quota hquota
  distinct := by
    have hsame : (register.cases.rows.map fun c => Text.strip c.caseNumber)
        = register.numbers :=
      List.map_congr_left fun c hc =>
        h.trimmed c.caseNumber (List.mem_map_of_mem hc)
    rw [hsame]
    exact h.distinct

theorem sound_provisioned (organizationId : String)
    (organization : OrganizationStore) (quota : OrganizationPlanQuota) :
    (provisioned organizationId organization quota).Sound where
  holder _ h := nomatch h
  stages _ h := nomatch h
  within quota' hsome := by
    obtain rfl : quota = quota' := Option.some.inj hsome
    exact quota.nonneg
  distinct := List.nodup_nil
  trimmed _ h := nomatch h

/-- In every run of a provisioned organization the quota is kept and the
case numbers are distinct, and a refused request leaves the cases. -/
theorem cases_sound (digestSecret lower : String → String)
    (organizationId : String) (organization : OrganizationStore)
    (quota : OrganizationPlanQuota) (ops : List CreationOp) :
    Always (afterCreation digestSecret lower) (QuotaHolds quota)
        (provisioned organizationId organization quota) ops
      ∧ Along (afterCreation digestSecret lower)
        (AnswersSoundly digestSecret lower)
        (provisioned organizationId organization quota) ops := by
  refine ⟨fun es _ => ?_, along_of_forall fun _ op => answersSoundly op⟩
  let I (s : CaseRegister) : Prop := s.Sound ∧ s.quota = some quota
  have hstep (s : CaseRegister) (op : CreationOp) (hI : I s) :
      I (afterCreation digestSecret lower s op) :=
    ⟨hI.1.step (step_serve op), (quota_eq_of_step (step_serve op)).trans hI.2⟩
  have hI : I (run (afterCreation digestSecret lower)
      (provisioned organizationId organization quota) es) :=
    run_invariant_of_forall hstep
      ⟨sound_provisioned organizationId organization quota, rfl⟩
  exact hI.1.quotaHolds hI.2

end CaseRegister

end PatentEvidence.Cases
