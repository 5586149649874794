/-
What a step of opening organizations does, and the invariant of every run.

A call past `started` holds the lock of its actor and key, so of the calls
of one actor and key at most one is. A call that has found no earlier
request therefore goes on to find none (`StageSound`): the only step that
adds a request is the commit of a call that holds the same lock.

# Sections

- what a step does;
- the invariant.
-/
import Mathlib.Data.Set.Basic
import PatentEvidence.Platform.Organizations

namespace PatentEvidence.Platform

open Cases (Refusal)
open PlatformStore

variable {sha256 : String → String} {store next : PlatformStore}

-- ==================================================== what a step does

/-- The actor and the key of a request. -/
def OpenRequest.pair (request : OpenRequest) : String × String :=
  (request.actorIdentityId, request.idempotencyKey)

def ProvisioningRequest.pair (row : ProvisioningRequest) : String × String :=
  (row.actorIdentityId, row.idempotencyKey)

/-- The earlier requests, by actor and key. -/
def PlatformTables.pairs (tables : PlatformTables) : List (String × String) :=
  tables.requests.rows.map ProvisioningRequest.pair

/-- The call has found no earlier request. -/
def OpenStage.searched : OpenStage → Prop
  | .unseen | .slugLocked | .free | .inserted _ => True
  | .started | .keyLocked | .found .. => False

/-- What a call at a stage has made sure of. -/
def StageSound (sha256 : String → String) (tables : PlatformTables)
    (request : OpenRequest) : OpenStage → Prop
  | .started | .keyLocked => True
  | .found response organizationId =>
      ∃ row ∈ tables.requests.rows, row.pair = request.pair
        ∧ row.requestFingerprint = request.opening.fingerprint sha256
        ∧ response = row.responseSnapshot.withoutToken
        ∧ organizationId = row.organizationId
  | .unseen | .slugLocked | .free => request.pair ∉ tables.pairs
  | .inserted rows =>
      request.pair ∉ tables.pairs
        ∧ ∃ draw, openRows sha256 request draw = .ok rows

/-- Why a call is refused. -/
inductive Cause (sha256 : String → String) (store : PlatformStore)
    (op : OpenOp) (c : OpenCall) : Refusal → Prop
  | aborted {reason : Refusal} (h : op = .abort c.call) :
      Cause sha256 store op c reason
  | conflict (prior : ProvisioningRequest) (hop : op = .lookUp c.call)
      (hin : prior ∈ store.tables.requests.rows)
      (hpair : prior.pair = c.request.pair)
      (hdiffers :
        prior.requestFingerprint ≠ c.request.opening.fingerprint sha256) :
      Cause sha256 store op c (.http 409 "idempotency_conflict")
  | later {reason : Refusal} (h : c.stage.searched) :
      Cause sha256 store op c reason

/-- What a step can do. -/
inductive OpenStep (sha256 : String → String) (op : OpenOp)
    (store next : PlatformStore) : OpenOutcome → Prop
  | waited (hnext : next = store) : OpenStep sha256 op store next .waits
  | rejected (call : String) (request : OpenRequest) (clock : Timestamp)
      (reason : Refusal) (hop : op = .start call request clock)
      (hreason : validateOpening request.opening clock = .error reason)
      (hnext : next = store) :
      OpenStep sha256 op store next (.refused request reason)
  | started (call : String) (request : OpenRequest) (clock : Timestamp)
      (calls : Table OpenCall.call) (hop : op = .start call request clock)
      (hcalls : calls.rows = store.calls.rows
        ++ [{ call := call, request := request, stage := .started }])
      (hnext : next = { store with calls := calls }) :
      OpenStep sha256 op store next .proceeds
  | locked (c : OpenCall) (key : String) (stage : OpenStage)
      (locks : AdvisoryLocks String String) (hin : c ∈ store.calls.rows)
      (hlocks : store.locks.acquire? c.call key = some locks)
      (hstage : (c.stage = .started ∧ key = c.request.lockKey
          ∧ stage = .keyLocked)
        ∨ (c.stage = .unseen ∧ stage = .slugLocked))
      (hnext : next = ({ store with locks := locks }.proceed c stage).1) :
      OpenStep sha256 op store next .proceeds
  | moved (c : OpenCall) (stage : OpenStage) (hin : c ∈ store.calls.rows)
      (hpast : c.stage ≠ .started)
      (hstage : StageSound sha256 store.tables c.request c.stage →
        StageSound sha256 store.tables c.request stage)
      (hnext : next = (store.proceed c stage).1) :
      OpenStep sha256 op store next .proceeds
  | refused (c : OpenCall) (reason : Refusal) (hin : c ∈ store.calls.rows)
      (hcause : Cause sha256 store op c reason)
      (hnext : next = store.close c.call) :
      OpenStep sha256 op store next (.refused c.request reason)
  | replayed (c : OpenCall) (response : OpenResponse) (organizationId : String)
      (hin : c ∈ store.calls.rows)
      (hstage : c.stage = .found response organizationId)
      (hnext : next = store.close c.call) :
      OpenStep sha256 op store next
        (.answered 200 c.request response organizationId)
  | opened (c : OpenCall) (rows : OpenRows) (tables : PlatformTables)
      (hin : c ∈ store.calls.rows) (hstage : c.stage = .inserted rows)
      (htables : store.tables.install? rows = some tables)
      (hnext : next = { store.close c.call with tables := tables }) :
      OpenStep sha256 op store next
        (.answered 201 c.request rows.response rows.organization.id)
  | administered (organizationId : String)
      (status : Organization.OrganizationStatus)
      (expiresAt : Option Timestamp) (now : Timestamp)
      (hnext : next = store.setLifecycle organizationId status expiresAt now) :
      OpenStep sha256 op store next .administered

variable {op : OpenOp} {c : OpenCall}

theorem step_advance {call : String}
    {step : OpenCall → PlatformStore × OpenOutcome}
    (h : ∀ c ∈ store.calls.rows, c.call = call →
      OpenStep sha256 op store (step c).1 (step c).2) :
    OpenStep sha256 op store (store.advance call step).1
      (store.advance call step).2 := by
  unfold advance
  split
  · exact .waited rfl
  · next c hfind =>
      obtain ⟨hin, hcall⟩ := Table.find?_eq_some hfind
      exact h c hin hcall

theorem step_start (call : String) (request : OpenRequest)
    (clock : Timestamp) :
    OpenStep sha256 (.start call request clock) store
      (store.start call request clock).1 (store.start call request clock).2 := by
  unfold start
  split
  · exact .waited rfl
  · next calls hcalls =>
      split
      · next reason hreason =>
          exact .rejected call request clock reason rfl hreason rfl
      · obtain ⟨-, hrows⟩ := Table.insert?_eq_some.mp hcalls
        exact .started call request clock calls rfl hrows rfl

theorem step_lockRequest (hin : c ∈ store.calls.rows) :
    OpenStep sha256 op store (store.lockRequest c).1 (store.lockRequest c).2 := by
  unfold lockRequest
  split
  · next hstage =>
      unfold lock
      split
      · exact .waited rfl
      · next locks hlocks =>
          exact .locked c _ _ locks hin hlocks (Or.inl ⟨hstage, rfl, rfl⟩) rfl
  · exact .waited rfl

theorem step_lockSlug (hin : c ∈ store.calls.rows) :
    OpenStep sha256 op store (store.lockSlug c).1 (store.lockSlug c).2 := by
  unfold lockSlug
  split
  · next hstage =>
      unfold lock
      split
      · exact .waited rfl
      · next locks hlocks =>
          exact .locked c _ _ locks hin hlocks (Or.inr ⟨hstage, rfl⟩) rfl
  · exact .waited rfl

/-- The earlier request found is of the actor and the key. -/
theorem prior_eq_some {tables : PlatformTables} {request : OpenRequest}
    {row : ProvisioningRequest}
    (h : tables.prior request.actorIdentityId request.idempotencyKey
      = some row) : row ∈ tables.requests.rows ∧ row.pair = request.pair := by
  have hpair := List.find?_some h
  rw [Bool.and_eq_true, decide_eq_true_eq, decide_eq_true_eq] at hpair
  exact ⟨List.mem_of_find?_eq_some h, Prod.ext hpair.1 hpair.2⟩

theorem prior_eq_none {tables : PlatformTables} {request : OpenRequest}
    (h : tables.prior request.actorIdentityId request.idempotencyKey = none) :
    request.pair ∉ tables.pairs := by
  intro hin
  obtain ⟨row, hrow, hpair⟩ := List.mem_map.mp hin
  have hnot := List.find?_eq_none.mp h row hrow
  apply hnot
  rw [Bool.and_eq_true, decide_eq_true_eq, decide_eq_true_eq]
  exact ⟨congrArg Prod.fst hpair, congrArg Prod.snd hpair⟩

theorem step_lookUp (hop : op = .lookUp c.call) (hin : c ∈ store.calls.rows) :
    OpenStep sha256 op store (store.lookUp sha256 c).1
      (store.lookUp sha256 c).2 := by
  unfold lookUp
  split
  · next hstage =>
      have hpast : c.stage ≠ .started := by simp [hstage]
      split
      · next hnone =>
          refine .moved c _ hin hpast (fun _ => ?_) rfl
          exact prior_eq_none hnone
      · next prior hprior =>
          obtain ⟨hrow, hpair⟩ := prior_eq_some hprior
          split
          · next hdiffers =>
              exact .refused c _ hin
                (.conflict prior hop hrow hpair hdiffers) rfl
          · next hsame =>
              refine .moved c _ hin hpast (fun _ => ?_) rfl
              exact ⟨prior, hrow, hpair, not_not.mp hsame, rfl, rfl⟩
  · exact .waited rfl

theorem step_checkSlug (hin : c ∈ store.calls.rows) :
    OpenStep sha256 op store (store.checkSlug c).1 (store.checkSlug c).2 := by
  unfold checkSlug
  split
  · next hstage =>
      split
      · exact .refused c _ hin (.later (by rw [hstage]; trivial)) rfl
      · refine .moved c _ hin (by simp [hstage]) (fun h => ?_) rfl
        rw [hstage] at h
        exact h
  · exact .waited rfl

theorem step_insert (draw : OpenDraw) (hin : c ∈ store.calls.rows) :
    OpenStep sha256 op store (store.insert sha256 draw c).1
      (store.insert sha256 draw c).2 := by
  unfold PlatformStore.insert
  split
  · next hstage =>
      split
      · exact .refused c _ hin (.later (by rw [hstage]; trivial)) rfl
      · next rows hrows =>
          refine .moved c _ hin (by simp [hstage]) (fun h => ?_) rfl
          rw [hstage] at h
          exact ⟨h, draw, hrows⟩
  · exact .waited rfl

theorem step_commit (hin : c ∈ store.calls.rows) :
    OpenStep sha256 op store (store.commit c).1 (store.commit c).2 := by
  unfold commit
  split
  · next response organizationId hstage =>
      exact .replayed c response organizationId hin hstage rfl
  · next rows hstage =>
      split
      · exact .refused c _ hin (.later (by rw [hstage]; trivial)) rfl
      · next tables htables => exact .opened c rows tables hin hstage htables rfl
  · exact .waited rfl

/-- What any step does. -/
theorem step_serve (op : OpenOp) :
    OpenStep sha256 op store (store.serve sha256 op).1
      (store.serve sha256 op).2 := by
  cases op with
  | start call request clock => exact step_start call request clock
  | lockRequest call => exact step_advance fun _ hin _ => step_lockRequest hin
  | lookUp call =>
      exact step_advance fun _ hin hcall => step_lookUp (by rw [hcall]) hin
  | lockSlug call => exact step_advance fun _ hin _ => step_lockSlug hin
  | checkSlug call => exact step_advance fun _ hin _ => step_checkSlug hin
  | insert call draw => exact step_advance fun _ hin _ => step_insert draw hin
  | commit call => exact step_advance fun _ hin _ => step_commit hin
  | abort call =>
      refine step_advance fun c hin hcall => ?_
      exact .refused c .database hin (.aborted (by rw [hcall])) rfl
  | setLifecycle organizationId status expiresAt now =>
      exact .administered organizationId status expiresAt now rfl

-- ========================================================= the invariant

/-- The rows of an opening, and the answer, are of the request. -/
structure RowsOf (sha256 : String → String) (request : OpenRequest)
    (rows : OpenRows) : Prop where
  pair : rows.request.pair = request.pair
  fingerprint :
    rows.request.requestFingerprint = request.opening.fingerprint sha256
  snapshot : rows.request.responseSnapshot = rows.response.withoutToken
  organization : rows.request.organizationId = rows.organization.id
  slug : rows.organization.slug = request.opening.slug
  token : ∃ token, rows.response.invitationToken = some token
    ∧ rows.invitation.invitation.tokenHash = sha256 token
  period : request.opening.currentPeriodStart.timestamp
    < request.opening.currentPeriodEnd.timestamp

theorem rowsOf_openRows {request : OpenRequest} {draw : OpenDraw}
    {rows : OpenRows} (h : openRows sha256 request draw = .ok rows) :
    RowsOf sha256 request rows := by
  unfold openRows at h
  simp only at h
  split at h
  · cases h
  · split at h
    · next hquota =>
        split at h
        · cases h
          exact ⟨rfl, rfl, rfl, rfl, rfl, ⟨_, rfl, rfl⟩, hquota.2⟩
        · cases h
    · cases h

/-- An opening that comes into the tables is one row more in each. -/
theorem install?_eq_some {tables tables' : PlatformTables} {rows : OpenRows}
    (h : tables.install? rows = some tables') :
    tables.Distinct rows
      ∧ tables'.organizations.rows
        = tables.organizations.rows ++ [rows.organization]
      ∧ tables'.invitations.rows = tables.invitations.rows ++ [rows.invitation]
      ∧ tables'.requests.rows = tables.requests.rows ++ [rows.request] := by
  unfold PlatformTables.install? at h
  split at h
  · next hdistinct =>
      obtain ⟨organizations, horganizations, h⟩ := Option.bind_eq_some_iff.mp h
      obtain ⟨quotas, hquotas, h⟩ := Option.bind_eq_some_iff.mp h
      obtain ⟨invitations, hinvitations, h⟩ := Option.bind_eq_some_iff.mp h
      obtain ⟨records, hrecords, h⟩ := Option.bind_eq_some_iff.mp h
      obtain ⟨requests, hrequests, h⟩ := Option.bind_eq_some_iff.mp h
      cases h
      exact ⟨hdistinct, (Table.insert?_eq_some.mp horganizations).2,
        (Table.insert?_eq_some.mp hinvitations).2,
        (Table.insert?_eq_some.mp hrequests).2⟩
  · cases h

theorem slugs_setLifecycle (organizationId : String)
    (status : Organization.OrganizationStatus) (expiresAt : Option Timestamp)
    (now : Timestamp) :
    (store.setLifecycle organizationId status expiresAt now).tables.slugs
      = store.tables.slugs := by
  simp only [PlatformTables.slugs, setLifecycle, Table.rows_update,
    List.map_map]
  apply List.map_congr_left
  intro o _
  simp only [Function.comp_apply]
  split <;> rfl

structure Sound (sha256 : String → String) (texts : Set String)
    (store : PlatformStore) : Prop where
  /-- A call past `started` has the lock of its actor and key. -/
  holder : ∀ c ∈ store.calls.rows, c.stage ≠ .started →
    store.locks.Holds c.call c.request.lockKey
  stages : ∀ c ∈ store.calls.rows,
    StageSound sha256 store.tables c.request c.stage
  known : ∀ c ∈ store.calls.rows, c.request.opening.canonical ∈ texts
  pairs : store.tables.pairs.Nodup
  slugs : store.tables.slugs.Nodup

variable {texts : Set String}

theorem lockKey_eq {request request' : OpenRequest}
    (h : request.pair = request'.pair) : request.lockKey = request'.lockKey := by
  obtain ⟨hactor, hkey⟩ := Prod.mk.inj h
  rw [OpenRequest.lockKey, OpenRequest.lockKey, hactor, hkey]

/-- Of two calls of one actor and key one is not past `started`. -/
theorem Sound.started_of_pair (h : Sound sha256 texts store) {c c' : OpenCall}
    (hc : c ∈ store.calls.rows) (hc' : c' ∈ store.calls.rows)
    (hpast : c.stage ≠ .started) (hpair : c.request.pair = c'.request.pair)
    (hne : c'.call ≠ c.call) : c'.stage = .started := by
  by_contra hpast'
  have hheld := h.holder c' hc' hpast'
  rw [← lockKey_eq hpair] at hheld
  exact hne (hheld.unique (h.holder c hc hpast))

/-- What a stage has made sure of depends on the requests only, … -/
theorem StageSound.of_requests {tables tables' : PlatformTables}
    {request : OpenRequest} {stage : OpenStage}
    (h : StageSound sha256 tables request stage)
    (hrequests : tables'.requests = tables.requests) :
    StageSound sha256 tables' request stage := by
  cases stage with
  | started | keyLocked => trivial
  | found response organizationId =>
      rw [StageSound, hrequests]
      exact h
  | unseen | slugLocked | free | inserted =>
      rw [StageSound, PlatformTables.pairs, hrequests]
      exact h

/-- … and stays true when a request of another actor or key is added. -/
theorem StageSound.of_append {tables tables' : PlatformTables}
    {request : OpenRequest} {stage : OpenStage} {row : ProvisioningRequest}
    (h : StageSound sha256 tables request stage)
    (hrequests : tables'.requests.rows = tables.requests.rows ++ [row])
    (hne : row.pair ≠ request.pair) :
    StageSound sha256 tables' request stage := by
  have hnot (hpair : request.pair ∉ tables.pairs) :
      request.pair ∉ tables'.pairs := by
    rw [PlatformTables.pairs, hrequests, List.map_append, List.mem_append]
    rintro (hold | hnew)
    · exact hpair hold
    · exact hne (List.mem_singleton.mp hnew).symm
  cases stage with
  | started | keyLocked => trivial
  | found response organizationId =>
      obtain ⟨prior, hin, hprior⟩ := h
      exact ⟨prior, hrequests ▸ List.mem_append_left _ hin, hprior⟩
  | unseen | slugLocked | free => exact hnot h
  | inserted rows => exact ⟨hnot h.1, h.2⟩

/-- The calls after one has moved on. -/
theorem mem_proceed {stage : OpenStage} {c' : OpenCall}
    (h : c' ∈ (store.proceed c stage).1.calls.rows) :
    ∃ d ∈ store.calls.rows, c'.call = d.call ∧ c'.request = d.request
      ∧ ((d.call = c.call ∧ c'.stage = stage)
        ∨ (d.call ≠ c.call ∧ c'.stage = d.stage)) := by
  simp only [proceed, Table.rows_update, List.mem_map, decide_eq_true_eq] at h
  obtain ⟨d, hd, rfl⟩ := h
  refine ⟨d, hd, ?_⟩
  split
  · next hcall => exact ⟨rfl, rfl, Or.inl ⟨hcall, rfl⟩⟩
  · next hcall => exact ⟨rfl, rfl, Or.inr ⟨hcall, rfl⟩⟩

theorem mem_close {call : String} {c' : OpenCall} :
    c' ∈ (store.close call).calls.rows
      ↔ c' ∈ store.calls.rows ∧ c'.call ≠ call := by
  simp [close]

/-- A call that ends leaves the others what they hold. -/
theorem Sound.holder_close (h : Sound sha256 texts store) (call : String) :
    ∀ c' ∈ (store.close call).calls.rows, c'.stage ≠ .started →
      (store.close call).locks.Holds c'.call c'.request.lockKey := by
  intro c' hc' hpast
  obtain ⟨hin, hne⟩ := mem_close.mp hc'
  exact AdvisoryLocks.holds_release_iff.mpr ⟨h.holder c' hin hpast, hne⟩

theorem Sound.close (h : Sound sha256 texts store) (call : String) :
    Sound sha256 texts (store.close call) where
  holder := h.holder_close call
  stages c' hc' := h.stages c' (mem_close.mp hc').1
  known c' hc' := h.known c' (mem_close.mp hc').1
  pairs := h.pairs
  slugs := h.slugs

/-- A call that goes on: the others are as they were, and it holds its lock
(`hholder`) and has made sure of its stage (`hstage`). -/
theorem Sound.proceed {locks : AdvisoryLocks String String}
    {stage : OpenStage} (h : Sound sha256 texts store)
    (hin : c ∈ store.calls.rows)
    (hkeep : ∀ owner key, store.locks.Holds owner key → locks.Holds owner key)
    (hholder : locks.Holds c.call c.request.lockKey)
    (hstage : StageSound sha256 store.tables c.request stage) :
    Sound sha256 texts ({ store with locks := locks }.proceed c stage).1 := by
  have hself {d : OpenCall} (hd : d ∈ store.calls.rows)
      (hcall : d.call = c.call) : d = c :=
    store.calls.eq_of_key_eq hd hin hcall
  refine ⟨fun c' hc' hpast => ?_, fun c' hc' => ?_, fun c' hc' => ?_,
    h.pairs, h.slugs⟩
  · obtain ⟨d, hd, hcall, hrequest, hmoved⟩ := mem_proceed hc'
    rw [hcall, hrequest]
    rcases hmoved with ⟨hdc, -⟩ | ⟨-, hdstage⟩
    · rw [hself hd hdc]
      exact hholder
    · exact hkeep _ _ (h.holder d hd (hdstage ▸ hpast))
  · obtain ⟨d, hd, -, hrequest, hmoved⟩ := mem_proceed hc'
    rw [hrequest]
    rcases hmoved with ⟨hdc, hdstage⟩ | ⟨-, hdstage⟩
    · rw [hdstage, hself hd hdc]
      exact hstage
    · rw [hdstage]
      exact h.stages d hd
  · obtain ⟨d, hd, -, hrequest, -⟩ := mem_proceed hc'
    rw [hrequest]
    exact h.known d hd

/-- The commit of an opening: the other calls of its actor and key have
checked nothing yet. -/
theorem Sound.opened {rows : OpenRows} {tables : PlatformTables}
    (h : Sound sha256 texts store) (hin : c ∈ store.calls.rows)
    (hstage : c.stage = .inserted rows)
    (htables : store.tables.install? rows = some tables) :
    Sound sha256 texts { store.close c.call with tables := tables } := by
  have hpast : c.stage ≠ .started := by simp [hstage]
  have hsound := h.stages c hin
  rw [hstage] at hsound
  obtain ⟨hfresh, draw, hrows⟩ := hsound
  have hof := rowsOf_openRows hrows
  obtain ⟨hdistinct, horganizations, -, hrequests⟩ := install?_eq_some htables
  refine ⟨h.holder_close c.call, fun c' hc' => ?_,
    fun c' hc' => h.known c' (mem_close.mp hc').1, ?_, ?_⟩
  · obtain ⟨hc', hne⟩ := mem_close.mp hc'
    by_cases hpair : c.request.pair = c'.request.pair
    · rw [h.started_of_pair hin hc' hpast hpair hne]
      trivial
    · exact (h.stages c' hc').of_append hrequests (hof.pair ▸ hpair)
  · show tables.pairs.Nodup
    rw [PlatformTables.pairs, hrequests]
    refine Table.nodup_map_concat h.pairs fun r hr heq => hfresh ?_
    rw [← hof.pair, ← heq]
    exact List.mem_map_of_mem hr
  · show tables.slugs.Nodup
    rw [PlatformTables.slugs, horganizations]
    refine Table.nodup_map_concat h.slugs fun r hr heq => hdistinct.slug ?_
    rw [← heq]
    exact List.mem_map_of_mem hr

/-- An opening that a step starts is one of the run's. -/
def StartsKnown (texts : Set String) (op : OpenOp) : Prop :=
  ∀ call request clock, op = .start call request clock →
    request.opening.canonical ∈ texts

/-- Every step keeps the invariant. -/
theorem Sound.step {outcome : OpenOutcome} (h : Sound sha256 texts store)
    (hop : StartsKnown texts op)
    (hstep : OpenStep sha256 op store next outcome) :
    Sound sha256 texts next := by
  cases hstep with
  | waited hnext => exact hnext ▸ h
  | rejected call request clock reason hstart hreason hnext => exact hnext ▸ h
  | started call request clock calls hstart hcalls hnext =>
      subst hnext
      refine ⟨fun c' hc' hpast => ?_, fun c' hc' => ?_, fun c' hc' => ?_,
        h.pairs, h.slugs⟩
      all_goals
        have hc'' : c' ∈ calls.rows := hc'
        rw [hcalls, List.mem_append, List.mem_singleton] at hc''
      · rcases hc'' with hold | rfl
        · exact h.holder c' hold hpast
        · exact absurd rfl hpast
      · rcases hc'' with hold | rfl
        · exact h.stages c' hold
        · trivial
      · rcases hc'' with hold | rfl
        · exact h.known c' hold
        · exact hop call request clock hstart
  | locked c key stage locks hin hlocks hstage hnext =>
      subst hnext
      have hkeep (owner key' : String) (hheld : store.locks.Holds owner key') :
          locks.Holds owner key' :=
        (AdvisoryLocks.holds_acquire?_iff hlocks).mpr (Or.inl hheld)
      rcases hstage with ⟨-, rfl, rfl⟩ | ⟨hunseen, rfl⟩
      · exact h.proceed hin hkeep (AdvisoryLocks.holds_of_acquire? hlocks)
          trivial
      · have hsound := h.stages c hin
        rw [hunseen] at hsound
        exact h.proceed hin hkeep
          (hkeep _ _ (h.holder c hin (by simp [hunseen]))) hsound
  | moved c stage hin hpast hstage hnext =>
      subst hnext
      exact h.proceed hin (fun _ _ hheld => hheld) (h.holder c hin hpast)
        (hstage (h.stages c hin))
  | refused c reason hin hcause hnext => exact hnext ▸ h.close c.call
  | replayed c response organizationId hin hstage hnext =>
      exact hnext ▸ h.close c.call
  | opened c rows tables hin hstage htables hnext =>
      exact hnext ▸ h.opened hin hstage htables
  | administered organizationId status expiresAt now hnext =>
      subst hnext
      refine ⟨h.holder, fun c' hc' => ?_, h.known, h.pairs, ?_⟩
      · exact (h.stages c' hc').of_requests rfl
      · rw [slugs_setLifecycle]
        exact h.slugs

theorem sound_empty : Sound sha256 texts .empty where
  holder _ h := nomatch h
  stages _ h := nomatch h
  known _ h := nomatch h
  pairs := List.nodup_nil
  slugs := List.nodup_nil

end PatentEvidence.Platform
