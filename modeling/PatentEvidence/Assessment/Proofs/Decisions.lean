/-
The decision log of a version, over whole runs.

Status is derived from the log and the log is read back in timestamp
order, so engine, derivation and table have to agree at every step. The
argument is one inversion (`serve_eq_ok`: an accepted request appends
exactly one row, of a decision the version's derived status allows) and
one invariant (`LogInv`: the version's rows stand in timestamp order and
their decisions have the form of a review history). The clock is used
for the first half only: an appended row must sort last.

`decision_log_of_run` is the result for every run.
-/
import PatentEvidence.Assessment.Decisions
import PatentEvidence.Lib.Fallible

namespace PatentEvidence.Assessment

open Fallible Runs Text

-- ======================================================= review histories

/-- The status a decision leads to. -/
def Decision.target : Decision → VersionStatus
  | .submitted => .submitted
  | .approved => .approved
  | .rejected => .rejected
  | .changesRequested => .draft

/-- `k` rounds of submission and requested changes. -/
def rounds (k : Nat) : List Decision :=
  (List.replicate k [.submitted, .changesRequested]).flatten

/-- Any number of returned rounds, then nothing, a pending submission or
a final decision on one. -/
def ReviewHistory (decisions : List Decision) : Prop :=
  ∃ k tail, decisions = rounds k ++ tail
    ∧ tail ∈ [[], [.submitted], [.submitted, .approved],
        [.submitted, .rejected]]

theorem rounds_succ (k : Nat) :
    rounds (k + 1) = rounds k ++ [.submitted, .changesRequested] := by
  rw [rounds, List.replicate_succ', List.flatten_append]
  rfl

theorem deriveStatus_concat (l : List Decision) (d : Decision) :
    deriveStatus (l ++ [d]) = d.target := by
  rw [deriveStatus, List.getLast?_concat]
  cases d <;> rfl

theorem deriveStatus_rounds (k : Nat) : deriveStatus (rounds k) = .draft := by
  cases k with
  | zero => rfl
  | succ k =>
      rw [rounds_succ, List.append_cons]
      exact deriveStatus_concat _ _

theorem canTransit_of_terminal {current target : VersionStatus}
    (h : current.terminal = true) : canTransit current target = false := by
  cases current <;> first | rfl | cases h

/-- A decision the derived status allows extends the history to a
history. -/
theorem ReviewHistory.concat {l : List Decision} {d : Decision}
    (h : ReviewHistory l)
    (ht : canTransit (deriveStatus l) d.target = true) :
    ReviewHistory (l ++ [d]) := by
  obtain ⟨k, tail, rfl, htail⟩ := h
  simp only [List.mem_cons, List.not_mem_nil, or_false] at htail
  rcases htail with rfl | rfl | rfl | rfl
  · -- nothing pending: only a submission is allowed
    rw [List.append_nil, deriveStatus_rounds] at ht
    have hd : d = .submitted := by
      revert ht
      cases d <;> decide
    subst hd
    exact ⟨k, [.submitted], by rw [List.append_nil], by simp⟩
  · rw [deriveStatus_concat] at ht
    cases d with
    | submitted => exact absurd ht (by decide)
    | approved =>
        exact ⟨k, [.submitted, .approved], by simp, by simp⟩
    | rejected =>
        exact ⟨k, [.submitted, .rejected], by simp, by simp⟩
    | changesRequested =>
        exact ⟨k + 1, [], by rw [rounds_succ]; simp, by simp⟩
  · -- a final decision allows nothing
    rw [List.append_cons, deriveStatus_concat,
      canTransit_of_terminal (by decide)] at ht
    cases ht
  · rw [List.append_cons, deriveStatus_concat,
      canTransit_of_terminal (by decide)] at ht
    cases ht

-- ================================================================ engine

theorem assertTransition_eq_ok {current target : VersionStatus} {u : Unit} :
    assertTransition current target = .ok u ↔ canTransit current target = true
    := by
  unfold assertTransition
  cases current <;> cases target <;> simp [VersionStatus.terminal, canTransit,
    allowedTransitions]

theorem liftApproval_eq_ok {α : Type} {x : Except ApprovalError α} {a : α} :
    liftApproval x = .ok a ↔ x = .ok a := by
  cases x with
  | error e => simp [liftApproval]
  | ok b => simp [liftApproval]

/-- What the engine lets through: an allowed decision on this version,
and for an approval with an open blocker an explicit, reasoned
acceptance. -/
structure Permitted (version : VersionRecord) (current : VersionStatus)
    (now : Instant) (record : DecisionRecord) : Prop where
  versionId : record.versionId = version.id
  decidedAt : record.decidedAt = now
  allowed : canTransit current record.decision.target = true
  accepted : record.decision = .approved →
    (∃ blocker ∈ version.blockers, ¬ Blank blocker) →
    record.acceptsInsufficientEvidence = true ∧ ¬ Blank record.comments

section Requests

variable {sha256 : String → String} {versions : VersionTable}
  {log log' : ReviewTable} {event : DecisionEvent} {version : VersionRecord}

theorem permitted_of_approve {current : VersionStatus} {actor : Option String}
    {comments : String} {accepts : Bool} {now : Instant}
    {record : DecisionRecord}
    (h : approve sha256 version.facts current version.blockers actor comments
      accepts now = .ok record) :
    Permitted version current now record ∧ record.decision = .approved := by
  obtain ⟨u, hallowed, h⟩ := bind_eq_ok.mp h
  rw [assertTransition_eq_ok] at hallowed
  dsimp only at h
  split at h
  · cases h
  · next hopen =>
      split at h
      · cases h
      · next hreason =>
          cases h
          refine ⟨⟨rfl, rfl, hallowed, fun _ hblocker => ?_⟩, rfl⟩
          -- an open blocker leaves only the reasoned acceptance
          have hne : (version.blockers.filter fun item =>
              decide (¬ Blank item)) ≠ [] := by
            obtain ⟨blocker, hin, hblank⟩ := hblocker
            exact List.ne_nil_of_mem
              (List.mem_filter.mpr ⟨hin, by simpa using hblank⟩)
          have haccepts : accepts = true := by
            cases accepts with
            | true => rfl
            | false => exact absurd ⟨hne, rfl⟩ hopen
          exact ⟨haccepts, fun hblank => hreason ⟨hne, haccepts, hblank⟩⟩

/-- The status an accepted request leads to. -/
def DecisionOp.target : DecisionOp → VersionStatus
  | .submit => .submitted
  | .decide decision _ _ =>
      if decision = "approved" then .approved
      else if decision = "rejected" then .rejected
      else .draft

theorem decisionRecord_eq_ok {record : DecisionRecord}
    (h : decisionRecord sha256 log event version = .ok record) :
    Permitted version (deriveStatus (decisionSequence log version)) event.now
        record
      ∧ record.decision.target = event.request.op.target := by
  unfold decisionRecord at h
  dsimp only at h
  split at h
  · next hop =>
      obtain ⟨u, hallowed, h⟩ := bind_eq_ok.mp h
      rw [liftApproval_eq_ok, assertTransition_eq_ok] at hallowed
      cases h
      rw [hop]
      exact ⟨⟨rfl, rfl, hallowed, fun h => by cases h⟩, rfl⟩
  · next decision comments accepts hop =>
      rw [hop, DecisionOp.target]
      split at h
      · next hd =>
          obtain ⟨hperm, happroved⟩ :=
            permitted_of_approve (liftApproval_eq_ok.mp h)
          rw [if_pos hd, happroved]
          exact ⟨hperm, rfl⟩
      · next hd =>
          rw [if_neg hd]
          split at h
          · next hd' =>
              obtain ⟨u, hallowed, h⟩ :=
                bind_eq_ok.mp (liftApproval_eq_ok.mp h)
              rw [assertTransition_eq_ok] at hallowed
              cases h
              rw [if_pos hd']
              exact ⟨⟨rfl, rfl, hallowed, fun h => by cases h⟩, rfl⟩
          · next hd' =>
              rw [if_neg hd']
              split at h
              · obtain ⟨u, hallowed, h⟩ :=
                  bind_eq_ok.mp (liftApproval_eq_ok.mp h)
                rw [assertTransition_eq_ok] at hallowed
                cases h
                exact ⟨⟨rfl, rfl, hallowed, fun h => by cases h⟩, rfl⟩
              · cases h

-- =============================================================== requests

theorem getVersion_eq_ok
    (h : versions.getVersion event.request = .ok version) :
    version ∈ versions.rows
      ∧ version.organizationId = event.request.organizationId := by
  unfold VersionTable.getVersion at h
  split at h
  · next found hfind =>
      cases h
      have hkey := List.find?_some hfind
      simp only [decide_eq_true_eq] at hkey
      exact ⟨List.mem_of_find?_eq_some hfind, hkey.1⟩
  · cases h

/-- An accepted request appends one permitted row for its version. -/
theorem serve_eq_ok (h : serve sha256 versions log event = .ok log') :
    ∃ version row, versions.getVersion event.request = .ok version
      ∧ log' = log ++ [row]
      ∧ row.organizationId = version.organizationId
      ∧ Permitted version (deriveStatus (decisionSequence log version))
          event.now row.record
      ∧ row.record.decision.target = event.request.op.target := by
  obtain ⟨version, hversion, h⟩ := bind_eq_ok.mp h
  obtain ⟨record, hrecord, h⟩ := bind_eq_ok.mp h
  obtain ⟨hperm, htarget⟩ := decisionRecord_eq_ok hrecord
  unfold insertDecision at h
  split at h
  · cases h
    exact ⟨version, _, hversion, rfl, (getVersion_eq_ok hversion).2.symm,
      hperm, htarget⟩
  · cases h

/-- A row is of the version it was accepted for and of no other. -/
theorem ofVersion_concat {other : VersionRecord} {row : ReviewRow}
    (hv : version ∈ versions.rows) (ho : other ∈ versions.rows)
    (horg : row.organizationId = other.organizationId)
    (hid : row.record.versionId = other.id) :
    ReviewTable.ofVersion (log ++ [row]) version
      = log.ofVersion version ++ (if other = version then [row] else []) := by
  unfold ReviewTable.ofVersion
  rw [List.filter_append]
  by_cases heq : other = version
  · subst heq
    simp [horg, hid]
  · have hne : other.id ≠ version.id := fun h =>
      heq (List.inj_on_of_nodup_map versions.nodup ho hv h)
    simp [heq, hid, hne]

-- ============================================================== the run

/-- The clock has moved past every row of the version when a request on
it is accepted. -/
def ClockAdvances (sha256 : String → String) (versions : VersionTable)
    (log : ReviewTable) (event : DecisionEvent) : Prop :=
  ∀ log' version, serve sha256 versions log event = .ok log' →
    versions.getVersion event.request = .ok version →
    ∀ row ∈ log.ofVersion version, row.record.decidedAt < event.now

/-- It has if it is past every row of the table. -/
theorem clockAdvances_of_forall
    (h : ∀ row ∈ log, row.record.decidedAt < event.now) :
    ClockAdvances sha256 versions log event :=
  fun _ _ _ _ row hrow => h row (List.mem_filter.mp hrow).1

/-- The version's rows stand in timestamp order, their decisions form a
review history, and every approval over an open blocker was accepted
with a reason. -/
structure LogInv (version : VersionRecord) (log : ReviewTable) : Prop where
  ordered : (log.ofVersion version).Pairwise fun a b =>
    a.record.decidedAt < b.record.decidedAt
  history : ReviewHistory
    ((log.ofVersion version).map fun row => row.record.decision)
  accepted : ∀ row ∈ log.ofVersion version, row.record.decision = .approved →
    (∃ blocker ∈ version.blockers, ¬ Blank blocker) →
    row.record.acceptsInsufficientEvidence = true
      ∧ ¬ Blank row.record.comments

/-- Rows in timestamp order are read back as they stand. -/
theorem decisionSequence_eq (h : (log.ofVersion version).Pairwise fun a b =>
      a.record.decidedAt < b.record.decidedAt) :
    decisionSequence log version
      = (log.ofVersion version).map fun row => row.record.decision := by
  have hsorted : (log.ofVersion version).Pairwise reviewOrder :=
    h.imp fun hlt => (Prod.Lex.toLex_le_toLex).mpr (Or.inl hlt)
  rw [decisionSequence, hsorted.insertionSort_eq]

/-- One request keeps the invariant of every version. -/
theorem logInv_afterRequest (hv : version ∈ versions.rows)
    (hinv : LogInv version log)
    (hclock : ClockAdvances sha256 versions log event) :
    LogInv version (afterRequest sha256 versions log event) := by
  unfold afterRequest
  cases hserve : serve sha256 versions log event with
  | error e => exact hinv
  | ok log' =>
      obtain ⟨other, row, hother, rfl, horg, hperm, -⟩ := serve_eq_ok hserve
      have hrows : ReviewTable.ofVersion (log ++ [row]) version
          = log.ofVersion version ++ if other = version then [row] else [] :=
        ofVersion_concat hv (getVersion_eq_ok hother).1 horg hperm.versionId
      by_cases heq : other = version
      · subst heq
        rw [if_pos rfl] at hrows
        have hseq := decisionSequence_eq hinv.ordered
        constructor
        · rw [hrows, List.pairwise_append]
          refine ⟨hinv.ordered, List.pairwise_singleton .., ?_⟩
          intro a ha b hb
          obtain rfl := List.mem_singleton.mp hb
          rw [hperm.decidedAt]
          exact hclock _ other hserve hother a ha
        · rw [hrows, List.map_append]
          exact hinv.history.concat (hseq ▸ hperm.allowed)
        · rw [hrows]
          intro r hr
          rcases List.mem_append.mp hr with hr | hr
          · exact hinv.accepted r hr
          · obtain rfl := List.mem_singleton.mp hr
            exact hperm.accepted
      · rw [if_neg heq, List.append_nil] at hrows
        exact ⟨hrows ▸ hinv.ordered, hrows ▸ hinv.history,
          hrows ▸ hinv.accepted⟩

/-- The statuses the accepted requests on a version led to. -/
def acceptedTargets (sha256 : String → String) (versions : VersionTable)
    (version : VersionRecord) :
    ReviewTable → List DecisionEvent → List VersionStatus
  | _, [] => []
  | log, event :: events =>
      match serve sha256 versions log event with
      | .ok log' =>
          (if (versions.getVersion event.request).toOption = some version then
            [event.request.op.target] else [])
          ++ acceptedTargets sha256 versions version log' events
      | .error _ => acceptedTargets sha256 versions version log events

/-- A run adds to a version's rows exactly the accepted requests on
it. -/
theorem targets_of_run (hv : version ∈ versions.rows)
    (events : List DecisionEvent) :
    ((run (afterRequest sha256 versions) log events).ofVersion version).map
        (fun row => row.record.decision.target)
      = (log.ofVersion version).map (fun row => row.record.decision.target)
        ++ acceptedTargets sha256 versions version log events := by
  induction events generalizing log with
  | nil => simp [acceptedTargets]
  | cons event events ih =>
      rw [run_cons, ih, acceptedTargets]
      unfold afterRequest
      cases hserve : serve sha256 versions log event with
      | error e => rfl
      | ok log' =>
          obtain ⟨other, row, hother, rfl, horg, hperm, htarget⟩ :=
            serve_eq_ok hserve
          rw [ofVersion_concat hv (getVersion_eq_ok hother).1 horg
            hperm.versionId, hother]
          by_cases heq : other = version
          · simp [heq, Except.toOption, htarget]
          · simp [heq, Except.toOption]

/-- A version in a terminal status gets no further row. -/
theorem frozen_of_terminal (hv : version ∈ versions.rows)
    (hterminal : (deriveStatus (decisionSequence log version)).terminal = true)
    (events : List DecisionEvent) :
    (run (afterRequest sha256 versions) log events).ofVersion version
      = log.ofVersion version := by
  refine run_invariant_of_forall
    (I := fun l : ReviewTable => l.ofVersion version = log.ofVersion version)
    (fun l event hl => ?_) rfl
  unfold afterRequest
  cases hserve : serve sha256 versions l event with
  | error e => exact hl
  | ok l' =>
      obtain ⟨other, row, hother, rfl, horg, hperm, -⟩ := serve_eq_ok hserve
      rw [ofVersion_concat hv (getVersion_eq_ok hother).1 horg
        hperm.versionId]
      by_cases heq : other = version
      · -- its decision would not have been allowed
        have hallowed := hperm.allowed
        rw [heq, decisionSequence, hl, ← decisionSequence] at hallowed
        rw [canTransit_of_terminal hterminal] at hallowed
        cases hallowed
      · rw [if_neg heq, List.append_nil, hl]

end Requests

/-- For every run of submissions and decisions whose clock moves between
the decisions on a version: the version's log is a review history, its
derived status is where the last accepted request led, a final decision
is the last record, a refused request leaves the table alone, and an
approval over an open blocker carries a reasoned acceptance. -/
theorem decision_log_of_run (sha256 : String → String)
    (versions : VersionTable) (events : List DecisionEvent)
    (hclock : Along (afterRequest sha256 versions)
      (ClockAdvances sha256 versions) [] events)
    (version : VersionRecord) (hv : version ∈ versions.rows) :
    let log := run (afterRequest sha256 versions) [] events
    ReviewHistory (decisionSequence log version)
      ∧ deriveStatus (decisionSequence log version)
          = (acceptedTargets sha256 versions version [] events).getLast?.getD
              .draft
      ∧ ((deriveStatus (decisionSequence log version)).terminal = true →
          ∀ more, (run (afterRequest sha256 versions) log more).ofVersion
            version = log.ofVersion version)
      ∧ (∀ event error, serve sha256 versions log event = .error error →
          afterRequest sha256 versions log event = log)
      ∧ (∀ row ∈ log.ofVersion version, row.record.decision = .approved →
          (∃ blocker ∈ version.blockers, ¬ Blank blocker) →
          row.record.acceptsInsufficientEvidence = true
            ∧ ¬ Blank row.record.comments) := by
  intro log
  have hstart : LogInv version [] :=
    ⟨.nil, ⟨0, [], rfl, by simp⟩, by simp [ReviewTable.ofVersion]⟩
  have hinv : LogInv version log :=
    run_invariant (fun l event hl hc => logInv_afterRequest hv hl hc) hstart
      hclock
  have hseq := decisionSequence_eq hinv.ordered
  refine ⟨hseq ▸ hinv.history, ?_, fun hterminal more =>
    frozen_of_terminal hv hterminal more, fun event error herror => ?_,
    hinv.accepted⟩
  · have htargets : (log.ofVersion version).map
        (fun row => row.record.decision.target)
          = acceptedTargets sha256 versions version [] events :=
      targets_of_run hv events
    rw [hseq, ← htargets, List.getLast?_map]
    rw [deriveStatus, List.getLast?_map]
    cases (log.ofVersion version).getLast? with
    | none => rfl
    | some row =>
        simp only [Option.map_some, Option.getD_some]
        cases row.record.decision <;> rfl
  · rw [afterRequest, herror]

/-- A version with one open blocker. -/
def blockedVersion : VersionRecord :=
  { id := "v", organizationId := "o", caseId := "c", versionNumber := 1
    payloadSha256 := "", blockers := ["gap"] }

/-- It is submitted, and approved with a reason a second later. -/
def acceptingEvents : List DecisionEvent :=
  let at_ (second : Fin 60) : Instant :=
    { date := .ofNumbers 2024 1 1 (.refl true), hour := 0, minute := 0, second
      microsecond := 0, valid := by have := second.isLt; omega }
  let event (op : DecisionOp) (now : Instant) : DecisionEvent :=
    { request := { organizationId := "o", caseId := "c", versionNumber := 1
                   actorIdentityId := none, op }
      now, createdAt := now, commits := true }
  [event .submit (at_ 0), event (.decide "approved" "enough" true) (at_ 1)]

theorem decision_log_of_accepting_run :
    ReviewHistory (decisionSequence
        (run (afterRequest id ⟨[blockedVersion], by decide⟩) []
          acceptingEvents) blockedVersion)
      ∧ deriveStatus (decisionSequence
        (run (afterRequest id ⟨[blockedVersion], by decide⟩) []
          acceptingEvents) blockedVersion) = .approved := by
  have hclock : Along (afterRequest id ⟨[blockedVersion], by decide⟩)
      (ClockAdvances id ⟨[blockedVersion], by decide⟩) [] acceptingEvents := by
    refine ⟨clockAdvances_of_forall (by simp), ?_, trivial⟩
    exact clockAdvances_of_forall (by decide)
  have h := decision_log_of_run id ⟨[blockedVersion], by decide⟩
    acceptingEvents hclock blockedVersion (by simp)
  exact ⟨h.1, h.2.1.trans (by decide)⟩

end PatentEvidence.Assessment
