/-
When review decisions are taken once, on the latest round, and the case's
status says so.

A decide request decides the submission it has read, whatever happened
since: its second transaction asks neither whether the submission is still
pending nor whether a later round was submitted. Two requests that have
read the same round decide it twice, and a decision on an earlier round
can approve a case whose latest round is pending.

The condition is that an accepted decision finds the submission it read
still pending and of the latest round (`Current`). In every run it is met
by every step exactly if no submission is decided twice, every decision is
on the latest round, and the case is approved only while the latest round
is (`decisions_sound_iff`).

# Sections

- rounds;
- what holds anyway;
- the steps;
- runs.
-/
import PatentEvidence.Lib.Run
import PatentEvidence.Review.Model

namespace PatentEvidence.Review

open Cases (Env orDatabase_eq_ok)
open Fallible Grouping Runs ReviewStore

variable {sha256 : String → String} {store next : ReviewStore} {env : Env}

-- =============================================================== rounds

/-- What holds of every reachable case, however its requests interleave:
rounds ascend, a submission is pending exactly until it is decided, and
decisions are of submissions of the case. -/
structure WellFormed (store : ReviewStore) : Prop where
  rounds : store.submissions.rows.Pairwise
    fun s t => s.roundNumber < t.roundNumber
  pending : ∀ s ∈ store.submissions.rows, s.status = .pending
    ↔ ∀ d ∈ store.decisions.rows, d.reviewSubmissionId ≠ s.id
  decided : ∀ d ∈ store.decisions.rows,
    d.reviewSubmissionId ∈ store.submissions.rows.map ReviewSubmission.id

theorem roundNumber_le_lastRound {s : ReviewSubmission}
    (h : s ∈ store.submissions.rows) : s.roundNumber ≤ store.lastRound := by
  have hmax : ∀ (l : List Nat) (m : Nat), m ≤ l.foldl max m
      ∧ ∀ n ∈ l, n ≤ l.foldl max m := by
    intro l
    induction l with
    | nil => exact fun m => ⟨le_refl m, fun _ hn => nomatch hn⟩
    | cons a l ih =>
        intro m
        obtain ⟨hm, hl⟩ := ih (max m a)
        rw [List.foldl_cons, List.forall_mem_cons]
        exact ⟨(le_max_left m a).trans hm, (le_max_right m a).trans hm, hl⟩
  exact (hmax _ 0).2 _ (List.mem_map_of_mem h)

/-- The current review is the submission made last. -/
theorem currentReview_eq_getLast? (hw : WellFormed store) :
    store.currentReview = store.submissions.rows.getLast? := by
  unfold currentReview
  split
  · next hnil => rw [hnil, List.getLast?_nil]
  · next s ss hrows =>
      have hmem := firstBy_mem (fun s => OrderDual.toDual s.roundNumber) s ss
      have hle := rank_firstBy_le (fun s => OrderDual.toDual s.roundNumber) s ss
      obtain ⟨before, last, hsplit⟩ : ∃ before last, s :: ss = before ++ [last] :=
        ⟨_, _, (List.dropLast_append_getLast (List.cons_ne_nil s ss)).symm⟩
      have hrounds := hw.rounds
      rw [hrows, hsplit, List.pairwise_append] at hrounds
      rw [hsplit] at hmem hle
      rw [hrows, hsplit, List.getLast?_concat]
      rcases List.mem_append.mp hmem with hbefore | hlast
      · have hlt := hrounds.2.2 _ hbefore last (List.mem_singleton.mpr rfl)
        exact absurd (hle last (by simp)) (not_le.mpr hlt)
      · rw [List.mem_singleton.mp hlast]

-- =================================================== what holds anyway

/-- The decision a body asks for is one. -/
theorem decisionOf_ne_pending {decision : String} {status : ReviewStatus}
    (h : decisionOf decision = some status) : status ≠ .pending := by
  unfold decisionOf at h
  split at h
  · cases h
    decide
  · split at h
    · cases h
      decide
    · split at h
      · cases h
        decide
      · cases h

/-- What a submission leaves. -/
theorem submit_eq_ok {notes : String}
    (h : store.submitCaseForReview env notes = .ok next) :
    ∃ s : ReviewSubmission, s.status = .pending
      ∧ s.roundNumber = store.lastRound + 1
      ∧ s.id ∉ store.submissions.rows.map ReviewSubmission.id
      ∧ next.submissions.rows = store.submissions.rows ++ [s]
      ∧ next.decisions = store.decisions ∧ next.status = "in_review"
      ∧ next.reading = store.reading := by
  obtain ⟨submissions, hinsert, h⟩ := bind_eq_ok.mp h
  rw [pure_eq_ok] at h
  subst h
  obtain ⟨hfresh, hrows⟩ := Table.insert?_eq_some.mp (orDatabase_eq_ok.mp hinsert)
  exact ⟨_, rfl, rfl, hfresh, hrows, rfl, rfl, rfl⟩

/-- What a first transaction leaves. -/
theorem read_eq_ok {request : String} (h : store.readCurrent request = .ok next) :
    next.submissions = store.submissions ∧ next.decisions = store.decisions
      ∧ next.status = store.status := by
  unfold readCurrent at h
  split at h
  · cases h
  · cases h
    exact ⟨rfl, rfl, rfl⟩

/-- What a second transaction leaves. -/
structure Decides (store next : ReviewStore) (submissionId : String)
    (decision : ReviewStatus) (now : Instant) : Prop where
  exist : submissionId ∈ store.submissions.rows.map ReviewSubmission.id
  notPending : decision ≠ .pending
  decisions : ∃ d : ReviewDecision, d.reviewSubmissionId = submissionId
    ∧ d ∉ store.decisions.rows
    ∧ next.decisions.rows = store.decisions.rows ++ [d]
  submissions : next.submissions.rows = store.submissions.rows.map fun s =>
    if s.id = submissionId then { s with status := decision, updatedAt := now }
    else s
  status : next.status = newCaseStatus decision

/-- A decide request's second transaction can be recorded: it asks for one
of the three decisions on a submission of the case, and its new id is
free. -/
structure Admissible (store : ReviewStore) (env : Env) (request : String)
    (body : ReviewDecideBody) (submissionId : String) : Prop where
  read : store.reading request = some submissionId
  exist : submissionId ∈ store.submissions.rows.map ReviewSubmission.id
  decision : decisionOf body.decision ≠ none
  fresh : env.uuids 0 ∉ store.decisions.rows.map ReviewDecision.id

theorem decide_eq_ok {request : String} {body : ReviewDecideBody}
    (h : store.decideRead sha256 env request body = .ok next) :
    ∃ submissionId decision, Admissible store env request body submissionId
      ∧ Decides store next submissionId decision env.now := by
  unfold decideRead at h
  split at h
  · cases h
  · next submissionId hread =>
      obtain ⟨mid, hrecord, h⟩ := bind_eq_ok.mp h
      rw [pure_eq_ok] at h
      subst h
      unfold recordReviewDecision at hrecord
      split at hrecord
      · cases hrecord
      · next decision hdecision =>
          split at hrecord
          · cases hrecord
          · next submission hfind =>
              obtain ⟨decisions, hinsert, hrecord⟩ := bind_eq_ok.mp hrecord
              rw [pure_eq_ok] at hrecord
              subst hrecord
              obtain ⟨hin, hid⟩ := Table.find?_eq_some hfind
              obtain ⟨hfresh, hrows⟩ :=
                Table.insert?_eq_some.mp (orDatabase_eq_ok.mp hinsert)
              have hexist := List.mem_map.mpr ⟨submission, hin, hid⟩
              refine ⟨submissionId, decision,
                ⟨hread, hexist, by simp [hdecision], hfresh⟩, hexist,
                decisionOf_ne_pending hdecision, ⟨_, rfl, ?_, hrows⟩, ?_, rfl⟩
              · exact fun hd => hfresh (List.mem_map_of_mem hd)
              · simp only [Table.rows_update, decide_eq_true_eq]

/-- What can be recorded is. -/
theorem decide_isOk {request submissionId : String} {body : ReviewDecideBody}
    (h : Admissible store env request body submissionId) :
    ∃ next, store.decideRead sha256 env request body = .ok next := by
  obtain ⟨decision, hdecision⟩ := Option.ne_none_iff_exists'.mp h.decision
  obtain ⟨submission, hin, hid⟩ := List.mem_map.mp h.exist
  have hfind : store.submissions.find? submissionId = some submission :=
    hid ▸ Table.find?_of_mem hin
  have hrecord : ∃ mid,
      store.recordReviewDecision sha256 env submissionId body = .ok mid := by
    unfold recordReviewDecision
    rw [hdecision]
    dsimp only
    rw [hfind]
    refine (Table.exists_insert? ?_).elim fun decisions hinsert =>
      ⟨_, bind_eq_ok.mpr ⟨decisions, orDatabase_eq_ok.mpr hinsert, rfl⟩⟩
    exact h.fresh
  obtain ⟨mid, hmid⟩ := hrecord
  unfold decideRead
  rw [h.read]
  exact ⟨_, bind_eq_ok.mpr ⟨mid, hmid, rfl⟩⟩

theorem wellFormed_submit {notes : String} (hw : WellFormed store)
    (h : store.submitCaseForReview env notes = .ok next) : WellFormed next := by
  obtain ⟨s, hpending, hround, hfresh, hrows, hdecisions, -, -⟩ := submit_eq_ok h
  refine ⟨?_, ?_, ?_⟩
  · rw [hrows, List.pairwise_append]
    refine ⟨hw.rounds, List.pairwise_singleton .., fun t ht s' hs' => ?_⟩
    rw [List.mem_singleton.mp hs', hround]
    exact Nat.lt_succ_of_le (roundNumber_le_lastRound ht)
  · rw [hrows, hdecisions]
    intro t ht
    rcases List.mem_append.mp ht with ht | ht
    · exact hw.pending t ht
    · rw [List.mem_singleton.mp ht]
      refine iff_of_true hpending fun d hd heq => hfresh ?_
      exact heq ▸ hw.decided d hd
  · rw [hrows, hdecisions]
    intro d hd
    rw [List.map_append]
    exact List.mem_append_left _ (hw.decided d hd)

theorem wellFormed_of_decides {submissionId : String}
    {decision : ReviewStatus} {now : Instant} (hw : WellFormed store)
    (h : Decides store next submissionId decision now) : WellFormed next := by
  obtain ⟨d, hd, -, hrows⟩ := h.decisions
  have hids : next.submissions.rows.map ReviewSubmission.id
      = store.submissions.rows.map ReviewSubmission.id := by
    rw [h.submissions]
    apply Table.map_rewrite_of_fixed
    intro s
    rfl
  refine ⟨?_, ?_, ?_⟩
  · rw [h.submissions, List.pairwise_map]
    refine hw.rounds.imp fun {s t} hst => ?_
    split <;> split <;> exact hst
  · rw [h.submissions, hrows]
    intro _ hmem
    obtain ⟨s, hs, rfl⟩ := List.mem_map.mp hmem
    by_cases hid : s.id = submissionId
    · rw [if_pos hid]
      refine iff_of_false h.notPending fun hnone => ?_
      exact hnone d (List.mem_append_right _ (List.mem_singleton.mpr rfl))
        (hd.trans hid.symm)
    · rw [if_neg hid, hw.pending s hs]
      constructor
      · intro hnone d' hd'
        rcases List.mem_append.mp hd' with hd' | hd'
        · exact hnone d' hd'
        · rw [List.mem_singleton.mp hd', hd]
          exact fun heq => hid heq.symm
      · exact fun hnone d' hd' => hnone d' (List.mem_append_left _ hd')
  · rw [hids, hrows]
    intro d' hd'
    rcases List.mem_append.mp hd' with hd' | hd'
    · exact hw.decided d' hd'
    · rw [List.mem_singleton.mp hd', hd]
      exact h.exist

theorem wellFormed_execute {op : ReviewOp} (hw : WellFormed store)
    (h : store.execute sha256 env op = .ok next) : WellFormed next := by
  cases op with
  | submit notes => exact wellFormed_submit hw h
  | read request =>
      obtain ⟨hsubmissions, hdecisions, -⟩ := read_eq_ok h
      exact ⟨hsubmissions ▸ hw.rounds, hsubmissions ▸ hdecisions ▸ hw.pending,
        hsubmissions ▸ hdecisions ▸ hw.decided⟩
  | decide request body =>
      obtain ⟨submissionId, decision, -, hdecides⟩ := decide_eq_ok h
      exact wellFormed_of_decides hw hdecides

theorem serve_eq_ok {event : ReviewOp × Env} :
    store.serve sha256 event = .ok next
      ↔ store.execute sha256 event.2 event.1 = .ok next
        ∧ event.2.commits = true := by
  unfold serve
  rw [bind_eq_ok]
  constructor
  · rintro ⟨next', hnext, h⟩
    split at h
    · next hcommits =>
        rw [pure_eq_ok] at h
        exact ⟨h ▸ hnext, hcommits⟩
    · cases h
  · rintro ⟨hexecute, hcommits⟩
    exact ⟨next, hexecute, by rw [if_pos hcommits, pure_eq_ok]⟩

theorem wellFormed_afterReview (hw : WellFormed store) (event : ReviewOp × Env) :
    WellFormed (afterReview sha256 store event) :=
  settle_of_forall hw fun _ h => wellFormed_execute hw (serve_eq_ok.mp h).1

-- ============================================================ the steps

/-- No submission is decided twice, and the case is approved only while the
latest round's submission is. -/
structure DecisionsSound (store : ReviewStore) : Prop where
  once : ∀ submissionId, (store.decisions.rows.filter fun d =>
    d.reviewSubmissionId = submissionId).length ≤ 1
  approved : store.status = "approved" →
    ∃ s, store.currentReview = some s ∧ s.status = .approved

/-- A decision that a step records is on the latest round. -/
def DecidesLatest (sha256 : String → String) (store : ReviewStore)
    (event : ReviewOp × Env) : Prop :=
  ∀ d ∈ (afterReview sha256 store event).decisions.rows,
    d ∉ store.decisions.rows →
    ∃ s, store.currentReview = some s ∧ d.reviewSubmissionId = s.id

/-- A second transaction that is about to be recorded finds the submission
its request has read still pending, and no later round. -/
def Current (store : ReviewStore) (event : ReviewOp × Env) : Prop :=
  ∀ request body submissionId, event.1 = .decide request body →
    Admissible store event.2 request body submissionId →
    event.2.commits = true →
    ∃ s, store.submissions.rows.getLast? = some s ∧ s.id = submissionId
      ∧ s.status = .pending

/-- A recorded decision leaves the case sound, and is on the latest round,
exactly if its submission was pending and of the latest round. -/
theorem decides_iff {submissionId : String} {decision : ReviewStatus}
    {now : Instant} (hw : WellFormed store) (hs : DecisionsSound store)
    (h : Decides store next submissionId decision now) :
    (DecisionsSound next ∧ ∃ s, store.currentReview = some s
        ∧ submissionId = s.id)
      ↔ ∃ s, store.submissions.rows.getLast? = some s ∧ s.id = submissionId
        ∧ s.status = .pending := by
  obtain ⟨d, hd, -, hrows⟩ := h.decisions
  rw [currentReview_eq_getLast? hw]
  constructor
  · rintro ⟨hnext, s, hlast, hid⟩
    refine ⟨s, hlast, hid.symm, ?_⟩
    rw [hw.pending s (List.mem_of_getLast? hlast)]
    intro d' hd' heq
    -- a decision of before, and the one recorded now
    have hone := hnext.once s.id
    rw [hrows, List.filter_append, List.length_append,
      List.filter_cons_of_pos (by simpa using hd.trans hid)] at hone
    have hbefore : 0 < (store.decisions.rows.filter fun d =>
        d.reviewSubmissionId = s.id).length :=
      List.length_pos_of_mem (List.mem_filter.mpr ⟨hd', decide_eq_true heq⟩)
    rw [List.length_cons] at hone
    omega
  · rintro ⟨s, hlast, hid, hpending⟩
    have hin := List.mem_of_getLast? hlast
    refine ⟨⟨?_, ?_⟩, s, hlast, hid.symm⟩
    · intro other
      rw [hrows, List.filter_append, List.length_append]
      by_cases hother : other = submissionId
      · have hnone : (store.decisions.rows.filter fun d =>
            d.reviewSubmissionId = other) = [] := by
          rw [List.filter_eq_nil_iff]
          intro d' hd' heq
          exact (hw.pending s hin).mp hpending d' hd'
            ((of_decide_eq_true heq).trans (hother.trans hid.symm))
        rw [hnone, List.length_nil, Nat.zero_add]
        exact List.length_filter_le ..
      · rw [List.filter_cons_of_neg (by simpa [hd] using Ne.symm hother),
          List.filter_nil, List.length_nil, Nat.add_zero]
        exact hs.once other
    · intro happroved
      rw [h.status] at happroved
      have hdecision : decision = .approved := by
        cases decision with
        | approved => rfl
        | pending => exact absurd rfl h.notPending
        | changesRequested => exact absurd happroved (by decide)
        | rejected => exact absurd happroved (by decide)
      rw [currentReview_eq_getLast? (wellFormed_of_decides hw h), h.submissions,
        List.getLast?_map, hlast]
      refine ⟨_, rfl, ?_⟩
      show (if s.id = submissionId then
        { s with status := decision, updatedAt := now } else s).status = _
      rw [if_pos hid]
      exact hdecision

/-- The decisions a recorded one adds. -/
theorem decidesLatest_iff {event : ReviewOp × Env} {submissionId : String}
    {decision : ReviewStatus} {now : Instant}
    (hserve : store.serve sha256 event = .ok next)
    (h : Decides store next submissionId decision now) :
    DecidesLatest sha256 store event
      ↔ ∃ s, store.currentReview = some s ∧ submissionId = s.id := by
  obtain ⟨d, hd, hnew, hrows⟩ := h.decisions
  unfold DecidesLatest afterReview
  rw [hserve, settle_ok, hrows]
  constructor
  · intro hlatest
    obtain ⟨s, hs, hid⟩ :=
      hlatest d (List.mem_append_right _ (List.mem_singleton.mpr rfl)) hnew
    exact ⟨s, hs, hd ▸ hid⟩
  · intro hlatest d' hd' hnew'
    rcases List.mem_append.mp hd' with hd' | hd'
    · exact absurd hd' hnew'
    · rw [List.mem_singleton.mp hd', hd]
      exact hlatest

/-- A step that records no decision. -/
theorem decidesLatest_of_eq {event : ReviewOp × Env}
    (h : (afterReview sha256 store event).decisions = store.decisions) :
    DecidesLatest sha256 store event := by
  intro d hd hnew
  exact absurd (h ▸ hd) hnew

/-- One step. -/
theorem step_iff (hw : WellFormed store) (hs : DecisionsSound store)
    (event : ReviewOp × Env) :
    DecisionsSound (afterReview sha256 store event)
        ∧ DecidesLatest sha256 store event
      ↔ Current store event := by
  cases hserve : store.serve sha256 event with
  | error e =>
      have hsame : afterReview sha256 store event = store := by
        unfold afterReview
        rw [hserve, settle_error]
      rw [hsame]
      refine iff_of_true ⟨hs, decidesLatest_of_eq (by rw [hsame])⟩ ?_
      intro request body submissionId hop hadmissible hcommits
      obtain ⟨next, hnext⟩ : ∃ next,
          store.decideRead sha256 event.2 request body = .ok next :=
        decide_isOk hadmissible
      have hok : store.serve sha256 event = .ok next :=
        serve_eq_ok.mpr ⟨hop ▸ hnext, hcommits⟩
      exact absurd (hserve.symm.trans hok) (by simp)
  | ok next =>
      obtain ⟨hexecute, hcommits⟩ := serve_eq_ok.mp hserve
      have hafter : afterReview sha256 store event = next := by
        unfold afterReview
        rw [hserve, settle_ok]
      rw [hafter]
      obtain ⟨op, env⟩ := event
      cases op with
      | submit notes =>
          obtain ⟨s, -, -, -, -, hdecisions, hstatus, -⟩ := submit_eq_ok hexecute
          refine iff_of_true ⟨⟨hdecisions ▸ hs.once, ?_⟩, ?_⟩ ?_
          · rw [hstatus]
            exact fun h => absurd h (by decide)
          · exact decidesLatest_of_eq (by rw [hafter, hdecisions])
          · exact fun _ _ _ h => nomatch h
      | read request =>
          obtain ⟨hsubmissions, hdecisions, hstatus⟩ := read_eq_ok hexecute
          refine iff_of_true ⟨⟨hdecisions ▸ hs.once, ?_⟩, ?_⟩ ?_
          · rw [hstatus, currentReview, hsubmissions]
            exact hs.approved
          · exact decidesLatest_of_eq (by rw [hafter, hdecisions])
          · exact fun _ _ _ h => nomatch h
      | decide request body =>
          obtain ⟨submissionId, decision, hadmissible, hdecides⟩ :=
            decide_eq_ok hexecute
          rw [decidesLatest_iff hserve hdecides, decides_iff hw hs hdecides]
          constructor
          · intro hcurrent request' body' submissionId' hop hadmissible' _
            cases hop
            have hid : submissionId = submissionId' := Option.some.inj
              (hadmissible.read.symm.trans hadmissible'.read)
            exact hid ▸ hcurrent
          · intro hcurrent
            exact hcurrent request body submissionId rfl hadmissible
              hcommits

-- ================================================================= runs

/-- A case before its first review. -/
def unreviewed (caseId : String) (createdAt : Instant)
    (snapshots : List EvidenceSnapshot) (reports : List AnalysisReport) :
    ReviewStore :=
  { caseId := caseId, status := "draft", updatedAt := createdAt
    snapshots := snapshots, reports := reports
    submissions := .empty, decisions := .empty, reading := fun _ => none }

theorem wellFormed_unreviewed {caseId : String} {createdAt : Instant}
    {snapshots : List EvidenceSnapshot} {reports : List AnalysisReport} :
    WellFormed (unreviewed caseId createdAt snapshots reports) where
  rounds := .nil
  pending _ hs := nomatch hs
  decided _ hd := nomatch hd

theorem decisionsSound_unreviewed {caseId : String} {createdAt : Instant}
    {snapshots : List EvidenceSnapshot} {reports : List AnalysisReport} :
    DecisionsSound (unreviewed caseId createdAt snapshots reports) where
  once _ := Nat.zero_le 1
  approved h := absurd h (by decide : "draft" ≠ "approved")

/-- In every run of a case's review requests: no submission is decided
twice, decisions are on the latest round, and the case is approved only
while its latest round is, exactly if every recorded decision found the
submission its request had read still pending and of the latest round. -/
theorem decisions_sound_iff (sha256 : String → String) (caseId : String)
    (createdAt : Instant) (snapshots : List EvidenceSnapshot)
    (reports : List AnalysisReport) (events : List (ReviewOp × Env)) :
    (Always (afterReview sha256) DecisionsSound
        (unreviewed caseId createdAt snapshots reports) events
      ∧ Along (afterReview sha256) (DecidesLatest sha256)
        (unreviewed caseId createdAt snapshots reports) events)
      ↔ Along (afterReview sha256) Current
        (unreviewed caseId createdAt snapshots reports) events :=
  always_and_along_iff (fun _ event hw => wellFormed_afterReview hw event)
    (fun _ event hw hs => step_iff hw hs event) wellFormed_unreviewed
    decisionsSound_unreviewed

def reviewDay : Instant := .ofNumbers (.ofNumbers 2026 3 2 (.refl true)) 9 0 0 0
          (.refl true)

/-- A case submitted once: two requests read the first round, and each
decides it. -/
def twiceDecided : List (ReviewOp × Env) :=
  let env (id : String) : Env :=
    { now := reviewDay, uuids := fun _ => id, actorIdentityId := "reviewer"
      commits := true
      ties := fun _ => 0 }
  [(.submit "", env "round-1"),
   (.read "one", env ""),
   (.read "other", env ""),
   (.decide "one" { decision := "approved" }, env "decision-1"),
   (.decide "other" { decision := "rejected" }, env "decision-2")]

theorem not_decisionsSound_twiceDecided :
    ¬ Always (afterReview id) DecisionsSound (unreviewed "case" reviewDay [] [])
      twiceDecided := by
  intro h
  have htwice := (h twiceDecided (List.prefix_refl _)).once "round-1"
  exact absurd htwice (by decide)

/-- A case submitted again between the reading and the deciding of its
first round, which is then approved. -/
def outdatedDecision : List (ReviewOp × Env) :=
  let env (id : String) : Env :=
    { now := reviewDay, uuids := fun _ => id, actorIdentityId := "reviewer"
      commits := true
      ties := fun _ => 0 }
  [(.submit "", env "round-1"),
   (.read "one", env ""),
   (.submit "", env "round-2"),
   (.decide "one" { decision := "approved" }, env "decision-1")]

/-- Approved, with its latest round pending. -/
example :
    let store := run (afterReview id) (unreviewed "case" reviewDay [] [])
      outdatedDecision
    (store.status, store.currentReview.map fun s => (s.id, s.status))
      = ("approved", some ("round-2", .pending)) := by
  decide

end PatentEvidence.Review
