/-
What searches, imports and triage requests make of a case's candidates.

Of a candidate row some columns never change (`Standing`), the key among
them; searches and imports only rescore and retitle it. The first triage
record is inserted with the candidate and never a second one, so the two
tables run in parallel: `Sound` has them list the same owners in the same
order. Everything is said of one turn of a loop first (`Turned`), which is
alike for searches and imports.

Above the tables stands a pool: under each key the standing of the candidate
and the decision last made on it. An item offers a pending entry, a triage
request amends one, and a run of requests is the run of their effects on the
pool.

# Sections

- standings and decisions;
- statements;
- one turn of a loop;
- requests.
-/
import PatentEvidence.Search.Pool

namespace PatentEvidence.Search

open Fallible

-- ============================================== standings and decisions

/-- The columns of a candidate that no request changes. -/
structure Standing where
  id : String
  organizationId : String
  caseId : String
  publicationNumber : String
  publicationNumberNormalized : String
  publicationDate : Option String
  applicant : Option String
  ipcClassification : Option String
  sourceType : String
  createdAt : Timestamp

/-- What triage says of a candidate. -/
structure TriageDecision where
  status : TriageStatus
  exclusionReason : Option String
  notes : Option String
  triagedByIdentityId : String
  triagedAt : Timestamp

/-- A candidate and what triage says of it. -/
structure PoolEntry where
  standing : Standing
  decision : TriageDecision

/-- The decision a candidate begins with. -/
def TriageDecision.first (actorIdentityId : String) (now : Timestamp) :
    TriageDecision where
  status := .pending
  exclusionReason := none
  notes := none
  triagedByIdentityId := actorIdentityId
  triagedAt := now

def TriageRecord.decision (t : TriageRecord) : TriageDecision :=
  ⟨t.triageStatus, t.exclusionReason, t.notes, t.triagedByIdentityId, t.triagedAt⟩

/-- Whose record it is: the candidate, in its organization and case. -/
def TriageRecord.owner (t : TriageRecord) : String × String × String :=
  (t.candidateId, t.organizationId, t.caseId)

namespace Standing

def poolKey (s : Standing) : PoolKey :=
  ⟨s.organizationId, s.caseId, s.publicationNumberNormalized⟩

def owner (s : Standing) : String × String × String :=
  (s.id, s.organizationId, s.caseId)

end Standing

variable {ν : Type}

def SearchCandidateRow.standing (c : SearchCandidateRow ν) : Standing where
  id := c.id
  organizationId := c.organizationId
  caseId := c.caseId
  publicationNumber := c.publicationNumber
  publicationNumberNormalized := c.publicationNumberNormalized
  publicationDate := c.publicationDate
  applicant := c.applicant
  ipcClassification := c.ipcClassification
  sourceType := c.sourceType
  createdAt := c.createdAt

theorem SearchCandidateRow.poolKey_standing (c : SearchCandidateRow ν) :
    c.standing.poolKey = c.poolKey := rfl

namespace PoolStore

def standings (store : PoolStore ν) : List Standing :=
  store.candidates.rows.map SearchCandidateRow.standing

/-- The candidate under a key, with the decision on it. -/
def pool (store : PoolStore ν) : Pool PoolKey PoolEntry := fun k => do
  let s ← store.standings.find? fun s => s.poolKey = k
  let t ← store.triage.rows.find? fun t => t.candidateId = s.id
  return ⟨s, t.decision⟩

/-- The invariant; `running` is the job whose request is being handled. -/
structure Sound [Casing] (sha256 : String → String) (running : Option String)
    (store : PoolStore ν) : Prop where
  keys : (store.standings.map Standing.poolKey).Nodup
  triaged : store.triage.rows.map TriageRecord.owner
    = store.standings.map Standing.owner
  numbers : ∀ s ∈ store.standings,
    s.publicationNumberNormalized = normalizePubNumber s.publicationNumber
  scores : ∀ c ∈ store.candidates.rows,
    10 ≤ c.relevanceScore ∧ c.relevanceScore ≤ 100
  jobs : ∀ j ∈ store.jobs.rows, some j.id ≠ running →
    j.status = .completed ∧ j.errorMessage = none ∧ j.finishedAt.isSome = true
      ∧ store.snapshots.rows.countP (fun s => s.searchJobId = j.id) ≤ j.resultsCount
  snapshots : ∀ s ∈ store.snapshots.rows, s.payloadSha256 = sha256 s.payload
    ∧ (∃ j ∈ store.jobs.rows, j.id = s.searchJobId
      ∧ j.organizationId = s.organizationId ∧ j.caseId = s.caseId)
    ∧ ∃ c ∈ store.standings, c.owner = (s.candidateId, s.organizationId, s.caseId)
      ∧ c.publicationNumberNormalized = normalizePubNumber s.sourceIdentifier

end PoolStore

-- ============================================================ statements

section Statements

variable {store store' : PoolStore ν}

theorem execute_eq_ok {α : Type _} {x : Option α} {a : α} :
    execute x = .ok a ↔ x = some a := by
  cases x with
  | none => simp [execute]
  | some b => simp [execute]

/-- What putting a candidate does to the standings. -/
inductive PutCandidate (store : PoolStore ν) (row : SearchCandidateRow ν)
    (store' : PoolStore ν) (candidateId : String) : Prop
  | kept (s : Standing) (hs : s ∈ store.standings) (hkey : s.poolKey = row.poolKey)
      (hid : candidateId = s.id) (hstandings : store'.standings = store.standings)
  | added (hkey : row.poolKey ∉ store.standings.map Standing.poolKey)
      (hfresh : row.id ∉ store.standings.map Standing.id)
      (hid : candidateId = row.id)
      (hstandings : store'.standings = store.standings ++ [row.standing])

section Put

variable {merge : SearchCandidateRow ν → SearchCandidateRow ν → SearchCandidateRow ν}
  {hmerge : ∀ x r, (merge x r).id = r.id} {row : SearchCandidateRow ν}
  {candidateId : String}

/-- It changes the candidates only. -/
theorem putCandidate_frame
    (h : store.putCandidate merge hmerge row = some (store', candidateId)) :
    ∃ candidates, store' = { store with candidates := candidates }
      ∧ store.candidates.upsert? SearchCandidateRow.poolKey merge hmerge row
        = some candidates
      ∧ ∃ put ∈ candidates.rows, put.poolKey = row.poolKey ∧ put.id = candidateId := by
  unfold PoolStore.putCandidate at h
  obtain ⟨-, -, h⟩ := Option.bind_eq_some_iff.mp h
  obtain ⟨-, -, h⟩ := Option.bind_eq_some_iff.mp h
  obtain ⟨candidates, hupsert, h⟩ := Option.bind_eq_some_iff.mp h
  obtain ⟨put, hput, h⟩ := Option.bind_eq_some_iff.mp h
  obtain ⟨rfl, rfl⟩ := Prod.mk.inj (Option.some.inj h)
  have hkey : put.poolKey = row.poolKey := by simpa using List.find?_some hput
  exact ⟨candidates, rfl, hupsert, put, List.mem_of_find?_eq_some hput, hkey, rfl⟩

theorem putCandidate_cases (hstanding : ∀ x r, (merge x r).standing = r.standing)
    (h : store.putCandidate merge hmerge row = some (store', candidateId)) :
    PutCandidate store row store' candidateId := by
  obtain ⟨candidates, rfl, hupsert, put, hput, hkey, rfl⟩ := putCandidate_frame h
  unfold Table.upsert? at hupsert
  split at hupsert
  · cases hupsert
    have hsame : (store.candidates.rows.map fun r =>
          if r.poolKey = row.poolKey then merge row r else r).map
            SearchCandidateRow.standing
          = store.candidates.rows.map SearchCandidateRow.standing :=
      Table.map_rewrite_of_fixed (hstanding row) _ _
    simp only [Table.rows_update, decide_eq_true_eq] at hput
    have hin : put.standing ∈ store.standings := by
      rw [PoolStore.standings, ← hsame]
      exact List.mem_map_of_mem hput
    refine .kept put.standing hin hkey rfl ?_
    unfold PoolStore.standings
    simpa only [Table.rows_update, decide_eq_true_eq] using hsame
  · next hnew =>
      obtain ⟨hfresh, hrows⟩ := Table.insert?_eq_some.mp hupsert
      have hnone : row.poolKey ∉ store.standings.map Standing.poolKey := by
        unfold PoolStore.standings
        rw [List.map_map]
        exact hnew
      have hput' : put = row := by
        rw [hrows, List.mem_append, List.mem_singleton] at hput
        refine hput.resolve_left fun hold => hnew ?_
        exact List.mem_map.mpr ⟨put, hold, hkey⟩
      refine .added hnone ?_ (congrArg _ hput') ?_
      · unfold PoolStore.standings
        rw [List.map_map]
        exact hfresh
      · show List.map _ candidates.rows = _
        rw [hrows, List.map_append, List.map_singleton]
        rfl

/-- The candidate put has the id and the key. -/
theorem PutCandidate.mem (h : PutCandidate store row store' candidateId) :
    ∃ s ∈ store'.standings, s.poolKey = row.poolKey ∧ s.id = candidateId := by
  cases h with
  | kept s hs hkey hid hstandings =>
      exact ⟨s, hstandings ▸ hs, hkey, hid.symm⟩
  | added _ _ hid hstandings =>
      refine ⟨row.standing, ?_, rfl, hid.symm⟩
      rw [hstandings]
      exact List.mem_append_right _ (List.mem_singleton_self _)

/-- A score is an old one or the row's. -/
theorem score_putCandidate (hscore : ∀ x r, (merge x r).relevanceScore = x.relevanceScore)
    (h : store.putCandidate merge hmerge row = some (store', candidateId)) :
    ∀ c ∈ store'.candidates.rows, c.relevanceScore = row.relevanceScore
      ∨ ∃ c' ∈ store.candidates.rows, c.relevanceScore = c'.relevanceScore := by
  obtain ⟨candidates, rfl, hupsert, -⟩ := putCandidate_frame h
  intro c hc
  unfold Table.upsert? at hupsert
  split at hupsert
  · cases hupsert
    obtain ⟨r, hr, rfl⟩ := List.mem_map.mp hc
    by_cases hkey : decide (r.poolKey = row.poolKey) = true
    · rw [if_pos hkey]
      exact .inl (hscore row r)
    · rw [if_neg hkey]
      exact .inr ⟨r, hr, rfl⟩
  · obtain ⟨-, hrows⟩ := Table.insert?_eq_some.mp hupsert
    have hc' : c ∈ candidates.rows := hc
    rw [hrows, List.mem_append, List.mem_singleton] at hc'
    rcases hc' with hold | rfl
    · exact .inr ⟨c, hold, rfl⟩
    · exact .inl rfl

end Put

/-- The first triage record: there is one already, or it is inserted. -/
theorem initTriage_cases {organizationId caseId candidateId actorIdentityId id : String}
    {now : Timestamp}
    (h : store.initTriage organizationId caseId candidateId actorIdentityId id now
      = some store') :
    ∃ triage, store' = { store with triage := triage }
      ∧ (candidateId ∈ store.triage.rows.map TriageRecord.candidateId
          ∧ triage.rows = store.triage.rows
        ∨ candidateId ∉ store.triage.rows.map TriageRecord.candidateId
          ∧ ∃ t : TriageRecord, t.owner = (candidateId, organizationId, caseId)
            ∧ t.decision = .first actorIdentityId now
            ∧ triage.rows = store.triage.rows ++ [t]) := by
  unfold PoolStore.initTriage PoolStore.putTriage at h
  obtain ⟨-, -, h⟩ := Option.bind_eq_some_iff.mp h
  obtain ⟨-, -, h⟩ := Option.bind_eq_some_iff.mp h
  obtain ⟨triage, hupsert, h⟩ := Option.bind_eq_some_iff.mp h
  cases h
  refine ⟨triage, rfl, ?_⟩
  unfold Table.upsert? at hupsert
  split at hupsert
  · next hin =>
      cases hupsert
      exact .inl ⟨hin, by simp⟩
  · next hnot =>
      exact .inr ⟨hnot, _, rfl, rfl, (Table.insert?_eq_some.mp hupsert).2⟩

/-- A snapshot is inserted with its case, job and candidate. -/
theorem addSnapshot_cases {row : SourceSnapshotRow}
    (h : store.addSnapshot row = some store') :
    ∃ snapshots, store' = { store with snapshots := snapshots }
      ∧ snapshots.rows = store.snapshots.rows ++ [row]
      ∧ ∃ j ∈ store.jobs.rows, j.id = row.searchJobId
        ∧ j.organizationId = row.organizationId ∧ j.caseId = row.caseId := by
  unfold PoolStore.addSnapshot at h
  obtain ⟨-, -, h⟩ := Option.bind_eq_some_iff.mp h
  obtain ⟨-, -, h⟩ := Option.bind_eq_some_iff.mp h
  obtain ⟨_, hjob, h⟩ := Option.bind_eq_some_iff.mp h
  obtain ⟨-, -, h⟩ := Option.bind_eq_some_iff.mp h
  obtain ⟨snapshots, hinsert, h⟩ := Option.bind_eq_some_iff.mp h
  cases h
  refine ⟨snapshots, rfl, (Table.insert?_eq_some.mp hinsert).2, ?_⟩
  simpa [guard, and_assoc] using hjob

end Statements

-- ==================================================== one turn of a loop

section Turns

variable {store store' : PoolStore ν} {row : SearchCandidateRow ν}
  {first : TriageDecision} {new : Option SourceSnapshotRow}

/-- The candidates and their triage records after a turn. -/
inductive Placed (store : PoolStore ν) (row : SearchCandidateRow ν)
    (first : TriageDecision) (store' : PoolStore ν) : Prop
  | kept (s : Standing) (hs : s ∈ store.standings) (hkey : s.poolKey = row.poolKey)
      (hstandings : store'.standings = store.standings)
      (htriage : store'.triage.rows = store.triage.rows)
  | added (t : TriageRecord)
      (hkey : row.poolKey ∉ store.standings.map Standing.poolKey)
      (hfresh : row.id ∉ store.standings.map Standing.id)
      (hstandings : store'.standings = store.standings ++ [row.standing])
      (htriage : store'.triage.rows = store.triage.rows ++ [t])
      (howner : t.owner = row.standing.owner) (hdecision : t.decision = first)

/-- A turn: a candidate, perhaps a snapshot of it, and a triage record if
it had none. -/
structure Turned (store : PoolStore ν) (row : SearchCandidateRow ν)
    (first : TriageDecision) (new : Option SourceSnapshotRow)
    (store' : PoolStore ν) : Prop where
  jobs : store'.jobs = store.jobs
  placed : Placed store row first store'
  scores : ∀ c ∈ store'.candidates.rows, c.relevanceScore = row.relevanceScore
    ∨ ∃ c' ∈ store.candidates.rows, c.relevanceScore = c'.relevanceScore
  snapshots : store'.snapshots.rows = store.snapshots.rows ++ new.toList
  filed : ∀ s ∈ new,
    (∃ j ∈ store.jobs.rows, j.id = s.searchJobId
      ∧ j.organizationId = s.organizationId ∧ j.caseId = s.caseId)
    ∧ ∃ c ∈ store'.standings, c.poolKey = row.poolKey ∧ c.id = s.candidateId

/-- Who has a triage record. -/
theorem candidateIds_eq
    (h : store.triage.rows.map TriageRecord.owner = store.standings.map Standing.owner) :
    store.triage.rows.map TriageRecord.candidateId
      = store.standings.map Standing.id := by
  have hids := congrArg (List.map Prod.fst) h
  rw [List.map_map, List.map_map] at hids
  exact hids

/-- Every candidate has one. -/
theorem isSome_record
    (h : store.triage.rows.map TriageRecord.owner = store.standings.map Standing.owner)
    {c : Standing} (hc : c ∈ store.standings) :
    (store.triage.rows.find? fun t => t.candidateId = c.id).isSome = true := by
  have hin : c.id ∈ store.triage.rows.map TriageRecord.candidateId := by
    rw [candidateIds_eq h]
    exact List.mem_map_of_mem hc
  obtain ⟨t, ht, heq⟩ := List.mem_map.mp hin
  rw [List.find?_isSome]
  exact ⟨t, ht, by simp [heq]⟩

/-- The three statements of a turn, one after the other. -/
theorem turned_of {merge : SearchCandidateRow ν → SearchCandidateRow ν → SearchCandidateRow ν}
    {hmerge : ∀ x r, (merge x r).id = r.id} {store₁ store₂ : PoolStore ν}
    {candidateId actorIdentityId id : String} {now : Timestamp}
    (hput : store.putCandidate merge hmerge row = some (store₁, candidateId))
    (hnew : new.elim (store₂ = store₁) fun s =>
      s.candidateId = candidateId ∧ store₁.addSnapshot s = some store₂)
    (hinit : store₂.initTriage row.organizationId row.caseId candidateId
      actorIdentityId id now = some store')
    (htriaged : store.triage.rows.map TriageRecord.owner
      = store.standings.map Standing.owner)
    (hstanding : ∀ x r, (merge x r).standing = r.standing)
    (hscore : ∀ x r, (merge x r).relevanceScore = x.relevanceScore) :
    Turned store row (.first actorIdentityId now) new store' := by
  have hcases := putCandidate_cases hstanding hput
  have hscores := score_putCandidate hscore hput
  have hids := candidateIds_eq htriaged
  obtain ⟨candidates, rfl, -, -⟩ := putCandidate_frame hput
  obtain ⟨snapshots, rfl, hsnapshots, hfiled⟩ : ∃ snapshots,
      store₂ = { store with candidates := candidates, snapshots := snapshots }
        ∧ snapshots.rows = store.snapshots.rows ++ new.toList
        ∧ ∀ s ∈ new, s.candidateId = candidateId
          ∧ ∃ j ∈ store.jobs.rows, j.id = s.searchJobId
            ∧ j.organizationId = s.organizationId ∧ j.caseId = s.caseId := by
    cases new with
    | none =>
        cases hnew
        exact ⟨store.snapshots, rfl, by simp, by simp⟩
    | some s =>
        obtain ⟨hid, hadd⟩ := hnew
        obtain ⟨snapshots, rfl, hrows, hjob⟩ := addSnapshot_cases hadd
        refine ⟨snapshots, rfl, hrows, ?_⟩
        rintro _ ⟨⟩
        exact ⟨hid, hjob⟩
  obtain ⟨triage, rfl, htriage⟩ := initTriage_cases hinit
  refine ⟨rfl, ?_, hscores, hsnapshots, fun s hs => ?_⟩
  · cases hcases with
    | kept s hs hkey hid hstandings =>
        rcases htriage with ⟨-, hrows⟩ | ⟨hnot, -⟩
        · exact .kept s hs hkey hstandings hrows
        · -- every candidate has a record
          refine absurd ?_ hnot
          rw [hids, hid]
          exact List.mem_map_of_mem hs
    | added hkey hfresh hid hstandings =>
        rcases htriage with ⟨hin, -⟩ | ⟨-, t, howner, hdecision, hrows⟩
        · rw [hids, hid] at hin
          exact absurd hin hfresh
        · exact .added t hkey hfresh hstandings hrows (by rw [howner, hid]; rfl)
            hdecision
  · obtain ⟨hid, hjob⟩ := hfiled s hs
    obtain ⟨c, hc, hkey, hcid⟩ := hcases.mem
    exact ⟨hjob, c, hc, hkey, hcid.trans hid.symm⟩

/-- The keys after a turn. -/
theorem Placed.subset (h : Placed store row first store') :
    store.standings ⊆ store'.standings := by
  cases h with
  | kept _ _ _ hstandings _ => rw [hstandings]; exact fun _ hs => hs
  | added _ _ _ hstandings _ _ _ =>
      rw [hstandings]
      exact List.subset_append_left ..

/-- A turn of a job or of no job keeps the invariant. -/
theorem sound_turn [Casing] {sha256 : String → String} {running : Option String}
    (hs : store.Sound sha256 running) (h : Turned store row first new store')
    (hnumber : row.publicationNumberNormalized
      = normalizePubNumber row.publicationNumber)
    (hscore : 10 ≤ row.relevanceScore ∧ row.relevanceScore ≤ 100)
    (hnew : ∀ s ∈ new, s.payloadSha256 = sha256 s.payload
      ∧ some s.searchJobId = running ∧ s.organizationId = row.organizationId
      ∧ s.caseId = row.caseId
      ∧ row.publicationNumberNormalized = normalizePubNumber s.sourceIdentifier) :
    store'.Sound sha256 running := by
  have hplaced := h.placed
  refine ⟨?_, ?_, ?_, fun c hc => ?_, fun j hj hother => ?_, fun s hin => ?_⟩
  · cases hplaced with
    | kept _ _ _ hstandings _ => rw [hstandings]; exact hs.keys
    | added t hkey _ hstandings _ _ _ =>
        rw [hstandings]
        refine Table.nodup_map_concat hs.keys fun s hin heq => hkey ?_
        exact List.mem_map.mpr ⟨s, hin, heq⟩
  · cases hplaced with
    | kept _ _ _ hstandings htriage => rw [hstandings, htriage]; exact hs.triaged
    | added t _ _ hstandings htriage howner _ =>
        rw [hstandings, htriage, List.map_append, List.map_append, hs.triaged]
        simp only [List.map_singleton, howner]
  · cases hplaced with
    | kept _ _ _ hstandings _ => rw [hstandings]; exact hs.numbers
    | added t _ _ hstandings _ _ _ =>
        rw [hstandings]
        intro s hin
        rcases List.mem_append.mp hin with hold | hrow
        · exact hs.numbers s hold
        · rw [List.mem_singleton.mp hrow]
          exact hnumber
  · rcases h.scores c hc with heq | ⟨c', hc', heq⟩
    · rw [heq]
      exact hscore
    · rw [heq]
      exact hs.scores c' hc'
  · rw [h.jobs] at hj
    obtain ⟨hdone, herror, hfinished, hcount⟩ := hs.jobs j hj hother
    refine ⟨hdone, herror, hfinished, ?_⟩
    -- a snapshot of this turn is of the job that runs
    have hnone : new.toList.countP (fun s => s.searchJobId = j.id) = 0 := by
      rw [List.countP_eq_zero]
      intro s hin
      have hrunning := (hnew s (Option.mem_toList.mp hin)).2.1
      simp only [decide_eq_true_eq]
      exact fun heq => hother (by rw [← heq, hrunning])
    rw [h.snapshots, List.countP_append, hnone]
    exact hcount
  · rw [h.snapshots] at hin
    rcases List.mem_append.mp hin with hold | hin
    · obtain ⟨hhash, hjob, c, hc, howner, hnumber⟩ := hs.snapshots s hold
      rw [h.jobs]
      exact ⟨hhash, hjob, c, hplaced.subset hc, howner, hnumber⟩
    · have hmem := Option.mem_toList.mp hin
      obtain ⟨hhash, -, horganization, hcase, hidentifier⟩ := hnew s hmem
      obtain ⟨hjob, c, hc, hkey, hid⟩ := h.filed s hmem
      rw [h.jobs]
      refine ⟨hhash, hjob, c, hc, ?_, ?_⟩
      · rw [Standing.owner, hid, horganization, hcase]
        injection hkey with ho hcs hn
        rw [ho, hcs]
      · injection hkey with ho hcs hn
        rw [hn, hidentifier]

/-- A turn is an offer to the pool. -/
theorem pool_turn (hids : store.triage.rows.map TriageRecord.owner
      = store.standings.map Standing.owner)
    (h : Placed store row first store') :
    store'.pool = store.pool.offer (row.poolKey, ⟨row.standing, first⟩) := by
  funext k
  unfold Pool.offer PoolStore.pool
  cases h with
  | kept s hs hkey hstandings htriage =>
      rw [hstandings, htriage]
      by_cases hk : k = row.poolKey
      · rw [if_pos hk]
        -- the candidate there has a record
        obtain ⟨c, hc⟩ : ∃ c, store.standings.find? (fun s => s.poolKey = k) = some c := by
          rw [← Option.isSome_iff_exists, List.find?_isSome]
          exact ⟨s, hs, by simp [hkey, hk]⟩
        obtain ⟨t, ht⟩ := Option.isSome_iff_exists.mp
          (isSome_record hids (List.mem_of_find?_eq_some hc))
        rw [hc]
        simp only [Option.bind_eq_bind, Option.bind_some, ht]
        rfl
      · rw [if_neg hk]
  | added t hkey hfresh hstandings htriage howner hdecision =>
      rw [hstandings, htriage, List.find?_append]
      by_cases hk : k = row.poolKey
      · have hnone : store.standings.find? (fun s => s.poolKey = k) = none := by
          rw [List.find?_eq_none]
          intro s hs heq
          rw [decide_eq_true_eq] at heq
          exact hkey (List.mem_map.mpr ⟨s, hs, heq.trans hk⟩)
        have hnot : store.triage.rows.find?
            (fun t => t.candidateId = row.standing.id) = none := by
          rw [List.find?_eq_none]
          intro t' ht' heq
          rw [decide_eq_true_eq] at heq
          refine hfresh ?_
          rw [← candidateIds_eq hids]
          exact List.mem_map.mpr ⟨t', ht', heq⟩
        have hid : t.candidateId = row.standing.id := congrArg Prod.fst howner
        rw [if_pos hk, hnone]
        simp [hk, List.find?_append, hnot, hid, hdecision,
          SearchCandidateRow.poolKey_standing]
      · rw [if_neg hk]
        have hmiss : [row.standing].find? (fun s => s.poolKey = k) = none := by
          simp [Ne.symm hk, SearchCandidateRow.poolKey_standing]
        rw [hmiss, Option.or_none]
        cases hfind : store.standings.find? (fun s => s.poolKey = k) with
        | none => rfl
        | some c =>
            simp only [Option.bind_eq_bind, Option.bind_some, List.find?_append]
            rw [Option.or_of_isSome
              (isSome_record hids (List.mem_of_find?_eq_some hfind))]

end Turns

-- ============================================================== requests

section Requests

variable [Casing] [JsonNumber ν] {store store' : PoolStore ν}
  {jsonbText : String → Option String} {sha256 : String → String}

/-- What a search offers for an item. -/
def SearchRequest.offer (request : SearchRequest ν)
    (item : SearchResultItem ν × Nat) : PoolKey × PoolEntry :=
  let number := normalizePubNumber item.1.publicationNumber
  (⟨request.organizationId, request.caseId, number⟩, {
    standing := {
      id := (request.drawn item.2).candidateId
      organizationId := request.organizationId
      caseId := request.caseId
      publicationNumber := item.1.publicationNumber
      publicationNumberNormalized := number
      publicationDate := item.1.publicationDate
      applicant := item.1.applicant
      ipcClassification := item.1.ipcClassification
      sourceType := item.1.sourceType
      createdAt := request.resultsReceivedAt }
    decision := .first request.actorIdentityId request.resultsReceivedAt })

omit [Casing] [JsonNumber ν] in
/-- What an import offers for a candidate. -/
def ImportRequest.offer (request : ImportRequest)
    (item : ImportedCandidate ν × Nat) : PoolKey × PoolEntry :=
  let number := item.1.publicationNumberNormalized
  (⟨request.organizationId, request.caseId, number⟩, {
    standing := {
      id := (request.drawn item.2).candidateId
      organizationId := request.organizationId
      caseId := request.caseId
      publicationNumber := item.1.publicationNumber
      publicationNumberNormalized := number
      publicationDate := item.1.publicationDate
      applicant := item.1.applicant
      ipcClassification := item.1.ipcClassification
      sourceType := item.1.sourceType
      createdAt := request.now }
    decision := .first request.actorIdentityId request.now })

/-- The decision a triage request makes. -/
def TriageRequest.decision (request : TriageRequest) : TriageDecision where
  status := (PoolStore.triageStatusOf request.triageStatus).getD .pending
  exclusionReason := request.exclusionReason
  notes := request.notes
  triagedByIdentityId := request.actorIdentityId
  triagedAt := request.now

/-- The request is about the candidate under the key. -/
def TriageRequest.Names (request : TriageRequest) (k : PoolKey) (s : Standing) :
    Prop :=
  k.organizationId = request.organizationId ∧ k.caseId = request.caseId
    ∧ s.id = request.candidateId

instance (request : TriageRequest) (k : PoolKey) (s : Standing) :
    Decidable (request.Names k s) :=
  inferInstanceAs (Decidable (_ ∧ _ ∧ _))

def TriageRequest.decide (request : TriageRequest) (k : PoolKey) (e : PoolEntry) :
    PoolEntry :=
  if request.Names k e.standing then { e with decision := request.decision } else e

/-- What a request proposes for the pool. -/
def PoolRequest.proposed : PoolRequest ν → List (PoolKey × PoolEntry)
  | .openCase _ _ => []
  | .search request => (request.answer.toOption.getD []).zipIdx.map request.offer
  | .importCnipr request =>
      ((PoolStore.importedCandidates (ν := ν)
        request.rawContent).toOption.getD []).zipIdx.map request.offer
  | .triage _ => []

/-- What an accepted request does to the pool. -/
def PoolRequest.effect (pool : Pool PoolKey PoolEntry) :
    PoolRequest ν → Pool PoolKey PoolEntry
  | .triage request => pool.amend request.decide
  | request => pool.offerAll request.proposed

omit [JsonNumber ν] in
theorem computeScore_bounds {title abstract : String} {ipc : Option String}
    {matrix : List (String × List String)} {classes : List (List (String × String))}
    {score : Nat} (h : computeScore title abstract ipc matrix classes = .ok score) :
    10 ≤ score ∧ score ≤ 100 := by
  unfold computeScore at h
  obtain ⟨matched, -, h⟩ := bind_eq_ok.mp h
  rw [pure_eq_ok] at h
  omega

/-- A turn of a search. -/
theorem addSearchItem_turned {request : SearchRequest ν} {strategy : Strategy}
    {item : SearchResultItem ν × Nat}
    (htriaged : store.triage.rows.map TriageRecord.owner
      = store.standings.map Standing.owner)
    (h : store.addSearchItem jsonbText sha256 request strategy item = .ok store') :
    ∃ score new, (10 ≤ score ∧ score ≤ 100)
      ∧ Turned store (PoolStore.searchRow request item.1
          (request.drawn item.2).candidateId score)
        (.first request.actorIdentityId request.resultsReceivedAt) new store'
      ∧ ∀ s ∈ new, s.payloadSha256 = sha256 s.payload
        ∧ s.searchJobId = request.jobId
        ∧ s.organizationId = request.organizationId ∧ s.caseId = request.caseId
        ∧ s.sourceIdentifier = item.1.publicationNumber := by
  obtain ⟨item, i⟩ := item
  unfold PoolStore.addSearchItem at h
  obtain ⟨score, hscore, h⟩ := bind_eq_ok.mp h
  obtain ⟨⟨store₁, candidateId⟩, hput, h⟩ := bind_eq_ok.mp h
  obtain ⟨store₂, hadd, hinit⟩ := bind_eq_ok.mp h
  rw [execute_eq_ok] at hput hinit
  unfold PoolStore.addItemSnapshot at hadd
  cases hsnapshot : item.providerSnapshot with
  | none =>
      rw [hsnapshot] at hadd
      cases hadd
      refine ⟨score, none, computeScore_bounds hscore, ?_, by simp⟩
      exact turned_of hput rfl hinit htriaged (fun _ _ => rfl) fun _ _ => rfl
  | some snapshot =>
      rw [hsnapshot] at hadd
      obtain ⟨payload, -, hadd⟩ := Option.bind_eq_some_iff.mp (execute_eq_ok.mp hadd)
      have hidentifier := item.sameIdentifier snapshot hsnapshot
      refine ⟨score, some _, computeScore_bounds hscore,
        turned_of hput ⟨rfl, hadd⟩ hinit htriaged (fun _ _ => rfl) fun _ _ => rfl, ?_⟩
      rintro _ ⟨⟩
      exact ⟨rfl, rfl, rfl, rfl, hidentifier⟩

omit [JsonNumber ν] in
/-- A turn of an import. -/
theorem addImportItem_turned {request : ImportRequest}
    {item : ImportedCandidate ν × Nat}
    (htriaged : store.triage.rows.map TriageRecord.owner
      = store.standings.map Standing.owner)
    (h : store.addImportItem request item = .ok store') :
    ∃ score, (10 ≤ score ∧ score ≤ 100)
      ∧ Turned store (PoolStore.importRow request item.1
          (request.drawn item.2).candidateId score)
        (.first request.actorIdentityId request.now) none store' := by
  obtain ⟨item, i⟩ := item
  unfold PoolStore.addImportItem at h
  obtain ⟨score, hscore, h⟩ := bind_eq_ok.mp h
  obtain ⟨⟨store₁, candidateId⟩, hput, hinit⟩ := bind_eq_ok.mp h
  rw [execute_eq_ok] at hput hinit
  refine ⟨score, computeScore_bounds hscore, ?_⟩
  exact turned_of hput rfl hinit htriaged (fun _ _ => rfl) fun _ _ => rfl

/-- The loop of a search, whose job is running. -/
theorem search_loop {request : SearchRequest ν} {strategy : Strategy}
    {items : List (SearchResultItem ν)}
    (hs : store.Sound sha256 (some request.jobId))
    (h : items.zipIdx.foldlM (fun store item =>
        store.addSearchItem jsonbText sha256 request strategy item) store
      = .ok store') :
    store'.Sound sha256 (some request.jobId) ∧ store'.jobs = store.jobs
      ∧ store'.snapshots.rows.countP (fun s => s.searchJobId = request.jobId)
        ≤ store.snapshots.rows.countP (fun s => s.searchJobId = request.jobId)
          + items.length
      ∧ store'.pool = store.pool.offerAll (items.zipIdx.map request.offer) := by
  let count (store : PoolStore ν) : Nat :=
    store.snapshots.rows.countP fun s => s.searchJobId = request.jobId
  have hloop := foldlM_invariant
    (I := fun (s : PoolStore ν) (rest : List (SearchResultItem ν × Nat)) =>
      s.Sound sha256 (some request.jobId) ∧ s.jobs = store.jobs
        ∧ count s + rest.length ≤ count store + items.length
        ∧ s.pool.offerAll (rest.map request.offer)
          = store.pool.offerAll (items.zipIdx.map request.offer))
    (fun s item rest s' hI hturn => ?_) ⟨hs, rfl, by simp, rfl⟩ h
  · obtain ⟨hs', hjobs, hcount, hpool⟩ := hloop
    exact ⟨hs', hjobs, by simpa using hcount, hpool⟩
  · obtain ⟨hsound, hjobs, hcount, hpool⟩ := hI
    obtain ⟨score, new, hscore, hturned, hnew⟩ :=
      addSearchItem_turned hsound.triaged hturn
    refine ⟨sound_turn hsound hturned rfl hscore fun snapshot hin => ?_,
      hturned.jobs.trans hjobs, ?_, ?_⟩
    · obtain ⟨hhash, hjob, horganization, hcase, hidentifier⟩ := hnew snapshot hin
      refine ⟨hhash, congrArg some hjob, horganization, hcase, ?_⟩
      rw [hidentifier]
      rfl
    · have hone : new.toList.countP (fun s => s.searchJobId = request.jobId) ≤ 1 :=
        List.countP_le_length.trans (by cases new <;> simp)
      have happend : count s' = count s
          + new.toList.countP fun s => s.searchJobId = request.jobId := by
        show List.countP _ s'.snapshots.rows = _
        rw [hturned.snapshots, List.countP_append]
      rw [List.length_cons] at hcount
      omega
    · rw [← hpool, pool_turn hsound.triaged hturned.placed]
      rfl

omit [JsonNumber ν] in
/-- The loop of an import. -/
theorem import_loop {request : ImportRequest} {items : List (ImportedCandidate ν)}
    (hs : store.Sound sha256 none)
    (hnumbers : ∀ c ∈ items, c.publicationNumberNormalized
      = normalizePubNumber c.publicationNumber)
    (h : items.zipIdx.foldlM (fun store item => store.addImportItem request item) store
      = .ok store') :
    store'.Sound sha256 none
      ∧ store'.pool = store.pool.offerAll (items.zipIdx.map request.offer) := by
  refine foldlM_invariant
    (I := fun (s : PoolStore ν) (rest : List (ImportedCandidate ν × Nat)) =>
      (s.Sound sha256 none
        ∧ s.pool.offerAll (rest.map request.offer)
          = store.pool.offerAll (items.zipIdx.map request.offer))
      ∧ ∀ item ∈ rest, item.1.publicationNumberNormalized
          = normalizePubNumber item.1.publicationNumber)
    (fun s item rest s' hI hturn => ?_) ⟨⟨hs, rfl⟩, fun item hin => ?_⟩ h |>.1
  · obtain ⟨⟨hsound, hpool⟩, hrest⟩ := hI
    obtain ⟨hitem, hrest⟩ := List.forall_mem_cons.mp hrest
    obtain ⟨score, hscore, hturned⟩ := addImportItem_turned hsound.triaged hturn
    refine ⟨⟨sound_turn hsound hturned hitem hscore (by simp), ?_⟩, hrest⟩
    rw [← hpool, pool_turn hsound.triaged hturned.placed]
    rfl
  · exact hnumbers item.1 (List.fst_mem_of_mem_zipIdx hin)

/-- The job of a search is running and has no snapshot. -/
theorem startJob_sound {request : SearchRequest ν} {strategy : Strategy}
    (hs : store.Sound sha256 none) (h : store.startJob request strategy = some store') :
    store'.Sound sha256 (some request.jobId) ∧ store'.pool = store.pool
      ∧ (∀ j ∈ store'.jobs.rows, j.id = request.jobId → j.errorMessage = none)
      ∧ store'.snapshots.rows.countP (fun s => s.searchJobId = request.jobId) = 0 := by
  unfold PoolStore.startJob at h
  obtain ⟨-, -, h⟩ := Option.bind_eq_some_iff.mp h
  obtain ⟨-, -, h⟩ := Option.bind_eq_some_iff.mp h
  obtain ⟨jobs, hinsert, h⟩ := Option.bind_eq_some_iff.mp h
  cases h
  obtain ⟨hfresh, hrows⟩ := Table.insert?_eq_some.mp hinsert
  refine ⟨⟨hs.keys, hs.triaged, hs.numbers, hs.scores, fun j hj hother => ?_,
    fun s hin => ?_⟩, rfl, fun j hj hid => ?_, ?_⟩
  · rw [hrows, List.mem_append, List.mem_singleton] at hj
    rcases hj with hold | rfl
    · exact hs.jobs j hold (by simp)
    · exact absurd rfl hother
  · obtain ⟨hhash, ⟨j, hj, hjob⟩, hcandidate⟩ := hs.snapshots s hin
    refine ⟨hhash, ⟨j, ?_, hjob⟩, hcandidate⟩
    rw [hrows]
    exact List.mem_append_left _ hj
  · rw [hrows, List.mem_append, List.mem_singleton] at hj
    rcases hj with hold | rfl
    · exact (hs.jobs j hold (by simp)).2.1
    · rfl
  · rw [List.countP_eq_zero]
    intro s hin heq
    rw [decide_eq_true_eq] at heq
    obtain ⟨-, ⟨j, hj, hjob, -⟩, -⟩ := hs.snapshots s hin
    exact hfresh (List.mem_map.mpr ⟨j, hj, hjob.trans heq⟩)

omit [JsonNumber ν] in
/-- The job is finished with the number of the items. -/
theorem finishJob_sound {jobId : String} {count : Nat} {now : Timestamp}
    (hs : store.Sound sha256 (some jobId))
    (herror : ∀ j ∈ store.jobs.rows, j.id = jobId → j.errorMessage = none)
    (hcount : store.snapshots.rows.countP (fun s => s.searchJobId = jobId) ≤ count) :
    (store.finishJob jobId count now).Sound sha256 none := by
  refine ⟨hs.keys, hs.triaged, hs.numbers, hs.scores, fun j hj _ => ?_,
    fun s hin => ?_⟩
  · obtain ⟨old, hold, rfl⟩ := List.mem_map.mp hj
    by_cases hid : old.id = jobId
    · rw [if_pos (decide_eq_true hid)]
      refine ⟨rfl, herror old hold hid, rfl, ?_⟩
      show store.snapshots.rows.countP (fun s => s.searchJobId = old.id) ≤ count
      rw [hid]
      exact hcount
    · rw [if_neg (by simpa using hid)]
      exact hs.jobs old hold (by simpa using hid)
  · obtain ⟨hhash, ⟨j, hj, hid, horganization, hcase⟩, hcandidate⟩ :=
      hs.snapshots s hin
    refine ⟨hhash, ⟨_, List.mem_map_of_mem hj, ?_⟩, hcandidate⟩
    split
    · exact ⟨hid, horganization, hcase⟩
    · exact ⟨hid, horganization, hcase⟩

/-- An accepted search. -/
theorem executePublicSearch_sound {request : SearchRequest ν}
    (hs : store.Sound sha256 none)
    (h : store.executePublicSearch jsonbText sha256 request = .ok store') :
    store'.Sound sha256 none
      ∧ store'.pool = PoolRequest.effect store.pool (.search request) := by
  unfold PoolStore.executePublicSearch at h
  cases hstrategy : request.strategy with
  | none =>
      rw [hstrategy] at h
      cases h
  | some strategy =>
      rw [hstrategy] at h
      obtain ⟨started, hstart, h⟩ := bind_eq_ok.mp h
      cases hanswer : request.answer with
      | error raised =>
          rw [hanswer] at h
          cases h
      | ok items =>
          rw [hanswer] at h
          obtain ⟨added, hadded, h⟩ := bind_eq_ok.mp h
          cases h
          obtain ⟨hstarted, hpool, herror, hnone⟩ :=
            startJob_sound hs (execute_eq_ok.mp hstart)
          obtain ⟨hsound, hjobs, hcount, hadd⟩ := search_loop hstarted hadded
          refine ⟨finishJob_sound hsound ?_ ?_, ?_⟩
          · rw [hjobs]
            exact herror
          · omega
          · rw [PoolRequest.effect, PoolRequest.proposed, hanswer, ← hpool]
            · exact hadd
            · rintro t ⟨⟩

end Requests

end PatentEvidence.Search
