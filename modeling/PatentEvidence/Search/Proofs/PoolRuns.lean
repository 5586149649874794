/-
Runs of requests on the candidates of the cases.

What remains of a request is said here: an import reads numbers it has
normalized, and a triage request rewrites the record of one candidate and
nothing else. Then every accepted request keeps `Sound` and has its effect
on the pool (`handle_sound`), so in every state that requests reach the
tables are sound, the pool is what the accepted requests make of an empty
one, and the decision on a candidate is the last one made on it.

# Sections

- imports;
- triage;
- requests;
- listings;
- runs.
-/
import Mathlib.Data.List.Nodup
import PatentEvidence.Search.Proofs.Pool

namespace PatentEvidence.Search

open Fallible Runs

variable {ν : Type}

-- =============================================================== imports

section Imports

variable [Casing]

def ImportedCandidate.Normalized (c : ImportedCandidate ν) : Prop :=
  c.publicationNumberNormalized = normalizePubNumber c.publicationNumber

theorem normalized_rowCandidate {pub : Nat} {columns : CsvColumns}
    {row : List String} {c : ImportedCandidate ν}
    (h : rowCandidate pub columns row = some c) : c.Normalized := by
  unfold rowCandidate at h
  obtain ⟨rawPub, -, h⟩ := Option.bind_eq_some_iff.mp h
  obtain ⟨_, -, h⟩ := Option.bind_eq_some_iff.mp h
  obtain ⟨_, -, h⟩ := Option.bind_eq_some_iff.mp h
  cases h
  rfl

theorem normalized_importFromCsv {csvContent : String}
    {cs : List (ImportedCandidate ν)} (h : importFromCsv csvContent = .ok cs) :
    ∀ c ∈ cs, c.Normalized := by
  unfold importFromCsv at h
  split at h
  · cases h
    simp
  · obtain ⟨rows, -, h⟩ := bind_eq_ok.mp h
    cases rows with
    | nil =>
        cases h
        simp
    | cons header body =>
        intro c hc
        simp only at h
        split at h
        · cases h
          obtain ⟨row, -, hrow⟩ := List.mem_filterMap.mp hc
          exact normalized_rowCandidate hrow
        · cases h
          obtain ⟨row, -, hrow⟩ := List.mem_filterMap.mp hc
          exact normalized_rowCandidate hrow

theorem normalized_importFromText {text : String}
    {cs : List (ImportedCandidate ν)} (h : importFromText text = .ok cs) :
    ∀ c ∈ cs, c.Normalized := by
  unfold importFromText at h
  obtain ⟨read, hread, h⟩ := bind_eq_ok.mp h
  cases h
  intro c hc
  obtain ⟨one, hone, hc⟩ := List.mem_flatten.mp hc
  obtain ⟨line, -, hline⟩ := exists_of_forall₂ (mapM_eq_ok_iff.mp hread) hone
  split at hline
  · exact normalized_importFromCsv hline c hc
  · cases hline
    split at hc
    · rw [List.mem_singleton.mp hc]
      rfl
    · cases hc

theorem normalized_importedCandidates {rawContent : String}
    {cs : List (ImportedCandidate ν)}
    (h : PoolStore.importedCandidates rawContent = .ok cs) :
    ∀ c ∈ cs, c.Normalized := by
  unfold PoolStore.importedCandidates at h
  obtain ⟨table, htable, h⟩ := bind_eq_ok.mp h
  cases table with
  | nil => exact normalized_importFromText h
  | cons c cs =>
      cases h
      exact normalized_importFromCsv htable

end Imports

-- ================================================================ triage

section Triage

variable {store store' : PoolStore ν}

theorem mem_listed {c : SearchCandidateRow ν} {l : PoolStore.ListedCandidate ν}
    (h : l ∈ store.listed c) : l.candidate = c := by
  unfold PoolStore.listed at h
  split at h
  · rw [List.mem_singleton.mp h]
  · obtain ⟨t, -, rfl⟩ := List.mem_map.mp h
    rfl

theorem mem_listCandidates {organizationId caseId : String}
    {triageStatus : Option String} {l : PoolStore.ListedCandidate ν} :
    l ∈ store.listCandidates organizationId caseId triageStatus
      ↔ PoolStore.hasStatus triageStatus l = true
        ∧ ∃ c ∈ store.candidates.rows, c.organizationId = organizationId
          ∧ c.caseId = caseId ∧ l ∈ store.listed c := by
  unfold PoolStore.listCandidates
  simp only [List.mem_insertionSort, List.mem_filter, List.mem_flatMap,
    Bool.and_eq_true, decide_eq_true_eq]
  constructor
  · rintro ⟨⟨c, ⟨hc, hcase, horganization⟩, hl⟩, hstatus⟩
    exact ⟨hstatus, c, hc, horganization, hcase, hl⟩
  · rintro ⟨hstatus, c, hc, horganization, hcase, hl⟩
    exact ⟨⟨c, ⟨hc, hcase, horganization⟩, hl⟩, hstatus⟩

theorem map_id_standings :
    store.standings.map Standing.id = store.candidates.rows.map SearchCandidateRow.id :=
  List.map_map

/-- An id has one candidate. -/
theorem eq_of_standing_id {s s' : Standing} (hs : s ∈ store.standings)
    (hs' : s' ∈ store.standings) (h : s.id = s'.id) : s = s' := by
  obtain ⟨c, hc, rfl⟩ := List.mem_map.mp hs
  obtain ⟨c', hc', rfl⟩ := List.mem_map.mp hs'
  exact congrArg _ (store.candidates.eq_of_key_eq hc hc' h)

/-- What an accepted triage request writes: the record of a candidate of the
case it names. -/
theorem updateTriage_cases {request : TriageRequest}
    {listed : PoolStore.ListedCandidate ν}
    (htriaged : store.triage.rows.map TriageRecord.owner
      = store.standings.map Standing.owner)
    (h : store.updateTriage request = .ok (store', listed)) :
    ∃ triage x, store' = { store with triage := triage }
      ∧ x.decision = request.decision
      ∧ triage.rows = store.triage.rows.map (fun t =>
          if t.candidateId = request.candidateId then PoolStore.retriaged x t else t)
      ∧ ∃ s ∈ store.standings, s.owner
          = (request.candidateId, request.organizationId, request.caseId) := by
  unfold PoolStore.updateTriage at h
  cases hstatus : PoolStore.triageStatusOf request.triageStatus with
  | none =>
      rw [hstatus] at h
      cases h
  | some status =>
      rw [hstatus] at h
      let x : TriageRecord := {
        id := request.drawnId, organizationId := request.organizationId
        caseId := request.caseId, candidateId := request.candidateId
        triageStatus := status, exclusionReason := request.exclusionReason
        notes := request.notes
        triagedByIdentityId := request.actorIdentityId
        triagedAt := request.now }
      obtain ⟨after, hput, h⟩ := bind_eq_ok.mp h
      have hput' := execute_eq_ok.mp hput
      unfold PoolStore.putTriage at hput'
      obtain ⟨_, -, hput'⟩ := Option.bind_eq_some_iff.mp hput'
      obtain ⟨_, hcandidate, hput'⟩ := Option.bind_eq_some_iff.mp hput'
      obtain ⟨triage, hupsert, hput'⟩ := Option.bind_eq_some_iff.mp hput'
      cases hput'
      have hin : request.candidateId
          ∈ store.triage.rows.map TriageRecord.candidateId := by
        rw [candidateIds_eq htriaged, map_id_standings]
        simpa [guard] using hcandidate
      unfold Table.upsert? at hupsert
      rw [if_pos hin] at hupsert
      cases hupsert
      split at h
      · cases h
      · next found hfound =>
          cases h
          refine ⟨_, x, rfl, ?_, ?_, ?_⟩
          · rw [TriageRequest.decision, hstatus]
            rfl
          · refine List.map_congr_left fun t _ => ?_
            simp only [decide_eq_true_eq]
            rfl
          · obtain ⟨-, c, hc, horganization, hcase, hlisted⟩ :=
              mem_listCandidates.mp (List.mem_of_find?_eq_some hfound)
            have hid : listed.candidate.id = request.candidateId := by
              simpa using List.find?_some hfound
            rw [mem_listed hlisted] at hid
            refine ⟨c.standing, List.mem_map_of_mem hc, ?_⟩
            rw [← hid, ← horganization, ← hcase]
            rfl

/-- An accepted triage request. -/
theorem updateTriage_sound [Casing] {sha256 : String → String} {request : TriageRequest}
    {listed : PoolStore.ListedCandidate ν} (hs : store.Sound sha256 none)
    (h : store.updateTriage request = .ok (store', listed)) :
    store'.Sound sha256 none
      ∧ store'.pool = store.pool.amend request.decide := by
  obtain ⟨triage, x, rfl, hx, hrows, s, hin, howner⟩ :=
    updateTriage_cases hs.triaged h
  obtain ⟨hid, hplace⟩ := Prod.mk.inj howner
  obtain ⟨horganization, hcase⟩ := Prod.mk.inj hplace
  refine ⟨⟨hs.keys, ?_, hs.numbers, hs.scores, hs.jobs, hs.snapshots⟩, ?_⟩
  · rw [hrows]
    have howners : ∀ t, (PoolStore.retriaged x t).owner = t.owner := fun _ => rfl
    exact (Table.map_rewrite_of_fixed howners
      (fun t => t.candidateId = request.candidateId) _).trans hs.triaged
  · funext k
    show Option.bind (store.standings.find? fun c => c.poolKey = k) _
      = (Option.bind (store.standings.find? fun c => c.poolKey = k) _).map _
    cases hfind : store.standings.find? (fun c => c.poolKey = k) with
    | none => rfl
    | some c =>
        have hc := List.mem_of_find?_eq_some hfind
        have hk : c.poolKey = k := by simpa using List.find?_some hfind
        -- the candidate is the one of the request where it has its id
        have hnames : request.Names k c ↔ c.id = request.candidateId := by
          unfold TriageRequest.Names
          refine ⟨fun hn => hn.2.2, fun hcid => ?_⟩
          have hsame : c = s := eq_of_standing_id hc hin (hcid.trans hid.symm)
          rw [← hk, hsame]
          exact ⟨horganization, hcase, hid⟩
        obtain ⟨t, ht⟩ := Option.isSome_iff_exists.mp (isSome_record hs.triaged hc)
        have htid : t.candidateId = c.id := by simpa using List.find?_some ht
        have hrecord : triage.rows.find? (fun t => t.candidateId = c.id)
            = some (if t.candidateId = request.candidateId
              then PoolStore.retriaged x t else t) := by
          rw [hrows, List.find?_map]
          have hcomp : (fun t : TriageRecord => decide (t.candidateId = c.id))
              ∘ (fun t => if t.candidateId = request.candidateId
                then PoolStore.retriaged x t else t)
              = fun t : TriageRecord => decide (t.candidateId = c.id) := by
            funext t
            rw [Function.comp_apply]
            split <;> rfl
          rw [hcomp, ht]
          rfl
        show Option.bind (triage.rows.find? fun t => t.candidateId = c.id) _
          = (Option.bind (store.triage.rows.find? fun t => t.candidateId = c.id) _).map _
        rw [hrecord, ht]
        show some (PoolEntry.mk c _) = some (request.decide k ⟨c, t.decision⟩)
        simp only [TriageRequest.decide, htid, hnames]
        split
        · rw [← hx]
          rfl
        · rfl

end Triage

-- ============================================================== requests

section Requests

variable {store store' : PoolStore ν}

/-- A new case changes the list of the cases only. -/
theorem openCase_eq_ok {organizationId caseId : String}
    (h : store.openCase organizationId caseId = .ok store') :
    store' = { store with cases := store.cases ++ [(organizationId, caseId)] } := by
  unfold PoolStore.openCase at h
  split at h
  · cases h
  · exact (Except.ok.inj h).symm

variable [Casing] {jsonbText : String → Option String} {sha256 : String → String}

/-- Nothing is sound. -/
theorem sound_empty : (PoolStore.empty (ν := ν)).Sound sha256 none :=
  ⟨List.nodup_nil, rfl, by simp [PoolStore.standings, PoolStore.empty],
    by simp [PoolStore.empty], by simp [PoolStore.empty], by simp [PoolStore.empty]⟩

/-- An accepted import. -/
theorem importCniprCandidates_sound {request : ImportRequest}
    (hs : store.Sound sha256 none)
    (h : store.importCniprCandidates request = .ok store') :
    store'.Sound sha256 none ∧ store'.pool = store.pool.offerAll
      (((PoolStore.importedCandidates (ν := ν)
        request.rawContent).toOption.getD []).zipIdx.map request.offer) := by
  unfold PoolStore.importCniprCandidates at h
  obtain ⟨candidates, hread, h⟩ := bind_eq_ok.mp h
  split at h
  · cases h
  · rw [hread]
    exact import_loop hs (normalized_importedCandidates hread) h

variable [JsonNumber ν]

/-- An accepted request keeps the invariant and has its effect. -/
theorem handle_sound {request : PoolRequest ν} (hs : store.Sound sha256 none)
    (h : store.handle jsonbText sha256 request = .ok store') :
    store'.Sound sha256 none ∧ store'.pool = PoolRequest.effect store.pool request := by
  cases request with
  | openCase organizationId caseId =>
      rw [openCase_eq_ok h]
      exact ⟨⟨hs.keys, hs.triaged, hs.numbers, hs.scores, hs.jobs, hs.snapshots⟩, rfl⟩
  | search request => exact executePublicSearch_sound hs h
  | importCnipr request => exact importCniprCandidates_sound hs h
  | triage request =>
      change (store.updateTriage request).map Prod.fst = .ok store' at h
      cases hupdate : store.updateTriage request with
      | error e =>
          rw [hupdate] at h
          cases h
      | ok done =>
          rw [hupdate] at h
          cases h
          exact updateTriage_sound hs hupdate

/-- The decision an accepted request makes on the candidate under a key. -/
def PoolRequest.decisionOn (k : PoolKey) (s : Standing) :
    PoolRequest ν → Option TriageDecision
  | .triage request => if request.Names k s then some request.decision else none
  | _ => none

/-- What is in the pool stays, and the last decision on it counts. -/
theorem effects_of_some {pool : Pool PoolKey PoolEntry} {k : PoolKey} {e : PoolEntry}
    (h : pool k = some e) (requests : List (PoolRequest ν)) :
    requests.foldl PoolRequest.effect pool k = some ⟨e.standing,
      (requests.filterMap (PoolRequest.decisionOn k e.standing)).getLast?.getD
        e.decision⟩ := by
  induction requests generalizing pool e with
  | nil => exact h
  | cons request requests ih =>
      have hone : PoolRequest.effect pool request k = some ⟨e.standing,
          (request.decisionOn k e.standing).getD e.decision⟩ := by
        cases request with
        | openCase _ _ => exact h
        | search request => exact Pool.offerAll_of_some h _
        | importCnipr request => exact Pool.offerAll_of_some h _
        | triage request =>
            show (pool k).map (request.decide k) = _
            rw [h, Option.map_some, TriageRequest.decide, PoolRequest.decisionOn]
            split <;> rfl
      rw [List.foldl_cons, ih hone, List.filterMap_cons]
      cases request.decisionOn k e.standing with
      | none => rfl
      | some d => rw [List.getLast?_cons, Option.getD_some, Option.getD_some]

theorem effect_eq_offerAll {request : PoolRequest ν} (h : ∀ t, request ≠ .triage t)
    (pool : Pool PoolKey PoolEntry) :
    PoolRequest.effect pool request = pool.offerAll request.proposed := by
  cases request with
  | openCase _ _ => rfl
  | search _ => rfl
  | importCnipr _ => rfl
  | triage t => exact absurd rfl (h t)

/-- A proposal comes with the decision a candidate begins with. -/
theorem decision_of_proposed {request : PoolRequest ν} {o : PoolKey × PoolEntry}
    (h : o ∈ request.proposed) : ∃ actorIdentityId now,
      o.2.decision = .first actorIdentityId now := by
  cases request with
  | openCase _ _ => cases h
  | search request =>
      obtain ⟨item, -, rfl⟩ := List.mem_map.mp h
      exact ⟨_, _, rfl⟩
  | importCnipr request =>
      obtain ⟨item, -, rfl⟩ := List.mem_map.mp h
      exact ⟨_, _, rfl⟩
  | triage _ => cases h

/-- What a request puts in the pool it has proposed. -/
theorem mem_proposed_of_effect {request : PoolRequest ν}
    {pool : Pool PoolKey PoolEntry} {k : PoolKey} {e : PoolEntry}
    (hnone : pool k = none) (h : PoolRequest.effect pool request k = some e) :
    (k, e) ∈ request.proposed := by
  cases request with
  | openCase _ _ => exact Pool.mem_of_offerAll hnone h
  | search _ => exact Pool.mem_of_offerAll hnone h
  | importCnipr _ => exact Pool.mem_of_offerAll hnone h
  | triage request =>
      change (pool k).map (request.decide k) = some e at h
      rw [hnone] at h
      cases h

/-- What is proposed in the course of some requests is there after them. -/
theorem isSome_proposed {pool : Pool PoolKey PoolEntry} {r : PoolRequest ν}
    {rs : List (PoolRequest ν)} (hr : r ∈ rs) {o : PoolKey × PoolEntry}
    (ho : o ∈ r.proposed) : (rs.foldl PoolRequest.effect pool o.1).isSome = true := by
  induction rs generalizing pool with
  | nil => cases hr
  | cons r' rs ih =>
      rw [List.foldl_cons]
      rcases List.mem_cons.mp hr with rfl | hr
      · have hnew : ∀ t, r ≠ .triage t := by
          rintro t rfl
          cases ho
        have hone : (PoolRequest.effect pool r o.1).isSome = true := by
          rw [effect_eq_offerAll hnew]
          exact Pool.isSome_offerAll ho
        obtain ⟨e, he⟩ := Option.isSome_iff_exists.mp hone
        rw [effects_of_some he]
        rfl
      · exact ih hr

end Requests

-- ============================================================== listings

section Listings

variable {store : PoolStore ν} {sha256 : String → String}

/-- The entry of a listing shows what is in the pool. -/
def PoolStore.ListedCandidate.Shows (l : PoolStore.ListedCandidate ν)
    (e : PoolEntry) : Prop :=
  l.candidate.standing = e.standing ∧ l.triageStatus = e.decision.status
    ∧ l.exclusionReason = e.decision.exclusionReason ∧ l.notes = e.decision.notes
    ∧ l.triagedAt = some e.decision.triagedAt

/-- A listing of a case is in order and shows each candidate once: every one
that is in the pool with the status, and no other. -/
structure PoolStore.Lists (store : PoolStore ν) (organizationId caseId : String)
    (triageStatus : Option String) (listing : List (PoolStore.ListedCandidate ν)) :
    Prop where
  sorted : listing.Pairwise PoolStore.before
  once : (listing.map fun l => l.candidate.id).Nodup
  shown : ∀ l ∈ listing, PoolStore.hasStatus triageStatus l = true
    ∧ ∃ e, l.Shows e ∧ store.pool
      ⟨organizationId, caseId, l.candidate.publicationNumberNormalized⟩ = some e
  complete : ∀ number e, store.pool ⟨organizationId, caseId, number⟩ = some e →
    ∃ l, l.Shows e ∧ (PoolStore.hasStatus triageStatus l = true → l ∈ listing)

instance : Std.Total (PoolStore.before (ν := ν)) := ⟨fun a b => by
  rcases Nat.lt_trichotomy a.candidate.relevanceScore b.candidate.relevanceScore
    with h | h | h
  · exact .inr (.inl h)
  · rcases Int.le_total a.candidate.createdAt b.candidate.createdAt with ht | ht
    · exact .inr (.inr ⟨h, ht⟩)
    · exact .inl (.inr ⟨h.symm, ht⟩)
  · exact .inl (.inl h)⟩

instance : IsTrans _ (PoolStore.before (ν := ν)) := ⟨fun a b c hab hbc => by
  rcases hab with h | ⟨h, ht⟩
  · rcases hbc with h' | ⟨h', -⟩
    · exact .inl (h'.trans h)
    · exact .inl (h'.trans_lt h)
  · rcases hbc with h' | ⟨h', ht'⟩
    · exact .inl (h'.trans_eq h)
    · exact .inr ⟨h'.trans h, Int.le_trans ht' ht⟩⟩

variable [Casing]

/-- A candidate has one entry, which shows what is in the pool. -/
theorem listed_eq (hs : store.Sound sha256 none) {c : SearchCandidateRow ν}
    (hc : c ∈ store.candidates.rows) :
    ∃ l e, store.listed c = [l] ∧ l.candidate = c ∧ l.Shows e
      ∧ store.pool c.poolKey = some e := by
  have hin : c.standing ∈ store.standings := List.mem_map_of_mem hc
  have hids : (store.triage.rows.map TriageRecord.candidateId).Nodup := by
    rw [candidateIds_eq hs.triaged, map_id_standings]
    exact store.candidates.nodup
  obtain ⟨t, ht⟩ : ∃ t, store.triage.rows.find? (fun t => t.candidateId = c.id) = some t :=
    Option.isSome_iff_exists.mp (isSome_record hs.triaged hin)
  have htid : t.candidateId = c.id := by simpa using List.find?_some ht
  have hrecords : store.triage.rows.filter (fun r => r.candidateId = c.id) = [t] := by
    rw [← htid]
    exact Table.filter_key_eq hids (List.mem_of_find?_eq_some ht)
  have hfind : store.standings.find? (fun s => s.poolKey = c.poolKey)
      = some c.standing := by
    rw [← List.head?_filter]
    exact congrArg List.head? (Table.filter_key_eq hs.keys hin)
  refine ⟨⟨c, t.triageStatus, t.exclusionReason, t.notes, some t.triagedAt⟩,
    ⟨c.standing, t.decision⟩, ?_, rfl, ⟨rfl, rfl, rfl, rfl, rfl⟩, ?_⟩
  · unfold PoolStore.listed
    rw [hrecords]
    rfl
  · unfold PoolStore.pool
    rw [hfind]
    show Option.bind (store.triage.rows.find? fun t => t.candidateId = c.id) _ = _
    rw [ht]
    rfl

theorem lists_of_sound (hs : store.Sound sha256 none) (organizationId caseId : String)
    (triageStatus : Option String) :
    store.Lists organizationId caseId triageStatus
      (store.listCandidates organizationId caseId triageStatus) where
  sorted := List.pairwise_insertionSort ..
  once := by
    unfold PoolStore.listCandidates
    refine ((List.perm_insertionSort _ _).map _).nodup_iff.mpr ?_
    refine (List.filter_sublist.map _).nodup ?_
    rw [List.map_flatMap]
    have hone : ∀ c ∈ store.candidates.rows.filter (fun c =>
        c.caseId = caseId && c.organizationId = organizationId),
        (store.listed c).map (fun l => l.candidate.id) = [c.id] := by
      intro c hc
      obtain ⟨l, -, hlisted, rfl, -⟩ := listed_eq hs (List.mem_of_mem_filter hc)
      rw [hlisted]
      rfl
    rw [List.flatMap_congr hone, ← List.map_eq_flatMap]
    exact (List.filter_sublist.map _).nodup store.candidates.nodup
  shown := by
    intro l hl
    obtain ⟨hstatus, c, hc, rfl, rfl, hlisted⟩ := mem_listCandidates.mp hl
    obtain ⟨l', e, hone, rfl, hshows, hpool⟩ := listed_eq hs hc
    rw [hone, List.mem_singleton] at hlisted
    subst hlisted
    exact ⟨hstatus, e, hshows, hpool⟩
  complete := by
    intro number e hpool
    obtain ⟨s, hs', -⟩ := Option.bind_eq_some_iff.mp hpool
    obtain ⟨c, hc, rfl⟩ := List.mem_map.mp (List.mem_of_find?_eq_some hs')
    have hkey : c.poolKey = ⟨organizationId, caseId, number⟩ := by
      have hfound := List.find?_some hs'
      rw [decide_eq_true_eq] at hfound
      exact hfound
    obtain ⟨l, e', hone, -, hshows, hpool'⟩ := listed_eq hs hc
    rw [hkey, hpool] at hpool'
    cases hpool'
    refine ⟨l, hshows, fun hstatus => mem_listCandidates.mpr ⟨hstatus, c, hc, ?_⟩⟩
    injection hkey with horganization hcase
    exact ⟨horganization, hcase, by rw [hone]; exact List.mem_singleton_self _⟩

end Listings

-- ================================================================== runs

section Runs

variable [Casing] [JsonNumber ν] (jsonbText : String → Option String)
  (sha256 : String → String)

/-- What requests leave is sound. -/
theorem sound_after (requests : List (PoolRequest ν)) :
    (run (afterPool jsonbText sha256) .empty requests).Sound sha256 none :=
  run_after_invariant (fun _ _ _ hs h => (handle_sound hs h).1) sound_empty
    requests

/-- In every state that requests reach: two candidates of a case are two
publications, every candidate has one triage record, which is of its case,
scores are from 10 to 100, every job there is has ended, with at least as
many results as snapshots, and every snapshot is of a candidate and a job
of its case, under the digest of what it holds. -/
theorem pool_always (requests : List (PoolRequest ν)) :
    Always (afterPool jsonbText sha256) (PoolStore.Sound sha256 none) .empty
      requests :=
  fun done _ => sound_after jsonbText sha256 done

/-- Requests do to the pool what those of them do that are accepted. -/
theorem pool_of_run {store : PoolStore ν} (hs : store.Sound sha256 none)
    (requests : List (PoolRequest ν)) :
    (run (afterPool jsonbText sha256) store requests).pool
      = (accepted (PoolStore.handle jsonbText sha256) store requests).foldl
          PoolRequest.effect store.pool := by
  have hstep : ∀ (s : PoolStore ν) r s', s.Sound sha256 none →
      s.handle jsonbText sha256 r = .ok s' → s'.pool = PoolRequest.effect s.pool r :=
    fun _ _ _ hs h => (handle_sound hs h).2
  exact run_after_refines (fun _ _ _ hs h => (handle_sound hs h).1) hstep hs requests

/-- What requests leave of a pool is what those of them that are accepted
make of an empty one. -/
theorem pool_runs_refine (requests : List (PoolRequest ν)) :
    (run (afterPool jsonbText sha256) .empty requests).pool
      = (accepted (PoolStore.handle jsonbText sha256) .empty requests).foldl
          PoolRequest.effect Pool.empty :=
  pool_of_run jsonbText sha256 sound_empty requests

/-- A listing shows what the requests have left in the pool. -/
theorem listing_shows_pool (requests : List (PoolRequest ν))
    (organizationId caseId : String) (triageStatus : Option String) :
    (run (afterPool jsonbText sha256) .empty requests).Lists organizationId caseId
      triageStatus ((run (afterPool jsonbText sha256) .empty requests).listCandidates
        organizationId caseId triageStatus) :=
  lists_of_sound (sound_after jsonbText sha256 requests) organizationId caseId
    triageStatus

/-- What is in the pool stays there whatever later requests do, with the
decision of the last accepted triage request about it. -/
theorem pool_after {k : PoolKey} {e : PoolEntry} {requests : List (PoolRequest ν)}
    (h : (run (afterPool jsonbText sha256) .empty requests).pool k = some e)
    (later : List (PoolRequest ν)) :
    (run (afterPool jsonbText sha256) .empty (requests ++ later)).pool k
      = some ⟨e.standing, (((accepted (PoolStore.handle jsonbText sha256)
          (run (afterPool jsonbText sha256) .empty requests) later).filterMap
            (PoolRequest.decisionOn k e.standing)).getLast?).getD e.decision⟩ := by
  have hlater :=
    pool_of_run jsonbText sha256 (sound_after jsonbText sha256 requests) later
  rw [run_append]
  exact (congrFun hlater k).trans (effects_of_some h _)

/-- A request that finds a candidate where none was proposes it. -/
theorem mem_proposed_of_found {requests : List (PoolRequest ν)}
    {request : PoolRequest ν} {k : PoolKey} {e : PoolEntry}
    (hnone : (run (afterPool jsonbText sha256) .empty requests).pool k = none)
    (h : (run (afterPool jsonbText sha256) .empty (requests ++ [request])).pool k
      = some e) : (k, e) ∈ request.proposed := by
  let store := run (afterPool jsonbText sha256) .empty requests
  rw [run_append] at h
  change (settle store (store.handle jsonbText sha256 request)).pool k = some e at h
  cases hhandle : store.handle jsonbText sha256 request with
  | error _ =>
      rw [hhandle, settle_error, hnone] at h
      cases h
  | ok store' =>
      have hs := sound_after jsonbText sha256 requests
      rw [hhandle, settle_ok, (handle_sound hs hhandle).2] at h
      exact mem_proposed_of_effect hnone h

/-- A candidate in the pool was put there, with a pending decision, by a
request that proposed it; it keeps its row whatever later requests do, and
the decision on it is that of the last accepted triage request since about
it. -/
theorem triage_decisions_survive (requests later : List (PoolRequest ν))
    {k : PoolKey} {e : PoolEntry}
    (h : (run (afterPool jsonbText sha256) .empty requests).pool k = some e) :
    (∃ before request after actorIdentityId now,
        requests = before ++ request :: after
          ∧ (run (afterPool jsonbText sha256) .empty before).pool k = none
          ∧ (k, PoolEntry.mk e.standing (.first actorIdentityId now))
            ∈ request.proposed
          ∧ e.decision = (((accepted (PoolStore.handle jsonbText sha256)
              (run (afterPool jsonbText sha256) .empty (before ++ [request]))
              after).filterMap (PoolRequest.decisionOn k e.standing)).getLast?).getD
                (.first actorIdentityId now))
      ∧ (run (afterPool jsonbText sha256) .empty (requests ++ later)).pool k
        = some ⟨e.standing, (((accepted (PoolStore.handle jsonbText sha256)
            (run (afterPool jsonbText sha256) .empty requests) later).filterMap
              (PoolRequest.decisionOn k e.standing)).getLast?).getD e.decision⟩ := by
  refine ⟨?_, pool_after jsonbText sha256 h later⟩
  have hempty : ¬ (PoolStore.empty (ν := ν)).pool k ≠ none := not_not.mpr rfl
  have hthere : (run (afterPool jsonbText sha256) .empty requests).pool k ≠ none :=
    h ▸ Option.some_ne_none e
  obtain ⟨before, request, after, rfl, hnone, hsome⟩ :=
    exists_first (I := fun store : PoolStore ν => store.pool k ≠ none) hempty hthere
  rw [not_not] at hnone
  obtain ⟨found, hfound⟩ := Option.ne_none_iff_exists'.mp hsome
  have hfound' : (run (afterPool jsonbText sha256) .empty
      (before ++ [request])).pool k = some found := by
    rw [run_append]
    exact hfound
  have hproposed := mem_proposed_of_found jsonbText sha256 hnone hfound'
  obtain ⟨actorIdentityId, now, hfirst⟩ := decision_of_proposed hproposed
  have hlast := pool_after jsonbText sha256 hfound' after
  rw [List.append_assoc, List.singleton_append, h, Option.some.injEq] at hlast
  subst hlast
  refine ⟨before, request, after, actorIdentityId, now, rfl, hnone, ?_, ?_⟩
  · rw [← hfirst]
    exact hproposed
  · rw [← hfirst]

/-- A search or an import of publications that accepted requests have all
proposed before changes no candidate's row and no decision, and adds none. -/
theorem known_publications_change_nothing (requests : List (PoolRequest ν))
    {request : PoolRequest ν} (hnew : ∀ t, request ≠ .triage t)
    (hknown : ∀ o ∈ request.proposed,
      ∃ r ∈ accepted (PoolStore.handle jsonbText sha256) .empty requests,
        o.1 ∈ r.proposed.map Prod.fst) :
    (run (afterPool jsonbText sha256) .empty (requests ++ [request])).pool
      = (run (afterPool jsonbText sha256) .empty requests).pool := by
  rw [run_append]
  let store := run (afterPool jsonbText sha256) .empty requests
  show (settle store (store.handle jsonbText sha256 request)).pool = store.pool
  cases h : store.handle jsonbText sha256 request with
  | error e => rfl
  | ok store' =>
      have hs := sound_after jsonbText sha256 requests
      rw [settle_ok, (handle_sound hs h).2, effect_eq_offerAll hnew]
      refine Pool.offerAll_of_kept fun o ho => ?_
      obtain ⟨r, hr, hin⟩ := hknown o ho
      obtain ⟨p, hp, heq⟩ := List.mem_map.mp hin
      have hpool := pool_runs_refine jsonbText sha256 requests
      rw [← heq, hpool]
      exact isSome_proposed hr hp

end Runs

section Examples

local instance poolCasing : Casing := ⟨id, id⟩

/-- A search that finds one publication. -/
def hingeSearch : SearchRequest Int where
  organizationId := "org"
  caseId := "case"
  strategy := some ⟨"", "hinge", [], []⟩
  answer := .ok [{
    publicationNumber := "CN-1", title := "hinge", abstract := ""
    sameType := by simp, sameIdentifier := by simp, sameUrl := by simp }]
  actorIdentityId := "ada"
  sourceType := "google_patents"
  jobId := "job"
  drawn := fun _ => ⟨"candidate", "snapshot", "record"⟩
  startedAt := 1
  resultsReceivedAt := 2
  finishedAt := 3

/-- A decision on what it found. -/
def hingeTriage (triageStatus : String) (now : Timestamp) : TriageRequest where
  organizationId := "org"
  caseId := "case"
  candidateId := "candidate"
  triageStatus := triageStatus
  exclusionReason := none
  notes := none
  actorIdentityId := "ada"
  drawnId := "other"
  now := now

/-- What it found. -/
def hingeEntry : PoolEntry where
  standing := ⟨"candidate", "org", "case", "CN-1", "CN1", none, none, none,
    "google_patents", 2⟩
  decision := .first "ada" 2

theorem triage_decisions_survive_excluded :
    (run (afterPool (fun _ => none) id) .empty
        [.openCase "org" "case", .search hingeSearch]).pool ⟨"org", "case", "CN1"⟩
        = some hingeEntry
      ∧ (run (afterPool (fun _ => none) id) .empty
          ([.openCase "org" "case", .search hingeSearch]
            ++ [.triage (hingeTriage "included" 4), .triage (hingeTriage "excluded" 5),
              .triage (hingeTriage "maybe" 6)])).pool ⟨"org", "case", "CN1"⟩
        = some ⟨hingeEntry.standing, (hingeTriage "excluded" 5).decision⟩ :=
  ⟨rfl, (triage_decisions_survive (e := hingeEntry) (fun _ => none) id
    [.openCase "org" "case", .search hingeSearch] _ rfl).2.trans rfl⟩

/-- The search once more. -/
def hingeAgain : SearchRequest Int :=
  { hingeSearch with jobId := "again", drawn := fun _ => ⟨"other", "copy", "more"⟩ }

theorem known_publications_change_nothing_searched :
    (accepted (PoolStore.handle (fun _ => none) id) .empty
        [.openCase "org" "case", .search hingeSearch, .search hingeAgain]).length = 3
      ∧ (run (afterPool (fun _ => none) id) .empty
          ([.openCase "org" "case", .search hingeSearch] ++ [.search hingeAgain])).pool
        = (run (afterPool (fun _ => none) id) .empty
            [.openCase "org" "case", .search hingeSearch]).pool := by
  refine ⟨rfl, known_publications_change_nothing (fun _ => none) id _
    (by rintro t ⟨⟩) fun o ho => ⟨.search hingeSearch, ?_, ?_⟩⟩
  · exact List.mem_cons_of_mem _ (List.mem_cons_self ..)
  · rw [List.mem_singleton.mp ho]
    exact List.mem_singleton_self _

end Examples

end PatentEvidence.Search
