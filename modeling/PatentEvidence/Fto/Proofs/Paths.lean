/-
`dependency_paths` against the chains of the claim graph.

A claim set is a graph of alternatives (`ClaimSet.alternatives`): a
claim's `depends_on` names the claims it may rest on. This file shows
that the source's depth-first `walk`, with its shared path list, its
truncation flag and its cycle stop, computes the first `limit` entries
of `Chains.chainsFrom`, and hence (`mem_allPaths_iff`) lists the
cycle-free chains from an independent claim and nothing else.

The fuel argument is discharged here too: a suffix never repeats a
claim, so it never outgrows the claim list (`suffix_length_le`).
-/
import PatentEvidence.Lib.ChainOrder
import PatentEvidence.Lib.Fallible
import PatentEvidence.Fto.Chart

namespace PatentEvidence.Fto

open Chains Fallible

namespace ClaimSet

variable {cs : ClaimSet}

-- ====================================================== the claim graph

/-- The alternatives a claim number names, if the claim exists. -/
def alternatives (cs : ClaimSet) (n : Int) : Option (List Int) :=
  (cs.claims.find? fun c => c.number = n).map Claim.dependsOn

/-- Every reference names an existing claim. -/
def Closed (cs : ClaimSet) : Prop :=
  ∀ c ∈ cs.claims, ∀ p ∈ c.dependsOn, p ∈ cs.numbers

/-- So does every reference of a claim that is found under its number. -/
def Resolved (cs : ClaimSet) : Prop :=
  ∀ n c, cs.claim n = .ok c → ∀ p ∈ c.dependsOn, p ∈ cs.numbers

/-- No claim depends on itself, directly or through others. -/
def Acyclic (cs : ClaimSet) : Prop :=
  ∀ n, ¬ Relation.TransGen (RestsOn cs.alternatives) n n

/-- A cycle-free dependency path: from an independent claim (first) down
to `n` (last), no claim twice. -/
def IsDependencyPath (cs : ClaimSet) (n : Int) (path : List Int) : Prop :=
  Chain cs.alternatives n path ∧ path.Nodup

theorem claim_eq_ok {n : Int} {c : Claim} :
    cs.claim n = .ok c
      ↔ cs.claims.find? (fun c => c.number = n) = some c := by
  unfold claim
  split
  · next c' h => simp [h]
  · next h => simp [h]

/-- A claim found under a number is a claim of the set with that
number. -/
theorem claim_mem {n : Int} {c : Claim} (h : cs.claim n = .ok c) :
    c ∈ cs.claims ∧ c.number = n := by
  rw [claim_eq_ok] at h
  exact ⟨List.mem_of_find?_eq_some h, by simpa using List.find?_some h⟩

/-- The lookup succeeds exactly on the set's numbers. -/
theorem exists_claim_iff {n : Int} :
    (∃ c, cs.claim n = .ok c) ↔ n ∈ cs.numbers := by
  constructor
  · rintro ⟨c, hc⟩
    obtain ⟨hmem, rfl⟩ := claim_mem hc
    exact List.mem_map_of_mem hmem
  · intro h
    obtain ⟨c, hc, hn⟩ := List.mem_map.mp h
    cases hf : cs.claims.find? (fun c => c.number = n) with
    | some c' => exact ⟨c', claim_eq_ok.mpr hf⟩
    | none =>
        have := List.find?_eq_none.mp hf c hc
        simp [hn] at this

/-- A number that names no claim raises. -/
theorem claim_eq_error {n : Int} (h : n ∉ cs.numbers) :
    cs.claim n = .error (.keyError n) := by
  unfold claim
  split
  · next c hc => exact absurd (exists_claim_iff.mp ⟨c, claim_eq_ok.mpr hc⟩) h
  · rfl

theorem alternatives_of_claim {n : Int} {c : Claim}
    (h : cs.claim n = .ok c) : cs.alternatives n = some c.dependsOn := by
  rw [claim_eq_ok] at h
  simp [alternatives, h]

theorem alternatives_eq_some {n : Int} {ps : List Int} :
    cs.alternatives n = some ps
      ↔ ∃ c, cs.claim n = .ok c ∧ c.dependsOn = ps := by
  simp only [alternatives, Option.map_eq_some_iff, claim_eq_ok]

theorem Closed.resolved (hcl : cs.Closed) : cs.Resolved :=
  fun _ c hc p hp => hcl c (claim_mem hc).1 p hp

/-- In a closed set every existing claim rests on existing claims. -/
theorem Closed.resolves (hcl : cs.Closed) {n : Int} (hn : n ∈ cs.numbers) :
    ∃ ps, cs.alternatives n = some ps ∧ ∀ p ∈ ps, p ∈ cs.numbers := by
  obtain ⟨c, hc⟩ := exists_claim_iff.mpr hn
  exact ⟨c.dependsOn, alternatives_of_claim hc, hcl c (claim_mem hc).1⟩

/-- Claims that only refer back to smaller numbers form no cycle. -/
theorem acyclic_of_earlier
    (h : ∀ c ∈ cs.claims, ∀ p ∈ c.dependsOn, p < c.number) : cs.Acyclic := by
  have hstep : ∀ {n p : Int}, RestsOn cs.alternatives n p → p < n := by
    rintro n p ⟨ps, hps, hp⟩
    obtain ⟨c, hc, rfl⟩ := alternatives_eq_some.mp hps
    obtain ⟨hmem, hnum⟩ := claim_mem hc
    exact hnum ▸ h c hmem p hp
  have hlt : ∀ {n p : Int},
      Relation.TransGen (RestsOn cs.alternatives) n p → p < n := by
    intro n p hp
    induction hp with
    | single hr => exact hstep hr
    | tail _ hr ih => exact lt_trans (hstep hr) ih
  exact fun n hn => lt_irrefl n (hlt hn)

/-- A repetition-free list of existing claims is no longer than the
set. -/
theorem suffix_length_le {suffix : List Int} (hnd : suffix.Nodup)
    (hsub : suffix ⊆ cs.numbers) : suffix.length ≤ cs.claims.length := by
  have h := (hnd.subperm hsub).length_le
  rwa [numbers, List.length_map] at h

-- ========================================================= the walk

/-- Found paths appended to a search: the list is cut at the limit, and
cutting it raises the flag for good. -/
def PathSearch.extend (limit : Int) (search : PathSearch)
    (new : List (List Int)) : PathSearch :=
  if search.truncated then search
  else
    { paths := (search.paths ++ new).take limit.toNat
      truncated := decide (limit.toNat < (search.paths ++ new).length) }

/-- A search state the walk can be in: within the limit. -/
def PathSearch.Within (limit : Int) (search : PathSearch) : Prop :=
  search.paths.length ≤ limit.toNat

theorem PathSearch.extend_nil {limit : Int} {search : PathSearch}
    (h : search.Within limit) : search.extend limit [] = search := by
  obtain ⟨paths, truncated⟩ := search
  cases truncated with
  | true => rfl
  | false =>
      have hlen : paths.length ≤ limit.toNat := h
      simp [PathSearch.extend, List.take_of_length_le hlen, hlen]

theorem PathSearch.within_extend {limit : Int} {search : PathSearch}
    {new : List (List Int)} (h : search.Within limit) :
    (search.extend limit new).Within limit := by
  unfold PathSearch.extend
  split
  · exact h
  · exact (List.length_take_le ..)

/-- Appending in two batches is appending once. -/
theorem PathSearch.extend_append {limit : Int} {search : PathSearch}
    {a b : List (List Int)} :
    (search.extend limit a).extend limit b = search.extend limit (a ++ b) := by
  obtain ⟨paths, truncated⟩ := search
  cases truncated with
  | true => rfl
  | false =>
      by_cases hlt : limit.toNat < (paths ++ a).length
      · have hlt' : limit.toNat < (paths ++ (a ++ b)).length := by
          simp only [List.length_append] at hlt ⊢
          omega
        have htake : (paths ++ (a ++ b)).take limit.toNat
            = (paths ++ a).take limit.toNat := by
          rw [← List.append_assoc,
            List.take_append_of_le_length (Nat.le_of_lt hlt)]
        simp only [PathSearch.extend, Bool.false_eq_true, if_false, hlt,
          decide_true, if_true, hlt', htake]
      · have htake : (paths ++ a).take limit.toNat = paths ++ a :=
          List.take_of_length_le (Nat.le_of_not_lt hlt)
        simp only [PathSearch.extend, Bool.false_eq_true, if_false, hlt,
          decide_false, htake, List.append_assoc]

/-- The parents' loop, given what each parent's walk does. -/
private theorem foldlM_walk {limit : Int} {f : PathSearch → Int →
    Except ChartError PathSearch} {g : Int → List (List Int)} :
    ∀ (ps : List Int) (search : PathSearch), search.Within limit →
      (∀ p ∈ ps, ∀ search : PathSearch, search.Within limit →
        f search p = .ok (search.extend limit (g p))) →
      ps.foldlM f search = .ok (search.extend limit (ps.flatMap g)) := by
  intro ps
  induction ps with
  | nil =>
      intro search hw _
      rw [List.foldlM_nil, List.flatMap_nil, PathSearch.extend_nil hw]
      rfl
  | cons p ps ih =>
      intro search hw hf
      rw [List.foldlM_cons, hf p (List.mem_cons_self ..) search hw]
      show ps.foldlM f (search.extend limit (g p)) = _
      rw [ih _ (PathSearch.within_extend hw)
          fun q hq => hf q (List.mem_cons_of_mem _ hq),
        PathSearch.extend_append, List.flatMap_cons]

/-- The walk appends the enumerated chains, cut at the limit. The fuel
covers every claim not yet on the suffix. -/
theorem walk_eq (hres : cs.Resolved) (limit : Int) :
    ∀ (fuel : Nat) {n : Int} {suffix : List Int} {search : PathSearch},
      n ∈ cs.numbers → suffix.Nodup → suffix ⊆ cs.numbers →
      cs.claims.length < fuel + suffix.length → search.Within limit →
      walk cs limit fuel n suffix search
        = .ok (search.extend limit (chainsFrom cs.alternatives fuel n suffix)) := by
  intro fuel
  induction fuel with
  | zero =>
      intro n suffix search _ hnd hsub hfuel _
      have := suffix_length_le hnd hsub
      omega
  | succ fuel ih =>
      intro n suffix search hn hnd hsub hfuel hw
      cases htr : search.truncated with
      | true => simp [walk, htr, PathSearch.extend]
      | false =>
          by_cases hmem : n ∈ suffix
          · simp [walk, htr, hmem, chainsFrom, PathSearch.extend_nil hw]
          · obtain ⟨c, hc⟩ := exists_claim_iff.mpr hn
            have halt := alternatives_of_claim hc
            have hstep : walk cs limit (fuel + 1) n suffix search
                = if c.dependsOn = [] then
                    if limit ≤ search.paths.length then
                      .ok { search with truncated := true }
                    else .ok { search with
                      paths := search.paths ++ [n :: suffix] }
                  else c.dependsOn.foldlM (fun search parent =>
                    walk cs limit fuel parent (n :: suffix) search) search := by
              simp only [walk, htr, hmem, hc, Bool.false_eq_true, if_false]
              rfl
            rw [hstep]
            by_cases hroot : c.dependsOn = []
            · -- an independent claim: one path, or the limit is reached
              have hlist : chainsFrom cs.alternatives (fuel + 1) n suffix
                  = [n :: suffix] := by
                simp [chainsFrom, hmem, halt, hroot]
              rw [if_pos hroot, hlist]
              unfold PathSearch.extend
              rw [htr]
              simp only [Bool.false_eq_true, if_false, List.length_append,
                List.length_singleton]
              have hlen : search.paths.length ≤ limit.toNat := hw
              by_cases hlim : limit ≤ search.paths.length
              · have heq : limit.toNat = search.paths.length := by omega
                rw [if_pos hlim, heq, List.take_left]
                simp
              · rw [if_neg hlim, List.take_of_length_le (by
                  rw [List.length_append, List.length_singleton]
                  omega)]
                have : ¬ limit.toNat < search.paths.length + 1 := by omega
                simp [this]
            · -- a dependent claim: its parents' walks in order
              have hlist : chainsFrom cs.alternatives (fuel + 1) n suffix
                  = c.dependsOn.flatMap fun p =>
                      chainsFrom cs.alternatives fuel p (n :: suffix) := by
                cases hd : c.dependsOn with
                | nil => exact absurd hd hroot
                | cons p ps => simp [chainsFrom, hmem, halt, hd]
              rw [if_neg hroot, hlist]
              refine foldlM_walk _ _ hw fun p hp search hw => ?_
              refine ih (hres _ c hc p hp)
                (List.nodup_cons.mpr ⟨hmem, hnd⟩)
                (List.cons_subset.mpr ⟨hn, hsub⟩) ?_ hw
              rw [List.length_cons]
              omega

-- ==================================================== dependency_paths

/-- Every dependency path of a claim, in the order the source finds
them. -/
def allPaths (cs : ClaimSet) (n : Int) : List (List Int) :=
  chainsFrom cs.alternatives (cs.claims.length + 1) n []

/-- The enumeration lists exactly the cycle-free dependency paths. -/
theorem mem_allPaths_iff {n : Int} {path : List Int} :
    path ∈ cs.allPaths n ↔ cs.IsDependencyPath n path := by
  unfold allPaths
  rw [mem_chainsFrom_iff]
  constructor
  · rintro ⟨q, rfl, hc, hnd, -, -⟩
    rw [List.append_nil]
    exact ⟨hc, hnd⟩
  · rintro ⟨hc, hnd⟩
    refine ⟨path, by simp, hc, hnd, by simp, ?_⟩
    have hsub : path ⊆ cs.numbers := by
      intro m hm
      obtain ⟨ps, hps⟩ := hc.exists_alts hm
      obtain ⟨c, hcl, -⟩ := alternatives_eq_some.mp hps
      exact exists_claim_iff.mp ⟨c, hcl⟩
    have := suffix_length_le hnd hsub
    omega

/-- `dependency_paths` returns the first `limit` paths and says whether
there were more. -/
theorem dependencyPaths_eq (hres : cs.Resolved) {n : Int}
    (hn : n ∈ cs.numbers) (limit : Int) :
    cs.dependencyPaths n limit
      = .ok ((cs.allPaths n).take limit.toNat,
          decide (limit.toNat < (cs.allPaths n).length)) := by
  unfold dependencyPaths
  rw [walk_eq hres limit _ hn List.nodup_nil (by simp) (by simp)
    (Nat.zero_le _)]
  rfl

/-- With room for all of them, `dependency_paths` returns all paths. -/
theorem dependencyPaths_of_le (hcl : cs.Closed) {n : Int}
    (hn : n ∈ cs.numbers) {limit : Int}
    (hlim : ((cs.allPaths n).length : Int) ≤ limit) :
    cs.dependencyPaths n limit = .ok (cs.allPaths n, false) := by
  rw [dependencyPaths_eq hcl.resolved hn, List.take_of_length_le (by omega),
    decide_eq_false (by omega)]

-- ================================================ what is found, in full

/-- No claim names an alternative twice. -/
def Unrepeated (cs : ClaimSet) : Prop := ∀ c ∈ cs.claims, c.dependsOn.Nodup

theorem Unrepeated.alternatives (h : cs.Unrepeated) {n : Int} {ps : List Int}
    (hps : cs.alternatives n = some ps) : ps.Nodup := by
  obtain ⟨c, hc, rfl⟩ := alternatives_eq_some.mp hps
  exact h c (claim_mem hc).1

/-- `dependency_paths` ends, on cycles too. Of the cycle-free chains down to
the claim, each once and in depth-first order, it returns the first `limit`
and says whether there are more; a negative limit counts as none. -/
theorem dependencyPaths_depthFirst (hcl : cs.Closed) (hnd : cs.Unrepeated)
    {n : Int} (hn : n ∈ cs.numbers) (limit : Int) :
    ∃ all : List (List Int),
      (∀ path, path ∈ all ↔ cs.IsDependencyPath n path)
        ∧ all.Pairwise (Before cs.alternatives) ∧ all.Nodup
        ∧ cs.dependencyPaths n limit
          = .ok (all.take limit.toNat, decide (limit.toNat < all.length)) := by
  refine ⟨cs.allPaths n, fun path => mem_allPaths_iff, ?_, ?_, ?_⟩
  · exact pairwise_chainsFrom _ n []
  · exact nodup_chainsFrom (fun _ _ hps => hnd.alternatives hps) _ n []
  · exact dependencyPaths_eq hcl.resolved hn limit

/-- Claims 2 and 3 name each other, and each names claim 1. -/
def cyclicClaims : ClaimSet where
  publicationNumber := "EP1"
  claims :=
    [{ number := 1, text := "", dependsOn := [], structureSource := .opsTextParsed },
      { number := 2, text := "", dependsOn := [1, 3],
        structureSource := .opsTextParsed },
      { number := 3, text := "", dependsOn := [2, 1],
        structureSource := .opsTextParsed }]

example : cyclicClaims.dependencyPaths 3 1 = .ok ([[1, 2, 3]], true) := rfl

theorem dependencyPaths_depthFirst_on_cycle :
    ∃ all : List (List Int),
      (∀ path, path ∈ all ↔ cyclicClaims.IsDependencyPath 3 path)
        ∧ all.Pairwise (Before cyclicClaims.alternatives) ∧ all.Nodup
        ∧ cyclicClaims.dependencyPaths 3 1
          = .ok (all.take 1, decide (1 < all.length)) := by
  have hclosed : cyclicClaims.Closed := by
    unfold Closed
    decide
  have hunrepeated : cyclicClaims.Unrepeated := by
    unfold Unrepeated
    decide
  exact dependencyPaths_depthFirst hclosed hunrepeated (by decide) 1

end ClaimSet

end PatentEvidence.Fto
