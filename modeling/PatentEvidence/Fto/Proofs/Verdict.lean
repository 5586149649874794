/-
Conclusions as a lattice: what the accumulators of `conclude_features`
and the case split of `claim_conclusion` compute.

Under the `_RANK` order every function of chart.py is a minimum or a
maximum. A list of features concludes the least of its features' own
verdicts (`conclusion_eq_min`), so a path concludes the least of its
claims' (`pathConclusion_eq`); and the case split over a claim's own
verdict and its parents' is the lesser of the own verdict and the best
parent (`combine_eq`). The rest of the FTO proofs only use these.
-/
import PatentEvidence.Fto.Proofs.Paths

namespace PatentEvidence.Fto

open Chains Fallible

variable {chart : ClaimChart}

-- ============================================================ features

/-- What one feature alone would conclude. -/
def featureVerdict (chart : ClaimChart) (feature : ClaimFeature) :
    ClaimConclusion :=
  match chart.findingOf feature, feature.status with
  | .absent, _ => .doesNotRead
  | .undetermined, _ => .undetermined
  | _, .proposed => .undetermined
  | .presentByEquivalent, .confirmed => .readsByEquivalentsOnly
  | .literallyPresent, .confirmed => .readsLiterally

/-- The verdict of a tally depends on its three lists only through
their being empty. -/
theorem FeatureTally.conclusion_eq (tally : FeatureTally) :
    tally.conclusion
      = if tally.absent.isEmpty then
          if tally.undetermined.isEmpty && tally.unconfirmed.isEmpty then
            if tally.equivalent then .readsByEquivalentsOnly
            else .readsLiterally
          else .undetermined
        else .doesNotRead := by
  unfold FeatureTally.conclusion
  rcases tally with ⟨_ | _, _ | _, _ | _, _ | _⟩ <;> rfl

/-- One more feature lowers the verdict to its own. -/
theorem conclusion_tallyFeature (tally : FeatureTally)
    (feature : ClaimFeature) :
    (tallyFeature chart tally feature).conclusion
      = min tally.conclusion (featureVerdict chart feature) := by
  rw [FeatureTally.conclusion_eq, FeatureTally.conclusion_eq]
  unfold tallyFeature featureVerdict
  rcases tally with ⟨absent, undetermined, unconfirmed, equivalent⟩
  cases chart.findingOf feature <;> cases feature.status <;>
    cases absent <;> cases undetermined <;> cases unconfirmed <;>
    cases equivalent <;> rfl

/-- A list of features concludes the least of its features' verdicts. -/
theorem conclusion_eq_min (features : List ClaimFeature) (path : List Int) :
    (concludeFeatures chart features path).conclusion
      = (features.map (featureVerdict chart)).foldr min ⊤ := by
  have general : ∀ (fs : List ClaimFeature) (tally : FeatureTally),
      (fs.foldl (tallyFeature chart) tally).conclusion
        = min tally.conclusion ((fs.map (featureVerdict chart)).foldr min ⊤) := by
    intro fs
    induction fs with
    | nil =>
        intro tally
        simp
    | cons f fs ih =>
        intro tally
        rw [List.foldl_cons, ih, conclusion_tallyFeature, List.map_cons,
          List.foldr_cons, min_assoc]
  have htop : (({} : FeatureTally)).conclusion = ⊤ := rfl
  show (features.foldl (tallyFeature chart) {}).conclusion = _
  rw [general, htop, top_inf_eq]

private theorem foldr_min_append (a b : List ClaimConclusion) :
    (a ++ b).foldr min ⊤ = min (a.foldr min ⊤) (b.foldr min ⊤) := by
  have h : chainValue id (a ++ b) = min (chainValue id a) (chainValue id b) :=
    chainValue_append a b
  simpa [chainValue] using h

-- =============================================================== claims

/-- A claim's verdict on its own features; a number without a claim
gets the bottom. -/
def ownVerdict (chart : ClaimChart) (n : Int) : ClaimConclusion :=
  match chart.claimSet.claim n with
  | .ok c => (concludeFeatures chart c.features [n]).conclusion
  | .error _ => .doesNotRead

theorem ownConclusion_eq {n : Int} {c : Claim}
    (h : chart.claimSet.claim n = .ok c) :
    ownConclusion chart n = .ok (ownVerdict chart n) := by
  unfold ownConclusion ownVerdict
  rw [h]
  rfl

theorem ownVerdict_eq {n : Int} {c : Claim}
    (h : chart.claimSet.claim n = .ok c) :
    ownVerdict chart n
      = (c.features.map (featureVerdict chart)).foldr min ⊤ := by
  unfold ownVerdict
  rw [h]
  exact conclusion_eq_min _ _

/-- A path of existing claims concludes the least of its claims' own
verdicts. -/
theorem pathConclusion_eq {path : List Int}
    (hex : ∀ m ∈ path, m ∈ chart.claimSet.numbers) :
    ∃ r, pathConclusion chart path = .ok r
      ∧ r.conclusion = chainValue (ownVerdict chart) path := by
  have hclaims : ∃ claims, path.mapM chart.claimSet.claim = .ok claims
      ∧ ((claims.flatMap Claim.features).map (featureVerdict chart)).foldr
          min ⊤ = chainValue (ownVerdict chart) path := by
    induction path with
    | nil => exact ⟨[], rfl, rfl⟩
    | cons n path ih =>
        obtain ⟨claims, hmap, hval⟩ :=
          ih fun m hm => hex m (List.mem_cons_of_mem _ hm)
        obtain ⟨c, hc⟩ :=
          ClaimSet.exists_claim_iff.mpr (hex n (List.mem_cons_self ..))
        refine ⟨c :: claims, ?_, ?_⟩
        · exact mapM_eq_ok_iff.mpr (.cons hc (mapM_eq_ok_iff.mp hmap))
        · rw [List.flatMap_cons, List.map_append, foldr_min_append, hval,
            ← ownVerdict_eq hc]
          rfl
  obtain ⟨claims, hmap, hval⟩ := hclaims
  refine ⟨concludeFeatures chart (claims.flatMap Claim.features) path, ?_, ?_⟩
  · unfold pathConclusion ClaimSet.pathFeatures
    rw [hmap]
    rfl
  · rw [conclusion_eq_min, hval]

/-- The claims of a dependency path exist. -/
theorem mem_numbers_of_chain {n m : Int} {path : List Int}
    (h : Chain chart.claimSet.alternatives n path) (hm : m ∈ path) :
    m ∈ chart.claimSet.numbers := by
  obtain ⟨ps, hps⟩ := h.exists_alts hm
  obtain ⟨c, hc, -⟩ := ClaimSet.alternatives_eq_some.mp hps
  exact ClaimSet.exists_claim_iff.mp ⟨c, hc⟩

-- ============================================================ combining

/-- `max(..., key=_RANK)` is the best of the list. -/
theorem maxByRank_eq (c : ClaimConclusion) (cs : List ClaimConclusion) :
    maxByRank c cs = best (c :: cs) := by
  have general : ∀ (cs : List ClaimConclusion) (c : ClaimConclusion),
      maxByRank c cs = max c (best cs) := by
    intro cs
    induction cs with
    | nil =>
        intro c
        exact (max_bot_right c).symm
    | cons d cs ih =>
        intro c
        have hstep : (if c.rank < d.rank then d else c) = max c d := by
          cases c <;> cases d <;> rfl
        rw [maxByRank, hstep, ih, max_assoc]
        rfl
  exact general cs c

/-- The verdict of a claim that is not refuted on its own features: the
lesser of its own verdict and its best parent's. -/
theorem combine_eq {own : ClaimConclusion} {parents : List ClaimConclusion}
    (hown : own ≠ .doesNotRead) (hne : parents ≠ []) :
    combine own parents = min (best parents) own := by
  cases parents with
  | nil => exact absurd rfl hne
  | cons c cs =>
      simp only [combine, maxByRank_eq]
      have hall : (∀ p ∈ c :: cs, p = .doesNotRead)
          ↔ best (c :: cs) = .doesNotRead := by
        constructor
        · intro h
          exact h _ (best_mem hne)
        · intro h p hp
          exact le_bot_iff.mp ((le_best hp).trans (le_of_eq h))
      simp only [hall]
      generalize best (c :: cs) = b
      cases b <;> cases own <;> first | rfl | exact absurd rfl hown

end PatentEvidence.Fto
