/-
Claim-level conclusions from per-feature findings
(modules/fto/chart.py).

All-elements rule: a claim reads on the product only if every feature is
present, literally or by an equivalent. Each dependency path of a
multiple-dependent claim is a separate alternative; the claim reads if
any path reads.

`claimConclusionAux` threads the memo dictionary the source mutates: a
claim is written `undetermined` before its parents are visited (the
cycle guard) and overwritten with its verdict afterwards. The memo is
shared by the whole call, so a verdict computed while an ancestor still
held the guard is reused later; Proofs/Reorder.lean is about that.
-/
import Mathlib.Order.BoundedOrder.Basic
import Mathlib.Order.Lattice
import PatentEvidence.Fto.Model

namespace PatentEvidence.Fto

-- ============================================================= ranking

/-- `_RANK`. -/
def ClaimConclusion.rank : ClaimConclusion → Nat
  | .readsLiterally => 3
  | .readsByEquivalentsOnly => 2
  | .undetermined => 1
  | .doesNotRead => 0

theorem ClaimConclusion.rank_injective :
    Function.Injective ClaimConclusion.rank := by
  intro a b h
  cases a <;> cases b <;> first | rfl | cases h

/-- Conclusions are ordered by `_RANK`. -/
instance : LinearOrder ClaimConclusion :=
  LinearOrder.lift' ClaimConclusion.rank ClaimConclusion.rank_injective

instance : BoundedOrder ClaimConclusion where
  top := .readsLiterally
  le_top := by
    intro a
    cases a <;> decide
  bot := .doesNotRead
  bot_le := by
    intro a
    cases a <;> decide

-- ==================================================== one path's result

structure PathConclusion where
  path : List Int
  conclusion : ClaimConclusion
  absent : List String
  undetermined : List String
  unconfirmed : List String
  deriving DecidableEq, Repr

structure ClaimResult where
  claimNumber : Int
  conclusion : ClaimConclusion
  paths : List PathConclusion
  truncated : Bool
  deriving DecidableEq, Repr

/-- The finding of one feature; a feature never assessed is
undetermined. -/
def ClaimChart.findingOf (chart : ClaimChart) (feature : ClaimFeature) :
    Finding :=
  match chart.assessments.get? feature.featureId with
  | some assessment => assessment.finding
  | none => .undetermined

/-- The accumulators of the loop in `conclude_features`. -/
structure FeatureTally where
  absent : List String := []
  undetermined : List String := []
  unconfirmed : List String := []
  equivalent : Bool := false

/-- One turn of the loop in `conclude_features`. -/
def tallyFeature (chart : ClaimChart) (tally : FeatureTally)
    (feature : ClaimFeature) : FeatureTally :=
  let tally :=
    if feature.status ≠ .confirmed then
      { tally with unconfirmed := tally.unconfirmed ++ [feature.featureId] }
    else tally
  match chart.findingOf feature with
  | .absent => { tally with absent := tally.absent ++ [feature.featureId] }
  | .undetermined =>
      { tally with undetermined := tally.undetermined ++ [feature.featureId] }
  | .presentByEquivalent => { tally with equivalent := true }
  | .literallyPresent => tally

/-- The verdict `conclude_features` reads off its accumulators. -/
def FeatureTally.conclusion (tally : FeatureTally) : ClaimConclusion :=
  if tally.absent ≠ [] then .doesNotRead
  else if tally.undetermined ≠ [] ∨ tally.unconfirmed ≠ [] then .undetermined
  else if tally.equivalent then .readsByEquivalentsOnly
  else .readsLiterally

/-- `conclude_features`. -/
def concludeFeatures (chart : ClaimChart) (features : List ClaimFeature)
    (path : List Int) : PathConclusion :=
  let tally := features.foldl (tallyFeature chart) {}
  { path := path
    conclusion := tally.conclusion
    absent := tally.absent
    undetermined := tally.undetermined
    unconfirmed := tally.unconfirmed }

-- ================================================= the memoised verdict

/-- `_own_conclusion`. -/
def ownConclusion (chart : ClaimChart) (number : Int) :
    Except ChartError ClaimConclusion := do
  let claim ← chart.claimSet.claim number
  return (concludeFeatures chart claim.features [number]).conclusion

/-- `max(parents, key=_RANK.__getitem__)`: the first of the highest
rank. -/
def maxByRank : ClaimConclusion → List ClaimConclusion → ClaimConclusion
  | best, [] => best
  | best, c :: cs => maxByRank (if best.rank < c.rank then c else best) cs

/-- The verdict of a claim from its own features' verdict and its
parents' verdicts. -/
def combine (own : ClaimConclusion) : List ClaimConclusion → ClaimConclusion
  | [] => .doesNotRead
  | c :: cs =>
      if ∀ p ∈ c :: cs, p = .doesNotRead then .doesNotRead
      else if own = .undetermined then .undetermined
      else
        let best := maxByRank c cs
        if best = .readsLiterally ∧ own = .readsLiterally then .readsLiterally
        else if best = .readsLiterally ∨ best = .readsByEquivalentsOnly then
          .readsByEquivalentsOnly
        else .undetermined

/-- The memo `claim_conclusion` shares over one top-level call. -/
abbrev Memo := Dict Int ClaimConclusion

/-- A list comprehension whose body reads and writes the memo. -/
def mapMemo {ε : Type} (f : Int → Memo → Except ε (ClaimConclusion × Memo)) :
    List Int → Memo → Except ε (List ClaimConclusion × Memo)
  | [], memo => .ok ([], memo)
  | p :: ps, memo => do
      let (c, memo) ← f p memo
      let (cs, memo) ← mapMemo f ps memo
      return (c :: cs, memo)

/-- `claim_conclusion` with its memo made explicit. -/
def claimConclusionAux (chart : ClaimChart) :
    Nat → Int → Memo → Except ChartError (ClaimConclusion × Memo)
  | 0, _, _ => .error .outOfFuel
  | fuel + 1, number, memo =>
      match memo.get? number with
      | some conclusion => .ok (conclusion, memo)
      | none => do
          -- cycle guard: a malformed cycle never yields "reads"
          let memo := memo.set number .undetermined
          let claim ← chart.claimSet.claim number
          let own ← ownConclusion chart number
          if own = .doesNotRead ∨ claim.dependsOn = [] then
            return (own, memo.set number own)
          else
            let (parents, memo) ←
              mapMemo (claimConclusionAux chart fuel) claim.dependsOn memo
            let result := combine own parents
            return (result, memo.set number result)

/-- `claim_conclusion` at top level: a fresh memo. -/
def claimConclusion (chart : ClaimChart) (number : Int) :
    Except ChartError ClaimConclusion := do
  let (conclusion, _) ←
    claimConclusionAux chart (chart.claimSet.claims.length + 1) number .empty
  return conclusion

/-- The conclusion of one path, as `conclude_claim` computes it. -/
def pathConclusion (chart : ClaimChart) (path : List Int) :
    Except ChartError PathConclusion := do
  let features ← chart.claimSet.pathFeatures path
  return concludeFeatures chart features path

/-- `conclude_claim`: the exact conclusion, plus per-path detail capped
for display. -/
def concludeClaim (chart : ClaimChart) (number : Int) :
    Except ChartError ClaimResult := do
  let (paths, truncated) ←
    chart.claimSet.dependencyPaths number maxDependencyPaths
  let results ← paths.mapM (pathConclusion chart)
  let conclusion ← claimConclusion chart number
  return { claimNumber := number, conclusion, paths := results, truncated }

end PatentEvidence.Fto
