/-
The memoised verdict: totality, soundness on any claim set, exactness on
acyclic ones.

Everything here rests on one inversion lemma, `claimConclusionAux_cases`,
which says what a successful call did: it answered from the memo, it
settled the claim on its own features, or it visited the parents under
the guard and combined their verdicts.

- Totality (`claimConclusionAux_total`): the fuel is a bound on the
  claims not yet in the memo, and a call succeeds when every claim it
  would expand exists (`Resolves`).
- The verdict rule (`claimConclusion_rule`): to show that every verdict
  has a property it is enough to show it of leaves, of combined
  verdicts, and of the guard value at claims that lie on a cycle. The
  memo invariant behind it (`Settled`) separates final entries from the
  guards of claims still open; the open claims all lie above the claim
  being visited, so a hit on one closes a cycle.
- Soundness (`Justified`): a "reads" is supported by a chain and a "does
  not read" is refuted. The guard value is neither, so the rule applies
  to any claim set, cycles included.
- Exactness: on an acyclic set no claim lies on a cycle and the best
  value of a claim's paths goes through the rule.
-/
import Mathlib.Data.List.MinMax
import PatentEvidence.Fto.Proofs.Verdict

namespace PatentEvidence.Fto

open Chains Fallible

variable {chart : ClaimChart}

-- ======================================================== one call, read

/-- A memo-threading traversal keeps an invariant its body keeps, and
relates each entry to its result. -/
theorem mapMemo_spec {ε : Type}
    {f : Int → Memo → Except ε (ClaimConclusion × Memo)}
    {P : Memo → Prop} {Q : Int → ClaimConclusion → Prop} :
    ∀ {ps : List Int} {memo memo' : Memo} {cs : List ClaimConclusion},
      (∀ p ∈ ps, ∀ memo c memo', P memo → f p memo = .ok (c, memo') →
        P memo' ∧ Q p c) →
      P memo → mapMemo f ps memo = .ok (cs, memo') →
      P memo' ∧ List.Forall₂ Q ps cs := by
  intro ps
  induction ps with
  | nil =>
      intro memo memo' cs _ hP h
      cases h
      exact ⟨hP, .nil⟩
  | cons p ps ih =>
      intro memo memo' cs hf hP h
      obtain ⟨⟨c, mid⟩, hp, h⟩ := bind_eq_ok.mp h
      obtain ⟨⟨cs', last⟩, hps, h⟩ := bind_eq_ok.mp h
      cases h
      obtain ⟨hmid, hq⟩ := hf p (List.mem_cons_self ..) _ _ _ hP hp
      obtain ⟨hlast, hqs⟩ :=
        ih (fun q hq => hf q (List.mem_cons_of_mem _ hq)) hmid hps
      exact ⟨hlast, .cons hq hqs⟩

/-- A memo-threading traversal succeeds when its body does and keeps
what the body needs. -/
theorem mapMemo_total {ε : Type}
    {f : Int → Memo → Except ε (ClaimConclusion × Memo)} {P : Memo → Prop} :
    ∀ {ps : List Int} {memo : Memo},
      (∀ p ∈ ps, ∀ memo, P memo → ∃ c memo', f p memo = .ok (c, memo')
        ∧ P memo') →
      P memo → ∃ cs memo', mapMemo f ps memo = .ok (cs, memo') ∧ P memo' := by
  intro ps
  induction ps with
  | nil =>
      intro memo _ hP
      exact ⟨[], memo, rfl, hP⟩
  | cons p ps ih =>
      intro memo hf hP
      obtain ⟨c, mid, hp, hmid⟩ := hf p (List.mem_cons_self ..) _ hP
      obtain ⟨cs, last, hps, hlast⟩ :=
        ih (fun q hq => hf q (List.mem_cons_of_mem _ hq)) hmid
      refine ⟨c :: cs, last, ?_, hlast⟩
      show (f p memo >>= _) = _
      rw [hp]
      show (mapMemo f ps mid >>= _) = _
      rw [hps]
      rfl

/-- What a successful call did. -/
theorem claimConclusionAux_cases {fuel : Nat} {n : Int} {memo memo' : Memo}
    {c : ClaimConclusion}
    (h : claimConclusionAux chart (fuel + 1) n memo = .ok (c, memo')) :
    (memo.get? n = some c ∧ memo' = memo)
      ∨ (memo.get? n = none ∧ ∃ cl, chart.claimSet.claim n = .ok cl
          ∧ (ownVerdict chart n = .doesNotRead ∨ cl.dependsOn = [])
          ∧ c = ownVerdict chart n
          ∧ memo' = (memo.set n .undetermined).set n c)
      ∨ (memo.get? n = none ∧ ∃ cl cs mid, chart.claimSet.claim n = .ok cl
          ∧ ownVerdict chart n ≠ .doesNotRead ∧ cl.dependsOn ≠ []
          ∧ mapMemo (claimConclusionAux chart fuel) cl.dependsOn
              (memo.set n .undetermined) = .ok (cs, mid)
          ∧ c = combine (ownVerdict chart n) cs ∧ memo' = mid.set n c) := by
  unfold claimConclusionAux at h
  split at h
  · next hit =>
      cases h
      exact Or.inl ⟨hit, rfl⟩
  · next hmiss =>
      obtain ⟨cl, hcl, h⟩ := bind_eq_ok.mp h
      rw [ownConclusion_eq hcl] at h
      obtain ⟨own, hown, h⟩ := bind_eq_ok.mp h
      cases hown
      split at h
      · next hleaf =>
          cases h
          exact Or.inr (Or.inl ⟨hmiss, cl, hcl, hleaf, rfl, rfl⟩)
      · next hnode =>
          rw [not_or] at hnode
          obtain ⟨⟨cs, mid⟩, hps, h⟩ := bind_eq_ok.mp h
          cases h
          exact Or.inr (Or.inr
            ⟨hmiss, cl, cs, mid, hcl, hnode.1, hnode.2, hps, rfl, rfl⟩)

/-- The parents' verdicts of a claim with parents are some list that is
not empty. -/
theorem forall₂_ne_nil {Q : Int → ClaimConclusion → Prop} {ps : List Int}
    {cs : List ClaimConclusion} (h : List.Forall₂ Q ps cs) (hne : ps ≠ []) :
    cs ≠ [] := by
  rintro rfl
  cases h
  exact hne rfl

/-- Every result of a traversal belongs to some entry. -/
theorem forall₂_exists_left {Q : Int → ClaimConclusion → Prop}
    {ps : List Int} {cs : List ClaimConclusion} (h : List.Forall₂ Q ps cs)
    {c : ClaimConclusion} (hc : c ∈ cs) : ∃ p ∈ ps, Q p c := by
  induction h with
  | nil => cases hc
  | cons hq _ ih =>
      rcases List.mem_cons.mp hc with rfl | hc
      · exact ⟨_, List.mem_cons_self .., hq⟩
      · obtain ⟨p, hp, hq⟩ := ih hc
        exact ⟨p, List.mem_cons_of_mem _ hp, hq⟩

/-- Every entry of a traversal has a result. -/
theorem forall₂_exists_right {Q : Int → ClaimConclusion → Prop}
    {ps : List Int} {cs : List ClaimConclusion} (h : List.Forall₂ Q ps cs)
    {p : Int} (hp : p ∈ ps) : ∃ c ∈ cs, Q p c := by
  induction h with
  | nil => cases hp
  | cons hq _ ih =>
      rcases List.mem_cons.mp hp with rfl | hp
      · exact ⟨_, List.mem_cons_self .., hq⟩
      · obtain ⟨c, hc, hq⟩ := ih hp
        exact ⟨c, List.mem_cons_of_mem _ hc, hq⟩

/-- The top-level call is the recursion from an empty memo. -/
theorem claimConclusion_eq_ok {n : Int} {c : ClaimConclusion} :
    claimConclusion chart n = .ok c
      ↔ ∃ memo, claimConclusionAux chart (chart.claimSet.claims.length + 1) n
          .empty = .ok (c, memo) := by
  unfold claimConclusion
  rw [bind_eq_ok]
  constructor
  · rintro ⟨⟨c', memo⟩, h, hc⟩
    cases hc
    exact ⟨memo, h⟩
  · rintro ⟨memo, h⟩
    exact ⟨(c, memo), h, rfl⟩

-- ============================================================= totality

/-- `n` is expanded (its own features do not settle it) and names `p`. -/
def ExpandsTo (chart : ClaimChart) (n p : Int) : Prop :=
  ∃ c, chart.claimSet.claim n = .ok c
    ∧ ownVerdict chart n ≠ .doesNotRead ∧ p ∈ c.dependsOn

/-- Every claim the recursion from `n` would look up exists. -/
def Resolves (chart : ClaimChart) (n : Int) : Prop :=
  ∀ m, Relation.ReflTransGen (ExpandsTo chart) n m
    → m ∈ chart.claimSet.numbers

/-- The claim numbers the memo has no entry for. -/
def unvisited (chart : ClaimChart) (memo : Memo) : Finset Int :=
  chart.claimSet.numbers.toFinset.filter fun m => memo.get? m = none

/-- One memo holds at least the keys of another. -/
def Extends (memo memo' : Memo) : Prop :=
  ∀ m, memo'.get? m = none → memo.get? m = none

theorem unvisited_subset {chart : ClaimChart} {memo memo' : Memo}
    (h : Extends memo memo') :
    unvisited chart memo' ⊆ unvisited chart memo := by
  intro m hm
  rw [unvisited, Finset.mem_filter] at hm ⊢
  exact ⟨hm.1, h m hm.2⟩

theorem extends_set (memo : Memo) (n : Int) (c : ClaimConclusion) :
    Extends memo (memo.set n c) := by
  intro m hm
  rw [Dict.get?_set] at hm
  split at hm
  · cases hm
  · exact hm

/-- The guard takes its claim off the unvisited ones. -/
theorem card_unvisited_set_lt {memo : Memo} {n : Int} {c : ClaimConclusion}
    (hn : n ∈ chart.claimSet.numbers) (hmiss : memo.get? n = none) :
    (unvisited chart (memo.set n c)).card < (unvisited chart memo).card := by
  refine Finset.card_lt_card (Finset.ssubset_iff_subset_ne.mpr
    ⟨unvisited_subset (extends_set memo n c), fun heq => ?_⟩)
  have hin : n ∈ unvisited chart memo := by
    rw [unvisited, Finset.mem_filter]
    exact ⟨List.mem_toFinset.mpr hn, hmiss⟩
  rw [← heq, unvisited, Finset.mem_filter, Dict.get?_set_self] at hin
  cases hin.2

/-- Fuel above the number of unvisited claims is never used up. -/
theorem claimConclusionAux_total :
    ∀ (fuel : Nat) {n : Int} {memo : Memo}, Resolves chart n →
      (unvisited chart memo).card < fuel →
      ∃ c memo', claimConclusionAux chart fuel n memo = .ok (c, memo')
        ∧ Extends memo memo' := by
  intro fuel
  induction fuel with
  | zero =>
      intro n memo _ hfuel
      omega
  | succ fuel ih =>
      intro n memo hres hfuel
      cases hm : memo.get? n with
      | some c =>
          refine ⟨c, memo, ?_, fun m h => h⟩
          simp only [claimConclusionAux, hm]
      | none =>
          have hn : n ∈ chart.claimSet.numbers := hres n .refl
          obtain ⟨cl, hcl⟩ := ClaimSet.exists_claim_iff.mpr hn
          have hguard : Extends memo (memo.set n .undetermined) :=
            extends_set _ _ _
          by_cases hleaf : ownVerdict chart n = .doesNotRead ∨ cl.dependsOn = []
          · refine ⟨ownVerdict chart n,
              (memo.set n .undetermined).set n (ownVerdict chart n), ?_,
              fun m h => hguard m (extends_set _ _ _ m h)⟩
            simp only [claimConclusionAux, hm, hcl, ownConclusion_eq hcl]
            show (if ownVerdict chart n = .doesNotRead ∨ cl.dependsOn = []
              then _ else _) = _
            rw [if_pos hleaf]
            rfl
          · have hown : ownVerdict chart n ≠ .doesNotRead := fun h =>
              hleaf (Or.inl h)
            obtain ⟨cs, mid, hps, hext⟩ := mapMemo_total
              (f := claimConclusionAux chart fuel)
              (P := Extends (memo.set n .undetermined))
              (fun p (hp : p ∈ cl.dependsOn) mid hmid => by
                have hresp : Resolves chart p := fun m hpm =>
                  hres m (.head ⟨cl, hcl, hown, hp⟩ hpm)
                have hcard : (unvisited chart mid).card ≤ _ :=
                  Finset.card_le_card (unvisited_subset hmid)
                have hlt : (unvisited chart
                    (memo.set n .undetermined)).card < _ :=
                  card_unvisited_set_lt hn hm
                have hcard' : (unvisited chart mid).card < fuel := by omega
                obtain ⟨c, last, hc, hlast⟩ := ih hresp hcard'
                exact ⟨c, last, hc, fun m h => hmid m (hlast m h)⟩)
              (fun m h => h)
            refine ⟨combine (ownVerdict chart n) cs,
              mid.set n (combine (ownVerdict chart n) cs), ?_,
              fun m h => hguard m (hext m (extends_set _ _ _ m h))⟩
            simp only [claimConclusionAux, hm, hcl, ownConclusion_eq hcl]
            show (if ownVerdict chart n = .doesNotRead ∨ cl.dependsOn = []
              then _ else _) = _
            rw [if_neg hleaf, hps]
            rfl

/-- A claim whose expansion resolves has a verdict. -/
theorem exists_claimConclusion {n : Int} (hres : Resolves chart n) :
    ∃ c, claimConclusion chart n = .ok c := by
  have hcard : (unvisited chart .empty).card
      ≤ chart.claimSet.claims.length := by
    refine (Finset.card_filter_le _ _).trans ?_
    refine (List.toFinset_card_le _).trans ?_
    rw [ClaimSet.numbers, List.length_map]
  obtain ⟨c, memo, h, -⟩ := claimConclusionAux_total _ hres
    (Nat.lt_succ_of_le hcard)
  exact ⟨c, claimConclusion_eq_ok.mpr ⟨memo, h⟩⟩

/-- Where the references resolve, every existing claim does. -/
theorem resolves_of_resolved (hres : chart.claimSet.Resolved) {n : Int}
    (hn : n ∈ chart.claimSet.numbers) : Resolves chart n := by
  intro m hm
  induction hm with
  | refl => exact hn
  | tail _ hstep _ =>
      obtain ⟨c, hc, -, hp⟩ := hstep
      exact hres _ c hc _ hp

-- ===================================================== the verdict rule

theorem ExpandsTo.restsOn {n p : Int} (h : ExpandsTo chart n p) :
    RestsOn chart.claimSet.alternatives n p := by
  obtain ⟨c, hc, -, hp⟩ := h
  exact ⟨c.dependsOn, ClaimSet.alternatives_of_claim hc, hp⟩

/-- Every memo entry is a final verdict, or the guard of an open
claim. -/
def Settled (Final : Int → ClaimConclusion → Prop) (isOpen : List Int)
    (memo : Memo) : Prop :=
  ∀ m c, memo.get? m = some c →
    (m ∈ isOpen ∧ c = .undetermined) ∨ Final m c

section Rule

variable {Final : Int → ClaimConclusion → Prop}

theorem Settled.guard {isOpen : List Int} {memo : Memo}
    (h : Settled Final isOpen memo) (n : Int) :
    Settled Final (n :: isOpen) (memo.set n .undetermined) := by
  intro m c hm
  rw [Dict.get?_set] at hm
  split at hm
  · next heq =>
      cases hm
      exact Or.inl ⟨heq ▸ List.mem_cons_self .., rfl⟩
  · rcases h m c hm with ⟨hopen, hc⟩ | hf
    · exact Or.inl ⟨List.mem_cons_of_mem _ hopen, hc⟩
    · exact Or.inr hf

/-- Writing the final verdict closes the claim. -/
theorem Settled.close {isOpen : List Int} {memo : Memo} {n : Int}
    {c : ClaimConclusion} (h : Settled Final (n :: isOpen) memo)
    (hc : Final n c) : Settled Final isOpen (memo.set n c) := by
  intro m c' hm
  rw [Dict.get?_set] at hm
  split at hm
  · next heq =>
      cases hm
      exact Or.inr (heq ▸ hc)
  · next hne =>
      rcases h m c' hm with ⟨hopen, hc'⟩ | hf
      · rcases List.mem_cons.mp hopen with rfl | hopen
        · exact absurd rfl hne
        · exact Or.inl ⟨hopen, hc'⟩
      · exact Or.inr hf

-- what the rule asks for
variable
    (hcycle : ∀ n, Relation.TransGen (ExpandsTo chart) n n →
      Final n .undetermined)
    (hleaf : ∀ n cl, chart.claimSet.claim n = .ok cl →
      (ownVerdict chart n = .doesNotRead ∨ cl.dependsOn = []) →
      Final n (ownVerdict chart n))
    (hnode : ∀ n cl cs, chart.claimSet.claim n = .ok cl →
      ownVerdict chart n ≠ .doesNotRead → cl.dependsOn ≠ [] →
      List.Forall₂ Final cl.dependsOn cs →
      Final n (combine (ownVerdict chart n) cs))

include hcycle hleaf hnode

/-- One call keeps the memo settled and answers a final verdict, given
that the open claims lie above the one visited. -/
theorem claimConclusionAux_rule :
    ∀ (fuel : Nat) {n : Int} {isOpen : List Int} {memo memo' : Memo}
      {c : ClaimConclusion},
      (∀ s ∈ isOpen, Relation.TransGen (ExpandsTo chart) s n) →
      Settled Final isOpen memo →
      claimConclusionAux chart fuel n memo = .ok (c, memo') →
      Settled Final isOpen memo' ∧ Final n c := by
  intro fuel
  induction fuel with
  | zero =>
      intro n isOpen memo memo' c _ _ h
      cases h
  | succ fuel ih =>
      intro n isOpen memo memo' c habove hmemo h
      rcases claimConclusionAux_cases h with
        ⟨hit, rfl⟩ | ⟨-, cl, hclaim, hl, rfl, rfl⟩
          | ⟨-, cl, cs, mid, hclaim, hown, hne, hps, rfl, rfl⟩
      · rcases hmemo n c hit with ⟨hopen, rfl⟩ | hf
        · exact ⟨hmemo, hcycle n (habove n hopen)⟩
        · exact ⟨hmemo, hf⟩
      · have hf := hleaf n cl hclaim hl
        exact ⟨(hmemo.guard n).close hf, hf⟩
      · obtain ⟨hmid, hcs⟩ := mapMemo_spec
          (P := Settled Final (n :: isOpen)) (Q := Final)
          (fun p hp memo c memo' hmemo hcall => by
            have hnp : ExpandsTo chart n p := ⟨cl, hclaim, hown, hp⟩
            refine ih (fun s hs => ?_) hmemo hcall
            rcases List.mem_cons.mp hs with rfl | hs
            · exact .single hnp
            · exact .tail (habove s hs) hnp)
          (hmemo.guard n) hps
        have hf := hnode n cl cs hclaim hown hne hcs
        exact ⟨hmid.close hf, hf⟩

variable (Final)

/-- The verdict rule: what holds of leaves, of combined verdicts and of
the guard value on cycles holds of every verdict. -/
theorem claimConclusion_rule {n : Int} {c : ClaimConclusion}
    (h : claimConclusion chart n = .ok c) :
    Final n c := by
  obtain ⟨memo, h⟩ := claimConclusion_eq_ok.mp h
  have hempty : Settled Final [] .empty := by
    intro m c hm
    rw [Dict.get?_empty] at hm
    cases hm
  exact (claimConclusionAux_rule hcycle hleaf hnode _ (by simp) hempty h).2

end Rule

-- ============================================================ soundness

/-- A verdict that the claim graph bears out: a "reads" is supported at
its level, a "does not read" is refuted; "undetermined" says nothing. -/
def Justified (chart : ClaimChart) (n : Int) (c : ClaimConclusion) : Prop :=
  (.undetermined < c → Supported chart.claimSet.alternatives anyReference
      (ownVerdict chart) c n)
    ∧ (c = .doesNotRead → Refuted chart.claimSet.alternatives
        (ownVerdict chart) n)

theorem justified_undetermined (n : Int) :
    Justified chart n .undetermined :=
  ⟨fun h => absurd h (lt_irrefl _), fun h => by cases h⟩

/-- A claim settled on its own features is justified by them. -/
theorem justified_leaf {n : Int} {cl : Claim}
    (hcl : chart.claimSet.claim n = .ok cl)
    (hleaf : ownVerdict chart n = .doesNotRead ∨ cl.dependsOn = []) :
    Justified chart n (ownVerdict chart n) := by
  refine ⟨fun hlt => ?_, fun h => .own h⟩
  rcases hleaf with hdnr | hroot
  · rw [hdnr] at hlt
    exact absurd hlt (by decide)
  · exact .root (by rw [ClaimSet.alternatives_of_claim hcl, hroot]) (le_refl _)

/-- A combined verdict is justified by justified parents. -/
theorem justified_combine {n : Int} {cl : Claim} {cs : List ClaimConclusion}
    (hcl : chart.claimSet.claim n = .ok cl)
    (hown : ownVerdict chart n ≠ .doesNotRead) (hne : cl.dependsOn ≠ [])
    (hps : List.Forall₂ (Justified chart) cl.dependsOn cs) :
    Justified chart n (combine (ownVerdict chart n) cs) := by
  have halt := ClaimSet.alternatives_of_claim hcl
  have hcs := forall₂_ne_nil hps hne
  rw [combine_eq hown hcs]
  constructor
  · intro hlt
    -- the best parent reads, and its chain extends through `n`
    obtain ⟨p, hp, hj, -⟩ := forall₂_exists_left hps (best_mem hcs)
    have hbest := hj (lt_of_lt_of_le hlt (min_le_left _ _))
    exact .step halt (min_le_right _ _) hp trivial
      (hbest.anti (min_le_left _ _))
  · intro hdnr
    -- the own verdict is above the bottom, so every parent is at it
    have hbest : best cs = ⊥ := by
      rcases min_choice (best cs) (ownVerdict chart n) with h | h
      · rw [h] at hdnr
        exact hdnr
      · rw [h] at hdnr
        exact absurd hdnr hown
    refine .all halt hne fun p hp => ?_
    obtain ⟨c, hc, -, hj⟩ := forall₂_exists_right hps hp
    exact hj (le_bot_iff.mp ((le_best hc).trans (le_of_eq hbest)))

/-- Every verdict of `claim_conclusion` is justified. -/
theorem claimConclusion_justified {n : Int} {c : ClaimConclusion}
    (h : claimConclusion chart n = .ok c) : Justified chart n c :=
  claimConclusion_rule (Justified chart)
    (fun m _ => justified_undetermined m)
    (fun _ _ hcl hleaf => justified_leaf hcl hleaf)
    (fun _ _ _ hcl hown hne hps => justified_combine hcl hown hne hps) h

/-- On any closed claim set, cycles included: a "reads" verdict is
witnessed by a cycle-free dependency path that reads (literally, if the
verdict says so), and "does not read" holds of every cycle-free path. -/
theorem claim_conclusion_sound_on_paths
    (hcl : chart.claimSet.Closed) {n : Int}
    (hn : n ∈ chart.claimSet.numbers) :
    ∃ c, claimConclusion chart n = .ok c
      ∧ (c = .readsLiterally → ∃ path r,
          chart.claimSet.IsDependencyPath n path
            ∧ pathConclusion chart path = .ok r
            ∧ r.conclusion = .readsLiterally)
      ∧ (c = .readsByEquivalentsOnly → ∃ path r,
          chart.claimSet.IsDependencyPath n path
            ∧ pathConclusion chart path = .ok r
            ∧ (r.conclusion = .readsLiterally
                ∨ r.conclusion = .readsByEquivalentsOnly))
      ∧ (c = .doesNotRead → ∀ path,
          chart.claimSet.IsDependencyPath n path →
          ∃ r, pathConclusion chart path = .ok r
            ∧ r.conclusion = .doesNotRead) := by
  obtain ⟨c, hc⟩ := exists_claimConclusion (resolves_of_resolved hcl.resolved hn)
  have hj := claimConclusion_justified hc
  -- a supported level is a path whose conclusion reaches it
  have hreads : .undetermined < c → ∃ path r,
      chart.claimSet.IsDependencyPath n path
        ∧ pathConclusion chart path = .ok r ∧ c ≤ r.conclusion := by
    intro hlt
    obtain ⟨path, hch, hnd, hle⟩ := supported_iff_chain.mp (hj.1 hlt)
    obtain ⟨r, hr, hval⟩ :=
      pathConclusion_eq fun m hm => mem_numbers_of_chain hch hm
    exact ⟨path, r, ⟨hch, hnd⟩, hr, hval ▸ hle⟩
  refine ⟨c, hc, ?_, ?_, ?_⟩
  · rintro rfl
    obtain ⟨path, r, hp, hr, hle⟩ := hreads (by decide)
    exact ⟨path, r, hp, hr, top_le_iff.mp hle⟩
  · rintro rfl
    obtain ⟨path, r, hp, hr, hle⟩ := hreads (by decide)
    refine ⟨path, r, hp, hr, ?_⟩
    revert hle
    cases r.conclusion <;> decide
  · rintro rfl path ⟨hch, -⟩
    obtain ⟨r, hr, hval⟩ :=
      pathConclusion_eq fun m hm => mem_numbers_of_chain hch hm
    exact ⟨r, hr, hval.trans ((hj.2 rfl).chainValue_eq_bot hch)⟩

/-- A claim with one confirmed feature, which bears the claim's number. -/
def oneFeatureClaim (number : Int) (dependsOn : List Int) : Claim :=
  { number, text := "", dependsOn, structureSource := .opsTextParsed
    features := [{ featureId := toString number, claimNumber := number
                   text := "", spans := [], status := .confirmed }] }

/-- A chart finding the features of `present` literally present and
knowing nothing of the others. -/
def literalChart (claims : List Claim) (present : List Int) : ClaimChart :=
  { claimSet := { publicationNumber := "", claims }
    assessments := present.foldl (fun known n => known.set (toString n)
      { featureId := toString n, finding := .literallyPresent }) .empty }

/-- 2 rests on 3 or 1, 3 and 4 on 2, 5 on the given alternatives;
nothing is known of claim 4's feature. -/
def loopChart (alternatives5 : List Int) : ClaimChart :=
  literalChart
    [oneFeatureClaim 1 [], oneFeatureClaim 2 [3, 1], oneFeatureClaim 3 [2],
      oneFeatureClaim 4 [2], oneFeatureClaim 5 alternatives5] [1, 2, 3, 5]

theorem claim_conclusion_sound_on_loop :
    ∃ c, claimConclusion (loopChart [3, 4]) 5 = .ok c
      ∧ (c = .readsLiterally → ∃ path r,
          (loopChart [3, 4]).claimSet.IsDependencyPath 5 path
            ∧ pathConclusion (loopChart [3, 4]) path = .ok r
            ∧ r.conclusion = .readsLiterally)
      ∧ (c = .readsByEquivalentsOnly → ∃ path r,
          (loopChart [3, 4]).claimSet.IsDependencyPath 5 path
            ∧ pathConclusion (loopChart [3, 4]) path = .ok r
            ∧ (r.conclusion = .readsLiterally
                ∨ r.conclusion = .readsByEquivalentsOnly))
      ∧ (c = .doesNotRead → ∀ path,
          (loopChart [3, 4]).claimSet.IsDependencyPath 5 path →
          ∃ r, pathConclusion (loopChart [3, 4]) path = .ok r
            ∧ r.conclusion = .doesNotRead) :=
  have hclosed : (loopChart [3, 4]).claimSet.Closed := by
    unfold ClaimSet.Closed
    decide
  claim_conclusion_sound_on_paths hclosed (by decide)

-- ============================================ exactness without cycles

/-- The values of a claim's dependency paths. -/
abbrev pathValues (chart : ClaimChart) (n : Int) : Set ClaimConclusion :=
  chainValues chart.claimSet.alternatives (ownVerdict chart) n

/-- Without cycles every verdict is the best value of the claim's
paths. -/
theorem claimConclusion_exact (hcl : chart.claimSet.Closed)
    (hac : chart.claimSet.Acyclic) {n : Int} {c : ClaimConclusion}
    (h : claimConclusion chart n = .ok c) :
    IsGreatest (pathValues chart n) c := by
  refine claimConclusion_rule
    (fun n c => IsGreatest (pathValues chart n) c) ?_ ?_ ?_ h
  · intro m hcycle
    exact absurd (Relation.TransGen.mono (fun _ _ => ExpandsTo.restsOn) _ _ hcycle)
      (hac m)
  · intro m cl hclaim hleaf
    rcases hleaf with hdnr | hroot
    · -- refuted on its own features: any path at all is worth that
      have hm : m ∈ chart.claimSet.numbers :=
        ClaimSet.exists_claim_iff.mp ⟨cl, hclaim⟩
      have hres : ∀ m ∈ chart.claimSet.numbers.toFinset, ∃ ps,
          chart.claimSet.alternatives m = some ps
            ∧ ∀ p ∈ ps, p ∈ chart.claimSet.numbers.toFinset := by
        intro m hm
        obtain ⟨ps, hps, hin⟩ := hcl.resolves (List.mem_toFinset.mp hm)
        exact ⟨ps, hps, fun p hp => List.mem_toFinset.mpr (hin p hp)⟩
      obtain ⟨path, hch⟩ :=
        exists_chain_of_acyclic hres hac m (List.mem_toFinset.mpr hm)
      exact isGreatest_of_own_eq_bot hch hdnr
    · refine isGreatest_root ?_
      rw [ClaimSet.alternatives_of_claim hclaim, hroot]
  · intro m cl cs hclaim hown hne hps
    have hg := isGreatest_step (ClaimSet.alternatives_of_claim hclaim) hne hps
    rwa [← combine_eq hown (forall₂_ne_nil hps hne)] at hg

/-- On a closed acyclic claim set `claim_conclusion` is the best, in
`_RANK` order, of the conclusions of all dependency paths, as
`dependency_paths` lists them when its limit leaves room. -/
theorem claim_conclusion_eq_best_path (hcl : chart.claimSet.Closed)
    (hac : chart.claimSet.Acyclic) {n : Int}
    (hn : n ∈ chart.claimSet.numbers) :
    ∃ paths results c,
      (∀ limit : Int, (paths.length : Int) ≤ limit →
        chart.claimSet.dependencyPaths n limit = .ok (paths, false))
      ∧ paths.mapM (pathConclusion chart) = .ok results
      ∧ claimConclusion chart n = .ok c
      ∧ (results.map PathConclusion.conclusion).maximum = c := by
  obtain ⟨c, hc⟩ := exists_claimConclusion (resolves_of_resolved hcl.resolved hn)
  obtain ⟨⟨best, hbest, hval⟩, hub⟩ := claimConclusion_exact hcl hac hc
  have hpath : ∀ path ∈ chart.claimSet.allPaths n, ∃ r,
      pathConclusion chart path = .ok r
        ∧ r.conclusion = chainValue (ownVerdict chart) path := by
    intro path hp
    have hch := (ClaimSet.mem_allPaths_iff.mp hp).1
    exact pathConclusion_eq fun m hm => mem_numbers_of_chain hch hm
  -- the traversal of the paths, path by path
  have hresults : ∃ results,
      (chart.claimSet.allPaths n).mapM (pathConclusion chart) = .ok results
        ∧ results.map PathConclusion.conclusion
            = (chart.claimSet.allPaths n).map
                (chainValue (ownVerdict chart)) := by
    generalize chart.claimSet.allPaths n = paths at hpath
    induction paths with
    | nil => exact ⟨[], rfl, rfl⟩
    | cons path paths ih =>
        obtain ⟨r, hr, hv⟩ := hpath path (List.mem_cons_self ..)
        obtain ⟨rs, hrs, hvs⟩ :=
          ih fun p hp => hpath p (List.mem_cons_of_mem _ hp)
        refine ⟨r :: rs, ?_, by rw [List.map_cons, List.map_cons, hv, hvs]⟩
        exact mapM_eq_ok_iff.mpr (.cons hr (mapM_eq_ok_iff.mp hrs))
  obtain ⟨results, hmap, hvals⟩ := hresults
  refine ⟨chart.claimSet.allPaths n, results, c, fun limit hlim =>
    ClaimSet.dependencyPaths_of_le hcl hn hlim, hmap, hc, ?_⟩
  rw [hvals, List.maximum_eq_coe_iff]
  constructor
  · refine List.mem_map.mpr ⟨best, ?_, hval⟩
    exact ClaimSet.mem_allPaths_iff.mpr ⟨hbest, hbest.nodup_of_acyclic hac⟩
  · intro v hv
    obtain ⟨path, hp, rfl⟩ := List.mem_map.mp hv
    exact hub ⟨path, (ClaimSet.mem_allPaths_iff.mp hp).1, rfl⟩

/-- 2 rests on 1, 3 on 1 or 2, and nothing is known of claim 2's
feature. -/
def ladderChart : ClaimChart :=
  literalChart [oneFeatureClaim 1 [], oneFeatureClaim 2 [1],
    oneFeatureClaim 3 [1, 2]] [1, 3]

theorem claim_conclusion_eq_best_path_on_ladder :
    ∃ paths results c,
      (∀ limit : Int, (paths.length : Int) ≤ limit →
        ladderChart.claimSet.dependencyPaths 3 limit = .ok (paths, false))
      ∧ paths.mapM (pathConclusion ladderChart) = .ok results
      ∧ claimConclusion ladderChart 3 = .ok c
      ∧ (results.map PathConclusion.conclusion).maximum = c :=
  have hclosed : ladderChart.claimSet.Closed := by
    unfold ClaimSet.Closed
    decide
  have hacyclic : ladderChart.claimSet.Acyclic :=
    ClaimSet.acyclic_of_earlier (by decide)
  claim_conclusion_eq_best_path hclosed hacyclic (by decide)

end PatentEvidence.Fto
