/-
The order of the alternatives, and when it matters.

The alternatives of a claim are unordered in law, but the memo of
`claim_conclusion` is filled in the order `depends_on` lists them. A
claim visited while one of its alternatives is still open (an ancestor
in the depth-first visit, holding the guard) is settled without that
alternative, and the memo keeps the verdict after the ancestor has
turned out to read. `conclusion_depends_on_order` is the smallest such
claim set: 5 rests on 4 or 3, 4 on 2, 2 on 3 or 1, 3 on 2, and claim 4
is undetermined. Listed (4, 3), claim 3 is settled under the open claim
2 and claim 5 comes out undetermined although the path 1, 2, 3, 5 reads
literally; listed (3, 4), it reads.

# Which sets are safe

The guard acts exactly as if every reference to a claim that is open
when the referring claim is first reached were deleted:
`le_claimConclusion_iff` says a verdict reaches a reading level iff the
level is supported through the remaining references (`Usable`). And
"does not read" never depends on the guard at all
(`claimConclusion_eq_doesNotRead_iff`), because a refuted claim lies on
no cycle of refuted claims. So the order is immaterial exactly when no
order lets the deletions cut off every reading chain of a claim that has
one (`GuardHarmless`): that is `order_independent_iff_guard_harmless`.
For the hard direction some order must be found that does recover a
given reading chain; listing each claim's predecessor on that chain
first does it (`exists_order_le`).
-/
import PatentEvidence.Fto.Proofs.Conclusion

namespace PatentEvidence.Fto

open Chains Fallible

variable {chart : ClaimChart}

-- ============================================================= reorders

/-- The same claim with its alternatives in some other order. -/
def Claim.SameButOrder (c c' : Claim) : Prop :=
  c.dependsOn.Perm c'.dependsOn ∧ c' = { c with dependsOn := c'.dependsOn }

/-- The same claim set with the alternatives of its claims in some other
order. -/
def ClaimSet.Reorders (cs cs' : ClaimSet) : Prop :=
  List.Forall₂ Claim.SameButOrder cs.claims cs'.claims
    ∧ cs' = { cs with claims := cs'.claims }

/-- The same findings over another claim set. -/
def ClaimChart.over (chart : ClaimChart) (cs : ClaimSet) : ClaimChart :=
  { chart with claimSet := cs }

/-- No order of any claim's alternatives changes any claim's
conclusion. -/
def OrderIndependent (chart : ClaimChart) : Prop :=
  ∀ cs', chart.claimSet.Reorders cs' → ∀ n,
    (claimConclusion (chart.over cs') n).toOption
      = (claimConclusion chart n).toOption

theorem Claim.SameButOrder.symm {c c' : Claim} (h : c.SameButOrder c') :
    c'.SameButOrder c := by
  obtain ⟨hperm, heq⟩ := h
  refine ⟨hperm.symm, ?_⟩
  rw [heq]

namespace ClaimSet.Reorders

variable {cs cs' : ClaimSet}

theorem refl (cs : ClaimSet) : cs.Reorders cs :=
  ⟨List.forall₂_same.mpr fun _ _ => ⟨.refl _, rfl⟩, rfl⟩

theorem symm (h : cs.Reorders cs') : cs'.Reorders cs := by
  obtain ⟨hclaims, heq⟩ := h
  refine ⟨hclaims.flip.imp fun _ _ => Claim.SameButOrder.symm, ?_⟩
  rw [heq]

/-- A reorder finds the same claim under every number. -/
theorem claim (h : cs.Reorders cs') {n : Int} {c : Claim}
    (hc : cs.claim n = .ok c) :
    ∃ c', cs'.claim n = .ok c' ∧ c.SameButOrder c' := by
  rw [ClaimSet.claim_eq_ok] at hc
  have hfind : ∀ {l l' : List Claim}, List.Forall₂ Claim.SameButOrder l l' →
      l.find? (fun c => c.number = n) = some c →
      ∃ c', l'.find? (fun c => c.number = n) = some c'
        ∧ c.SameButOrder c' := by
    intro l l' hl
    induction hl with
    | nil => intro hf; cases hf
    | @cons a a' l l' ha _ ih =>
        intro hf
        have hnum : a'.number = a.number := by rw [ha.2]
        by_cases hn : a.number = n
        · rw [List.find?_cons_of_pos (by simpa using hn)] at hf
          cases hf
          refine ⟨a', ?_, ha⟩
          rw [List.find?_cons_of_pos (by simpa [hnum] using hn)]
        · rw [List.find?_cons_of_neg (by simpa using hn)] at hf
          rw [List.find?_cons_of_neg (by simpa [hnum] using hn)]
          exact ih hf
  obtain ⟨c', hc', hsame⟩ := hfind h.1 hc
  exact ⟨c', ClaimSet.claim_eq_ok.mpr hc', hsame⟩

theorem mem_numbers_iff (h : cs.Reorders cs') {n : Int} :
    n ∈ cs'.numbers ↔ n ∈ cs.numbers := by
  rw [← ClaimSet.exists_claim_iff, ← ClaimSet.exists_claim_iff]
  constructor
  · rintro ⟨c, hc⟩
    obtain ⟨c', hc', -⟩ := h.symm.claim hc
    exact ⟨c', hc'⟩
  · rintro ⟨c, hc⟩
    obtain ⟨c', hc', -⟩ := h.claim hc
    exact ⟨c', hc'⟩

/-- A reorder names the same alternatives, permuted. -/
theorem alternatives (h : cs.Reorders cs') {n : Int} {ps : List Int}
    (hps : cs.alternatives n = some ps) :
    ∃ ps', cs'.alternatives n = some ps' ∧ ps.Perm ps' := by
  obtain ⟨c, hc, rfl⟩ := ClaimSet.alternatives_eq_some.mp hps
  obtain ⟨c', hc', hsame⟩ := h.claim hc
  exact ⟨_, ClaimSet.alternatives_of_claim hc', hsame.1⟩

end ClaimSet.Reorders

section Transfer

variable {cs' : ClaimSet} (h : chart.claimSet.Reorders cs')
include h

theorem ownVerdict_over : ownVerdict (chart.over cs') = ownVerdict chart := by
  funext n
  by_cases hn : n ∈ chart.claimSet.numbers
  · obtain ⟨c, hc⟩ := ClaimSet.exists_claim_iff.mpr hn
    obtain ⟨c', hc', hsame⟩ := h.claim hc
    have hfeat : c'.features = c.features := by rw [hsame.2]
    have hc'' : (chart.over cs').claimSet.claim n = .ok c' := hc'
    unfold ownVerdict
    rw [hc, hc'']
    show (concludeFeatures chart c'.features [n]).conclusion = _
    rw [hfeat]
  · have hn' : n ∉ cs'.numbers := fun hin => hn (h.mem_numbers_iff.mp hin)
    have he' : (chart.over cs').claimSet.claim n = .error (.keyError n) :=
      ClaimSet.claim_eq_error hn'
    unfold ownVerdict
    rw [ClaimSet.claim_eq_error hn, he']

theorem supported_over {ℓ : ClaimConclusion} {n : Int}
    (hs : Supported chart.claimSet.alternatives anyReference
      (ownVerdict chart) ℓ n) :
    Supported cs'.alternatives anyReference (ownVerdict chart) ℓ n := by
  induction hs with
  | root hroot hℓ =>
      obtain ⟨ps', hps', hperm⟩ := h.alternatives hroot
      exact .root (by rw [hps', hperm.nil_eq]) hℓ
  | step hps hℓ hp hu _ ih =>
      obtain ⟨ps', hps', hperm⟩ := h.alternatives hps
      exact .step hps' hℓ (hperm.subset hp) hu ih

theorem refuted_over {n : Int}
    (hr : Refuted chart.claimSet.alternatives (ownVerdict chart) n) :
    Refuted cs'.alternatives (ownVerdict chart) n := by
  induction hr with
  | own hown => exact .own hown
  | all hps hne _ ih =>
      obtain ⟨ps', hps', hperm⟩ := h.alternatives hps
      refine .all hps' (fun hnil => ?_) fun p hp => ih p (hperm.symm.subset hp)
      rw [hnil] at hperm
      exact hne hperm.eq_nil

theorem expandsTo_over {n p : Int} (hx : ExpandsTo (chart.over cs') n p) :
    ExpandsTo chart n p := by
  obtain ⟨c', hc', hown, hp⟩ := hx
  obtain ⟨c, hc, hsame⟩ := h.symm.claim hc'
  rw [ownVerdict_over h] at hown
  exact ⟨c, hc, hown, hsame.1.subset hp⟩

theorem resolves_over {n : Int} (hres : Resolves chart n) :
    Resolves (chart.over cs') n := by
  intro m hm
  exact h.mem_numbers_iff.mpr (hres m
    (Relation.ReflTransGen.mono (fun _ _ => expandsTo_over h) _ _ hm))

end Transfer

theorem over_over (cs cs' : ClaimSet) :
    (chart.over cs).over cs' = chart.over cs' := rfl

theorem over_self : chart.over chart.claimSet = chart := rfl

/-- Reordering back and forth: what transfers one way transfers both. -/
theorem resolves_over_iff {cs' : ClaimSet} (h : chart.claimSet.Reorders cs')
    {n : Int} : Resolves (chart.over cs') n ↔ Resolves chart n := by
  refine ⟨fun hres => ?_, resolves_over h⟩
  have hback : (chart.over cs').claimSet.Reorders chart.claimSet := h.symm
  have := resolves_over hback hres
  rwa [over_over, over_self] at this

-- ==================================================== a verdict resolves

/-- A traversal leaves an entry for everything it visits. -/
private theorem mapMemo_visits {ε : Type}
    {f : Int → Memo → Except ε (ClaimConclusion × Memo)} :
    ∀ {ps : List Int} {memo memo' : Memo} {cs : List ClaimConclusion},
      (∀ p ∈ ps, ∀ memo c memo', f p memo = .ok (c, memo') →
        Extends memo memo' ∧ memo'.get? p ≠ none) →
      mapMemo f ps memo = .ok (cs, memo') →
      Extends memo memo' ∧ ∀ p ∈ ps, memo'.get? p ≠ none := by
  intro ps
  induction ps with
  | nil =>
      intro memo memo' cs _ h
      cases h
      exact ⟨fun m hm => hm, by simp⟩
  | cons p ps ih =>
      intro memo memo' cs hf h
      obtain ⟨⟨c, mid⟩, hp, h⟩ := bind_eq_ok.mp h
      obtain ⟨⟨cs', last⟩, hps, h⟩ := bind_eq_ok.mp h
      cases h
      obtain ⟨hext, hin⟩ := hf p (List.mem_cons_self ..) _ _ _ hp
      obtain ⟨hext', hins⟩ :=
        ih (fun q hq => hf q (List.mem_cons_of_mem _ hq)) hps
      refine ⟨fun m hm => hext m (hext' m hm), fun q hq => ?_⟩
      rcases List.mem_cons.mp hq with rfl | hq
      · exact fun hnone => hin (hext' _ hnone)
      · exact hins q hq

/-- A call only adds entries, one of them for the claim it visits. -/
theorem claimConclusionAux_visits :
    ∀ (fuel : Nat) {n : Int} {memo memo' : Memo} {c : ClaimConclusion},
      claimConclusionAux chart fuel n memo = .ok (c, memo') →
      Extends memo memo' ∧ memo'.get? n ≠ none := by
  intro fuel
  induction fuel with
  | zero =>
      intro n memo memo' c h
      cases h
  | succ fuel ih =>
      intro n memo memo' c h
      rcases claimConclusionAux_cases h with
        ⟨hit, rfl⟩ | ⟨-, cl, -, -, rfl, rfl⟩
          | ⟨-, cl, cs, mid, -, -, -, hps, rfl, rfl⟩
      · exact ⟨fun m hm => hm, by simp [hit]⟩
      · exact ⟨fun m hm => extends_set _ _ _ m (extends_set _ _ _ m hm),
          by simp⟩
      · obtain ⟨hext, -⟩ := mapMemo_visits
          (fun p _ memo c memo' hp => ih hp) hps
        exact ⟨fun m hm => extends_set _ _ _ m
          (hext m (extends_set _ _ _ m hm)), by simp⟩

/-- Every visited claim that is no longer open exists, and everything it
expands to has been visited. -/
def Explored (chart : ClaimChart) (isOpen : List Int) (memo : Memo) : Prop :=
  ∀ m, memo.get? m ≠ none → m ∉ isOpen →
    m ∈ chart.claimSet.numbers
      ∧ ∀ p, ExpandsTo chart m p → memo.get? p ≠ none

/-- A call leaves its part of the graph explored. -/
theorem claimConclusionAux_explored :
    ∀ (fuel : Nat) {n : Int} {isOpen : List Int} {memo memo' : Memo}
      {c : ClaimConclusion}, Explored chart isOpen memo →
      claimConclusionAux chart fuel n memo = .ok (c, memo') →
      Explored chart isOpen memo' := by
  intro fuel
  induction fuel with
  | zero =>
      intro n isOpen memo memo' c _ h
      cases h
  | succ fuel ih =>
      intro n isOpen memo memo' c hmemo h
      have hset : ∀ {m p : Int} {mid : Memo} {v : ClaimConclusion},
          mid.get? p ≠ none → (mid.set m v).get? p ≠ none :=
        fun hp hnone => hp (extends_set _ _ _ _ hnone)
      -- the guard leaves a memo explored below the newly opened claim
      have hguard : Explored chart (n :: isOpen)
          (memo.set n .undetermined) := by
        intro m hm hnot
        have hmn : m ≠ n := fun heq => hnot (heq ▸ List.mem_cons_self ..)
        rw [Dict.get?_set_of_ne _ _ hmn] at hm
        obtain ⟨hnum, hexp⟩ :=
          hmemo m hm fun hin => hnot (List.mem_cons_of_mem _ hin)
        exact ⟨hnum, fun p hp => hset (hexp p hp)⟩
      -- writing the verdict closes it, if its own references are visited
      have hclose : ∀ {cl : Claim} {mid : Memo} {v : ClaimConclusion},
          chart.claimSet.claim n = .ok cl → Explored chart (n :: isOpen) mid →
          (∀ p, ExpandsTo chart n p → mid.get? p ≠ none) →
          Explored chart isOpen (mid.set n v) := by
        intro cl mid v hcl hmid hexp m hm hnot
        by_cases hmn : m = n
        · subst hmn
          exact ⟨ClaimSet.exists_claim_iff.mp ⟨cl, hcl⟩,
            fun p hp => hset (hexp p hp)⟩
        · rw [Dict.get?_set_of_ne _ _ hmn] at hm
          obtain ⟨hnum, hexp'⟩ := hmid m hm (by simp [hmn, hnot])
          exact ⟨hnum, fun p hp => hset (hexp' p hp)⟩
      rcases claimConclusionAux_cases h with
        ⟨hit, rfl⟩ | ⟨-, cl, hcl, hleaf, rfl, rfl⟩
          | ⟨-, cl, cs, mid, hcl, hown, hne, hps, rfl, rfl⟩
      · exact hmemo
      · refine hclose hcl hguard fun p hp => ?_
        obtain ⟨cl', hcl', hown, hmem⟩ := hp
        rw [hcl] at hcl'
        cases hcl'
        rcases hleaf with hdnr | hroot
        · exact absurd hdnr hown
        · rw [hroot] at hmem
          cases hmem
      · obtain ⟨hmid, -⟩ := mapMemo_spec
          (P := Explored chart (n :: isOpen)) (Q := fun _ _ => True)
          (fun p _ memo c memo' hmemo hp => ⟨ih hmemo hp, trivial⟩)
          hguard hps
        obtain ⟨-, hvis⟩ := mapMemo_visits
          (fun p _ memo c memo' hp => claimConclusionAux_visits _ hp) hps
        refine hclose hcl hmid fun p hp => ?_
        obtain ⟨cl', hcl', -, hmem⟩ := hp
        rw [hcl] at hcl'
        cases hcl'
        exact hvis p hmem

/-- A claim has a verdict exactly when its expansion resolves. -/
theorem exists_claimConclusion_iff {n : Int} :
    (∃ c, claimConclusion chart n = .ok c) ↔ Resolves chart n := by
  refine ⟨?_, exists_claimConclusion⟩
  rintro ⟨c, hc⟩ m hm
  obtain ⟨memo, h⟩ := claimConclusion_eq_ok.mp hc
  have hexp : Explored chart [] memo :=
    claimConclusionAux_explored _ (fun m hm _ => absurd (Dict.get?_empty m) hm) h
  have hvis : memo.get? m ≠ none := by
    induction hm with
    | refl => exact (claimConclusionAux_visits _ h).2
    | tail _ hstep ih => exact (hexp _ ih (by simp)).2 _ hstep
  exact (hexp m hvis (by simp)).1

-- ============================================= "does not read" is exact

/-- A refuted claim lies on no cycle of expanded claims. -/
theorem not_on_cycle_of_refuted {n : Int}
    (hr : Refuted chart.claimSet.alternatives (ownVerdict chart) n) :
    ¬ Relation.TransGen (ExpandsTo chart) n n := by
  induction hr with
  | own hown =>
      intro hcycle
      obtain ⟨p, hstep, -⟩ := Relation.TransGen.head'_iff.mp hcycle
      obtain ⟨c, -, hne, -⟩ := hstep
      exact hne hown
  | all hps _ _ ih =>
      intro hcycle
      obtain ⟨p, hstep, hrest⟩ := Relation.TransGen.head'_iff.mp hcycle
      obtain ⟨c, hc, hne, hp⟩ := hstep
      have hps' := ClaimSet.alternatives_of_claim hc
      rw [hps, Option.some.injEq] at hps'
      subst hps'
      exact ih p hp (Relation.TransGen.tail' hrest ⟨c, hc, hne, hp⟩)

/-- "Does not read" is answered exactly for the refuted claims, cycles
or not. -/
theorem claimConclusion_eq_doesNotRead_iff {n : Int} {c : ClaimConclusion}
    (h : claimConclusion chart n = .ok c) :
    c = .doesNotRead
      ↔ Refuted chart.claimSet.alternatives (ownVerdict chart) n := by
  refine ⟨(claimConclusion_justified h).2, ?_⟩
  refine claimConclusion_rule (fun n c =>
    Refuted chart.claimSet.alternatives (ownVerdict chart) n →
      c = .doesNotRead) ?_ ?_ ?_ h
  · intro m hcycle hr
    exact absurd hcycle (not_on_cycle_of_refuted hr)
  · intro m cl hcl hleaf hr
    rcases hleaf with hdnr | hroot
    · exact hdnr
    · have halt := ClaimSet.alternatives_of_claim hcl
      rw [hroot] at halt
      cases hr with
      | own hown => exact hown
      | all hps hne _ =>
          rw [halt, Option.some.injEq] at hps
          exact absurd hps.symm hne
  · intro m cl cs hcl hown hne hps hr
    have halt := ClaimSet.alternatives_of_claim hcl
    cases hr with
    | own hown' => exact absurd hown' hown
    | all hps' _ hall =>
        rw [halt, Option.some.injEq] at hps'
        subst hps'
        have hcs := forall₂_ne_nil hps hne
        rw [combine_eq hown hcs]
        obtain ⟨p, hp, hq⟩ := forall₂_exists_left hps (best_mem hcs)
        rw [hq (hall p hp)]
        exact bot_inf_eq _

-- ====================================================== the open claims

/-- The references the recursion follows from a claim: none if its own
features settle it. -/
def followed (chart : ClaimChart) (n : Int) : List Int :=
  if ownVerdict chart n = .doesNotRead then []
  else (chart.claimSet.alternatives n).getD []

/-- For each claim reached, the claims open above it when it was. -/
abbrev OpenLog := Dict Int (List Int)

/-- The depth-first walk alone, verdicts left out: each claim is entered
once, at the first reference to it, and logged with the claims open at
that moment. -/
def openWalk (chart : ClaimChart) : Nat → List Int → Int → OpenLog → OpenLog
  | 0, _, _, log => log
  | fuel + 1, isOpen, n, log =>
      match log.get? n with
      | some _ => log
      | none =>
          (followed chart n).foldl
            (fun log p => openWalk chart fuel (n :: isOpen) p log)
            (log.set n isOpen)

/-- The claims open above `m` in the walk from `n`. -/
def openAbove (chart : ClaimChart) (n m : Int) : List Int :=
  ((openWalk chart (chart.claimSet.claims.length + 1) [] n .empty).get? m).getD
    []

/-- A reference the guard leaves in force on the walk from `n`: it names
neither the referring claim itself nor a claim open above it. -/
def Usable (chart : ClaimChart) (n m p : Int) : Prop :=
  p ∉ m :: openAbove chart n m

/-- In no order of the alternatives does dropping the references to open
claims cut a claim off from a level it has a reading chain at. -/
def GuardHarmless (chart : ClaimChart) : Prop :=
  ∀ cs', chart.claimSet.Reorders cs' → ∀ n, Resolves chart n →
    ∀ ℓ, .undetermined < ℓ →
      Supported chart.claimSet.alternatives anyReference (ownVerdict chart) ℓ n →
      Supported cs'.alternatives (Usable (chart.over cs') n)
        (ownVerdict chart) ℓ n

/-- A log keeps what it has and only adds. -/
theorem openWalk_grows :
    ∀ (fuel : Nat) {isOpen : List Int} {n : Int} {log : OpenLog}
      {m : Int} {s : List Int}, log.get? m = some s →
      (openWalk chart fuel isOpen n log).get? m = some s := by
  intro fuel
  induction fuel with
  | zero =>
      intro isOpen n log m s hm
      exact hm
  | succ fuel ih =>
      intro isOpen n log m s hm
      unfold openWalk
      split
      · exact hm
      · next hmiss =>
          have hne : m ≠ n := by
            rintro rfl
            rw [hmiss] at hm
            cases hm
          have hstart : (log.set n isOpen).get? m = some s := by
            rw [Dict.get?_set_of_ne _ _ hne, hm]
          generalize log.set n isOpen = log' at hstart
          induction followed chart n generalizing log' with
          | nil => exact hstart
          | cons p ps ihl => exact ihl _ (ih hstart)

/-- `opened` is what a log says, where the log says anything. -/
def Agrees (opened : Int → List Int) (log : OpenLog) : Prop :=
  ∀ m s, log.get? m = some s → opened m = s

/-- Memo and log side by side: they know the same claims, open claims
hold the guard, and a closed claim's verdict reaches a reading level
exactly when the level is supported through usable references. -/
structure InStep (chart : ClaimChart) (opened : Int → List Int)
    (isOpen : List Int) (memo : Memo) (log : OpenLog) : Prop where
  known : ∀ m, memo.get? m = none ↔ log.get? m = none
  guarded : ∀ m ∈ isOpen, memo.get? m = some .undetermined
  closed : ∀ m c, memo.get? m = some c → m ∉ isOpen →
    ∀ ℓ, .undetermined < ℓ → (ℓ ≤ c ↔ Supported chart.claimSet.alternatives
      (fun m p => p ∉ m :: opened m) (ownVerdict chart) ℓ m)

/-- What a call answers: the guard for an open claim, and otherwise a
verdict that reaches the levels supported through usable references. -/
def Answers (chart : ClaimChart) (opened : Int → List Int)
    (isOpen : List Int) (n : Int) (c : ClaimConclusion) : Prop :=
  (n ∈ isOpen → c = .undetermined)
    ∧ (n ∉ isOpen → ∀ ℓ, .undetermined < ℓ →
        (ℓ ≤ c ↔ Supported chart.claimSet.alternatives
          (fun m p => p ∉ m :: opened m) (ownVerdict chart) ℓ n))

/-- Two traversals in step: an invariant of memo and log kept by each
entry is kept by the list, where `G` is a property of the final log
that every earlier log shares. -/
private theorem mapMemo_foldl {ε : Type}
    {f : Int → Memo → Except ε (ClaimConclusion × Memo)}
    {g : OpenLog → Int → OpenLog} {G : OpenLog → Prop}
    {P : Memo → OpenLog → Prop} {Q : Int → ClaimConclusion → Prop}
    (hback : ∀ log p, G (g log p) → G log) :
    ∀ {ps : List Int} {memo memo' : Memo} {log : OpenLog}
      {cs : List ClaimConclusion},
      (∀ p ∈ ps, ∀ memo log c memo', P memo log → G (g log p) →
        f p memo = .ok (c, memo') → P memo' (g log p) ∧ Q p c) →
      P memo log → G (ps.foldl g log) →
      mapMemo f ps memo = .ok (cs, memo') →
      P memo' (ps.foldl g log) ∧ List.Forall₂ Q ps cs := by
  have hbacks : ∀ (ps : List Int) (log : OpenLog),
      G (ps.foldl g log) → G log := by
    intro ps
    induction ps with
    | nil => exact fun log h => h
    | cons p ps ih => exact fun log h => hback log p (ih _ h)
  intro ps
  induction ps with
  | nil =>
      intro memo memo' log cs _ hP _ h
      cases h
      exact ⟨hP, .nil⟩
  | cons p ps ih =>
      intro memo memo' log cs hf hP hgood h
      obtain ⟨⟨c, mid⟩, hp, h⟩ := bind_eq_ok.mp h
      obtain ⟨⟨cs', last⟩, hps, h⟩ := bind_eq_ok.mp h
      cases h
      obtain ⟨hmid, hq⟩ := hf p (List.mem_cons_self ..) _ _ _ _ hP
        (hbacks ps _ hgood) hp
      obtain ⟨hlast, hqs⟩ := ih
        (fun q hq => hf q (List.mem_cons_of_mem _ hq)) hmid hgood hps
      exact ⟨hlast, .cons hq hqs⟩

theorem InStep.guard {opened : Int → List Int} {isOpen : List Int}
    {memo : Memo} {log : OpenLog} (h : InStep chart opened isOpen memo log)
    (n : Int) : InStep chart opened (n :: isOpen)
      (memo.set n .undetermined) (log.set n isOpen) := by
  refine ⟨fun m => ?_, fun m hm => ?_, fun m c hc hnot => ?_⟩
  · rw [Dict.get?_set, Dict.get?_set]
    split
    · simp
    · exact h.known m
  · rw [Dict.get?_set]
    split
    · rfl
    · next hne =>
        rcases List.mem_cons.mp hm with heq | hm
        · exact absurd heq hne
        · exact h.guarded m hm
  · have hne : m ≠ n := fun heq => hnot (heq ▸ List.mem_cons_self ..)
    rw [Dict.get?_set_of_ne _ _ hne] at hc
    exact h.closed m c hc fun hin => hnot (List.mem_cons_of_mem _ hin)

/-- Writing a verdict that answers for its claim closes the claim. -/
theorem InStep.close {opened : Int → List Int} {isOpen : List Int}
    {memo : Memo} {log : OpenLog} {n : Int} {c : ClaimConclusion}
    (h : InStep chart opened (n :: isOpen) memo log) (hn : n ∉ isOpen)
    (hc : Answers chart opened isOpen n c) :
    InStep chart opened isOpen (memo.set n c) log := by
  have hself := h.guarded n (List.mem_cons_self ..)
  refine ⟨fun m => ?_, fun m hm => ?_, fun m c' hc' hnot => ?_⟩
  · rw [Dict.get?_set]
    split
    · next heq =>
        rw [← h.known m, heq, hself]
        simp
    · exact h.known m
  · have hne : m ≠ n := fun heq => hn (heq ▸ hm)
    rw [Dict.get?_set_of_ne _ _ hne]
    exact h.guarded m (List.mem_cons_of_mem _ hm)
  · rw [Dict.get?_set] at hc'
    split at hc'
    · next heq =>
        cases hc'
        exact heq ▸ hc.2 hn
    · next hne => exact h.closed m c' hc' (by simp [hne, hnot])

/-- A value of a nonempty list of verdicts reaches the best of them. -/
private theorem le_best_iff {cs : List ClaimConclusion} (hne : cs ≠ [])
    {ℓ : ClaimConclusion} : ℓ ≤ best cs ↔ ∃ c ∈ cs, ℓ ≤ c :=
  ⟨fun h => ⟨_, best_mem hne, h⟩, fun ⟨_, hc, h⟩ => h.trans (le_best hc)⟩

/-- The combined verdict of a claim answers for it, if its parents'
verdicts answer for them under one more open claim. -/
private theorem answers_combine {opened : Int → List Int}
    {isOpen : List Int} {n : Int} {cl : Claim} {cs : List ClaimConclusion}
    (hcl : chart.claimSet.claim n = .ok cl)
    (hown : ownVerdict chart n ≠ .doesNotRead) (hne : cl.dependsOn ≠ [])
    (hnot : n ∉ isOpen) (hopened : opened n = isOpen)
    (hps : List.Forall₂ (Answers chart opened (n :: isOpen))
      cl.dependsOn cs) :
    Answers chart opened isOpen n (combine (ownVerdict chart n) cs) := by
  refine ⟨fun h => absurd h hnot, fun _ ℓ hℓ => ?_⟩
  have hcs := forall₂_ne_nil hps hne
  rw [combine_eq hown hcs, le_min_iff, le_best_iff hcs,
    supported_iff (ClaimSet.alternatives_of_claim hcl), hopened]
  constructor
  · rintro ⟨⟨c, hc, hle⟩, hownle⟩
    obtain ⟨p, hp, hopen, hclosed⟩ := forall₂_exists_left hps hc
    -- a verdict above the guard cannot come from an open claim
    have hpnot : p ∉ n :: isOpen := by
      intro hin
      rw [hopen hin] at hle
      exact absurd hℓ (not_lt_of_ge hle)
    exact ⟨hownle, Or.inr ⟨p, hp, hpnot, (hclosed hpnot ℓ hℓ).mp hle⟩⟩
  · rintro ⟨hownle, hroot | ⟨p, hp, hpnot, hs⟩⟩
    · exact absurd hroot hne
    · obtain ⟨c, hc, -, hclosed⟩ := forall₂_exists_right hps hp
      exact ⟨⟨c, hc, (hclosed hpnot ℓ hℓ).mpr hs⟩, hownle⟩

/-- The recursion and the walk stay in step. -/
theorem claimConclusionAux_inStep {opened : Int → List Int} :
    ∀ (fuel : Nat) {n : Int} {isOpen : List Int} {memo memo' : Memo}
      {log : OpenLog} {c : ClaimConclusion},
      InStep chart opened isOpen memo log →
      Agrees opened (openWalk chart fuel isOpen n log) →
      claimConclusionAux chart fuel n memo = .ok (c, memo') →
      InStep chart opened isOpen memo' (openWalk chart fuel isOpen n log)
        ∧ Answers chart opened isOpen n c := by
  intro fuel
  induction fuel with
  | zero =>
      intro n isOpen memo memo' log c _ _ h
      cases h
  | succ fuel ih =>
      intro n isOpen memo memo' log c hstep hagrees h
      have hlogged : memo.get? n = none → n ∉ isOpen := by
        intro hmiss hin
        rw [hstep.guarded n hin] at hmiss
        cases hmiss
      rcases claimConclusionAux_cases h with
        ⟨hit, rfl⟩ | ⟨hmiss, cl, hcl, hleaf, rfl, rfl⟩
          | ⟨hmiss, cl, cs, mid, hcl, hown, hne, hps, rfl, rfl⟩
      · -- a memo hit is a log hit
        have hlog : ∃ s, log.get? n = some s := by
          rw [← Option.ne_none_iff_exists']
          intro hnone
          rw [(hstep.known n).mpr hnone] at hit
          cases hit
        obtain ⟨s, hs⟩ := hlog
        have hwalk : openWalk chart (fuel + 1) isOpen n log = log := by
          simp only [openWalk, hs]
        rw [hwalk]
        refine ⟨hstep, fun hin => ?_, fun hnot => hstep.closed n c hit hnot⟩
        rw [hstep.guarded n hin] at hit
        exact (Option.some.inj hit).symm
      · -- settled on its own features: nothing is followed
        have hlogmiss := (hstep.known n).mp hmiss
        have hfollow : followed chart n = [] := by
          unfold followed
          split
          · rfl
          · next hown =>
              rcases hleaf with hdnr | hroot
              · exact absurd hdnr hown
              · rw [ClaimSet.alternatives_of_claim hcl, hroot]
                rfl
        have hwalk : openWalk chart (fuel + 1) isOpen n log
            = log.set n isOpen := by
          simp only [openWalk, hlogmiss, hfollow, List.foldl_nil]
        have hnot : n ∉ isOpen := hlogged hmiss
        have hans : Answers chart opened isOpen n (ownVerdict chart n) := by
          refine ⟨fun hin => absurd hin hnot, fun _ ℓ hℓ => ?_⟩
          rw [supported_iff (ClaimSet.alternatives_of_claim hcl)]
          refine ⟨fun hle => ⟨hle, Or.inl ?_⟩, fun hs => hs.1⟩
          rcases hleaf with hdnr | hroot
          · rw [hdnr] at hle
            exact absurd (lt_of_lt_of_le hℓ hle) (by decide)
          · exact hroot
        rw [hwalk]
        exact ⟨(hstep.guard n).close hnot hans, hans⟩
      · -- expanded: the parents' loop and the walk's loop in step
        have hlogmiss := (hstep.known n).mp hmiss
        have hfollow : followed chart n = cl.dependsOn := by
          unfold followed
          rw [if_neg hown, ClaimSet.alternatives_of_claim hcl]
          rfl
        have hwalk : openWalk chart (fuel + 1) isOpen n log
            = cl.dependsOn.foldl
                (fun log p => openWalk chart fuel (n :: isOpen) p log)
                (log.set n isOpen) := by
          simp only [openWalk, hlogmiss, hfollow]
        have hnot : n ∉ isOpen := hlogged hmiss
        rw [hwalk] at hagrees ⊢
        have hback : ∀ (log : OpenLog) (p : Int),
            Agrees opened (openWalk chart fuel (n :: isOpen) p log) →
            Agrees opened log :=
          fun log p hag m s hm => hag m s (openWalk_grows _ hm)
        obtain ⟨hmid, hcs⟩ := mapMemo_foldl (G := Agrees opened)
          (P := InStep chart opened (n :: isOpen))
          (Q := Answers chart opened (n :: isOpen)) hback
          (fun p _ memo log c memo' hstep hag hp => ih hstep hag hp)
          (hstep.guard n) hagrees hps
        have hopened : opened n = isOpen := by
          refine hagrees n isOpen ?_
          generalize hstart : log.set n isOpen = log'
          have hn : log'.get? n = some isOpen := by
            rw [← hstart, Dict.get?_set_self]
          clear hstart hps hfollow hwalk hagrees hmid hcs
          induction cl.dependsOn generalizing log' with
          | nil => exact hn
          | cons p ps ihl => exact ihl _ (openWalk_grows _ hn)
        have hans := answers_combine hcl hown hne hnot hopened hcs
        exact ⟨hmid.close hnot hans, hans⟩

/-- A verdict reaches a reading level exactly when the level is
supported once references to open claims are dropped. -/
theorem le_claimConclusion_iff {n : Int} {c : ClaimConclusion}
    (h : claimConclusion chart n = .ok c) {ℓ : ClaimConclusion}
    (hℓ : .undetermined < ℓ) :
    ℓ ≤ c ↔ Supported chart.claimSet.alternatives (Usable chart n)
      (ownVerdict chart) ℓ n := by
  obtain ⟨memo, h⟩ := claimConclusion_eq_ok.mp h
  have hempty : InStep chart (openAbove chart n) [] .empty .empty := by
    constructor
    · intro m
      simp only [Dict.get?_empty]
    · intro m hm
      cases hm
    · intro m c hc
      rw [Dict.get?_empty] at hc
      cases hc
  have hagrees : Agrees (openAbove chart n)
      (openWalk chart (chart.claimSet.claims.length + 1) [] n .empty) := by
    intro m s hm
    rw [openAbove, hm]
    rfl
  exact (claimConclusionAux_inStep _ hempty hagrees h).2.2 (by simp) ℓ hℓ

-- ================================================= an order that recovers

/-- A chain reading at `ℓ` along which every claim lists its predecessor
first. -/
inductive Leads (chart : ClaimChart) (ℓ : ClaimConclusion) :
    Int → List Int → Prop
  | root {n : Int} (hℓ : ℓ ≤ ownVerdict chart n)
      (h : chart.claimSet.alternatives n = some []) : Leads chart ℓ n [n]
  | step {n p : Int} {rest path : List Int} (hℓ : ℓ ≤ ownVerdict chart n)
      (h : chart.claimSet.alternatives n = some (p :: rest))
      (hp : Leads chart ℓ p path) : Leads chart ℓ n (path ++ [n])

/-- Down such a chain the visit meets no memo entry, so its root's
verdict comes back up. -/
theorem le_claimConclusionAux_of_leads {ℓ : ClaimConclusion} {n : Int}
    {path : List Int} (hlead : Leads chart ℓ n path) :
    ∀ {fuel : Nat} {memo memo' : Memo} {c : ClaimConclusion}, path.Nodup →
      (∀ m ∈ path, memo.get? m = none) →
      claimConclusionAux chart fuel n memo = .ok (c, memo') → ℓ ≤ c := by
  induction hlead with
  | @root n hℓ halt =>
      intro fuel memo memo' c _ hfresh h
      cases fuel with
      | zero => cases h
      | succ fuel =>
          rcases claimConclusionAux_cases h with
            ⟨hit, -⟩ | ⟨-, cl, -, -, rfl, -⟩ | ⟨-, cl, cs, mid, hcl, -, hne, -⟩
          · rw [hfresh n (by simp)] at hit
            cases hit
          · exact hℓ
          · rw [ClaimSet.alternatives_of_claim hcl, Option.some.injEq] at halt
            exact absurd halt hne
  | @step n p rest path hℓ halt _ ih =>
      intro fuel memo memo' c hnd hfresh h
      have hn : n ∈ path ++ [n] := by simp
      cases fuel with
      | zero => cases h
      | succ fuel =>
          rcases claimConclusionAux_cases h with
            ⟨hit, -⟩ | ⟨-, cl, -, -, rfl, -⟩
              | ⟨-, cl, cs, mid, hcl, hown, hne, hps, rfl, -⟩
          · rw [hfresh n hn] at hit
            cases hit
          · exact hℓ
          · rw [ClaimSet.alternatives_of_claim hcl, Option.some.injEq] at halt
            rw [halt] at hps
            obtain ⟨⟨cp, mid'⟩, hp, hps⟩ := bind_eq_ok.mp hps
            obtain ⟨⟨cs', last⟩, -, hps⟩ := bind_eq_ok.mp hps
            cases hps
            have hdisj := List.disjoint_of_nodup_append hnd
            have hle : ℓ ≤ cp := by
              refine ih (List.nodup_append.mp hnd).1 (fun m hm => ?_) hp
              have hmn : m ≠ n := by
                rintro rfl
                exact hdisj hm (by simp)
              rw [Dict.get?_set_of_ne _ _ hmn]
              exact hfresh m (List.mem_append_left _ hm)
            rw [combine_eq hown (by simp)]
            exact le_min (hle.trans (le_best (List.mem_cons_self ..))) hℓ

/-- List `first n` first among the alternatives of each claim `n` that
names it. -/
def promote (first : Int → Option Int) (c : Claim) : Claim :=
  match first c.number with
  | some p =>
      if p ∈ c.dependsOn then
        { c with dependsOn := p :: c.dependsOn.erase p }
      else c
  | none => c

theorem sameButOrder_promote (first : Int → Option Int) (c : Claim) :
    c.SameButOrder (promote first c) := by
  unfold promote
  split
  · split
    · next hp => exact ⟨List.perm_cons_erase hp, rfl⟩
    · exact ⟨.refl _, rfl⟩
  · exact ⟨.refl _, rfl⟩

/-- The claim set with its alternatives reordered so. -/
def ClaimSet.promoted (cs : ClaimSet) (first : Int → Option Int) : ClaimSet :=
  { cs with claims := cs.claims.map (promote first) }

theorem ClaimSet.reorders_promoted (cs : ClaimSet)
    (first : Int → Option Int) : cs.Reorders (cs.promoted first) := by
  refine ⟨?_, rfl⟩
  show List.Forall₂ _ cs.claims (cs.claims.map (promote first))
  rw [List.forall₂_map_right_iff]
  exact List.forall₂_same.mpr fun c _ => sameButOrder_promote first c

theorem ClaimSet.claim_promoted {cs : ClaimSet} {first : Int → Option Int}
    {n : Int} {c : Claim} (h : cs.claim n = .ok c) :
    (cs.promoted first).claim n = .ok (promote first c) := by
  have hnum : ∀ c : Claim, (promote first c).number = c.number := fun c => by
    rw [(sameButOrder_promote first c).2]
  rw [ClaimSet.claim_eq_ok] at h ⊢
  show (cs.claims.map (promote first)).find? _ = _
  rw [List.find?_map]
  have hcomp : ((fun c : Claim => decide (c.number = n)) ∘ promote first)
      = fun c => decide (c.number = n) := by
    funext c
    simp [hnum]
  rw [hcomp, h]
  rfl

/-- A repetition-free chain reading at `ℓ` becomes one that lists
predecessors first in some order of the alternatives. -/
theorem exists_leads {ℓ : ClaimConclusion} {n : Int} {path : List Int}
    (hch : Chain chart.claimSet.alternatives n path) (hnd : path.Nodup)
    (hℓ : ∀ m ∈ path, ℓ ≤ ownVerdict chart m) :
    ∃ first, Leads (chart.over (chart.claimSet.promoted first)) ℓ n path := by
  -- `first` only matters on the chain, where it names the predecessor
  suffices general : ∃ first : Int → Option Int, ∀ first' : Int → Option Int,
      (∀ m ∈ path, first' m = first m) →
      Leads (chart.over (chart.claimSet.promoted first')) ℓ n path by
    obtain ⟨first, hfirst⟩ := general
    exact ⟨first, hfirst first fun _ _ => rfl⟩
  have hown : ∀ first : Int → Option Int,
      ownVerdict (chart.over (chart.claimSet.promoted first))
        = ownVerdict chart := fun first =>
    ownVerdict_over (ClaimSet.reorders_promoted _ _)
  have halts : ∀ {first : Int → Option Int} {m : Int} {ps : List Int},
      chart.claimSet.alternatives m = some ps →
      (chart.claimSet.promoted first).alternatives m
        = some (match first m with
            | some p => if p ∈ ps then p :: ps.erase p else ps
            | none => ps) := by
    intro first m ps hps
    obtain ⟨c, hc, rfl⟩ := ClaimSet.alternatives_eq_some.mp hps
    rw [ClaimSet.alternatives_of_claim (ClaimSet.claim_promoted hc)]
    have hnum := (ClaimSet.claim_mem hc).2
    unfold promote
    rw [hnum]
    split
    · split
      · rfl
      · rfl
    · rfl
  induction hch with
  | @root n halt =>
      refine ⟨fun _ => none, fun first' hagree => .root ?_ ?_⟩
      · rw [hown]
        exact hℓ n (by simp)
      · show (chart.claimSet.promoted first').alternatives n = _
        rw [halts halt, hagree n (by simp)]
  | @step n p ps path halt hp hch ih =>
      have hdisj := List.disjoint_of_nodup_append hnd
      obtain ⟨first, hfirst⟩ := ih (List.nodup_append.mp hnd).1
        fun m hm => hℓ m (List.mem_append_left _ hm)
      refine ⟨Function.update first n (some p), fun first' hagree => ?_⟩
      refine .step ?_ (show _ = some (p :: ps.erase p) from ?_)
        (hfirst first' fun m hm => ?_)
      · rw [hown]
        exact hℓ n (by simp)
      · show (chart.claimSet.promoted first').alternatives n = _
        rw [halts halt, hagree n (by simp), Function.update_self]
        simp [hp]
      · have hmn : m ≠ n := by
          rintro rfl
          exact hdisj hm (by simp)
        rw [hagree m (List.mem_append_left _ hm),
          Function.update_of_ne hmn]

/-- Some order of the alternatives recovers any reading chain. -/
theorem exists_order_le {ℓ : ClaimConclusion} {n : Int}
    (hs : Supported chart.claimSet.alternatives anyReference
      (ownVerdict chart) ℓ n) :
    ∃ cs', chart.claimSet.Reorders cs' ∧
      ∀ c, claimConclusion (chart.over cs') n = .ok c → ℓ ≤ c := by
  obtain ⟨path, hch, hnd, hle⟩ := supported_iff_chain.mp hs
  obtain ⟨first, hlead⟩ := exists_leads hch hnd (le_chainValue.mp hle)
  refine ⟨_, ClaimSet.reorders_promoted _ first, fun c hc => ?_⟩
  obtain ⟨memo, h⟩ := claimConclusion_eq_ok.mp hc
  exact le_claimConclusionAux_of_leads hlead hnd
    (fun m _ => Dict.get?_empty m) h

-- ==================================================== the exact condition

/-- Two verdicts that are refuted together and reach the same reading
levels are equal. -/
private theorem eq_of_levels {c c' : ClaimConclusion}
    (hdnr : c = .doesNotRead ↔ c' = .doesNotRead)
    (hℓ : ∀ ℓ, .undetermined < ℓ → (ℓ ≤ c ↔ ℓ ≤ c')) : c = c' := by
  have hlit := hℓ .readsLiterally (by decide)
  have heq := hℓ .readsByEquivalentsOnly (by decide)
  revert hdnr hlit heq
  cases c <;> cases c' <;> decide

/-- Under a harmless guard every order reaches exactly the levels the
claim set supports. -/
private theorem le_iff_of_harmless (hg : GuardHarmless chart) {cs' : ClaimSet}
    (hr : chart.claimSet.Reorders cs') {n : Int} {c : ClaimConclusion}
    (h : claimConclusion (chart.over cs') n = .ok c) {ℓ : ClaimConclusion}
    (hℓ : .undetermined < ℓ) :
    ℓ ≤ c ↔ Supported chart.claimSet.alternatives anyReference
      (ownVerdict chart) ℓ n := by
  have hres : Resolves chart n :=
    (resolves_over_iff hr).mp (exists_claimConclusion_iff.mp ⟨c, h⟩)
  rw [le_claimConclusion_iff h hℓ, ownVerdict_over hr]
  constructor
  · intro hs
    have hany : Supported cs'.alternatives anyReference
        (ownVerdict chart) ℓ n := hs.mono fun _ _ _ => trivial
    have hback : (chart.over cs').claimSet.Reorders chart.claimSet := hr.symm
    have := supported_over hback (n := n) (ℓ := ℓ)
      (by rw [ownVerdict_over hr]; exact hany)
    rwa [ownVerdict_over hr] at this
  · exact hg cs' hr n hres ℓ hℓ

/-- The conclusions of a claim set are independent of the order of every
claim's alternatives exactly when the cycle guard is harmless on it. -/
theorem order_independent_iff_guard_harmless (chart : ClaimChart) :
    OrderIndependent chart ↔ GuardHarmless chart := by
  constructor
  · intro hind cs' hr n hres ℓ hℓ hs
    obtain ⟨c, hc⟩ := exists_claimConclusion hres
    -- some order recovers the level, and all orders agree with it
    obtain ⟨best, hbest, hrec⟩ := exists_order_le hs
    have hcbest : claimConclusion (chart.over best) n = .ok c :=
      toOption_eq_some.mp ((hind best hbest n).trans (toOption_eq_some.mpr hc))
    have hc' : claimConclusion (chart.over cs') n = .ok c :=
      toOption_eq_some.mp ((hind cs' hr n).trans (toOption_eq_some.mpr hc))
    have := (le_claimConclusion_iff hc' hℓ).mp (hrec c hcbest)
    rwa [ownVerdict_over hr] at this
  · intro hg cs' hr n
    by_cases hres : Resolves chart n
    · obtain ⟨c, hc⟩ := exists_claimConclusion hres
      obtain ⟨c', hc'⟩ := exists_claimConclusion ((resolves_over_iff hr).mpr hres)
      have heq : c' = c := by
        refine eq_of_levels ?_ fun ℓ hℓ => ?_
        · rw [claimConclusion_eq_doesNotRead_iff hc,
            claimConclusion_eq_doesNotRead_iff hc', ownVerdict_over hr]
          constructor
          · intro href
            have hback : (chart.over cs').claimSet.Reorders chart.claimSet :=
              hr.symm
            have := refuted_over hback (n := n)
              (by rw [ownVerdict_over hr]; exact href)
            rwa [ownVerdict_over hr] at this
          · exact refuted_over hr
        · rw [le_iff_of_harmless hg hr hc' hℓ,
            ← le_iff_of_harmless hg (.refl _) (c := c) hc hℓ]
      rw [hc, hc', heq]
    · -- a claim that does not resolve has no conclusion in any order
      have hnone : ∀ {ch : ClaimChart}, ¬ Resolves ch n →
          (claimConclusion ch n).toOption = none := by
        intro ch hnot
        cases hcon : claimConclusion ch n with
        | error e => rfl
        | ok c => exact absurd (exists_claimConclusion_iff.mp ⟨c, hcon⟩) hnot
      rw [hnone hres, hnone fun h => hres ((resolves_over_iff hr).mp h)]

/-- Claim 5 of the loop reads when it lists 3 before 4, and is
undetermined when it lists 4 before 3. -/
theorem conclusion_depends_on_order :
    ¬ OrderIndependent (loopChart [3, 4]) := by
  intro h
  have hswap : (loopChart [3, 4]).claimSet.Reorders
      (loopChart [4, 3]).claimSet := by
    refine ⟨?_, rfl⟩
    refine .cons ⟨.refl _, rfl⟩ (.cons ⟨.refl _, rfl⟩ (.cons ⟨.refl _, rfl⟩
      (.cons ⟨.refl _, rfl⟩ (.cons ⟨?_, rfl⟩ .nil))))
    exact List.Perm.swap 4 3 []
  have hsame := h _ hswap 5
  have hreads : claimConclusion (loopChart [3, 4]) 5 = .ok .readsLiterally := by
    decide
  have hlost : claimConclusion
      ((loopChart [3, 4]).over (loopChart [4, 3]).claimSet) 5
        = .ok .undetermined := by
    decide
  rw [hreads, hlost] at hsame
  cases hsame

end PatentEvidence.Fto
