/-
Chains of alternatives: a directed graph whose nodes name the
alternatives they may rest on, and the values the chains from a root
node down to a given node carry.

`alts n = none` says there is no node `n`, `alts n = some []` that `n`
is a root, and `alts n = some ps` that `n` rests on any ONE of `ps`. A
chain of `n` picks one alternative at every node until a root is
reached; its value is the least of its nodes' own values, and a node is
worth the best of its chains. Nothing here assumes the graph acyclic:

- `Supported` is the least-fixpoint reading of "some chain is worth at
  least `ℓ`", and `supported_iff_chain` says the fixpoint needs only
  chains that visit no node twice;
- `Refuted` is the least-fixpoint reading of "every chain is worth the
  bottom", sound for every chain (`Refuted.chainValue_eq_bot`);
- `chainsFrom` enumerates the chains depth first, and
  `mem_chainsFrom_iff` says it lists exactly the repetition-free ones.

On a well-founded graph the best value of a node is computed from its
own value and its alternatives' best values (`isGreatest_step`): the
distributivity that lets a recursion over nodes stand for the
enumeration of all chains.
-/
import Mathlib.Data.List.Nodup
import Mathlib.Data.Finset.Card
import Mathlib.Data.Set.Finite.Basic
import Mathlib.Order.Bounds.Basic
import Mathlib.Order.BoundedOrder.Lattice
import Mathlib.Data.Fintype.Order
import Mathlib.Logic.Relation

namespace PatentEvidence.Chains

variable {α V : Type _}

-- ============================================================== chains

/-- `Chain alts n path`: `path` runs from a root (first) down to `n`
(last), each node resting on the one before it. -/
inductive Chain (alts : α → Option (List α)) : α → List α → Prop
  | root {n : α} (h : alts n = some []) : Chain alts n [n]
  | step {n p : α} {ps path : List α} (h : alts n = some ps) (hp : p ∈ ps)
      (hc : Chain alts p path) : Chain alts n (path ++ [n])

/-- `RestsOn alts n p`: `p` is one of the alternatives `n` names. -/
def RestsOn (alts : α → Option (List α)) (n p : α) : Prop :=
  ∃ ps, alts n = some ps ∧ p ∈ ps

variable {alts : α → Option (List α)}

/-- A chain ends in its own node. -/
theorem Chain.mem_self {n : α} {path : List α} (h : Chain alts n path) :
    n ∈ path := by
  cases h with
  | root h => simp
  | step h hp hc => simp

/-- A chain of a node with alternatives goes through one of them. -/
theorem Chain.exists_front {n : α} {ps path : List α} (hc : Chain alts n path)
    (h : alts n = some ps) (hne : ps ≠ []) :
    ∃ p ∈ ps, ∃ front, Chain alts p front ∧ path = front ++ [n] := by
  cases hc with
  | root hroot =>
      rw [h, Option.some.injEq] at hroot
      exact absurd hroot hne
  | step hstep hp hfront =>
      rw [h, Option.some.injEq] at hstep
      subst hstep
      exact ⟨_, hp, _, hfront, rfl⟩

/-- Cutting a chain at one of its nodes leaves a chain of that node. -/
theorem Chain.prefix_of_mem {n m : α} {path : List α}
    (h : Chain alts n path) (hm : m ∈ path) :
    ∃ q, Chain alts m q ∧ q <+: path := by
  induction h with
  | root h =>
      rw [List.mem_singleton] at hm
      subst hm
      exact ⟨_, .root h, List.prefix_refl _⟩
  | @step n p ps path h hp hc ih =>
      rcases List.mem_append.mp hm with hin | hlast
      · obtain ⟨q, hq, hpre⟩ := ih hin
        exact ⟨q, hq, hpre.trans (List.prefix_append _ _)⟩
      · rw [List.mem_singleton] at hlast
        subst hlast
        exact ⟨_, .step h hp hc, List.prefix_refl _⟩

/-- Every node of a chain of `n` is `n` or lies below it. -/
theorem Chain.reaches {n m : α} {path : List α} (h : Chain alts n path)
    (hm : m ∈ path) : m = n ∨ Relation.TransGen (RestsOn alts) n m := by
  induction h with
  | root h => exact Or.inl (List.mem_singleton.mp hm)
  | @step n p ps path h hp hc ih =>
      rcases List.mem_append.mp hm with hin | hlast
      · have hnp : RestsOn alts n p := ⟨ps, h, hp⟩
        rcases ih hin with rfl | hpm
        · exact Or.inr (.single hnp)
        · exact Or.inr (.head hnp hpm)
      · exact Or.inl (List.mem_singleton.mp hlast)

/-- In a graph without cycles no chain visits a node twice. -/
theorem Chain.nodup_of_acyclic
    (hac : ∀ n, ¬ Relation.TransGen (RestsOn alts) n n) {n : α}
    {path : List α} (h : Chain alts n path) : path.Nodup := by
  induction h with
  | root h => exact List.nodup_singleton _
  | @step n p ps path h hp hc ih =>
      refine List.Nodup.append ih (List.nodup_singleton _) ?_
      intro m hm hlast
      rw [List.mem_singleton] at hlast
      subst hlast
      rcases hc.reaches hm with rfl | hpm
      · exact hac _ (.single ⟨ps, h, hp⟩)
      · exact hac _ (.head ⟨ps, h, hp⟩ hpm)

/-- Every node of a chain exists. -/
theorem Chain.exists_alts {n m : α} {path : List α} (h : Chain alts n path)
    (hm : m ∈ path) : ∃ ps, alts m = some ps := by
  obtain ⟨q, hq, -⟩ := h.prefix_of_mem hm
  cases hq with
  | root h => exact ⟨_, h⟩
  | step h _ _ => exact ⟨_, h⟩

-- ============================================================= support

section Support

variable [Preorder V] {own : α → V}

/-- `n` is supported at level `ℓ`: its own value reaches `ℓ`, and it is
a root or rests, through a usable reference, on a supported node. -/
inductive Supported (alts : α → Option (List α)) (usable : α → α → Prop)
    (own : α → V) (ℓ : V) : α → Prop
  | root {n : α} (h : alts n = some []) (hℓ : ℓ ≤ own n) :
      Supported alts usable own ℓ n
  | step {n p : α} {ps : List α} (h : alts n = some ps) (hℓ : ℓ ≤ own n)
      (hp : p ∈ ps) (hu : usable n p) (hs : Supported alts usable own ℓ p) :
      Supported alts usable own ℓ n

/-- Every reference usable: plain support. -/
abbrev anyReference : α → α → Prop := fun _ _ => True

/-- One unfolding of support. -/
theorem supported_iff {usable : α → α → Prop} {ℓ : V} {n : α}
    {ps : List α} (h : alts n = some ps) :
    Supported alts usable own ℓ n
      ↔ ℓ ≤ own n ∧ (ps = [] ∨ ∃ p ∈ ps, usable n p
          ∧ Supported alts usable own ℓ p) := by
  constructor
  · intro hs
    cases hs with
    | root h' hℓ =>
        rw [h, Option.some.injEq] at h'
        exact ⟨hℓ, Or.inl h'⟩
    | step h' hℓ hp hu hs =>
        rw [h, Option.some.injEq] at h'
        subst h'
        exact ⟨hℓ, Or.inr ⟨_, hp, hu, hs⟩⟩
  · rintro ⟨hℓ, rfl | ⟨p, hp, hu, hs⟩⟩
    · exact .root h hℓ
    · exact .step h hℓ hp hu hs

/-- Dropping references loses support, never gains it. -/
theorem Supported.mono {usable usable' : α → α → Prop} {ℓ : V}
    (hsub : ∀ n p, usable n p → usable' n p) {n : α}
    (h : Supported alts usable own ℓ n) : Supported alts usable' own ℓ n := by
  induction h with
  | root h hℓ => exact .root h hℓ
  | step h hℓ hp hu _ ih => exact .step h hℓ hp (hsub _ _ hu) ih

/-- Support at a level is support at every lower one. -/
theorem Supported.anti {usable : α → α → Prop} {ℓ ℓ' : V} (hle : ℓ' ≤ ℓ)
    {n : α} (h : Supported alts usable own ℓ n) :
    Supported alts usable own ℓ' n := by
  induction h with
  | root h hℓ => exact .root h (hle.trans hℓ)
  | step h hℓ hp hu _ ih => exact .step h (hle.trans hℓ) hp hu ih

/-- A supported node has a supporting chain, possibly with repetitions. -/
private theorem Supported.exists_chain {ℓ : V} {n : α}
    (h : Supported alts anyReference own ℓ n) :
    ∃ path, Chain alts n path ∧ ∀ m ∈ path, ℓ ≤ own m := by
  induction h with
  | root h hℓ => exact ⟨_, .root h, by simpa using hℓ⟩
  | step h hℓ hp _ _ ih =>
      obtain ⟨path, hc, hall⟩ := ih
      refine ⟨_, .step h hp hc, fun m hm => ?_⟩
      rcases List.mem_append.mp hm with hin | hlast
      · exact hall m hin
      · rw [List.mem_singleton] at hlast
        exact hlast ▸ hℓ

end Support

-- ============================================================== values

section Values

variable [LinearOrder V] [BoundedOrder V] {own : α → V}

/-- A chain is worth the least of its nodes' own values. -/
def chainValue (own : α → V) (path : List α) : V :=
  (path.map own).foldr min ⊤

/-- The values of the chains of one node. -/
def chainValues (alts : α → Option (List α)) (own : α → V) (n : α) : Set V :=
  {v | ∃ path, Chain alts n path ∧ chainValue own path = v}

theorem le_chainValue {ℓ : V} {path : List α} :
    ℓ ≤ chainValue own path ↔ ∀ m ∈ path, ℓ ≤ own m := by
  unfold chainValue
  induction path with
  | nil => simp
  | cons a path ih => simp [ih]

@[simp] theorem chainValue_singleton (n : α) :
    chainValue own [n] = own n := by
  simp [chainValue]

theorem chainValue_append (p q : List α) :
    chainValue own (p ++ q) = min (chainValue own p) (chainValue own q) := by
  unfold chainValue
  induction p with
  | nil => simp
  | cons a p ih =>
      simp only [List.cons_append, List.map_cons, List.foldr_cons, ih]
      exact (min_assoc ..).symm

/-- The last node of a longer chain caps what the chain above it is
worth. -/
theorem chainValue_concat (path : List α) (n : α) :
    chainValue own (path ++ [n]) = min (chainValue own path) (own n) := by
  rw [chainValue_append, chainValue_singleton]

-- ==================================================== support by chains

/-- Repetitions can be cut out of a chain without leaving its nodes. -/
private theorem Chain.exists_nodup :
    ∀ (k : Nat) {n : α} {path : List α}, path.length ≤ k →
      Chain alts n path →
      ∃ q, Chain alts n q ∧ q.Nodup ∧ q.length ≤ path.length ∧ q ⊆ path := by
  classical
  intro k
  induction k with
  | zero =>
      intro n path hlen hc
      have hnil : path = [] := List.length_eq_zero_iff.mp (by omega)
      have hmem := hc.mem_self
      rw [hnil] at hmem
      cases hmem
  | succ k ih =>
      intro n path hlen hc
      cases hc with
      | root h =>
          exact ⟨_, .root h, List.nodup_singleton _, Nat.le_refl _,
            List.Subset.refl _⟩
      | @step n p ps path h hp hc =>
          rw [List.length_append, List.length_singleton] at hlen
          by_cases hn : n ∈ path
          · -- `n` is met earlier: the chain up to there is shorter
            obtain ⟨q, hq, hpre⟩ := hc.prefix_of_mem hn
            have hql : q.length ≤ path.length := hpre.length_le
            obtain ⟨r, hr, hnd, hrl, hsub⟩ := ih (by omega) hq
            refine ⟨r, hr, hnd, ?_, fun m hm => ?_⟩
            · rw [List.length_append, List.length_singleton]
              omega
            · exact List.mem_append_left _ (hpre.subset (hsub hm))
          · obtain ⟨r, hr, hnd, hrl, hsub⟩ := ih (by omega) hc
            refine ⟨r ++ [n], .step h hp hr, ?_, ?_, ?_⟩
            · refine List.Nodup.append hnd (List.nodup_singleton _) ?_
              intro m hm hlast
              rw [List.mem_singleton] at hlast
              exact hn (hlast ▸ hsub hm)
            · simp only [List.length_append, List.length_singleton]
              omega
            · exact List.append_subset.mpr
                ⟨fun m hm => List.mem_append_left _ (hsub hm), by simp⟩

/-- Support at a level is a repetition-free chain worth that level. -/
theorem supported_iff_chain {ℓ : V} {n : α} :
    Supported alts anyReference own ℓ n
      ↔ ∃ path, Chain alts n path ∧ path.Nodup
          ∧ ℓ ≤ chainValue own path := by
  constructor
  · intro h
    obtain ⟨path, hc, hall⟩ := h.exists_chain
    obtain ⟨q, hq, hnd, -, hsub⟩ := Chain.exists_nodup _ (Nat.le_refl _) hc
    exact ⟨q, hq, hnd, le_chainValue.mpr fun m hm => hall m (hsub hm)⟩
  · rintro ⟨path, hc, -, hℓ⟩
    have hall := le_chainValue.mp hℓ
    clear hℓ
    induction hc with
    | root h => exact .root h (hall _ (by simp))
    | step h hp hc ih =>
        refine .step h (hall _ (by simp)) hp trivial (ih fun m hm => ?_)
        exact hall m (List.mem_append_left _ hm)

-- ========================================================== refutation

/-- `n` is refuted: its own value is the bottom, or it rests only on
refuted nodes. -/
inductive Refuted (alts : α → Option (List α)) (own : α → V) : α → Prop
  | own {n : α} (h : own n = ⊥) : Refuted alts own n
  | all {n : α} {ps : List α} (h : alts n = some ps) (hne : ps ≠ [])
      (hall : ∀ p ∈ ps, Refuted alts own p) : Refuted alts own n

/-- Every chain of a refuted node is worth the bottom. -/
theorem Refuted.chainValue_eq_bot {n : α} (h : Refuted alts own n) :
    ∀ {path : List α}, Chain alts n path → chainValue own path = ⊥ := by
  induction h with
  | own h =>
      intro path hc
      have hle := le_chainValue.mp (le_refl (chainValue own path)) _ hc.mem_self
      exact le_bot_iff.mp (h ▸ hle)
  | all h hne _ ih =>
      intro path hc
      obtain ⟨p, hp, front, hfront, rfl⟩ := hc.exists_front h hne
      rw [chainValue_concat, ih p hp hfront]
      exact bot_inf_eq _

-- ===================================================== the best chain

/-- A root is worth its own value. -/
theorem isGreatest_root {n : α} (h : alts n = some []) :
    IsGreatest (chainValues alts own n) (own n) := by
  refine ⟨⟨[n], .root h, chainValue_singleton n⟩, ?_⟩
  rintro v ⟨path, hc, rfl⟩
  exact le_chainValue.mp (le_refl _) n hc.mem_self

/-- A node with a chain and a bottom value of its own is worth the
bottom, whatever it rests on. -/
theorem isGreatest_of_own_eq_bot {n : α} {path : List α}
    (hc : Chain alts n path) (h : own n = ⊥) :
    IsGreatest (chainValues alts own n) (own n) := by
  have hbot : ∀ {q}, Chain alts n q → chainValue own q = own n := by
    intro q hq
    rw [h]
    exact (Refuted.own h).chainValue_eq_bot hq
  refine ⟨⟨path, hc, hbot hc⟩, ?_⟩
  rintro v ⟨q, hq, rfl⟩
  exact (hbot hq).le

/-- The best of a list of values. -/
def best (vs : List V) : V := vs.foldr max ⊥

theorem best_le {vs : List V} {b : V} : best vs ≤ b ↔ ∀ v ∈ vs, v ≤ b := by
  unfold best
  induction vs with
  | nil => simp
  | cons v vs ih => simp [ih]

theorem le_best {vs : List V} {v : V} (h : v ∈ vs) : v ≤ best vs :=
  best_le.mp (le_refl _) v h

theorem best_mem {vs : List V} (h : vs ≠ []) : best vs ∈ vs := by
  induction vs with
  | nil => exact absurd rfl h
  | cons v vs ih =>
      show max v (best vs) ∈ v :: vs
      rcases le_total v (best vs) with hle | hle
      · rw [max_eq_right hle]
        by_cases hvs : vs = []
        · subst hvs
          have : v = ⊥ := le_bot_iff.mp hle
          simp [best, this]
        · exact List.mem_cons_of_mem _ (ih hvs)
      · rw [max_eq_left hle]
        exact List.mem_cons_self ..

/-- One recursion step: a node resting on `ps`, whose best values are
`vs`, is worth the lesser of its own value and the best of `vs`. -/
theorem isGreatest_step {n : α} {ps : List α} {vs : List V}
    (h : alts n = some ps) (hne : ps ≠ [])
    (hvs : List.Forall₂ (fun p v => IsGreatest (chainValues alts own p) v)
      ps vs) :
    IsGreatest (chainValues alts own n) (min (best vs) (own n)) := by
  have hpair : ∀ v ∈ vs, ∃ p ∈ ps, IsGreatest (chainValues alts own p) v := by
    intro v hv
    clear h hne
    induction hvs with
    | nil => cases hv
    | cons hpv _ ih =>
        rcases List.mem_cons.mp hv with rfl | hv
        · exact ⟨_, List.mem_cons_self .., hpv⟩
        · obtain ⟨p, hp, hg⟩ := ih hv
          exact ⟨p, List.mem_cons_of_mem _ hp, hg⟩
  have hcover : ∀ p ∈ ps, ∃ v ∈ vs, IsGreatest (chainValues alts own p) v := by
    intro p hp
    clear h hne hpair
    induction hvs with
    | nil => cases hp
    | cons hpv _ ih =>
        rcases List.mem_cons.mp hp with rfl | hp
        · exact ⟨_, List.mem_cons_self .., hpv⟩
        · obtain ⟨v, hv, hg⟩ := ih hp
          exact ⟨v, List.mem_cons_of_mem _ hv, hg⟩
  constructor
  · have hvne : vs ≠ [] := by
      rintro rfl
      cases hvs
      exact hne rfl
    obtain ⟨p, hp, ⟨path, hc, hval⟩, -⟩ := hpair _ (best_mem hvne)
    exact ⟨path ++ [n], .step h hp hc, by rw [chainValue_concat, hval]⟩
  · rintro v ⟨path, hc, rfl⟩
    obtain ⟨p, hp, front, hfront, rfl⟩ := hc.exists_front h hne
    obtain ⟨v, hv, -, hub⟩ := hcover p hp
    rw [chainValue_concat]
    exact min_le_min_right _ ((hub ⟨front, hfront, rfl⟩).trans (le_best hv))

end Values

-- ========================================================= termination

/-- In a finite graph without cycles whose references resolve, every
node has a chain. -/
theorem exists_chain_of_acyclic {nodes : Finset α}
    (hres : ∀ n ∈ nodes, ∃ ps, alts n = some ps ∧ ∀ p ∈ ps, p ∈ nodes)
    (hac : ∀ n, ¬ Relation.TransGen (RestsOn alts) n n) :
    ∀ n ∈ nodes, ∃ path, Chain alts n path := by
  let below : nodes → nodes → Prop := fun m n =>
    Relation.TransGen (RestsOn alts) n.1 m.1
  have htrans : IsTrans nodes below := ⟨fun _ _ _ hab hbc => hbc.trans hab⟩
  have hirr : Std.Irrefl below := ⟨fun n h => hac n.1 h⟩
  have hwf : WellFounded below := Finite.wellFounded_of_trans_of_irrefl below
  suffices general : ∀ n : nodes, ∃ path, Chain alts n.1 path by
    intro n hn
    exact general ⟨n, hn⟩
  intro n
  induction n using hwf.induction with
  | _ n ih =>
      obtain ⟨ps, hps, hin⟩ := hres n.1 n.2
      cases ps with
      | nil => exact ⟨_, .root hps⟩
      | cons p ps =>
          have hp : p ∈ p :: ps := List.mem_cons_self ..
          obtain ⟨path, hc⟩ := ih ⟨p, hin p hp⟩ (.single ⟨_, hps, hp⟩)
          exact ⟨_, .step hps hp hc⟩

-- ========================================================= enumeration

section Enumeration

variable [DecidableEq α]

/-- The chains of `n` above a suffix already walked, depth first: a node
met again ends its branch, and so does an exhausted fuel. -/
def chainsFrom (alts : α → Option (List α)) :
    Nat → α → List α → List (List α)
  | 0, _, _ => []
  | fuel + 1, n, suffix =>
      if n ∈ suffix then []
      else
        match alts n with
        | none => []
        | some [] => [n :: suffix]
        | some ps => ps.flatMap fun p => chainsFrom alts fuel p (n :: suffix)

/-- The enumeration lists exactly the repetition-free chains that avoid
the suffix and fit the fuel. -/
theorem mem_chainsFrom_iff :
    ∀ (fuel : Nat) {n : α} {suffix path : List α},
      path ∈ chainsFrom alts fuel n suffix
        ↔ ∃ q, path = q ++ suffix ∧ Chain alts n q ∧ q.Nodup
            ∧ (∀ m ∈ q, m ∉ suffix) ∧ q.length ≤ fuel := by
  intro fuel
  induction fuel with
  | zero =>
      intro n suffix path
      simp only [chainsFrom, List.not_mem_nil, false_iff]
      rintro ⟨q, -, hc, -, -, hlen⟩
      have hnil : q = [] := List.length_eq_zero_iff.mp (by omega)
      have hmem := hc.mem_self
      rw [hnil] at hmem
      cases hmem
  | succ fuel ih =>
      intro n suffix path
      by_cases hn : n ∈ suffix
      · simp only [chainsFrom, if_pos hn, List.not_mem_nil, false_iff]
        rintro ⟨q, -, hc, -, hdis, -⟩
        exact hdis n hc.mem_self hn
      · simp only [chainsFrom, if_neg hn]
        split
        · next hal =>
          simp only [List.not_mem_nil, false_iff]
          rintro ⟨q, -, hc, -⟩
          cases hc with
          | root h => rw [hal] at h; cases h
          | step h _ _ => rw [hal] at h; cases h
        · next hal =>
          rw [List.mem_singleton]
          constructor
          · rintro rfl
            exact ⟨[n], rfl, .root hal, List.nodup_singleton _, by simpa using hn,
              by simp⟩
          · rintro ⟨q, rfl, hc, -⟩
            cases hc with
            | root _ => rfl
            | step h hp _ =>
                rw [hal, Option.some.injEq] at h
                subst h
                cases hp
        · next ps hne hal =>
          rw [List.mem_flatMap]
          constructor
          · rintro ⟨p, hp, hmem⟩
            obtain ⟨q, rfl, hc, hnd, hdis, hlen⟩ := ih.mp hmem
            have hnq : n ∉ q := fun h => hdis n h (List.mem_cons_self ..)
            refine ⟨q ++ [n], by simp, .step hal hp hc, ?_, ?_, ?_⟩
            · refine List.Nodup.append hnd (List.nodup_singleton _) ?_
              intro m hm hlast
              rw [List.mem_singleton] at hlast
              exact hnq (hlast ▸ hm)
            · intro m hm
              rcases List.mem_append.mp hm with hin | hlast
              · exact fun h => hdis m hin (List.mem_cons_of_mem _ h)
              · rw [List.mem_singleton] at hlast
                exact hlast ▸ hn
            · simpa using hlen
          · rintro ⟨q, rfl, hc, hnd, hdis, hlen⟩
            obtain ⟨p, hp, r, hr, rfl⟩ := hc.exists_front hal hne
            refine ⟨p, hp, ih.mpr ⟨r, by simp, hr, ?_, ?_, ?_⟩⟩
            · exact (List.nodup_append.mp hnd).1
            · intro m hm hcons
              rcases List.mem_cons.mp hcons with rfl | hsuf
              · exact (List.disjoint_of_nodup_append hnd) hm (by simp)
              · exact hdis m (List.mem_append_left _ hm) hsuf
            · rw [List.length_append, List.length_singleton] at hlen
              omega

end Enumeration

end PatentEvidence.Chains
