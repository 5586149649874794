/-
The depth-first order of chains.

Two chains of one node are read upwards from it. As long as they agree they
pass through the same nodes; where they part (`Before`) they go to two of
the alternatives of one node, and the chain that goes to the earlier of the
two comes first. `chainsFrom` lists its chains in this order
(`pairwise_chainsFrom`). Where no node lists an alternative twice the order
has only one direction (`Before.asymm`), so no chain is listed twice.
-/
import PatentEvidence.Lib.Chain

namespace PatentEvidence.Chains

variable {α : Type _} {alts : α → Option (List α)} {path path' : List α}

/-- Up to a node the chains are the same, and there the first goes to an
earlier alternative. -/
def Before (alts : α → Option (List α)) (path path' : List α) : Prop :=
  ∃ n ps shared p above p' above', alts n = some ps ∧ [p, p'].Sublist ps
    ∧ path = above ++ p :: n :: shared ∧ path' = above' ++ p' :: n :: shared

/-- A chain ends with its node. -/
theorem Chain.eq_concat {n : α} (h : Chain alts n path) :
    ∃ above, path = above ++ [n] := by
  cases h with
  | root h => exact ⟨[], rfl⟩
  | step h hp hc => exact ⟨_, rfl⟩

-- ======================================================== one direction

/-- Of two alternatives one comes first. -/
theorem not_sublist_swap {ps : List α} (hnd : ps.Nodup) {p p' : α}
    (h : [p, p'].Sublist ps) : ¬ [p', p].Sublist ps := by
  intro hswap
  induction ps with
  | nil => cases h
  | cons a ps ih =>
      obtain ⟨hnotMem, hnd⟩ := List.nodup_cons.mp hnd
      cases h with
      | cons _ h =>
          cases hswap with
          | cons _ hswap => exact ih hnd h hswap
          | cons_cons _ _ =>
              apply hnotMem
              apply h.subset
              simp
      | cons_cons _ h =>
          cases hswap with
          | cons _ hswap =>
              apply hnotMem
              apply hswap.subset
              simp
          | cons_cons _ _ =>
              apply hnotMem
              apply h.subset
              simp

/-- Lists that end alike are alike above any shorter end. -/
theorem eq_of_shared_end {above above' shared tail front front' : List α}
    {p p' n q q' m : α} (h : above ++ p :: n :: shared = front ++ q :: m :: tail)
    (h' : above' ++ p' :: n :: shared = front' ++ q' :: m :: tail)
    (hlength : shared.length < tail.length) : p = p' := by
  have hend {above front : List α} {p q : α}
      (h : above ++ p :: n :: shared = front ++ q :: m :: tail) :
      p :: n :: shared <:+ m :: tail := by
    apply List.suffix_of_suffix_length_le ⟨above, h⟩ ⟨front ++ [q], by simp⟩
    simp only [List.length_cons]
    omega
  have hsuffix : p :: n :: shared <:+ p' :: n :: shared :=
    List.suffix_of_suffix_length_le (hend h) (hend h') (by simp)
  have heq := hsuffix.eq_of_length (by simp)
  exact (List.cons.inj heq).1

/-- Two chains part at one node, and there in one order. -/
theorem Before.asymm (hnd : ∀ n ps, alts n = some ps → ps.Nodup)
    (h : Before alts path path') : ¬ Before alts path' path := by
  intro hswap
  obtain ⟨n, ps, shared, p, above, p', above', hps, hsub, hpath, hpath'⟩ := h
  obtain ⟨m, qs, tail, q', front', q, front, hqs, hsub', heq', heq⟩ := hswap
  subst hpath hpath'
  have hne : p ≠ p' := by
    have hpair := (hnd n ps hps).sublist hsub
    simpa using hpair
  have hne' : q' ≠ q := by
    have hpair := (hnd m qs hqs).sublist hsub'
    simpa using hpair
  rcases Nat.lt_trichotomy shared.length tail.length with hlt | hsame | hgt
  · -- they had parted before
    exact hne (eq_of_shared_end heq heq' hlt)
  · have hends := List.append_inj' heq (by simp [hsame])
    have hends' := List.append_inj' heq' (by simp [hsame])
    obtain ⟨rfl, htail⟩ := List.cons.inj hends.2
    obtain ⟨rfl, -⟩ := List.cons.inj htail
    obtain ⟨rfl, -⟩ := List.cons.inj hends'.2
    rw [hps, Option.some.injEq] at hqs
    subst hqs
    exact not_sublist_swap (hnd n ps hps) hsub hsub'
  · exact hne' (eq_of_shared_end heq'.symm heq.symm hgt)

-- ======================================================= the enumeration

section Enumeration

variable [DecidableEq α]

/-- The chains above a node go through it. -/
theorem exists_above {fuel : Nat} {n : α} {suffix : List α}
    (h : path ∈ chainsFrom alts fuel n suffix) :
    ∃ above, path = above ++ n :: suffix := by
  obtain ⟨q, rfl, hchain, -⟩ := (mem_chainsFrom_iff fuel).mp h
  obtain ⟨above, rfl⟩ := hchain.eq_concat
  exact ⟨above, by simp⟩

/-- The enumeration is in depth-first order: the chains over one
alternative stand together, before those over a later one. -/
theorem pairwise_chainsFrom (fuel : Nat) (n : α) (suffix : List α) :
    (chainsFrom alts fuel n suffix).Pairwise (Before alts) := by
  induction fuel generalizing n suffix with
  | zero => exact .nil
  | succ fuel ih =>
      unfold chainsFrom
      split
      · exact .nil
      · split
        · exact .nil
        · exact List.pairwise_singleton _ _
        · next ps _ hps =>
          rw [List.pairwise_flatMap]
          refine ⟨fun p _ => ih p (n :: suffix), ?_⟩
          apply List.pairwise_iff_forall_sublist.mpr
          intro p p' hsub path hpath path' hpath'
          obtain ⟨above, rfl⟩ := exists_above hpath
          obtain ⟨above', rfl⟩ := exists_above hpath'
          exact ⟨n, ps, suffix, p, above, p', above', hps, hsub, rfl, rfl⟩

/-- So no chain is in it twice. -/
theorem nodup_chainsFrom (hnd : ∀ n ps, alts n = some ps → ps.Nodup)
    (fuel : Nat) (n : α) (suffix : List α) :
    (chainsFrom alts fuel n suffix).Nodup := by
  apply (pairwise_chainsFrom fuel n suffix).imp
  intro path path' h heq
  subst heq
  exact h.asymm hnd h

end Enumeration

end PatentEvidence.Chains
