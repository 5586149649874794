/-
The features of a European claim are its body.

The cuts are sorted and the pieces between them stripped, so the pieces are
in order and nothing but white space is lost (Lib/Spans.lean). A bare
conjunction is then joined to the piece behind it. `Piled` is what one turn
of that loop keeps: the spans so far are in order up to a position, and
what was covered stays covered.
-/
import PatentEvidence.Fto.EpClaims

namespace PatentEvidence.Fto.EpClaims

open Scan Spans Text

variable {text : List Char} {low mid high i : Nat}
  {spans pieces : List (Nat × Nat)} {span : Nat × Nat}

-- ================================================================ joining

/-- One turn of the loop. -/
theorem ordered_addSpan (h : Ordered low mid spans) (hlow : low ≤ mid)
    (hmid : mid ≤ span.1) (hlt : span.1 < span.2) :
    Ordered low span.2 (addSpan text spans span) := by
  have hadded : Ordered low span.2 (spans ++ [span]) :=
    h.append (ordered_singleton hmid hlt (le_refl _)) hlow (by omega)
  unfold addSpan
  split
  · exact hadded
  · split
    · next last hlast =>
        split
        · -- the last span is a conjunction: it begins the new one
          have hin := h.inside last (List.mem_of_getLast? hlast)
          have hsplit : spans.dropLast ++ [last] = spans :=
            List.dropLast_append_getLast? last hlast
          rw [← hsplit] at h
          have hbefore : Ordered low last.1 spans.dropLast := by
            refine ⟨fun s hs => ?_, (List.pairwise_append.mp h.ordered).1⟩
            have hs' := h.inside s (List.mem_append_left _ hs)
            have hle := (List.pairwise_append.mp h.ordered).2.2 s hs last
              (List.mem_singleton.mpr rfl)
            omega
          refine hbefore.append (ordered_singleton (le_refl _) ?_ (le_refl _))
            hin.1 ?_
          · dsimp only
            omega
          · omega
        · exact hadded
    · exact hadded

/-- What is covered stays covered, and the new span is. -/
theorem covers_addSpan (h : Ordered low mid spans) (hmid : mid ≤ span.1)
    (hlt : span.1 < span.2) (hi : Covers spans i ∨ Covers [span] i) :
    Covers (addSpan text spans span) i := by
  have hadded : Covers (spans ++ [span]) i := covers_append.mpr hi
  unfold addSpan
  split
  · exact hadded
  · split
    · next last hlast =>
        split
        · have hin := h.inside last (List.mem_of_getLast? hlast)
          rw [← List.dropLast_append_getLast? last hlast, List.append_assoc,
            covers_append] at hadded
          rw [covers_append, covers_singleton]
          rcases hadded with hbefore | ⟨s, hs, hcover⟩
          · exact .inl hbefore
          · right
            rcases List.mem_pair.mp hs with rfl | rfl
            · exact ⟨hcover.1, by omega⟩
            · exact ⟨by omega, hcover.2⟩
        · exact hadded
    · exact hadded

/-- The whole loop. -/
theorem ordered_foldl_addSpan (h : Ordered low mid spans) (hlow : low ≤ mid)
    (hpieces : Ordered mid high pieces) (hhigh : mid ≤ high) :
    Ordered low high (pieces.foldl (addSpan text) spans) := by
  induction pieces generalizing mid spans with
  | nil => exact h.mono (le_refl _) hhigh
  | cons span pieces ih =>
      have hin := hpieces.inside span (List.mem_cons_self ..)
      have hadd : Ordered low span.2 (addSpan text spans span) :=
        ordered_addSpan h hlow hin.1 hin.2.1
      exact ih hadd (by omega) hpieces.tail hin.2.2

theorem covers_foldl_addSpan (h : Ordered low mid spans) (hlow : low ≤ mid)
    (hpieces : Ordered mid high pieces)
    (hi : Covers spans i ∨ Covers pieces i) :
    Covers (pieces.foldl (addSpan text) spans) i := by
  induction pieces generalizing mid spans with
  | nil =>
      rcases hi with hi | ⟨s, hs, -⟩
      · exact hi
      · cases hs
  | cons span pieces ih =>
      have hin := hpieces.inside span (List.mem_cons_self ..)
      have hadd : Ordered low span.2 (addSpan text spans span) :=
        ordered_addSpan h hlow hin.1 hin.2.1
      have hcover (hi : Covers spans i ∨ Covers [span] i) :
          Covers (addSpan text spans span) i :=
        covers_addSpan h hin.1 hin.2.1 hi
      refine ih hadd (by omega) hpieces.tail ?_
      rw [← List.singleton_append, covers_append, ← or_assoc] at hi
      exact hi.imp_left hcover

-- ================================================================= bounds

variable [Alphanumeric] {bodyStart b : Nat}

/-- The cuts are in the body. -/
theorem mem_bounds (h : bodyStart ≤ text.length)
    (hb : b ∈ bounds text bodyStart) : bodyStart ≤ b ∧ b ≤ text.length := by
  rw [bounds, mem_sortedSet, List.mem_cons, List.mem_cons, List.mem_append,
    List.mem_map, List.mem_map] at hb
  rcases hb with rfl | rfl | ⟨m, hm, rfl⟩ | ⟨m, hm, rfl⟩
  · exact ⟨le_refl _, h⟩
  · exact ⟨h, le_refl _⟩
  · have hin := mem_finditer hm h
    omega
  · have hin := mem_finditer hm h
    omega

/-- The first cut is the beginning of the body, and the end of the text is
another unless the body is empty. -/
theorem bounds_eq_cons (h : bodyStart ≤ text.length) :
    ∃ rest, bounds text bodyStart = bodyStart :: rest
      ∧ (bodyStart < text.length → text.length ∈ rest) := by
  have hsorted := pairwise_sortedSet (bodyStart :: text.length
    :: ((finditer featureBreak text bodyStart).map Match.stop
      ++ (finditer twoPart text bodyStart).map Match.start))
  have hstart : bodyStart ∈ bounds text bodyStart :=
    mem_sortedSet.mpr (List.mem_cons_self ..)
  have hstop : text.length ∈ bounds text bodyStart :=
    mem_sortedSet.mpr (List.mem_cons_of_mem _ (List.mem_cons_self ..))
  have hin (b : Nat) (hb : b ∈ bounds text bodyStart) := mem_bounds h hb
  rw [← bounds] at hsorted
  cases hbounds : bounds text bodyStart with
  | nil =>
      rw [hbounds] at hstart
      cases hstart
  | cons first rest =>
      rw [hbounds] at hsorted hstart hstop hin
      have hfirst : first = bodyStart := by
        refine le_antisymm ?_ (hin first (List.mem_cons_self ..)).1
        rcases List.mem_cons.mp hstart with heq | hrest
        · exact heq.ge
        · exact (List.pairwise_cons.mp hsorted).1 _ hrest
      subst hfirst
      refine ⟨rest, rfl, fun hlt => ?_⟩
      rcases List.mem_cons.mp hstop with heq | hrest
      · omega
      · exact hrest

-- ================================================================ pieces

/-- The pieces between the cuts, in order in the body. -/
theorem ordered_boundPieces (h : bodyStart ≤ text.length) :
    ∃ rest, bounds text bodyStart = bodyStart :: rest
      ∧ (bodyStart < text.length → text.length ∈ rest)
      ∧ Ordered bodyStart text.length
        (((bodyStart :: rest).zip rest).filterMap (stripped text)) := by
  obtain ⟨rest, hrest, hlast⟩ := bounds_eq_cons h
  have hsorted : (bounds text bodyStart).Pairwise (· ≤ ·) :=
    pairwise_sortedSet _
  have hhigh : ∀ b ∈ bounds text bodyStart, b ≤ text.length :=
    fun b hb => (mem_bounds h hb).2
  rw [hrest] at hsorted hhigh
  exact ⟨rest, hrest, hlast, ordered_pieces hsorted hhigh⟩

/-- The spans of `_features`, in order in the body. -/
theorem ordered_featureSpans (h : bodyStart ≤ text.length) :
    Ordered bodyStart text.length (featureSpans text bodyStart) := by
  obtain ⟨rest, hrest, -, hpieces⟩ := ordered_boundPieces h
  rw [featureSpans, hrest, List.tail_cons]
  have hnone : Ordered bodyStart bodyStart [] := ordered_nil
  exact ordered_foldl_addSpan hnone (le_refl _) hpieces h

/-- With every character of it that is not white space. -/
theorem covers_featureSpans {c : Char} (hlow : bodyStart ≤ i)
    (hi : text[i]? = some c) (hsolid : isSpace c = false) :
    Covers (featureSpans text bodyStart) i := by
  have hlt : i < text.length := (List.getElem?_eq_some_iff.mp hi).1
  have h : bodyStart ≤ text.length := by omega
  obtain ⟨rest, hrest, hlast, hpieces⟩ := ordered_boundPieces h
  rw [featureSpans, hrest, List.tail_cons]
  have hnone : Ordered bodyStart bodyStart [] := ordered_nil
  exact covers_foldl_addSpan hnone (le_refl _) hpieces
    (.inr (covers_pieces hlow ⟨_, hlast (by omega), hlt⟩ hi hsolid))

/-- Behind the end of the text there are no features. -/
theorem featureSpans_eq_nil (h : text.length < bodyStart) :
    featureSpans text bodyStart = [] := by
  have hbounds (b : Nat) (hb : b ∈ bounds text bodyStart) : text.length ≤ b := by
    rw [bounds, finditer_eq_nil h.le, finditer_eq_nil h.le, mem_sortedSet] at hb
    rcases List.mem_pair.mp hb with rfl | rfl
    · exact h.le
    · exact le_refl _
  have hnone : ((bounds text bodyStart).zip (bounds text bodyStart).tail).filterMap
      (stripped text) = [] := by
    rw [List.filterMap_eq_nil_iff]
    intro piece hpiece
    refine Option.eq_none_iff_forall_ne_some.mpr fun s hs => ?_
    have hin := stripped_inside hs
    have hle := hbounds piece.1 (List.of_mem_zip hpiece).1
    omega
  rw [featureSpans, hnone, List.foldl_nil]

-- ============================================================== features

/-- A feature is the text at its span. -/
theorem mem_features {number : Nat} {text : String} {bodyStart : Nat}
    {f : ClaimFeature} (h : f ∈ features number text bodyStart) :
    ∃ s ∈ featureSpans text.toList bodyStart, f.spans = [s]
      ∧ f.text = String.ofList (slice text.toList s.1 s.2) := by
  obtain ⟨i, hi, rfl⟩ := List.mem_mapIdx.mp h
  exact ⟨_, List.getElem_mem hi, rfl, rfl⟩

/-- The features of a claim are inside its body, one behind the other, each
the text at its span, and every character of the body that is not white
space is in exactly one of them. -/
theorem features_partition (number : Nat) (text : String) (bodyStart : Nat) :
    (∀ f ∈ features number text bodyStart, ∃ s, f.spans = [s]
      ∧ bodyStart ≤ s.1 ∧ s.1 < s.2 ∧ s.2 ≤ text.toList.length
      ∧ f.text = String.ofList (slice text.toList s.1 s.2))
    ∧ (features number text bodyStart).Pairwise (fun f g =>
      ∀ s ∈ f.spans, ∀ t ∈ g.spans, s.2 ≤ t.1)
    ∧ ∀ i c, bodyStart ≤ i → text.toList[i]? = some c → isSpace c = false →
      ∃! f, f ∈ features number text bodyStart ∧ Covers f.spans i := by
  have hordered : Ordered bodyStart text.toList.length
      (featureSpans text.toList bodyStart) := by
    by_cases h : bodyStart ≤ text.toList.length
    · exact ordered_featureSpans h
    · rw [featureSpans_eq_nil (not_le.mp h)]
      exact ordered_nil
  have hpairwise : (features number text bodyStart).Pairwise fun f g =>
      ∀ s ∈ f.spans, ∀ t ∈ g.spans, s.2 ≤ t.1 := by
    refine pairwise_mapIdx (hordered.ordered.imp fun hst i j s hs t ht => ?_)
    rw [List.mem_singleton.mp hs, List.mem_singleton.mp ht]
    exact hst
  refine ⟨fun f hf => ?_, hpairwise, fun i c hlow hi hsolid => ?_⟩
  · obtain ⟨s, hs, hspans, htext⟩ := mem_features hf
    obtain ⟨hlow, hlt, hhigh⟩ := hordered.inside s hs
    exact ⟨s, hspans, hlow, hlt, hhigh, htext⟩
  · refine existsUnique_of_pairwise (hpairwise.imp ?_) ?_
    · rintro f g hfg ⟨⟨s, hs, hi⟩, t, ht, hi'⟩
      have hst := hfg s hs t ht
      omega
    · obtain ⟨s, hs, hcover⟩ := covers_featureSpans hlow hi hsolid
      obtain ⟨k, hk, hsk⟩ := List.getElem_of_mem hs
      refine ⟨_, List.mem_mapIdx.mpr ⟨k, hk, rfl⟩, ?_⟩
      rw [hsk]
      exact covers_singleton.mpr hcover

end PatentEvidence.Fto.EpClaims
