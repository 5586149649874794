/-
What every feature set satisfies, and that the changes the draft
operations are made of keep it.

A feature is well formed (`FeatureOk`) if its text is trimmed and not
blank, its spans are in the description and apart from each other, and its
origin says where the text comes from: a split feature's is that of its
spans, joined, and a manual one has no spans. A set (`SetOk`) has such
features only, in distinct places, with the spans of different features
apart.

Each operation is a composition of five changes to the features of its
set: one is rewritten, orders are shifted, some are removed, one is added,
or all are copied.

# Sections

- well-formed features and sets;
- changes to the features of a set;
- the changes of the operations.
-/
import PatentEvidence.Fto.ProductFeatures
import PatentEvidence.Fto.Proofs.Product

namespace PatentEvidence.Fto

open Cases (Env)
open Fallible Text

-- ==================================== well-formed features and sets

/-- Spans with no character in common. -/
def Apart (s t : Span) : Prop := s.2 ≤ t.1 ∨ t.2 ≤ s.1

theorem Apart.symm {s t : Span} (h : Apart s t) : Apart t s := Or.symm h

/-- Parts of spans that are apart are apart. -/
theorem Apart.mono {s t s' t' : Span} (h : Apart s t)
    (hs : s.1 ≤ s'.1 ∧ s'.2 ≤ s.2) (ht : t.1 ≤ t'.1 ∧ t'.2 ≤ t.2) :
    Apart s' t' := by
  unfold Apart at h ⊢
  omega

/-- A well-formed feature of a description. -/
structure FeatureOk (text : String) (f : ProductFeatureRow) : Prop where
  nonblank : ¬ Blank f.featureText
  trimmed : strip f.featureText = f.featureText
  bounds : ∀ s ∈ f.spans, s.1 ≤ s.2 ∧ s.2 ≤ text.toList.length
  apart : f.spans.Pairwise Apart
  split : f.origin = .split →
    f.featureText = join " " (f.spans.map (spanText text))
  manual : f.origin = .manual → f.spans = []

/-- A well-formed set of features. -/
structure SetOk (text : String) (features : List ProductFeatureRow) : Prop where
  orders : (features.map ProductFeatureRow.sortOrder).Nodup
  each : ∀ f ∈ features, FeatureOk text f
  apart : ∀ f ∈ features, ∀ g ∈ features, f.featureCode ≠ g.featureCode →
    ∀ s ∈ f.spans, ∀ t ∈ g.spans, Apart s t

section FeatureOk

variable {text : String} {f : ProductFeatureRow}

theorem FeatureOk.solid (h : FeatureOk text f) : Solid f.featureText.toList :=
  solid_iff.mpr ⟨h.nonblank, h.trimmed⟩

/-- A split feature has spans. -/
theorem FeatureOk.spans_ne_nil (h : FeatureOk text f) (hsplit : f.origin = .split) :
    f.spans ≠ [] := by
  intro hnil
  have htext := h.split hsplit
  rw [hnil] at htext
  apply h.nonblank
  rw [htext]
  rfl

/-- What a feature is depends on its text, spans and origin. -/
theorem FeatureOk.congr {g : ProductFeatureRow} (h : FeatureOk text f)
    (htext : g.featureText = f.featureText) (hspans : g.spans = f.spans)
    (horigin : g.origin = f.origin) : FeatureOk text g where
  nonblank := htext ▸ h.nonblank
  trimmed := htext ▸ h.trimmed
  bounds := hspans ▸ h.bounds
  apart := hspans ▸ h.apart
  split := by
    rw [htext, hspans, horigin]
    exact h.split
  manual := by
    rw [hspans, horigin]
    exact h.manual

end FeatureOk

-- ================================= changes to the features of a set

section Changes

variable {text : String} {features : List ProductFeatureRow}

theorem SetOk.filter (h : SetOk text features) (keep : ProductFeatureRow → Bool) :
    SetOk text (features.filter keep) where
  orders := h.orders.sublist (List.filter_sublist.map _)
  each := fun f hf => h.each f (List.mem_of_mem_filter hf)
  apart := fun f hf g hg => h.apart f (List.mem_of_mem_filter hf) g
    (List.mem_of_mem_filter hg)

/-- The features in another order. -/
theorem SetOk.perm {features' : List ProductFeatureRow} (h : SetOk text features)
    (hperm : features'.Perm features) : SetOk text features' where
  orders := (hperm.map _).nodup_iff.mpr h.orders
  each := fun f hf => h.each f (hperm.mem_iff.mp hf)
  apart := fun f hf g hg => h.apart f (hperm.mem_iff.mp hf) g
    (hperm.mem_iff.mp hg)

/-- What leaves code, text, spans and origin of every feature, and orders
distinct. -/
theorem SetOk.map (h : SetOk text features)
    {change : ProductFeatureRow → ProductFeatureRow}
    (horders : (features.map fun f => (change f).sortOrder).Nodup)
    (hsame : ∀ f, (change f).featureCode = f.featureCode
      ∧ (change f).featureText = f.featureText ∧ (change f).spans = f.spans
      ∧ (change f).origin = f.origin) : SetOk text (features.map change) where
  orders := by
    rw [List.map_map]
    exact horders
  each := by
    intro _ hmem
    obtain ⟨f, hf, rfl⟩ := List.mem_map.mp hmem
    obtain ⟨-, htext, hspans, horigin⟩ := hsame f
    exact (h.each f hf).congr htext hspans horigin
  apart := by
    intro _ hmem _ hmem'
    obtain ⟨f, hf, rfl⟩ := List.mem_map.mp hmem
    obtain ⟨g, hg, rfl⟩ := List.mem_map.mp hmem'
    rw [(hsame f).1, (hsame g).1, (hsame f).2.2.1, (hsame g).2.2.1]
    exact h.apart f hf g hg

/-- One feature more. -/
theorem SetOk.concat (h : SetOk text features) {f : ProductFeatureRow}
    (hf : FeatureOk text f)
    (horder : f.sortOrder ∉ features.map ProductFeatureRow.sortOrder)
    (hapart : ∀ g ∈ features, ∀ s ∈ f.spans, ∀ t ∈ g.spans, Apart s t) :
    SetOk text (features ++ [f]) where
  orders := by
    rw [List.map_append, List.map_singleton, ← List.concat_eq_append,
      List.nodup_concat]
    exact ⟨horder, h.orders⟩
  each := by
    intro g hg
    rcases List.mem_append.mp hg with hg | hg
    · exact h.each g hg
    · rw [List.mem_singleton.mp hg]
      exact hf
  apart := by
    intro g hg g' hg' hne
    rcases List.mem_append.mp hg with hg | hg <;>
      rcases List.mem_append.mp hg' with hg' | hg'
    · exact h.apart g hg g' hg' hne
    · rw [List.mem_singleton.mp hg']
      exact fun s hs t ht => (hapart g hg t ht s hs).symm
    · rw [List.mem_singleton.mp hg]
      exact hapart g' hg'
    · rw [List.mem_singleton.mp hg, List.mem_singleton.mp hg'] at hne
      exact absurd rfl hne

/-- The feature of a code is given another text, spans and origin. -/
def rewritten (code body : String) (spans : List Span) (origin : FeatureOrigin)
    (now : Instant) (f : ProductFeatureRow) : ProductFeatureRow :=
  if f.featureCode = code then
    { f with featureText := body, spans := spans, origin := origin
             updatedAt := now }
  else f

section Rewrite

variable {code body : String} {spans : List Span} {origin : FeatureOrigin}
  {now : Instant}

@[simp] theorem rewritten_code (f : ProductFeatureRow) :
    (rewritten code body spans origin now f).featureCode = f.featureCode := by
  unfold rewritten
  split <;> rfl

@[simp] theorem rewritten_order (f : ProductFeatureRow) :
    (rewritten code body spans origin now f).sortOrder = f.sortOrder := by
  unfold rewritten
  split <;> rfl

theorem SetOk.rewrite (h : SetOk text features)
    (hok : ∀ f : ProductFeatureRow, f.featureText = body → f.spans = spans →
      f.origin = origin → FeatureOk text f)
    (hapart : ∀ g ∈ features, g.featureCode ≠ code → ∀ s ∈ spans, ∀ t ∈ g.spans,
      Apart s t) :
    SetOk text (features.map (rewritten code body spans origin now)) where
  orders := by
    rw [List.map_map]
    have hsame : ProductFeatureRow.sortOrder ∘ rewritten code body spans origin now
        = ProductFeatureRow.sortOrder := funext rewritten_order
    rw [hsame]
    exact h.orders
  each := by
    intro _ hmem
    obtain ⟨f, hf, rfl⟩ := List.mem_map.mp hmem
    unfold rewritten
    split
    · exact hok _ rfl rfl rfl
    · exact h.each f hf
  apart := by
    intro _ hmem _ hmem' hne
    obtain ⟨f, hf, rfl⟩ := List.mem_map.mp hmem
    obtain ⟨g, hg, rfl⟩ := List.mem_map.mp hmem'
    rw [rewritten_code, rewritten_code] at hne
    unfold rewritten
    split
    · next hcode =>
        rw [if_neg fun hcode' => hne (hcode.trans hcode'.symm)]
        exact hapart g hg fun hcode' => hne (hcode.trans hcode'.symm)
    · next hcode =>
        split
        · exact fun s hs t ht => (hapart f hf hcode t ht s hs).symm
        · exact h.apart f hf g hg hne

end Rewrite

/-- Orders after one are moved on by one. -/
def shifted (order : Nat) (f : ProductFeatureRow) : ProductFeatureRow :=
  if order < f.sortOrder then { f with sortOrder := f.sortOrder + 1 } else f

theorem shifted_order (order : Nat) (f : ProductFeatureRow) :
    (shifted order f).sortOrder
      = if order < f.sortOrder then f.sortOrder + 1 else f.sortOrder := by
  unfold shifted
  split <;> rfl

theorem SetOk.shift (h : SetOk text features) (order : Nat) :
    SetOk text (features.map (shifted order)) := by
  refine h.map ?_ fun f => ?_
  · refine List.Nodup.of_map (fun n => if order + 1 < n then n - 1 else n) ?_
    rw [List.map_map]
    have hback : (fun n => if order + 1 < n then n - 1 else n)
          ∘ (fun f => (shifted order f).sortOrder)
        = ProductFeatureRow.sortOrder := by
      funext f
      rw [Function.comp_apply, shifted_order]
      split <;> split <;> omega
    rw [hback]
    exact h.orders
  · unfold shifted
    split <;> exact ⟨rfl, rfl, rfl, rfl⟩

/-- The place after an order is free once the orders are shifted. -/
theorem notMem_shifted (order : Nat) :
    order + 1 ∉ (features.map (shifted order)).map ProductFeatureRow.sortOrder := by
  intro hin
  rw [List.map_map] at hin
  obtain ⟨f, -, heq⟩ := List.mem_map.mp hin
  rw [Function.comp_apply, shifted_order] at heq
  split at heq <;> omega

end Changes

-- ===================================== the changes of the operations

section Operations

variable {text : String} {features : List ProductFeatureRow} {env : Env}

theorem solid_stripped {raw : String} (h : strip raw ≠ "") :
    Solid (strip raw).toList := by
  rw [strip, String.toList_ofList]
  refine solid_stripChars fun hnil => h ?_
  rw [strip, hnil]

/-- An edited feature keeps its spans, and is split only with its text. -/
theorem featureOk_edited {feature f : ProductFeatureRow} {newText : String}
    (h : FeatureOk text feature) (hbody : strip newText ≠ "")
    (htext : f.featureText = strip newText) (hspans : f.spans = feature.spans)
    (horigin : f.origin = editedOrigin feature (strip newText)) :
    FeatureOk text f := by
  obtain ⟨hnonblank, htrimmed⟩ := solid_iff.mp (solid_stripped hbody)
  rw [← htext] at hnonblank htrimmed
  refine ⟨hnonblank, htrimmed, hspans ▸ h.bounds, hspans ▸ h.apart, ?_, ?_⟩
  · intro hsplit
    rw [horigin, editedOrigin] at hsplit
    split at hsplit
    · next heq =>
        rw [htext, hspans, heq]
        exact h.split hsplit
    · split at hsplit <;> cases hsplit
  · intro hmanual
    rw [hspans]
    apply h.manual
    rw [horigin, editedOrigin] at hmanual
    split at hmanual
    · exact hmanual
    · split at hmanual
      · assumption
      · cases hmanual

theorem nextOrder_notMem (features : List ProductFeatureRow) :
    nextOrder features ∉ features.map ProductFeatureRow.sortOrder := by
  unfold nextOrder
  intro hin
  split at hin
  · next highest hmax =>
      have hle := (List.max?_eq_some_iff.mp hmax).2 _ hin
      omega
  · next hnone =>
      rw [List.max?_eq_none_iff] at hnone
      rw [hnone] at hin
      cases hin

theorem featureOk_added {newText setId code : String} {order : Nat}
    (hbody : strip newText ≠ "") :
    FeatureOk text (ProductStore.featureRow env setId code (strip newText) []
      .manual order) := by
  obtain ⟨hnonblank, htrimmed⟩ := solid_iff.mp (solid_stripped hbody)
  exact ⟨hnonblank, htrimmed, fun _ hs => (nomatch hs), .nil,
    fun h => (nomatch h), fun _ => rfl⟩

/-- A feature with a stripped text, as far as its spans go. -/
theorem featureOk_stripped {cs : List Char} {f : ProductFeatureRow}
    (hne : stripChars cs ≠ [])
    (htext : f.featureText = String.ofList (stripChars cs))
    (hbounds : ∀ s ∈ f.spans, s.1 ≤ s.2 ∧ s.2 ≤ text.toList.length)
    (hapart : f.spans.Pairwise Apart)
    (hsplit : f.origin = .split →
      f.featureText = join " " (f.spans.map (spanText text)))
    (hmanual : f.origin = .manual → f.spans = []) : FeatureOk text f := by
  have hsolid : Solid f.featureText.toList := by
    rw [htext, String.toList_ofList]
    exact solid_stripChars hne
  obtain ⟨hnonblank, htrimmed⟩ := solid_iff.mp hsolid
  exact ⟨hnonblank, htrimmed, hbounds, hapart, hsplit, hmanual⟩

/-- Two features made of one: well formed, with spans that are parts of its
spans and apart from each other. -/
structure SplitOk (text : String) (feature : ProductFeatureRow) (index : Nat)
    (leftSpans rightSpans : List Span) (origin : FeatureOrigin) : Prop where
  left : ∀ f : ProductFeatureRow,
    f.featureText
        = String.ofList (stripChars (feature.featureText.toList.take index)) →
    f.spans = leftSpans → f.origin = origin → FeatureOk text f
  right : ∀ f : ProductFeatureRow,
    f.featureText
        = String.ofList (stripChars (feature.featureText.toList.drop index)) →
    f.spans = rightSpans → f.origin = origin → FeatureOk text f
  parts : ∀ s, s ∈ leftSpans ∨ s ∈ rightSpans →
    ∃ s' ∈ feature.spans, s'.1 ≤ s.1 ∧ s.2 ≤ s'.2
  apart : ∀ s ∈ leftSpans, ∀ t ∈ rightSpans, Apart s t

theorem splitOk_splitParts {feature : ProductFeatureRow} {index : Nat}
    (h : FeatureOk text feature)
    (hleft : stripChars (feature.featureText.toList.take index) ≠ [])
    (hright : stripChars (feature.featureText.toList.drop index) ≠ []) :
    SplitOk text feature index (splitParts feature index).1
      (splitParts feature index).2.1 (splitParts feature index).2.2 := by
  unfold splitParts
  split
  · next start stop horigin hspans =>
      have hspan : (start, stop) ∈ feature.spans := by
        rw [hspans]
        exact List.mem_singleton.mpr rfl
      have hbounds := h.bounds (start, stop) hspan
      dsimp only at hbounds ⊢
      -- the text is the slice at the only span
      have htext : feature.featureText.toList = slice text.toList start stop := by
        rw [h.split horigin, hspans, List.map_singleton, join,
          String.intercalate_singleton, spanText, String.toList_ofList]
      have hlength := length_slice start hbounds.2
      rw [← htext] at hlength
      have hslice (i j : Nat) (hj : start + j ≤ stop) :
          slice feature.featureText.toList i j
            = slice text.toList (start + i) (start + j) := by
        rw [htext, slice_slice _ hj]
      have hsolid := h.solid
      have hend := (List.rdropWhile_prefix isSpace
        (feature.featureText.toList.take index)).length_le
      rw [List.length_take] at hend
      have hleftText := hsolid.strip_take hleft
      have hrightText := hsolid.strip_drop hright
      have hinside : index + ((feature.featureText.toList.drop index).length
            - ((feature.featureText.toList.drop index).dropWhile isSpace).length)
          < feature.featureText.toList.length := by
        rw [hrightText, ne_eq, List.drop_eq_nil_iff] at hright
        omega
      refine ⟨?_, ?_, ?_, ?_⟩
      · intro f hf hs ho
        refine featureOk_stripped hleft hf ?_ ?_ ?_ ?_
        · rw [hs, List.forall_mem_singleton]
          dsimp only
          omega
        · rw [hs]
          exact List.pairwise_singleton ..
        · intro _
          rw [hf, hs, hleftText, List.map_singleton, join,
            String.intercalate_singleton, spanText, hslice _ _ (by omega)]
          rfl
        · intro hmanual
          rw [ho] at hmanual
          cases hmanual
      · intro f hf hs ho
        refine featureOk_stripped hright hf ?_ ?_ ?_ ?_
        · rw [hs, List.forall_mem_singleton]
          dsimp only
          omega
        · rw [hs]
          exact List.pairwise_singleton ..
        · intro _
          have hstop : start + feature.featureText.toList.length = stop := by
            omega
          have hrest := hslice (index
            + ((feature.featureText.toList.drop index).length
              - ((feature.featureText.toList.drop index).dropWhile isSpace).length))
            feature.featureText.toList.length hstop.le
          rw [hstop, slice, List.take_length, ← Nat.add_assoc] at hrest
          rw [hf, hs, hrightText, hrest, List.map_singleton, join,
            String.intercalate_singleton, spanText]
        · intro hmanual
          rw [ho] at hmanual
          cases hmanual
      · rintro s (hs | hs)
        · rw [List.mem_singleton.mp hs]
          exact ⟨_, hspan, by dsimp only; omega⟩
        · rw [List.mem_singleton.mp hs]
          exact ⟨_, hspan, by dsimp only; omega⟩
      · intro s hs t ht
        rw [List.mem_singleton.mp hs, List.mem_singleton.mp ht]
        left
        dsimp only
        omega
  · have hnotSplit : (if feature.origin ≠ .manual then FeatureOrigin.edited
        else .manual) ≠ .split := by
      split <;> decide
    have hmanual (hm : (if feature.origin ≠ .manual then FeatureOrigin.edited
        else .manual) = .manual) : feature.spans = [] := by
      split at hm
      · cases hm
      · next hnot => exact h.manual (not_not.mp hnot)
    refine ⟨?_, ?_, ?_, fun _ _ _ ht => by cases ht⟩
    · intro f hf hs ho
      refine featureOk_stripped hleft hf (hs ▸ h.bounds) (hs ▸ h.apart) ?_ ?_
      · exact fun hsplit => absurd (ho.symm.trans hsplit) hnotSplit
      · exact fun hm => hs.trans (hmanual (ho.symm.trans hm))
    · intro f hf hs ho
      refine featureOk_stripped hright hf ?_ ?_ ?_ fun _ => hs
      · rw [hs]
        intro _ hnil
        cases hnil
      · rw [hs]
        exact .nil
      · exact fun hsplit => absurd (ho.symm.trans hsplit) hnotSplit
    · rintro s (hs | hs)
      · exact ⟨s, hs, le_refl _, le_refl _⟩
      · cases hs

theorem shifted_rewritten_spans {code body : String} {spans : List Span}
    {origin : FeatureOrigin} {now : Instant} (order : Nat) (f : ProductFeatureRow) :
    (shifted order (rewritten code body spans origin now f)).spans
      = if f.featureCode = code then spans else f.spans := by
  unfold shifted rewritten
  split <;> split <;> rfl

theorem setOk_split (h : SetOk text features) {feature right : ProductFeatureRow}
    {index : Nat} {leftSpans rightSpans : List Span} {origin : FeatureOrigin}
    {now : Instant} (hin : feature ∈ features)
    (hsplit : SplitOk text feature index leftSpans rightSpans origin)
    (htext : right.featureText
      = String.ofList (stripChars (feature.featureText.toList.drop index)))
    (hspans : right.spans = rightSpans) (horigin : right.origin = origin)
    (horder : right.sortOrder = feature.sortOrder + 1) :
    SetOk text ((features.map (rewritten feature.featureCode
        (String.ofList (stripChars (feature.featureText.toList.take index)))
        leftSpans origin now)).map (shifted feature.sortOrder) ++ [right]) := by
  -- a part of the feature's spans is apart from the other features' spans
  have hother (s : Span) (hs : s ∈ leftSpans ∨ s ∈ rightSpans)
      (g : ProductFeatureRow) (hg : g ∈ features)
      (hne : g.featureCode ≠ feature.featureCode) (t : Span) (ht : t ∈ g.spans) :
      Apart s t := by
    obtain ⟨s', hs', hpart⟩ := hsplit.parts s hs
    exact (h.apart feature hin g hg hne.symm s' hs' t ht).mono hpart
      ⟨le_refl _, le_refl _⟩
  have hleft : SetOk text (features.map (rewritten feature.featureCode
      (String.ofList (stripChars (feature.featureText.toList.take index)))
      leftSpans origin now)) :=
    h.rewrite hsplit.left
      fun g hg hne s hs t ht => hother s (.inl hs) g hg hne t ht
  refine (hleft.shift feature.sortOrder).concat
    (hsplit.right right htext hspans horigin) ?_ ?_
  · rw [horder]
    exact notMem_shifted feature.sortOrder
  · intro _ hmem s hs t ht
    rw [List.map_map] at hmem
    obtain ⟨g, hg, rfl⟩ := List.mem_map.mp hmem
    rw [hspans] at hs
    rw [Function.comp_apply, shifted_rewritten_spans] at ht
    split at ht
    · exact (hsplit.apart t ht s hs).symm
    · next hne => exact hother s (.inr hs) g hg hne t ht

/-- The feature that features are merged into. -/
theorem featureOk_merged (h : SetOk text features) {chosen : List ProductFeatureRow}
    (hne : chosen ≠ []) (hin : ∀ f ∈ chosen, f ∈ features)
    (hcodes : (chosen.map ProductFeatureRow.featureCode).Nodup)
    {f : ProductFeatureRow}
    (htext : f.featureText
      = join " " (chosen.map ProductFeatureRow.featureText))
    (hspans : f.spans = chosen.flatMap ProductFeatureRow.spans)
    (horigin : f.origin
      = if chosen.all fun f => f.origin = .split then .split else .edited) :
    FeatureOk text f := by
  have heach (g : ProductFeatureRow) (hg : g ∈ chosen) := h.each g (hin g hg)
  have hsolid : Solid f.featureText.toList := by
    rw [htext]
    refine solid_join (by rw [ne_eq, List.map_eq_nil_iff]; exact hne) ?_
    intro s hs
    obtain ⟨g, hg, rfl⟩ := List.mem_map.mp hs
    exact (heach g hg).solid
  obtain ⟨hnonblank, htrimmed⟩ := solid_iff.mp hsolid
  refine ⟨hnonblank, htrimmed, ?_, ?_, ?_, ?_⟩
  · intro s hs
    rw [hspans] at hs
    obtain ⟨g, hg, hs⟩ := List.mem_flatMap.mp hs
    exact (heach g hg).bounds s hs
  · rw [hspans, List.pairwise_flatMap]
    refine ⟨fun g hg => (heach g hg).apart, ?_⟩
    refine (List.pairwise_map.mp hcodes).imp_of_mem fun {g g'} hg hg' hne' => ?_
    exact h.apart g (hin g hg) g' (hin g' hg') hne'
  · intro hsplit
    rw [horigin] at hsplit
    split at hsplit
    · next hall =>
        rw [List.all_eq_true] at hall
        have hsplits (g : ProductFeatureRow) (hg : g ∈ chosen) :
            g.origin = .split := of_decide_eq_true (hall g hg)
        rw [htext, hspans, List.map_flatMap, join_flatMap]
        · congr 1
          exact List.map_congr_left fun g hg => (heach g hg).split (hsplits g hg)
        · intro g hg
          rw [ne_eq, List.map_eq_nil_iff]
          exact (heach g hg).spans_ne_nil (hsplits g hg)
    · cases hsplit
  · intro hmanual
    rw [horigin] at hmanual
    split at hmanual <;> cases hmanual

theorem setOk_merge (h : SetOk text features) {first : ProductFeatureRow}
    {rest : List ProductFeatureRow} {now : Instant}
    (hin : ∀ f ∈ first :: rest, f ∈ features)
    (hcodes : ((first :: rest).map ProductFeatureRow.featureCode).Nodup) :
    SetOk text ((features.map (rewritten first.featureCode
        (join " " ((first :: rest).map ProductFeatureRow.featureText))
        ((first :: rest).flatMap ProductFeatureRow.spans)
        (if (first :: rest).all fun f => f.origin = .split then .split
          else .edited) now)).filter
      fun f => f.featureCode ∉ rest.map ProductFeatureRow.featureCode) := by
  rw [List.filter_map]
  have hkeep (body : String) (spans : List Span) (origin : FeatureOrigin) :
      ((fun f : ProductFeatureRow =>
          decide (f.featureCode ∉ rest.map ProductFeatureRow.featureCode))
        ∘ rewritten first.featureCode body spans origin now)
      = fun f => decide
          (f.featureCode ∉ rest.map ProductFeatureRow.featureCode) := by
    funext f
    rw [Function.comp_apply, rewritten_code]
  rw [hkeep]
  refine (h.filter _).rewrite (fun f htext hspans horigin =>
    featureOk_merged h (List.cons_ne_nil _ _) hin hcodes htext hspans horigin) ?_
  intro g hg hne s hs t ht
  obtain ⟨hgin, hrest⟩ := List.mem_filter.mp hg
  obtain ⟨f, hf, hs⟩ := List.mem_flatMap.mp hs
  refine h.apart f (hin f hf) g hgin ?_ s hs t ht
  rcases List.mem_cons.mp hf with rfl | hf
  · exact Ne.symm hne
  · intro heq
    exact of_decide_eq_true hrest (heq ▸ List.mem_map_of_mem hf)

/-- Looking up distinct codes finds features of those codes. -/
theorem codes_of_mapM_findFeature {codes : List String}
    {found : List ProductFeatureRow}
    (h : codes.mapM (findFeature features) = .ok found) :
    found.map ProductFeatureRow.featureCode = codes
      ∧ ∀ f ∈ found, f ∈ features := by
  have hall := mapM_eq_ok_iff.mp h
  clear h
  induction hall with
  | nil => exact ⟨rfl, fun _ hf => nomatch hf⟩
  | @cons code f codes found hfind _ ih =>
      unfold findFeature at hfind
      split at hfind
      · next feature hfeature =>
          cases hfind
          have hcode : f.featureCode = code := by
            simpa using List.find?_some hfeature
          rw [List.map_cons, hcode, ih.1, List.forall_mem_cons]
          exact ⟨rfl, List.mem_of_find?_eq_some hfeature, ih.2⟩
      · cases hfind

theorem findFeature_eq_ok {code : String} {feature : ProductFeatureRow}
    (h : findFeature features code = .ok feature) :
    feature ∈ features ∧ feature.featureCode = code := by
  unfold findFeature at h
  split at h
  · next feature' hfeature =>
      cases h
      exact ⟨List.mem_of_find?_eq_some hfeature,
        by simpa using List.find?_some hfeature⟩
  · cases h

variable [Digits] [Alphanumeric]

/-- The candidates of a description. -/
theorem setOk_draftRows (env : Env) (setId text : String) :
    SetOk text (draftRows env setId (splitDescription text).features) := by
  have hordered := ordered_splitDescription text
  have hrow (f : ProductFeatureRow)
      (hf : f ∈ draftRows env setId (splitDescription text).features) :
      ∃ i, ∃ hi : i < (spansFrom text.toList 0 (splitLines text.toList)).length,
        f = ProductStore.featureRow env setId ("P" ++ toString (i + 1))
          (spanText text (spansFrom text.toList 0 (splitLines text.toList))[i])
          [(spansFrom text.toList 0 (splitLines text.toList))[i]] .split i := by
    unfold draftRows splitDescription at hf
    rw [List.mem_mapIdx] at hf
    obtain ⟨i, hi, rfl⟩ := hf
    rw [List.length_mapIdx] at hi
    refine ⟨i, hi, ?_⟩
    simp only [List.getElem_mapIdx]
  refine ⟨?_, ?_, ?_⟩
  · unfold draftRows
    have hrange : ((splitDescription text).features.mapIdx fun order feature =>
          ProductStore.featureRow env setId feature.featureId feature.text
            feature.spans .split order).map ProductFeatureRow.sortOrder
        = List.range (splitDescription text).features.length := by
      apply List.ext_getElem
      · simp
      · intro i _ _
        simp [ProductStore.featureRow]
    rw [hrange]
    exact List.nodup_range
  · intro f hf
    obtain ⟨i, hi, rfl⟩ := hrow f hf
    have hmem := List.getElem_mem hi
    have hsolid := (of_mem_spansFrom hmem).1
    have hin := hordered.inside _ hmem
    have htext : Solid (spanText text
        (spansFrom text.toList 0 (splitLines text.toList))[i]).toList := by
      rw [spanText, String.toList_ofList]
      exact hsolid
    obtain ⟨hnonblank, htrimmed⟩ := solid_iff.mp htext
    refine ⟨hnonblank, htrimmed, ?_, List.pairwise_singleton .., ?_, ?_⟩
    · intro s hs
      rw [List.mem_singleton.mp hs]
      exact ⟨hin.2.1.le, hin.2.2⟩
    · intro _
      exact String.intercalate_singleton.symm
    · intro hmanual
      cases hmanual
  · intro f hf g hg hne s hs t ht
    obtain ⟨i, hi, rfl⟩ := hrow f hf
    obtain ⟨j, hj, rfl⟩ := hrow g hg
    rw [List.mem_singleton.mp hs, List.mem_singleton.mp ht]
    have hapart := List.pairwise_iff_getElem.mp hordered.ordered
    rcases Nat.lt_trichotomy i j with hlt | heq | hlt
    · exact .inl (hapart i j hi hj hlt)
    · subst heq
      exact absurd rfl hne
    · exact .inr (hapart j i hj hi hlt)

omit [Digits] [Alphanumeric] in
/-- The copies in a revision. -/
theorem setOk_revisionRows (h : SetOk text features) (env : Env) (setId : String) :
    SetOk text (revisionRows env setId features) :=
  h.map h.orders fun _ => ⟨rfl, rfl, rfl, rfl⟩

end Operations

end PatentEvidence.Fto
