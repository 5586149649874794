/-
The features of a US claim and its leading number.

The pieces of the clauses partition the text (Proofs/UsClauses.lean), and
stripping them loses white space only. Of the first clause everything up to
the end of the leading number is cut off, where the pattern finds one: it
is anchored at the beginning of the text, and cuts nothing from other
clauses. So the number is in no feature exactly if it stands at the very
beginning and all of it is in the first clause (`NumberInFirstClause`).

# Sections

- the leading number;
- the pieces of a clause;
- the features of a text;
- the features of a claim.
-/
import PatentEvidence.Fto.Proofs.UsClauses

namespace PatentEvidence.Fto.UsClaims

open Fallible Scan Spans Text

variable {text : List Char} {i : Nat} {c : Char} {pieces : List (Nat × Nat)}

-- ==================================================== the leading number

section Number

variable [Digits]

/-- Where the leading number of a text is, with its full stop. -/
def numberSpan (text : List Char) : Option (Nat × Nat) := do
  let digits := afterSpaces text
  let rest ← afterDigits digits
  let rest ← afterOneOf ['.'] (afterSpaces rest)
  return (text.length - digits.length, text.length - rest.length)

/-- A position is in the leading number. -/
def InNumber (text : List Char) (i : Nat) : Prop :=
  ∃ s, numberSpan text = some s ∧ s.1 ≤ i ∧ i < s.2

/-- In front of the number is white space only, and it begins with a
digit. -/
theorem numberSpan_eq_some {s : Nat × Nat} (h : numberSpan text = some s) :
    ∃ spaces c number behind, text = spaces ++ (c :: number ++ behind)
      ∧ (∀ c ∈ spaces, isSpace c = true) ∧ isSpace c = false
      ∧ s = (spaces.length, spaces.length + (number.length + 1)) := by
  obtain ⟨rest, hdigits, h⟩ := Option.bind_eq_some_iff.mp h
  obtain ⟨behind, hstop, h⟩ := Option.bind_eq_some_iff.mp h
  obtain ⟨spaces, htext, hspaces⟩ := afterSpaces_split text
  obtain ⟨digits, hrest, hne, -⟩ := afterDigits_split hdigits
  obtain ⟨spaces', hrest', -⟩ := afterSpaces_split rest
  obtain ⟨d, -, hbehind⟩ := afterOneOf_eq_some hstop
  cases digits with
  | nil => exact absurd rfl hne
  | cons c digits =>
      rw [hrest', hbehind, List.cons_append] at hrest
      have hlength := congrArg List.length htext
      have hlength' := congrArg List.length hrest
      rw [List.length_append] at hlength
      rw [List.length_cons, List.length_append, List.length_append,
        List.length_cons] at hlength'
      refine ⟨spaces, c, digits ++ spaces' ++ [d], behind, ?_, hspaces, ?_, ?_⟩
      · rw [htext, hrest]
        simp only [List.append_assoc, List.cons_append, List.nil_append]
      · exact isSpace_of_afterSpaces hrest
      · cases h
        rw [List.length_append, List.length_append, List.length_singleton]
        exact Prod.ext (by dsimp only; omega) (by dsimp only; omega)

/-- At the beginning of a text the pattern reads the leading number and the
white space behind it. -/
theorem leadingNumber_eq (text : List Char) :
    leadingNumber text 0 = (numberSpan text).map fun s =>
      text.length - (afterSpaces (text.drop s.2)).length := by
  have hdrop (behind : List Char) (h : behind <:+ text) :
      text.drop (text.length - behind.length) = behind :=
    (List.suffix_iff_eq_drop.mp h).symm
  unfold leadingNumber numberSpan
  rw [if_neg (not_not.mpr rfl)]
  dsimp only
  cases hdigits : afterDigits (afterSpaces text) with
  | none => rfl
  | some rest =>
      rw [Option.bind_eq_bind, Option.bind_eq_bind, Option.bind_some,
        Option.bind_some]
      cases hstop : afterOneOf ['.'] (afterSpaces rest) with
      | none => rfl
      | some behind =>
          obtain ⟨spaces, htext, -⟩ := afterSpaces_split text
          obtain ⟨digits, hrest, -⟩ := afterDigits_split hdigits
          obtain ⟨spaces', hrest', -⟩ := afterSpaces_split rest
          obtain ⟨c, -, hbehind⟩ := afterOneOf_eq_some hstop
          have hsuffix : behind <:+ text := by
            rw [htext, hrest, hrest', hbehind]
            exact ⟨spaces ++ (digits ++ (spaces' ++ [c])), by
              simp only [List.append_assoc, List.cons_append, List.nil_append]⟩
          change some _ = some _
          dsimp only
          rw [hdrop behind hsuffix]

/-- What the pattern reads behind the number is white space. -/
theorem leadingNumber_of_numberSpan {s : Nat × Nat} (h : numberSpan text = some s) :
    ∃ cut, leadingNumber text 0 = some cut ∧ s.2 ≤ cut
      ∧ ∀ i c, s.2 ≤ i → i < cut → text[i]? = some c → isSpace c = true := by
  rw [leadingNumber_eq, h, Option.map_some]
  obtain ⟨spaces, c, number, behind, htext, -, -, hs⟩ := numberSpan_eq_some h
  obtain ⟨spaces', hdrop, hspaces'⟩ := afterSpaces_split (text.drop s.2)
  have hlength := congrArg List.length htext
  rw [List.length_append, List.length_append, List.length_cons] at hlength
  have hlength' := congrArg List.length hdrop
  rw [List.length_append, List.length_drop] at hlength'
  have hs2 : s.2 = spaces.length + (number.length + 1) := by rw [hs]
  refine ⟨_, rfl, by omega, fun i c hlow hhigh hi => ?_⟩
  have hget : (text.drop s.2)[i - s.2]? = some c := by
    rw [List.getElem?_drop, Nat.add_sub_cancel' hlow, hi]
  rw [hdrop, List.getElem?_append_left (by omega)] at hget
  exact hspaces' c (List.mem_of_getElem? hget)

/-- The positions of the number: it begins behind the white space at the
beginning of the text. -/
theorem numberSpan_starts {s : Nat × Nat} (h : numberSpan text = some s) :
    s.1 < s.2 ∧ (∃ c, text[s.1]? = some c ∧ isSpace c = false)
      ∧ ∀ i c, i < s.1 → text[i]? = some c → isSpace c = true := by
  obtain ⟨spaces, c, number, behind, rfl, hspaces, hsolid, rfl⟩ :=
    numberSpan_eq_some h
  dsimp only
  refine ⟨by omega, ⟨c, ?_, hsolid⟩, fun i d hlt hi => ?_⟩
  · rw [List.getElem?_append_right (le_refl _), Nat.sub_self]
    rfl
  · rw [List.getElem?_append_left hlt] at hi
    exact hspaces d (List.mem_of_getElem? hi)

end Number

-- ================================================= the pieces of a clause

/-- Stripped pieces are inside the pieces. -/
theorem ordered_trimmed (h : Ordered 0 text.length pieces) :
    Ordered 0 text.length (pieces.filterMap (stripped text)) where
  inside := by
    intro s hs
    obtain ⟨piece, hpiece, hstripped⟩ := List.mem_filterMap.mp hs
    have hin := stripped_inside hstripped
    omega
  ordered := by
    refine h.ordered.filterMap _ fun p q hpq s hs t ht => ?_
    have hin := stripped_inside hs
    have hin' := stripped_inside ht
    omega

theorem covers_of_trimmed (h : Covers (pieces.filterMap (stripped text)) i) :
    Covers pieces i := by
  obtain ⟨s, hs, hi⟩ := h
  obtain ⟨piece, hpiece, hstripped⟩ := List.mem_filterMap.mp hs
  have hin := stripped_inside hstripped
  exact ⟨piece, hpiece, by omega⟩

theorem trimmed_of_covers (hi : text[i]? = some c) (hsolid : isSpace c = false)
    (h : Covers pieces i) : Covers (pieces.filterMap (stripped text)) i := by
  obtain ⟨piece, hpiece, hcover⟩ := h
  obtain ⟨s, hs, hs'⟩ := covers_stripped hcover.1 hcover.2 hi hsolid
  exact ⟨s, List.mem_filterMap.mpr ⟨piece, hpiece, Option.mem_toList.mp hs⟩, hs'⟩

section Digits

variable [Digits]

/-- How far the first clause is cut off. -/
def cutOf (text : List Char) (index : Nat) (pieces : List (Nat × Nat)) : Nat :=
  if index = 0 then
    ((pieces.filterMap (stripped text)).head?.bind fun s =>
      leadingNumber text s.1).getD 0
  else 0

/-- A feature's spans are the stripped pieces of its clause behind the
cut. -/
theorem clauseSpans_eq {index : Nat} (h : Ordered 0 text.length pieces) :
    clauseSpans text index pieces
      = ((pieces.filterMap (stripped text)).filter
          fun s => cutOf text index pieces < s.2).map
        fun s => (max s.1 (cutOf text index pieces), s.2) := by
  have htrimmed := ordered_trimmed h
  have hzero : ((pieces.filterMap (stripped text)).filter fun s => 0 < s.2).map
      (fun s => (max s.1 0, s.2)) = pieces.filterMap (stripped text) := by
    rw [List.filter_eq_self.mpr]
    · exact (List.map_congr_left fun s _ => by rw [Nat.max_zero]; rfl).trans
        (List.map_id _)
    · intro s hs
      have hin := htrimmed.inside s hs
      exact decide_eq_true (by omega)
  unfold clauseSpans cutOf
  dsimp only
  cases hcase : pieces.filterMap (stripped text) with
  | nil => rfl
  | cons first rest =>
      rw [hcase] at hzero
      dsimp only
      rw [List.head?_cons, Option.bind_some]
      split
      · cases leadingNumber text first.1 with
        | some cut => rfl
        | none => exact hzero.symm
      · exact hzero.symm

/-- They are in order. -/
theorem ordered_clauseSpans {index : Nat} (h : Ordered 0 text.length pieces) :
    Ordered 0 text.length (clauseSpans text index pieces) := by
  have htrimmed := ordered_trimmed h
  rw [clauseSpans_eq h]
  constructor
  · intro s hs
    obtain ⟨t, ht, rfl⟩ := List.mem_map.mp hs
    obtain ⟨ht, hcut⟩ := List.mem_filter.mp ht
    have hin := htrimmed.inside t ht
    have hcut := of_decide_eq_true hcut
    dsimp only
    omega
  · rw [List.pairwise_map]
    refine (htrimmed.ordered.filter _).imp fun hst => ?_
    dsimp only
    omega

theorem covers_of_clauseSpans {index : Nat} (h : Ordered 0 text.length pieces)
    (hi : Covers (clauseSpans text index pieces) i) :
    Covers pieces i ∧ cutOf text index pieces ≤ i := by
  rw [clauseSpans_eq h] at hi
  obtain ⟨s, hs, hi⟩ := hi
  obtain ⟨t, ht, rfl⟩ := List.mem_map.mp hs
  have ht := (List.mem_filter.mp ht).1
  dsimp only at hi
  exact ⟨covers_of_trimmed ⟨t, ht, by omega⟩, by omega⟩

theorem clauseSpans_of_covers {index : Nat} (h : Ordered 0 text.length pieces)
    (hi : text[i]? = some c) (hsolid : isSpace c = false)
    (hcover : Covers pieces i) (hcut : cutOf text index pieces ≤ i) :
    Covers (clauseSpans text index pieces) i := by
  obtain ⟨t, ht, hti⟩ := trimmed_of_covers hi hsolid hcover
  rw [clauseSpans_eq h]
  refine ⟨_, List.mem_map.mpr ⟨t, List.mem_filter.mpr ⟨ht, ?_⟩, rfl⟩, ?_⟩
  · exact decide_eq_true (by omega)
  · dsimp only
    omega

/-- A span of a feature begins inside the clause, at a character that is no
white space or behind the cut. -/
theorem clauseSpans_starts {index : Nat} (h : Ordered 0 text.length pieces)
    (hi : Covers (clauseSpans text index pieces) i) :
    ∃ j ≤ i, Covers pieces j ∧ ∃ c, text[j]? = some c ∧ isSpace c = false := by
  rw [clauseSpans_eq h] at hi
  obtain ⟨s, hs, hi⟩ := hi
  obtain ⟨t, ht, rfl⟩ := List.mem_map.mp hs
  obtain ⟨ht, -⟩ := List.mem_filter.mp ht
  obtain ⟨piece, hpiece, hstripped⟩ := List.mem_filterMap.mp ht
  have hin := stripped_inside hstripped
  dsimp only at hi
  refine ⟨t.1, by omega, covers_of_trimmed ⟨t, ht, ?_⟩, head_stripped hstripped⟩
  omega

/-- Where something is cut off, the clause begins with the text. -/
theorem cutOf_pos {index : Nat} (h : 0 < cutOf text index pieces) :
    index = 0 ∧ (∃ c, text[0]? = some c ∧ isSpace c = false)
      ∧ leadingNumber text 0 = some (cutOf text index pieces) := by
  unfold cutOf at h ⊢
  split at h
  · next hindex =>
      subst hindex
      rw [if_pos rfl]
      cases hhead : (pieces.filterMap (stripped text)).head? with
      | none =>
          rw [hhead] at h
          cases h
      | some s =>
          rw [hhead, Option.bind_some] at h
          rw [Option.bind_some]
          cases hcut : leadingNumber text s.1 with
          | none =>
              rw [hcut] at h
              cases h
          | some cut =>
              have hstart : s.1 = 0 := by
                by_contra hne
                rw [leadingNumber, if_pos hne] at hcut
                cases hcut
              obtain ⟨piece, -, hstripped⟩ := List.mem_filterMap.mp
                (List.mem_of_head? hhead)
              have hsolid := head_stripped hstripped
              rw [hstart] at hsolid hcut
              exact ⟨rfl, hsolid, hcut⟩
  · cases h

/-- And the first clause is cut wherever it begins with the text. -/
theorem cutOf_eq {cut : Nat} (h : Ordered 0 text.length pieces)
    (hi : text[0]? = some c) (hsolid : isSpace c = false)
    (hcover : Covers pieces 0) (hcut : leadingNumber text 0 = some cut) :
    cutOf text 0 pieces = cut := by
  obtain ⟨t, ht, hti⟩ := trimmed_of_covers hi hsolid hcover
  have htrimmed := ordered_trimmed h
  rw [cutOf, if_pos rfl]
  cases hlist : pieces.filterMap (stripped text) with
  | nil =>
      rw [hlist] at ht
      cases ht
  | cons first rest =>
      rw [hlist] at ht htrimmed
      have hstart : first.1 = 0 := by
        rcases List.mem_cons.mp ht with rfl | ht
        · omega
        · have hin := htrimmed.inside first (List.mem_cons_self ..)
          have hle := (List.pairwise_cons.mp htrimmed.ordered).1 t ht
          omega
      rw [List.head?_cons, Option.bind_some, hstart, hcut, Option.getD_some]

-- ================================================ the features of a text

/-- What the features of a text are: in the text, in order and apart, each
the text at its spans, and together everything but white space and the
leading number, of which they have nothing. -/
structure Splits (text : List Char) (features : List ClaimFeature) : Prop where
  inside : ∀ f ∈ features, Ordered 0 text.length f.spans
  disjoint : features.Pairwise fun f g => ∀ s ∈ f.spans, ∀ t ∈ g.spans, Spans.Apart s t
  joined : ∀ f ∈ features, f.text
    = join " " (f.spans.map fun s => String.ofList (slice text s.1 s.2))
  covered : ∀ i c, text[i]? = some c → isSpace c = false →
    ¬ InNumber text i → ∃ f ∈ features, Covers f.spans i
  number : ∀ i, InNumber text i → ∀ f ∈ features, ¬ Covers f.spans i

/-- The leading number, if there is one, is at the very beginning, and all
of it is in the first clause. -/
def NumberInFirstClause (characters : List (Char × Nat)) : Prop :=
  ∀ s ∈ numberSpan (characters.map Prod.fst), s.1 = 0
    ∧ ∀ i < s.2, ∀ p ∈ characters[i]?, isSpace p.1 = false → p.2 = 0

instance (characters : List (Char × Nat)) :
    Decidable (NumberInFirstClause characters) :=
  inferInstanceAs (Decidable (∀ s ∈ numberSpan (characters.map Prod.fst),
    s.1 = 0 ∧ ∀ i < s.2, ∀ p ∈ characters[i]?, isSpace p.1 = false → p.2 = 0))

section Features

variable {b : Builder} {l : List (Char × Nat)} {n k : Nat} {number : Int}
  {clauses : List (List (Nat × Nat))} {f : ClaimFeature}

/-- A feature is a clause. -/
theorem mem_features (h : f ∈ features number text clauses) :
    ∃ (k : Nat) (pieces : List (Nat × Nat)), clauses[k]? = some pieces
      ∧ f.spans = clauseSpans text k pieces ∧ f.text = spansText text f.spans := by
  obtain ⟨i, hi, rfl⟩ := List.mem_mapIdx.mp h
  have hmem := (List.mem_filter.mp (List.getElem_mem hi)).1
  obtain ⟨k, hk, heq⟩ := List.mem_mapIdx.mp hmem
  exact ⟨k, _, List.getElem?_eq_getElem hk, heq.symm, rfl⟩

/-- A clause with a solid character is a feature. -/
theorem exists_feature (hk : clauses[k]? = some pieces)
    (hi : text[i]? = some c) (hsolid : isSpace c = false)
    (hcover : Covers (clauseSpans text k pieces) i) :
    ∃ f ∈ features number text clauses, Covers f.spans i := by
  have hblank : ¬ Blank (spansText text (clauseSpans text k pieces)) := by
    obtain ⟨s, hs, his⟩ := hcover
    rw [blank_iff]
    intro hall
    have hmem : c ∈ (spansText text (clauseSpans text k pieces)).toList := by
      refine mem_join (List.mem_map.mpr ⟨s, hs, rfl⟩) ?_
      rw [String.toList_ofList]
      exact mem_slice hi his
    rw [hall c hmem] at hsolid
    cases hsolid
  obtain ⟨hlt, rfl⟩ := List.getElem?_eq_some_iff.mp hk
  have hmem : clauseSpans text k clauses[k] ∈ (clauses.mapIdx
      (clauseSpans text)).filter fun spans => ¬ Blank (spansText text spans) :=
    List.mem_filter.mpr ⟨List.mem_mapIdx.mpr ⟨k, hlt, rfl⟩, decide_eq_true hblank⟩
  obtain ⟨j, hj, heq⟩ := List.getElem_of_mem hmem
  refine ⟨_, List.mem_mapIdx.mpr ⟨j, hj, rfl⟩, ?_⟩
  dsimp only
  rw [heq]
  exact hcover

/-- A position of a feature is in the feature's clause, behind the cut. -/
theorem clause_of_covers (h : Represents b l n) (hk : b.clauses[k]? = some pieces)
    (hi : Covers (clauseSpans (l.map Prod.fst) k pieces) i) :
    (∃ c, l[i]? = some (c, k)) ∧ cutOf (l.map Prod.fst) k pieces ≤ i := by
  obtain ⟨hcover, hcut⟩ := covers_of_clauseSpans (h.inText hk) hi
  exact ⟨(h.covers k pieces hk i).mp hcover, hcut⟩

/-- Spans of two clauses have no position in common. -/
theorem apart_clauses (h : Represents b l n) {j k : Nat}
    {pieces pieces' : List (Nat × Nat)} (hj : b.clauses[j]? = some pieces)
    (hk : b.clauses[k]? = some pieces') (hne : j ≠ k) {s t : Nat × Nat}
    (hs : s ∈ clauseSpans (l.map Prod.fst) j pieces)
    (ht : t ∈ clauseSpans (l.map Prod.fst) k pieces') : Spans.Apart s t := by
  by_contra hapart
  rw [Spans.Apart, not_or, not_le, not_le] at hapart
  have hins := (ordered_clauseSpans (h.inText hj)).inside s hs
  have hint := (ordered_clauseSpans (h.inText hk)).inside t ht
  -- the later of the two beginnings is in both
  obtain ⟨⟨c, hc⟩, -⟩ := clause_of_covers (i := max s.1 t.1) h hj
    ⟨s, hs, by omega⟩
  obtain ⟨⟨c', hc'⟩, -⟩ := clause_of_covers (i := max s.1 t.1) h hk
    ⟨t, ht, by omega⟩
  rw [hc] at hc'
  cases hc'
  exact hne rfl

theorem disjoint_features (h : Represents b l n) :
    (features number (l.map Prod.fst) b.clauses).Pairwise fun f g =>
      ∀ s ∈ f.spans, ∀ t ∈ g.spans, Spans.Apart s t := by
  have hclauses : (b.clauses.mapIdx (clauseSpans (l.map Prod.fst))).Pairwise
      fun spans spans' => ∀ s ∈ spans, ∀ t ∈ spans', Spans.Apart s t := by
    rw [List.pairwise_iff_getElem]
    intro i j hi hj hlt s hs t ht
    rw [List.length_mapIdx] at hi hj
    rw [List.getElem_mapIdx] at hs ht
    exact apart_clauses h (List.getElem?_eq_getElem hi)
      (List.getElem?_eq_getElem hj) hlt.ne hs ht
  exact pairwise_mapIdx ((hclauses.filter _).imp fun hst _ _ => hst)

/-- A solid character of clause `k` is in a feature exactly if it is behind
the cut of the clause. -/
theorem exists_feature_iff (h : Represents b l n) (hi : l[i]? = some (c, k))
    (hsolid : isSpace c = false) (hk : b.clauses[k]? = some pieces) :
    (∃ f ∈ features number (l.map Prod.fst) b.clauses, Covers f.spans i)
      ↔ cutOf (l.map Prod.fst) k pieces ≤ i := by
  have htext := getElem?_text hi
  constructor
  · rintro ⟨f, hf, hcover⟩
    obtain ⟨j, pieces', hj, hspans, -⟩ := mem_features hf
    rw [hspans] at hcover
    obtain ⟨⟨c', hc'⟩, hcut⟩ := clause_of_covers h hj hcover
    rw [hi] at hc'
    cases hc'
    rw [hk] at hj
    cases hj
    exact hcut
  · intro hcut
    have hcover := (h.covers k pieces hk i).mpr ⟨c, hi⟩
    exact exists_feature hk htext hsolid
      (clauseSpans_of_covers (h.inText hk) htext hsolid hcover hcut)

/-- Without a number, or with one at the very beginning of the first clause,
the features split the text. -/
theorem splits_of_first (h : Represents b l n) (hfirst : NumberInFirstClause l) :
    Splits (l.map Prod.fst) (features number (l.map Prod.fst) b.clauses) where
  inside := by
    intro f hf
    obtain ⟨k, pieces, hk, hspans, -⟩ := mem_features hf
    rw [hspans]
    exact ordered_clauseSpans (h.inText hk)
  disjoint := disjoint_features h
  joined := by
    intro f hf
    obtain ⟨k, pieces, -, -, htext⟩ := mem_features hf
    exact htext
  covered := by
    intro i c hi hsolid hnot
    obtain ⟨k, hlabel⟩ := exists_label hi
    obtain ⟨pieces, hk⟩ := h.exists_clause hlabel
    rw [exists_feature_iff h hlabel hsolid hk]
    by_contra hlt
    rw [not_le] at hlt
    -- what is cut off is the number and the white space behind it
    obtain ⟨-, -, hcut⟩ := cutOf_pos (Nat.zero_lt_of_lt hlt)
    cases hs : numberSpan (l.map Prod.fst) with
    | none =>
        rw [leadingNumber_eq, hs] at hcut
        cases hcut
    | some s =>
        obtain ⟨hstart, -⟩ := hfirst s hs
        obtain ⟨cut, hcut', -, hspaces⟩ := leadingNumber_of_numberSpan hs
        rw [hcut] at hcut'
        cases hcut'
        have hge : s.2 ≤ i := by
          by_contra hin
          exact hnot ⟨s, hs, by omega, by omega⟩
        rw [hspaces i c hge hlt hi] at hsolid
        cases hsolid
  number := by
    rintro i ⟨s, hs, -, hi⟩ f hf hcover
    obtain ⟨hstart, hlabels⟩ := hfirst s hs
    obtain ⟨hlt, ⟨c, hc, hsolid⟩, -⟩ := numberSpan_starts hs
    obtain ⟨cut, hcut, hle, -⟩ := leadingNumber_of_numberSpan hs
    obtain ⟨k, pieces, hk, hspans, -⟩ := mem_features hf
    rw [hspans] at hcover
    obtain ⟨-, hbehind⟩ := clause_of_covers h hk hcover
    -- the span begins in the number, so the clause is the first
    obtain ⟨j, hji, hj, d, hd, hdsolid⟩ :=
      clauseSpans_starts (h.inText hk) hcover
    obtain ⟨d', hlabel⟩ := (h.covers k pieces hk j).mp hj
    have hzero : k = 0 := by
      rw [getElem?_text hlabel] at hd
      cases hd
      exact hlabels j (by omega) (d, k) hlabel hdsolid
    subst hzero
    rw [hstart] at hc hlt
    obtain ⟨k, hk'⟩ := exists_label hc
    have hfirst : k = 0 := hlabels 0 hlt (c, k) hk' hsolid
    rw [hfirst] at hk'
    have hcovers := (h.covers 0 pieces hk 0).mpr ⟨c, hk'⟩
    rw [cutOf_eq (h.inText hk) hc hsolid hcovers hcut] at hbehind
    omega

/-- And then only. -/
theorem first_of_splits (h : Represents b l n)
    (hsplits : Splits (l.map Prod.fst)
      (features number (l.map Prod.fst) b.clauses)) :
    NumberInFirstClause l := by
  have hcut (i : Nat) (c : Char) (k : Nat) (hi : l[i]? = some (c, k))
      (hsolid : isSpace c = false) (hnumber : InNumber (l.map Prod.fst) i) :
      k = 0 ∧ ∃ c, (l.map Prod.fst)[0]? = some c ∧ isSpace c = false := by
    obtain ⟨pieces, hk⟩ := h.exists_clause hi
    have hnone : ¬ ∃ f ∈ features number (l.map Prod.fst) b.clauses,
        Covers f.spans i := by
      rintro ⟨f, hf, hcover⟩
      exact hsplits.number i hnumber f hf hcover
    rw [exists_feature_iff h hi hsolid hk, not_le] at hnone
    obtain ⟨hzero, hbegins, -⟩ := cutOf_pos (Nat.zero_lt_of_lt hnone)
    exact ⟨hzero, hbegins⟩
  intro s hs
  obtain ⟨hlt, ⟨c, hc, hsolid⟩, hbefore⟩ := numberSpan_starts hs
  have hstart : s.1 = 0 := by
    obtain ⟨k, hk⟩ := exists_label hc
    obtain ⟨-, d, hd, hdsolid⟩ := hcut s.1 c k hk hsolid ⟨s, hs, le_refl _, hlt⟩
    by_contra hne
    have hspace := hbefore 0 d (Nat.pos_of_ne_zero hne) hd
    rw [hdsolid] at hspace
    cases hspace
  refine ⟨hstart, fun i hi p hp hsolid => ?_⟩
  exact (hcut i p.1 p.2 hp hsolid ⟨s, hs, by omega, hi⟩).1

end Features

-- =============================================== the features of a claim

/-- The characters of a claim in document order, each with the number of its
clause. -/
def characters (claim : Element) : List (Char × Nat) :=
  (labelsTops (claim.findall "claim-text") 0).1

section Claims

variable {claim root : Element} {publicationNumber : String} {cs : ClaimSet}

/-- The claims of a document are those of its node of claims, one by one. -/
theorem parseUsClaims_eq_ok (h : parseUsClaims root publicationNumber = .ok cs) :
    ∃ node, claimsNode root = some node
      ∧ List.Forall₂ (fun claim c => usClaim claim = .ok c)
        (node.findall "claim") cs.claims := by
  unfold parseUsClaims at h
  cases hnode : claimsNode root with
  | none =>
      rw [hnode] at h
      cases h
  | some node =>
      rw [hnode] at h
      obtain ⟨claims, hclaims, h⟩ := bind_eq_ok.mp h
      cases h
      exact ⟨node, rfl, mapM_eq_ok_iff.mp hclaims⟩

/-- The text of a claim, and when its features split it. -/
theorem usClaim_splits_iff {c : Claim} (h : usClaim claim = .ok c) :
    c.text = String.ofList ((characters claim).map Prod.fst)
      ∧ (Splits c.text.toList c.features
        ↔ NumberInFirstClause (characters claim)) := by
  have hwalk := represents_walkTops (claim.findall "claim-text")
  obtain ⟨number, -, h⟩ := bind_eq_ok.mp h
  cases h
  dsimp only
  rw [String.toList_ofList, hwalk.text]
  exact ⟨rfl, first_of_splits hwalk, splits_of_first hwalk⟩

/-- The features of every claim of a document split its text exactly if its
leading number is at the very beginning of the first clause, if it has one. -/
theorem parseUsClaims_splits_iff (h : parseUsClaims root publicationNumber = .ok cs) :
    ∃ node, claimsNode root = some node
      ∧ List.Forall₂ (fun claim c =>
          c.text = String.ofList ((characters claim).map Prod.fst)
          ∧ (Splits c.text.toList c.features
            ↔ NumberInFirstClause (characters claim)))
        (node.findall "claim") cs.claims := by
  obtain ⟨node, hnode, hclaims⟩ := parseUsClaims_eq_ok h
  exact ⟨node, hnode, hclaims.imp fun _ _ => usClaim_splits_iff⟩

end Claims

end Digits

-- ---------------------------------------------------------- two documents

section Documents

local instance documentDigits : Digits := asciiDigits

/-- A claim of a preamble and a clause inside it. -/
def claimOf (preamble clause : String) : Element :=
  .mk "claim" (Dict.empty.set "num" "00001") "" [
    .mk "claim-text" .empty preamble [.mk "claim-text" .empty clause [] ""] ""] ""

/-- The document of the claim. -/
def document (preamble clause : String) : Element :=
  .mk "claims" .empty "" [claimOf preamble clause] ""

theorem parseUsClaims_splits_iff_clause :
    ∃ cs, parseUsClaims (document "1. A device with " "a wheel.") "US-1-B2" = .ok cs
      ∧ ∃ c ∈ cs.claims, Splits c.text.toList c.features := by
  have hfirst : NumberInFirstClause (characters
      (claimOf "1. A device with " "a wheel.")) := by
    decide
  have haccepted : (parseUsClaims (document "1. A device with " "a wheel.")
      "US-1-B2").toOption.isSome = true := by
    decide
  cases h : parseUsClaims (document "1. A device with " "a wheel.") "US-1-B2" with
  | error e =>
      rw [h] at haccepted
      cases haccepted
  | ok cs =>
      obtain ⟨node, hnode, hclaims⟩ := parseUsClaims_splits_iff h
      cases hnode
      obtain ⟨c, rest, ⟨-, hiff⟩, -, hcs⟩ := List.forall₂_cons_left_iff.mp hclaims
      refine ⟨cs, rfl, c, ?_, hiff.mpr hfirst⟩
      rw [hcs]
      exact List.mem_cons_self ..

/-- White space in front of the number keeps it in a feature. -/
theorem number_kept_behind_whitespace :
    ∃ cs, parseUsClaims (document "\n1. A device with " "a wheel.") "US-1-B2" = .ok cs
      ∧ ∃ c ∈ cs.claims, ¬ Splits c.text.toList c.features := by
  have hkept : (parseUsClaims (document "\n1. A device with " "a wheel.")
      "US-1-B2").toOption.any (fun cs => cs.claims.any fun c =>
        numberSpan c.text.toList = some (1, 3)
          && c.features.any fun f => f.spans = [(1, 17)]) = true := by
    decide
  cases h : parseUsClaims (document "\n1. A device with " "a wheel.") "US-1-B2" with
  | error e =>
      rw [h] at hkept
      cases hkept
  | ok cs =>
      rw [h] at hkept
      obtain ⟨c, hc, hkept⟩ := List.any_eq_true.mp hkept
      obtain ⟨hnumber, hfeature⟩ := Bool.and_eq_true_iff.mp hkept
      obtain ⟨f, hf, hspans⟩ := List.any_eq_true.mp hfeature
      refine ⟨cs, rfl, c, hc, fun hsplits => ?_⟩
      refine hsplits.number 1 ⟨_, of_decide_eq_true hnumber, by decide, by decide⟩ f hf ?_
      rw [of_decide_eq_true hspans, covers_singleton]
      decide

end Documents

end PatentEvidence.Fto.UsClaims
