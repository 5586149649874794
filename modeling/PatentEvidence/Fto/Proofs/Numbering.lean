/-
Claims by number and features by id.

Findings are recorded under the id of a feature, and a claim is looked up
by its number; the first of that number is found. An id is the number of
the claim and the position of the feature, so everything is told apart as
soon as the claims are (`identifies_iff`). What numbers the claims have is
up to the input: the numbers at the beginnings of paragraphs, or the values
of an attribute (`identifies_claims_iff`).

# Sections

- ids;
- over a claim set;
- the parsers.
-/
import PatentEvidence.Fto.Proofs.Dangling
import PatentEvidence.Fto.Proofs.UsFeatures
import PatentEvidence.Lib.JsonText

namespace PatentEvidence.Fto

open Fallible Scan Text

-- =================================================================== ids

/-- The id of a feature of a claim. -/
def featureIdOf (number : Int) (index : Nat) : String :=
  toString number ++ "." ++ toString index

theorem toString_int_injective : Function.Injective fun z : Int => toString z := by
  have htext : Function.Injective fun z : Int => (toString z).toList :=
    JsonNumber.text_injective
  exact fun a b h => htext (congrArg String.toList h)

/-- Decimal numbers have no full stop. -/
theorem dot_not_mem_toString (z : Int) : '.' ∉ (toString z).toList := by
  have hdigits (n : Nat) : '.' ∉ Nat.toDigits 10 n := fun h =>
    absurd (isDigit_of_mem_toDigits h) (by decide)
  rw [toList_int]
  split
  · exact hdigits _
  · intro h
    rcases List.mem_cons.mp h with h | h
    · exact absurd h (by decide)
    · exact hdigits _ h

/-- An id tells its claim and its position. -/
theorem featureIdOf_inj {a b : Int} {i j : Nat}
    (h : featureIdOf a i = featureIdOf b j) : a = b ∧ i = j := by
  have hindex (i : Nat) : '.' ∉ (toString i).toList := dot_not_mem_toString i
  have hchars := congrArg String.toList h
  simp only [featureIdOf, String.toList_append, List.append_assoc] at hchars
  obtain ⟨hnumber, -, hposition⟩ := (List.append_cons_inj_of_notMem
    (dot_not_mem_toString a) (hindex i)).mp hchars
  refine ⟨toString_int_injective (String.toList_inj.mp hnumber), ?_⟩
  exact Int.ofNat.inj (@toString_int_injective i j (String.toList_inj.mp hposition))

-- ======================================================== over a claim set

/-- The features of all claims. -/
def ClaimSet.features (cs : ClaimSet) : List ClaimFeature :=
  cs.claims.flatMap Claim.features

/-- An assessment is recorded for exactly one feature. -/
def AffectsOne (cs : ClaimSet) (chart chart' : ClaimChart)
    (a : FeatureAssessment) : Prop :=
  ∃ (i : Nat) (f : ClaimFeature), cs.features[i]? = some f
    ∧ chart'.assessments.get? f.featureId = some a
    ∧ ∀ (j : Nat) (g : ClaimFeature), cs.features[j]? = some g → j ≠ i →
      chart'.assessments.get? g.featureId = chart.assessments.get? g.featureId

/-- Claims and features are told apart: a lookup finds every claim, and a
finding is recorded for one feature and no other. -/
structure Identifies (cs : ClaimSet) : Prop where
  numbers : cs.numbers.Nodup
  ids : (cs.features.map ClaimFeature.featureId).Nodup
  found : ∀ c ∈ cs.claims, cs.claim c.number = .ok c
  assessed : ∀ (chart chart' : ClaimChart) (a : FeatureAssessment),
    chart.claimSet = cs → chart.assess a = .ok chart' → AffectsOne cs chart chart' a

/-- The ids of the features are the claim's number and their positions. -/
def Numbered (c : Claim) : Prop :=
  c.features.map ClaimFeature.featureId
    = (List.range c.features.length).map (featureIdOf c.number)

section ClaimSet

variable {cs : ClaimSet}

/-- With its own number a claim is found. -/
theorem found_of_nodup (h : cs.numbers.Nodup) {c : Claim} (hc : c ∈ cs.claims) :
    cs.claim c.number = .ok c := by
  obtain ⟨d, hd⟩ := ClaimSet.exists_claim_iff.mpr (List.mem_map_of_mem hc)
  obtain ⟨hmem, hnumber⟩ := ClaimSet.claim_mem hd
  have heq : d = c := List.inj_on_of_nodup_map h hmem hc hnumber
  rw [hd, heq]

/-- So are the features by their ids. -/
theorem ids_of_nodup (h : cs.numbers.Nodup) (hids : ∀ c ∈ cs.claims, Numbered c) :
    (cs.features.map ClaimFeature.featureId).Nodup := by
  rw [ClaimSet.features, List.map_flatMap, List.nodup_flatMap]
  constructor
  · intro c hc
    rw [hids c hc]
    exact List.nodup_range.map fun _ _ h => (featureIdOf_inj h).2
  · have hnumbers : cs.claims.Pairwise fun c d => c.number ≠ d.number :=
      List.pairwise_map.mp h
    refine hnumbers.imp_of_mem fun {c d} hc hd hne id hid hid' => hne ?_
    dsimp only at hid hid'
    rw [hids c hc] at hid
    rw [hids d hd] at hid'
    obtain ⟨i, -, rfl⟩ := List.mem_map.mp hid
    obtain ⟨j, -, heq⟩ := List.mem_map.mp hid'
    exact (featureIdOf_inj heq).1.symm

/-- A finding is recorded for the feature with its id. -/
theorem assessed_of_nodup (h : (cs.features.map ClaimFeature.featureId).Nodup)
    {chart chart' : ClaimChart} {a : FeatureAssessment}
    (hchart : chart.claimSet = cs) (hassess : chart.assess a = .ok chart') :
    AffectsOne cs chart chart' a := by
  subst hchart
  unfold ClaimChart.assess at hassess
  dsimp only at hassess
  split at hassess
  · next hknown =>
      cases hassess
      rw [← List.map_flatMap, ← ClaimSet.features] at hknown
      obtain ⟨f, hf, hid⟩ := List.mem_map.mp hknown
      obtain ⟨i, hi⟩ := List.mem_iff_getElem?.mp hf
      refine ⟨i, f, hi, ?_, fun j g hj hne => ?_⟩
      · rw [hid]
        exact Dict.get?_set_self ..
      · refine Dict.get?_set_of_ne _ _ fun heq => hne ?_
        have hlt : j < (chart.claimSet.features.map
            ClaimFeature.featureId).length := by
          rw [List.length_map]
          exact (List.getElem?_eq_some_iff.mp hj).1
        refine (List.getElem?_inj hlt h).mp ?_
        rw [List.getElem?_map, List.getElem?_map, hi, hj, Option.map_some,
          Option.map_some, hid, heq]
  · cases hassess

/-- Everything is told apart as soon as the claims are. -/
theorem identifies_iff (hids : ∀ c ∈ cs.claims, Numbered c) :
    Identifies cs ↔ cs.numbers.Nodup := by
  refine ⟨Identifies.numbers, fun h => ?_⟩
  have hnodup := ids_of_nodup h hids
  exact ⟨h, hnodup, fun c hc => found_of_nodup h hc,
    fun _ _ _ hchart hassess => assessed_of_nodup hnodup hchart hassess⟩

end ClaimSet

-- ============================================================ the parsers

/-- What is computed of the items of a numbered list from their positions
alone. -/
theorem map_mapIdx {α β γ : Type _} {f : Nat → α → β} {g : β → γ} {h : Nat → γ}
    (hfg : ∀ i a, g (f i a) = h i) (l : List α) :
    (l.mapIdx f).map g = (List.range (l.mapIdx f).length).map h := by
  refine List.ext_getElem (by simp only [List.length_map, List.length_range])
    fun i _ _ => ?_
  rw [List.getElem_map, List.getElem_mapIdx, List.getElem_map, List.getElem_range]
  exact hfg i _

section Parsers

variable [Digits]

theorem EpClaims.numbered [Alphanumeric] {language : String} {number : Nat}
    {parts : List String} {c : Claim}
    (h : EpClaims.epClaim language number parts = .ok c) : Numbered c := by
  obtain ⟨hnumber, -, bodyStart, hfeatures⟩ := EpClaims.epClaim_eq_ok h
  rw [Numbered, hfeatures, hnumber, EpClaims.features]
  refine map_mapIdx ?_ _
  intro i span
  rfl

theorem UsClaims.usClaim_eq_ok {node : UsClaims.Element} {c : Claim}
    (h : UsClaims.usClaim node = .ok c) :
    UsClaims.number node = .ok c.number ∧ Numbered c := by
  obtain ⟨number, hnumber, h⟩ := bind_eq_ok.mp h
  cases h
  refine ⟨hnumber, ?_⟩
  rw [Numbered]
  dsimp only
  rw [UsClaims.features]
  refine map_mapIdx ?_ _
  intro i spans
  rfl

/-- The claims of a European response are told apart exactly if no two
paragraphs open with the same number. -/
theorem EpClaims.identifies_iff [Alphanumeric] {ν : Type _} [JsonNumber ν]
    [Printable] {payload : Json ν} {publicationNumber language : String}
    {cs : ClaimSet}
    (h : EpClaims.parseEpClaims payload publicationNumber language = .ok cs) :
    ∃ paragraphs, EpClaims.claimTexts payload language = .ok paragraphs
      ∧ (Identifies cs ↔ (paragraphs.filterMap EpClaims.opening).Nodup) := by
  obtain ⟨paragraphs, hparagraphs, hclaims⟩ := EpClaims.parseEpClaims_eq_ok h
  refine ⟨paragraphs, hparagraphs, ?_⟩
  have hids : ∀ c ∈ cs.claims, Numbered c := by
    intro c hc
    obtain ⟨g, -, hg⟩ := exists_of_forall₂ hclaims hc
    exact EpClaims.numbered hg
  have hnumbers : cs.numbers
      = (paragraphs.filterMap EpClaims.opening).map Int.ofNat := by
    rw [ClaimSet.numbers, EpClaims.numbers_of_forall₂ hclaims,
      ← EpClaims.numbers_group, List.map_map]
    rfl
  rw [Fto.identifies_iff hids, hnumbers, List.nodup_map_iff fun _ _ h => Int.ofNat.inj h]

/-- The claims of a US document exactly if no two have the same number. -/
theorem UsClaims.identifies_iff {root : UsClaims.Element}
    {publicationNumber : String} {cs : ClaimSet}
    (h : UsClaims.parseUsClaims root publicationNumber = .ok cs) :
    ∃ node, UsClaims.claimsNode root = some node
      ∧ (Identifies cs ↔ (node.findall "claim").Pairwise fun claim claim' =>
        UsClaims.number claim ≠ UsClaims.number claim') := by
  obtain ⟨node, hnode, hread⟩ := UsClaims.parseUsClaims_eq_ok h
  have hids : ∀ c ∈ cs.claims, Numbered c := by
    intro c hc
    obtain ⟨claim, -, hclaim⟩ := exists_of_forall₂ hread hc
    exact (UsClaims.usClaim_eq_ok hclaim).2
  have hnumbers : (node.findall "claim").map UsClaims.number
      = cs.claims.map fun c => .ok c.number :=
    map_eq_of_forall₂ hread fun _ _ h => (UsClaims.usClaim_eq_ok h).1
  refine ⟨node, hnode, (Fto.identifies_iff hids).trans ?_⟩
  rw [← List.pairwise_map (f := UsClaims.number), hnumbers, ClaimSet.numbers,
    List.Nodup, List.pairwise_map, List.pairwise_map]
  exact List.Pairwise.iff fun _ _ => not_congr
    ⟨congrArg _, Except.ok.inj⟩

/-- For either parser, what is read is told apart exactly if the numbers of
the input are. -/
theorem identifies_claims_iff [Alphanumeric] {ν : Type _} [JsonNumber ν]
    [Printable] :
    (∀ (payload : Json ν) (publicationNumber language : String) (cs : ClaimSet),
      EpClaims.parseEpClaims payload publicationNumber language = .ok cs →
      ∃ paragraphs, EpClaims.claimTexts payload language = .ok paragraphs
        ∧ (Identifies cs ↔ (paragraphs.filterMap EpClaims.opening).Nodup))
    ∧ ∀ (root : UsClaims.Element) (publicationNumber : String) (cs : ClaimSet),
      UsClaims.parseUsClaims root publicationNumber = .ok cs →
      ∃ node, UsClaims.claimsNode root = some node
        ∧ (Identifies cs ↔ (node.findall "claim").Pairwise fun claim claim' =>
          UsClaims.number claim ≠ UsClaims.number claim') :=
  ⟨fun _ _ _ _ => EpClaims.identifies_iff, fun _ _ _ => UsClaims.identifies_iff⟩

end Parsers

-- -------------------------------------------------------------- two inputs

section Inputs

local instance inputPrintable : Printable := ⟨fun _ => false⟩

local instance inputDigits : Digits := asciiDigits

local instance inputAlphanumeric : Alphanumeric := asciiAlphanumeric

theorem identifies_claims_iff_distinct :
    (∃ cs, EpClaims.readResponse EpClaims.dependentParagraphs = .ok cs
      ∧ Identifies cs)
    ∧ ∃ cs, UsClaims.parseUsClaims
        (UsClaims.document "1. A device with " "a wheel.") "US-1-B2" = .ok cs
      ∧ Identifies cs := by
  constructor
  · have haccepted : (EpClaims.readResponse
        EpClaims.dependentParagraphs).toOption.isSome = true := by
      decide
    cases h : EpClaims.readResponse EpClaims.dependentParagraphs with
    | error e =>
        rw [h] at haccepted
        cases haccepted
    | ok cs =>
        obtain ⟨paragraphs, hparagraphs, hiff⟩ := identifies_claims_iff.1 _ _ _ _ h
        cases hparagraphs
        exact ⟨cs, rfl, hiff.mpr (by decide)⟩
  · have haccepted : (UsClaims.parseUsClaims (UsClaims.document
        "1. A device with " "a wheel.") "US-1-B2").toOption.isSome = true := by
      decide
    cases h : UsClaims.parseUsClaims (UsClaims.document
        "1. A device with " "a wheel.") "US-1-B2" with
    | error e =>
        rw [h] at haccepted
        cases haccepted
    | ok cs =>
        obtain ⟨node, hnode, hiff⟩ :=
          (@identifies_claims_iff _ _ Int _ _).2 _ _ _ h
        cases hnode
        exact ⟨cs, rfl, hiff.mpr (List.pairwise_singleton ..)⟩

/-- A paragraph of claim 1 that opens with a number is another claim 2. -/
def enumeratedParagraphs : List String :=
  ["1. A method of two steps:", "2. heating the salt.",
    "2. A method according to claim 1."]

/-- Claims without a number are all claim 0. -/
def unnumbered : UsClaims.Element :=
  .mk "claims" .empty "" [.mk "claim" .empty "" [] "", .mk "claim" .empty "" [] ""] ""

theorem repeated_numbers_confuse :
    (∃ cs, EpClaims.readResponse enumeratedParagraphs = .ok cs
      ∧ ¬ Identifies cs)
    ∧ ∃ cs, UsClaims.parseUsClaims unnumbered "US-1-B2" = .ok cs
      ∧ ¬ Identifies cs := by
  have hep : (EpClaims.readResponse enumeratedParagraphs).toOption.any
      (fun cs => ¬ cs.numbers.Nodup) = true := by
    decide
  have hus : (UsClaims.parseUsClaims unnumbered "US-1-B2").toOption.any
      (fun cs => ¬ cs.numbers.Nodup) = true := by
    decide
  have hconfuse (x : Py ClaimSet)
      (hx : x.toOption.any (fun cs => ¬ cs.numbers.Nodup) = true) :
      ∃ cs, x = .ok cs ∧ ¬ Identifies cs := by
    cases x with
    | error e => cases hx
    | ok cs => exact ⟨cs, rfl, fun h => of_decide_eq_true hx h.numbers⟩
  exact ⟨hconfuse _ hep, hconfuse _ hus⟩

end Inputs

end PatentEvidence.Fto
