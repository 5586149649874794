/-
References to claims that do not exist.

A chart without findings refutes no claim, so `claim_conclusion` follows
every reference: a claim set has a conclusion for each of its numbers under
every chart exactly if the claims found under them refer to its numbers only
(`total_iff_resolved`). For the claims of a European response that is a
property of its paragraphs (`ReferencesResolve`), which nothing checks: a
reference to a later or missing claim is kept with a warning.
-/
import PatentEvidence.Fto.EpClaims
import PatentEvidence.Fto.Proofs.Reorder

namespace PatentEvidence.Fto

open Fallible Scan Text

-- ======================================================== over a claim set

section ClaimSet

variable {cs : ClaimSet} {chart : ClaimChart} {n : Int}

theorem concludeClaim_eq_ok {r : ClaimResult} (h : concludeClaim chart n = .ok r) :
    ∃ c, claimConclusion chart n = .ok c := by
  obtain ⟨⟨paths, truncated⟩, _, h⟩ := bind_eq_ok.mp h
  obtain ⟨results, _, h⟩ := bind_eq_ok.mp h
  obtain ⟨c, hc, -⟩ := bind_eq_ok.mp h
  exact ⟨c, hc⟩

/-- Where the references resolve there is a conclusion. -/
theorem exists_concludeClaim (hres : chart.claimSet.Resolved)
    (hn : n ∈ chart.claimSet.numbers) : ∃ r, concludeClaim chart n = .ok r := by
  have hpaths := ClaimSet.dependencyPaths_eq hres hn maxDependencyPaths
  obtain ⟨results, hresults⟩ : ∃ results, ((chart.claimSet.allPaths n).take
      maxDependencyPaths.toNat).mapM (pathConclusion chart) = .ok results := by
    refine exists_mapM_ok_iff.mpr fun path hpath => ?_
    have hchain := (ClaimSet.mem_allPaths_iff.mp (List.mem_of_mem_take hpath)).1
    obtain ⟨r, hr, -⟩ := pathConclusion_eq fun m hm => mem_numbers_of_chain hchain hm
    exact ⟨r, hr⟩
  obtain ⟨c, hc⟩ := exists_claimConclusion (resolves_of_resolved hres hn)
  refine ⟨_, bind_eq_ok.mpr ⟨_, hpaths, bind_eq_ok.mpr ⟨_, hresults,
    bind_eq_ok.mpr ⟨c, hc, rfl⟩⟩⟩⟩

/-- Without findings no claim is refuted on its own features. -/
theorem ownVerdict_ne_doesNotRead {c : Claim} (hempty : chart.assessments = .empty)
    (hc : chart.claimSet.claim n = .ok c) : ownVerdict chart n ≠ .doesNotRead := by
  rw [ownVerdict_eq hc]
  have hfeature (f : ClaimFeature) : featureVerdict chart f = .undetermined := by
    rw [featureVerdict, ClaimChart.findingOf, hempty, Dict.get?_empty]
  have hfold : ∀ l : List ClaimFeature,
      .undetermined ≤ (l.map (featureVerdict chart)).foldr min ⊤ := by
    intro l
    induction l with
    | nil => exact le_top
    | cons f l ih =>
        rw [List.map_cons, List.foldr_cons, hfeature]
        exact le_min (le_refl _) ih
  intro hbot
  have hle := hfold c.features
  rw [hbot] at hle
  exact absurd hle (by decide)

/-- Every number has a conclusion under every chart exactly if the
references resolve. -/
theorem total_iff_resolved :
    (∀ chart : ClaimChart, chart.claimSet = cs → ∀ n ∈ cs.numbers,
      ∃ r, concludeClaim chart n = .ok r) ↔ cs.Resolved := by
  constructor
  · intro h n c hc p hp
    let chart : ClaimChart := { claimSet := cs }
    have hn : n ∈ cs.numbers := ClaimSet.exists_claim_iff.mp ⟨c, hc⟩
    obtain ⟨r, hr⟩ := h chart rfl n hn
    have hresolves := exists_claimConclusion_iff.mp (concludeClaim_eq_ok hr)
    exact hresolves p (.single ⟨c, hc, ownVerdict_ne_doesNotRead rfl hc, hp⟩)
  · rintro hres chart rfl n hn
    exact exists_concludeClaim hres hn

end ClaimSet

-- =================================================== over the paragraphs

namespace EpClaims

section Paragraphs

variable [Digits] [Alphanumeric]

/-- The number a paragraph opens with. -/
def opening (paragraph : String) : Option Nat :=
  (claimStart paragraph.toList).map fun start => intOf start.1

/-- The text of a claim behind its number. -/
def body (parts : List String) : List Char :=
  ((claimStart (join "\n" parts).toList).map Prod.snd).getD []

/-- What the first claim of each number mentions is a number that a
paragraph opens with. -/
def ReferencesResolve (paragraphs : List String) : Prop :=
  ∀ n parts, (group paragraphs).1.find? (fun g => g.1 = n) = some (n, parts) →
    ∀ p, Mentions (body parts) n p → p ∈ paragraphs.filterMap opening

omit [Alphanumeric] in
theorem numbers_groupTurn (state : List (Nat × List String) × Nat)
    (paragraph : String) :
    (groupTurn state paragraph).1.map Prod.fst
      = state.1.map Prod.fst ++ (opening paragraph).toList := by
  obtain ⟨grouped, orphans⟩ := state
  unfold groupTurn opening
  cases claimStart paragraph.toList with
  | some start =>
      dsimp only
      rw [List.map_append]
      rfl
  | none =>
      dsimp only
      rw [Option.map_none, Option.toList_none, List.append_nil]
      cases hlast : grouped.getLast? with
      | none => rfl
      | some last =>
          have hsplit := congrArg (List.map Prod.fst)
            (List.dropLast_append_getLast? last hlast)
          rw [List.map_append] at hsplit
          dsimp only
          rw [List.map_append]
          exact hsplit

omit [Alphanumeric] in
/-- The numbers of the claims are those the paragraphs open with. -/
theorem numbers_group (paragraphs : List String) :
    (group paragraphs).1.map Prod.fst = paragraphs.filterMap opening := by
  have hrun (state : List (Nat × List String) × Nat) :
      (paragraphs.foldl groupTurn state).1.map Prod.fst
        = state.1.map Prod.fst ++ paragraphs.filterMap opening := by
    induction paragraphs generalizing state with
    | nil => exact (List.append_nil _).symm
    | cons paragraph paragraphs ih =>
        rw [List.foldl_cons, ih, numbers_groupTurn, List.append_assoc,
          Spans.filterMap_cons_toList]
  exact hrun ([], 0)

omit [Alphanumeric] in
theorem claimStart_suffix {cs digits rest : List Char}
    (h : claimStart cs = some (digits, rest)) : rest <:+ cs := by
  obtain ⟨afterNumber, hnumber, h⟩ := Option.bind_eq_some_iff.mp h
  obtain ⟨afterDot, hdot, h⟩ := Option.bind_eq_some_iff.mp h
  obtain ⟨afterSpace, hspace, h⟩ := Option.bind_eq_some_iff.mp h
  cases h
  obtain ⟨spaces, hcs, -⟩ := afterSpaces_split cs
  obtain ⟨digits, hdigits, -⟩ := afterDigits_split hnumber
  obtain ⟨spaces', hspaces', -⟩ := afterSpaces_split afterNumber
  obtain ⟨spaces'', hspaces'', -⟩ := afterSomeSpaces_split hspace
  obtain ⟨c, -, hcase⟩ := afterOneOf_eq_some hdot
  have hdotSuffix : afterDot <:+ afterSpaces afterNumber := ⟨[c], hcase.symm⟩
  have h1 : rest <:+ afterDot := ⟨spaces'', hspaces''.symm⟩
  have h2 : afterSpaces afterNumber <:+ afterNumber := ⟨spaces', hspaces'.symm⟩
  have h3 : afterNumber <:+ afterSpaces cs := ⟨digits, hdigits.symm⟩
  have h4 : afterSpaces cs <:+ cs := ⟨spaces, hcs.symm⟩
  exact h1.trans (hdotSuffix.trans (h2.trans (h3.trans h4)))

/-- A claim that is read. -/
theorem epClaim_eq_ok {language : String} {number : Nat} {parts : List String}
    {c : Claim} (h : epClaim language number parts = .ok c) :
    c.number = number
      ∧ c.dependsOn = (references (body parts) number).1.map Int.ofNat
      ∧ ∃ bodyStart, c.features = features number c.text bodyStart := by
  unfold epClaim at h
  dsimp only at h
  split at h
  · cases h
  · next digits rest hstart =>
      have hdrop := List.suffix_iff_eq_drop.mp (claimStart_suffix hstart)
      have hbody : body parts = rest := by
        rw [body, hstart, Option.map_some, Option.getD_some]
      cases h
      refine ⟨rfl, ?_, _, rfl⟩
      dsimp only
      rw [← hdrop, hbody]

omit [Digits] [Alphanumeric] in
/-- The first of two related lists that meet a condition. -/
theorem find?_forall₂ {α β : Type _} {R : α → β → Prop} {p : α → Bool}
    {q : β → Bool} {l : List α} {l' : List β} (h : List.Forall₂ R l l')
    (hpq : ∀ a b, R a b → p a = q b) :
    (l.find? p = none ∧ l'.find? q = none)
      ∨ ∃ a b, R a b ∧ l.find? p = some a ∧ l'.find? q = some b := by
  induction h with
  | nil => exact .inl ⟨rfl, rfl⟩
  | @cons a b l l' hab _ ih =>
      cases hp : p a with
      | true =>
          right
          refine ⟨a, b, hab, ?_, ?_⟩
          · rw [List.find?_cons, hp]
          · rw [List.find?_cons, ← hpq a b hab, hp]
      | false =>
          rw [List.find?_cons, hp, List.find?_cons, ← hpq a b hab, hp]
          exact ih

theorem numbers_of_forall₂ {grouped : List (Nat × List String)}
    {claims : List Claim} {language : String}
    (h : List.Forall₂ (fun g c => epClaim language g.1 g.2 = .ok c) grouped
      claims) : claims.map Claim.number = grouped.map fun g => (g.1 : Int) :=
  (map_eq_of_forall₂ h fun _ _ hc => (epClaim_eq_ok hc).1.symm).symm

section Payload

variable {ν : Type _} [JsonNumber ν] [Printable] {payload : Json ν}
  {publicationNumber language : String} {cs : ClaimSet}

/-- What is accepted. -/
theorem parseEpClaims_eq_ok
    (h : parseEpClaims payload publicationNumber language = .ok cs) :
    ∃ paragraphs, claimTexts payload language = .ok paragraphs
      ∧ List.Forall₂ (fun g c => epClaim language g.1 g.2 = .ok c)
        (group paragraphs).1 cs.claims := by
  obtain ⟨paragraphs, hparagraphs, h⟩ := bind_eq_ok.mp h
  obtain ⟨_, -, h⟩ := bind_eq_ok.mp h
  obtain ⟨claims, hclaims, h⟩ := bind_eq_ok.mp h
  cases h
  exact ⟨paragraphs, hparagraphs, mapM_eq_ok_iff.mp hclaims⟩

omit [Printable] in
/-- The references of the claims resolve exactly if those of the paragraphs
do. -/
theorem resolved_iff {paragraphs : List String}
    (h : List.Forall₂ (fun g c => epClaim language g.1 g.2 = .ok c)
      (group paragraphs).1 cs.claims) :
    cs.Resolved ↔ ReferencesResolve paragraphs := by
  have hnumbers : cs.numbers
      = (paragraphs.filterMap opening).map fun n : Nat => (n : Int) := by
    rw [ClaimSet.numbers, numbers_of_forall₂ h, ← numbers_group, List.map_map]
    rfl
  have hmem (n : Nat) : (n : Int) ∈ cs.numbers
      ↔ n ∈ paragraphs.filterMap opening := by
    rw [hnumbers]
    exact List.mem_map_of_injective fun _ _ h => Int.ofNat.inj h
  have hfind (n : Nat) := find?_forall₂
    (p := fun g : Nat × List String => decide (g.1 = n))
    (q := fun c : Claim => decide (c.number = (n : Int))) h
    fun g c hc => by
      rw [(epClaim_eq_ok hc).1]
      exact decide_eq_decide.mpr Int.ofNat_inj.symm
  constructor
  · intro hres n parts hparts p hp
    rcases hfind n with ⟨hnone, -⟩ | ⟨g, c, hc, hg, hclaim⟩
    · rw [hnone] at hparts
      cases hparts
    · rw [hg] at hparts
      cases hparts
      rw [← hmem]
      refine hres n c (ClaimSet.claim_eq_ok.mpr hclaim) p ?_
      rw [(epClaim_eq_ok hc).2.1]
      exact List.mem_map_of_mem (mem_references.mpr hp)
  · intro hres n c hclaim p hp
    have hn : n ∈ cs.numbers := ClaimSet.exists_claim_iff.mp ⟨c, hclaim⟩
    rw [hnumbers] at hn
    obtain ⟨m, -, rfl⟩ := List.mem_map.mp hn
    rw [ClaimSet.claim_eq_ok] at hclaim
    rcases hfind m with ⟨-, hnone⟩ | ⟨⟨m', parts⟩, c', hc, hg, hclaim'⟩
    · rw [hnone] at hclaim
      cases hclaim
    · rw [hclaim'] at hclaim
      cases hclaim
      have hm : m' = m := of_decide_eq_true
        (List.find?_some (p := fun g : Nat × List String => decide (g.1 = m)) hg)
      subst hm
      rw [(epClaim_eq_ok hc).2.1] at hp
      obtain ⟨q, hq, rfl⟩ := List.mem_map.mp hp
      exact (hmem q).mpr (hres m' parts hg q (mem_references.mp hq))

/-- Every claim number of an accepted response has a conclusion under every
chart exactly if what the claims refer to is there. -/
theorem conclude_total_iff
    (h : parseEpClaims payload publicationNumber language = .ok cs) :
    ∃ paragraphs, claimTexts payload language = .ok paragraphs
      ∧ ((∀ chart : ClaimChart, chart.claimSet = cs → ∀ n ∈ cs.numbers,
          ∃ r, concludeClaim chart n = .ok r)
        ↔ ReferencesResolve paragraphs) := by
  obtain ⟨paragraphs, hparagraphs, hclaims⟩ := parseEpClaims_eq_ok h
  exact ⟨paragraphs, hparagraphs, total_iff_resolved.trans (resolved_iff hclaims)⟩

end Payload

end Paragraphs

-- --------------------------------------------------------- two responses

section Responses

local instance responsePrintable : Printable := ⟨fun _ => false⟩

local instance responseDigits : Digits := asciiDigits

local instance responseAlphanumeric : Alphanumeric := asciiAlphanumeric

/-- A response with some paragraphs. -/
def response (paragraphs : List String) : Json Int :=
  .obj [("claims", .obj [("@lang", .str "EN"), ("claim", .obj [
    ("claim-text", .arr (paragraphs.map fun p => .obj [("$", .str p)]))])])]

/-- The claims of such a response. -/
def readResponse (paragraphs : List String) : Py ClaimSet :=
  parseEpClaims (response paragraphs) "EP-1-B1" "EN"

def dependentParagraphs : List String :=
  ["1. A device.", "2. A device according to claim 1."]

theorem referencesResolve_dependent : ReferencesResolve dependentParagraphs := by
  have hgroup : (group dependentParagraphs).1
      = [(1, ["1. A device."]), (2, ["2. A device according to claim 1."])] := by
    decide
  have hfirst : (references (body ["1. A device."]) 1).1 = [] := by decide
  have hsecond :
      (references (body ["2. A device according to claim 1."]) 2).1 = [1] := by
    decide
  have hopening : dependentParagraphs.filterMap opening = [1, 2] := by
    decide
  intro n parts hfind p hp
  rw [← mem_references] at hp
  have hmem := List.mem_of_find?_eq_some hfind
  rw [hgroup] at hmem
  rcases List.mem_pair.mp hmem with heq | heq
  · cases heq
    rw [hfirst] at hp
    cases hp
  · cases heq
    rw [hsecond] at hp
    rw [hopening, List.mem_singleton.mp hp]
    exact List.mem_cons_self ..

theorem conclude_total_iff_dependent :
    ∃ cs, readResponse dependentParagraphs = .ok cs
      ∧ ∀ chart : ClaimChart, chart.claimSet = cs → ∀ n ∈ cs.numbers,
        ∃ r, concludeClaim chart n = .ok r := by
  have haccepted : (readResponse dependentParagraphs).toOption.isSome = true := by
    decide
  have htexts : claimTexts (response dependentParagraphs) "EN"
      = .ok dependentParagraphs := rfl
  cases h : readResponse dependentParagraphs with
  | error e =>
      rw [h] at haccepted
      cases haccepted
  | ok cs =>
      obtain ⟨paragraphs, hparagraphs, hiff⟩ := conclude_total_iff h
      rw [htexts] at hparagraphs
      cases hparagraphs
      exact ⟨cs, rfl, hiff.mpr referencesResolve_dependent⟩

/-- A reference to a claim that is not there is kept, and the conclusion of
the claim raises. -/
theorem dangling_reference_raises :
    ∃ cs, readResponse ["1. A device according to claim 5."] = .ok cs
      ∧ ¬ ∀ chart : ClaimChart, chart.claimSet = cs → ∀ n ∈ cs.numbers,
        ∃ r, concludeClaim chart n = .ok r := by
  have hraises : (readResponse ["1. A device according to claim 5."]).toOption.any
      (fun cs => 1 ∈ cs.numbers
        && (concludeClaim { claimSet := cs } 1).toOption.isNone) = true := by
    decide
  cases h : readResponse ["1. A device according to claim 5."] with
  | error e =>
      rw [h] at hraises
      cases hraises
  | ok cs =>
      rw [h] at hraises
      obtain ⟨hone, hnone⟩ := Bool.and_eq_true_iff.mp hraises
      refine ⟨cs, rfl, fun htotal => ?_⟩
      obtain ⟨r, hr⟩ := htotal { claimSet := cs } rfl 1 (of_decide_eq_true hone)
      rw [hr] at hnone
      cases hnone

end Responses

end EpClaims

end PatentEvidence.Fto
