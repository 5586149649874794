/-
What the events of a state come to.

`_country_statuses` keeps, for each state, whether there is anything to
report, the latest lapse, the latest reinstatement and the highest year a
fee was paid for. Each is a maximum with something below all dates for a
date that is missing, so together they are the state's `Standing`, a join
of what each event marks (`marks_countEvent`, `standing_tally`). A lapse is
in effect if the latest lapse is after the latest reinstatement, and the
status of the patent asks for nothing else of the countries
(`status_epStatus`).

# Sections

- standings;
- the loop;
- countries;
- events that do not count;
- the status;
- the assessment.
-/
import Mathlib.Order.Lattice.Nat
import Mathlib.Order.WithBot
import PatentEvidence.LegalStatus.Ep
import PatentEvidence.Lib.Joins

namespace PatentEvidence.LegalStatus

open Fallible Grouping Joins Text

-- ============================================================= standings

/-- A date that may be missing, which is then before all others. -/
def orBot : Option Date → WithBot Date
  | none => ⊥
  | some date => date

theorem orBot_injective : Function.Injective orBot
  | none, none, _ => rfl
  | none, some _, h => absurd h.symm (WithBot.coe_ne_bot)
  | some _, none, h => absurd h (WithBot.coe_ne_bot)
  | some _, some _, h => congrArg some (WithBot.coe_inj.mp h)

theorem supersedes_iff {date previous : Option Date} :
    supersedes date previous = true
      ↔ previous = none ∨ orBot previous < orBot date := by
  cases previous with
  | none => exact iff_of_true rfl (.inl rfl)
  | some previous =>
      cases date with
      | none =>
          refine iff_of_false (fun h => by cases h) ?_
          rintro (h | h)
          · cases h
          · exact not_lt_bot h
      | some date =>
          rw [supersedes, decide_eq_true_eq]
          refine ⟨fun h => .inr (WithBot.coe_lt_coe.mpr h), ?_⟩
          rintro (h | h)
          · cases h
          · exact WithBot.coe_lt_coe.mp h

/-- Truth values are joined as those of a Boolean algebra, which computes. -/
instance (priority := 2000) semilatticeSupBool : SemilatticeSup Bool :=
  BooleanAlgebra.toBiheytingAlgebra.toCoheytingAlgebra.toSemilatticeSup

instance (priority := 2000) orderBotBool : OrderBot Bool :=
  BooleanAlgebra.toBiheytingAlgebra.toOrderBot

/-- Whether there is anything to report of a state, its latest lapse and
its latest reinstatement, and the highest year a fee was paid for. -/
abbrev Standing := Bool × WithBot Date × WithBot Date × ℕ

namespace Standing

def evidenced (standing : Standing) : Bool := standing.1

def lapsed (standing : Standing) : WithBot Date := standing.2.1

def reinstated (standing : Standing) : WithBot Date := standing.2.2.1

def feeYear (standing : Standing) : ℕ := standing.2.2.2

/-- No reinstatement is as late as the latest lapse. -/
def Dead (standing : Standing) : Prop := standing.reinstated < standing.lapsed

instance (standing : Standing) : Decidable standing.Dead :=
  inferInstanceAs (Decidable (standing.reinstated < standing.lapsed))

end Standing

variable [Digits]

namespace LegalEvent

/-- The event counts for the state: it names it, and is not later than the
analysis. -/
def CountsFor (event : LegalEvent) (asOf : Date) (state : String) : Prop :=
  event.country = some state ∧ state ≠ "" ∧ event.later asOf = false

instance (event : LegalEvent) (asOf : Date) (state : String) :
    Decidable (event.CountsFor asOf state) :=
  inferInstanceAs (Decidable (_ ∧ _ ∧ _))

/-- What an event says of the state it counts for. -/
def tells (event : LegalEvent) : Standing :=
  if event.code ∈ reinstatementCodes then
    (true, ⊥, orBot event.effectiveDate, 0)
  else if event.code ∈ feeCodes then (true, ⊥, ⊥, event.feeYear.getD 0)
  else if event.negative then (true, orBot event.effectiveDate, ⊥, 0)
  else ⊥

/-- What an event says of a state. -/
def mark (asOf : Date) (state : String) (event : LegalEvent) : Standing :=
  if event.CountsFor asOf state then event.tells else ⊥

end LegalEvent

-- ============================================================== the loop

namespace CountryTally

/-- There is an entry for the state. -/
def lists (tally : CountryTally) (state : String) : Bool :=
  (tally.lapse.get? state).isSome || (tally.reinstated.get? state).isSome
    || (tally.fee.get? state).isSome

/-- The standing the tally has counted so far. -/
def standing (tally : CountryTally) (state : String) : Standing :=
  (tally.lists state,
    orBot (tally.lapse.getD state (none, "")).1,
    orBot (tally.reinstated.getD state none),
    (tally.fee.getD state (none, none)).1.getD 0)

end CountryTally

section Loop

omit [Digits]

variable {tally : CountryTally} {country state : String} {newer : Bool}

theorem standing_lapse {date : Option Date} {reason : String}
    (hnewer : newer = match tally.lapse.get? country with
      | none => true
      | some (previous, _) => date.isSome && supersedes date previous) :
    (if newer then
        { tally with lapse := tally.lapse.set country (date, reason) }
      else tally).standing state
      = tally.standing state
        ⊔ if country = state then (true, orBot date, ⊥, 0) else ⊥ := by
  have hnew (h : newer = true) :
      orBot (tally.lapse.getD country (none, "")).1 ≤ orBot date := by
    rw [Dict.getD]
    cases hget : tally.lapse.get? country with
    | none => exact bot_le
    | some entry =>
        rw [hget] at hnewer
        rw [hnewer, Bool.and_eq_true, supersedes_iff] at h
        rcases h.2 with hnone | hlt
        · rw [Option.getD_some, hnone]
          exact bot_le
        · exact hlt.le
  have hold (h : newer = false) : (tally.lapse.get? country).isSome
      ∧ orBot date ≤ orBot (tally.lapse.getD country (none, "")).1 := by
    rw [Dict.getD]
    cases hget : tally.lapse.get? country with
    | none =>
        rw [hget, h] at hnewer
        cases hnewer
    | some entry =>
        refine ⟨rfl, ?_⟩
        rw [hget, h] at hnewer
        cases date with
        | none => exact bot_le
        | some date =>
            have hnot : ¬ supersedes (some date) entry.1 = true :=
              (Bool.not_eq_true _).mpr hnewer.symm
            rw [supersedes_iff, not_or, not_lt] at hnot
            exact hnot.2
  obtain ⟨hsome, hrank⟩ :=
    keepHighest_facts (fun v => orBot v.1) (none, "") (date, reason) hnew hold state
  have hkept : (if newer then
        { tally with lapse := tally.lapse.set country (date, reason) }
      else tally) = { tally with
        lapse := keepHighest newer tally.lapse country (date, reason) } := by
    cases newer <;> rfl
  rw [hkept, CountryTally.standing, CountryTally.lists, hsome, hrank]
  by_cases hc : country = state
  · simp [hc, CountryTally.standing]
  · simp [hc, CountryTally.standing, CountryTally.lists]

theorem standing_reinstated {date : Option Date}
    (hnewer : newer = supersedes date (tally.reinstated.getD country none)) :
    (if newer then
        { tally with reinstated := tally.reinstated.set country date }
      else tally).standing state
      = tally.standing state
        ⊔ if country = state then (true, ⊥, orBot date, 0) else ⊥ := by
  have hnew (h : newer = true) :
      orBot (tally.reinstated.getD country none) ≤ orBot date := by
    rw [hnewer, supersedes_iff] at h
    rcases h with hnone | hlt
    · rw [hnone]
      exact bot_le
    · exact hlt.le
  have hold (h : newer = false) :
      (tally.reinstated.get? country).isSome
        ∧ orBot date ≤ orBot (tally.reinstated.getD country none) := by
    rw [hnewer, ← Bool.not_eq_true, supersedes_iff, not_or, not_lt] at h
    refine ⟨Option.ne_none_iff_isSome.mp fun hnone => h.1 ?_, h.2⟩
    rw [Dict.getD, hnone]
    rfl
  obtain ⟨hsome, hrank⟩ := keepHighest_facts orBot none date hnew hold state
  have hkept : (if newer then
        { tally with reinstated := tally.reinstated.set country date }
      else tally) = { tally with
        reinstated := keepHighest newer tally.reinstated country date } := by
    cases newer <;> rfl
  rw [hkept, CountryTally.standing, CountryTally.lists, hsome, hrank]
  by_cases hc : country = state
  · simp [hc, CountryTally.standing]
  · simp [hc, CountryTally.standing, CountryTally.lists]

theorem standing_fee {year : Option Nat} {paidOn : Option Date}
    (hnewer : newer = match tally.fee.get? country with
      | none => true
      | some previous => decide (previous.1.getD 0 < year.getD 0)) :
    (if newer then
        { tally with fee := tally.fee.set country (year, paidOn) }
      else tally).standing state
      = tally.standing state
        ⊔ if country = state then (true, ⊥, ⊥, year.getD 0) else ⊥ := by
  have hnew (h : newer = true) :
      (tally.fee.getD country (none, none)).1.getD 0 ≤ year.getD 0 := by
    rw [Dict.getD]
    cases hget : tally.fee.get? country with
    | none => exact Nat.zero_le _
    | some entry =>
        rw [hget] at hnewer
        rw [hnewer, decide_eq_true_eq] at h
        exact h.le
  have hold (h : newer = false) : (tally.fee.get? country).isSome
      ∧ year.getD 0 ≤ (tally.fee.getD country (none, none)).1.getD 0 := by
    rw [Dict.getD]
    cases hget : tally.fee.get? country with
    | none =>
        rw [hget, h] at hnewer
        cases hnewer
    | some entry =>
        rw [hget, h] at hnewer
        exact ⟨rfl, not_lt.mp (of_decide_eq_false hnewer.symm)⟩
  obtain ⟨hsome, hrank⟩ :=
    keepHighest_facts (fun v => v.1.getD 0) (none, none) (year, paidOn) hnew hold state
  have hkept : (if newer then
        { tally with fee := tally.fee.set country (year, paidOn) }
      else tally) = { tally with
        fee := keepHighest newer tally.fee country (year, paidOn) } := by
    cases newer <;> rfl
  rw [hkept, CountryTally.standing, CountryTally.lists, hsome, hrank]
  by_cases hc : country = state
  · simp [hc, CountryTally.standing]
  · simp [hc, CountryTally.standing, CountryTally.lists]

end Loop

variable {event : LegalEvent} {asOf : Date}

/-- An event of a country adds to its standing what it says of it. -/
theorem standing_tallyEvent (tally : CountryTally) (country state : String)
    (event : LegalEvent) :
    (tallyEvent tally country event).standing state
      = tally.standing state ⊔ if country = state then event.tells else ⊥ := by
  rw [tallyEvent, LegalEvent.tells]
  split
  · exact standing_reinstated rfl
  · split
    · exact standing_fee rfl
    · split
      · exact standing_lapse rfl
      · rw [ite_self, sup_bot_eq]

/-- An event adds its mark to the standing of each state. -/
theorem marks_countEvent (asOf : Date) (state : String) :
    Marks (CountryTally.standing · state) (countEvent asOf)
      (LegalEvent.mark asOf state) := by
  intro tally event
  rw [countEvent, LegalEvent.mark]
  cases hcountry : event.country with
  | none =>
      have hnot : ¬ event.CountsFor asOf state := fun h => by
        cases hcountry.symm.trans h.1
      rw [if_neg hnot, sup_bot_eq]
  | some country =>
      by_cases hskip : country = "" ∨ event.later asOf = true
      · have hnot : ¬ event.CountsFor asOf state := by
          rintro ⟨hstate, hne, hlater⟩
          rw [hcountry, Option.some.injEq] at hstate
          rcases hskip with hempty | hskip
          · exact hne (hstate ▸ hempty)
          · rw [hlater] at hskip
            cases hskip
        dsimp only
        rw [if_pos hskip, if_neg hnot, sup_bot_eq]
      · dsimp only
        rw [if_neg hskip, standing_tallyEvent]
        rw [not_or, Bool.not_eq_true] at hskip
        have hiff : event.CountsFor asOf state ↔ country = state := by
          rw [LegalEvent.CountsFor, hcountry, Option.some.injEq]
          refine ⟨And.left, ?_⟩
          rintro rfl
          exact ⟨rfl, hskip⟩
        simp only [hiff]

/-- What the events say of a state. -/
def standingOf (events : List LegalEvent) (asOf : Date) (state : String) :
    Standing :=
  joined (LegalEvent.mark asOf state) events

theorem standing_tally (events : List LegalEvent) (asOf : Date)
    (state : String) :
    (events.foldl (countEvent asOf) {}).standing state
      = standingOf events asOf state := by
  rw [(marks_countEvent asOf state).foldl]
  exact bot_sup_eq _

-- =========================================================== countries

/-- The states with an entry, in order. -/
def CountryTally.states (tally : CountryTally) : List String :=
  (tally.lapse.keys ++ tally.reinstated.keys ++ tally.fee.keys).dedup
    |>.insertionSort (· ≤ ·)

omit [Digits] in
theorem pairwise_states {tally : CountryTally} :
    tally.states.Pairwise (· < ·) :=
  pairwise_lt_insertionSort (List.nodup_dedup _)

section Countries

variable (events : List LegalEvent) (asOf : Date)

omit [Digits] in
theorem mem_states {tally : CountryTally} {state : String} :
    state ∈ tally.states ↔ tally.lists state = true := by
  have hkey {ν : Type} (d : Dict String ν) :
      state ∈ d.keys ↔ (d.get? state).isSome = true := by
    rw [← Option.ne_none_iff_isSome, ne_eq, Dict.get?_eq_none_iff, not_not]
  rw [CountryTally.states, List.mem_insertionSort, List.mem_dedup,
    List.mem_append, List.mem_append, hkey, hkey, hkey, CountryTally.lists,
    Bool.or_eq_true, Bool.or_eq_true]

theorem countryStatuses_eq : countryStatuses events asOf
    = (events.foldl (countEvent asOf) {}).states.map
      (events.foldl (countEvent asOf) {}).status := rfl

theorem lists_eq (state : String) :
    (events.foldl (countEvent asOf) {}).lists state
      = (standingOf events asOf state).evidenced := by
  rw [← standing_tally]
  rfl

/-- The status found for a state, if there is any evidence. -/
theorem find?_countryStatuses (state : String) :
    (countryStatuses events asOf).find? (fun status => status.country = state)
      = if (standingOf events asOf state).evidenced then
          some ((events.foldl (countEvent asOf) {}).status state)
        else none := by
  rw [countryStatuses_eq, List.find?_map, ← lists_eq]
  show Option.map _ (List.find? (fun s => decide (s = state)) _) = _
  split
  · next h =>
      rw [← mem_states] at h
      cases hfind : List.find? (fun s => decide (s = state))
          (events.foldl (countEvent asOf) {}).states with
      | none =>
          have hne := List.find?_eq_none.mp hfind state h
          rw [decide_eq_true_eq] at hne
          exact absurd rfl hne
      | some found =>
          have hfound : decide (found = state) = true :=
            List.find?_some (p := fun s => decide (s = state)) hfind
          rw [Option.map_some, of_decide_eq_true hfound]
  · next h =>
      rw [← mem_states] at h
      rw [List.find?_eq_none.mpr, Option.map_none]
      rintro found hfound heq
      exact h (of_decide_eq_true heq ▸ hfound)

omit [Digits] in
/-- A state is reported dead by its standing. -/
theorem lapseInEffect_iff {tally : CountryTally} {state : String} :
    (tally.status state).lapseInEffect = true
      ↔ (tally.standing state).Dead := by
  rw [CountryTally.status, CountryStatus.lapseInEffect]
  show _ ↔ orBot (tally.reinstated.getD state none)
    < orBot (tally.lapse.getD state (none, "")).1
  cases (tally.lapse.getD state (none, "")).1 with
  | none => exact iff_of_false (fun h => by cases h) not_lt_bot
  | some lapsed =>
      cases tally.reinstated.getD state none with
      | none => exact iff_of_true rfl (WithBot.bot_lt_coe lapsed)
      | some reinstated =>
          exact decide_eq_true_iff.trans WithBot.coe_lt_coe.symm

/-- The dates reported for a state, an absent year of a fee read as 0. -/
def CountryStatus.dates (status : CountryStatus) :
    String × Option Date × Option Date × Int :=
  (status.country, status.lapsedOn, status.reinstatedOn,
    status.lastFeeYear.getD 0)

omit [Digits] in
/-- The dates reported for a state are its standing. -/
theorem dates_status {tally tally' : CountryTally} {state : String}
    (h : tally.standing state = tally'.standing state) :
    (tally.status state).dates = (tally'.status state).dates := by
  have hlapsed : (tally.lapse.getD state (none, "")).1
      = (tally'.lapse.getD state (none, "")).1 :=
    orBot_injective (congrArg Standing.lapsed h)
  have hreinstated : tally.reinstated.getD state none
      = tally'.reinstated.getD state none :=
    orBot_injective (congrArg Standing.reinstated h)
  have hyear : (tally.fee.getD state (none, none)).1.getD 0
      = (tally'.fee.getD state (none, none)).1.getD 0 :=
    congrArg Standing.feeYear h
  have hcast (year : Option Nat) :
      (year.map Int.ofNat).getD 0 = Int.ofNat (year.getD 0) := by
    cases year <;> rfl
  simp only [CountryStatus.dates, CountryTally.status, hlapsed, hreinstated,
    hcast, hyear]

/-- A state counts as dead in `assess_ep` by its standing, also one without
any evidence. -/
theorem any_lapseInEffect_iff (state : String) :
    ((countryStatuses events asOf).find? fun status =>
        status.country = state).any CountryStatus.lapseInEffect = true
      ↔ (standingOf events asOf state).Dead := by
  rw [find?_countryStatuses, ← standing_tally]
  split
  · exact lapseInEffect_iff
  · next h =>
      refine iff_of_false (fun h => by cases h) ?_
      rw [Bool.not_eq_true, Standing.evidenced, CountryTally.standing,
        CountryTally.lists, Bool.or_eq_false_iff, Bool.or_eq_false_iff,
        Option.isSome_eq_false_iff, Option.isNone_iff_eq_none] at h
      rw [Standing.Dead, Standing.lapsed, CountryTally.standing, Dict.getD,
        h.1.1]
      exact not_lt_bot

theorem mem_countryStatuses {status : CountryStatus} :
    status ∈ countryStatuses events asOf
      ↔ (standingOf events asOf status.country).evidenced = true
        ∧ status = (events.foldl (countEvent asOf) {}).status status.country := by
  rw [countryStatuses_eq, List.mem_map, ← lists_eq, ← mem_states]
  constructor
  · rintro ⟨state, hstate, rfl⟩
    exact ⟨hstate, rfl⟩
  · rintro ⟨hstate, heq⟩
    exact ⟨_, hstate, heq.symm⟩

end Countries

-- ============================================== events that do not count

/-- The event is one of unitary effect. -/
def LegalEvent.isUnitary (event : LegalEvent) : Bool :=
  startsWith unitaryPrefix event.code
    && allDigits (String.ofList (event.code.toList.drop 1))

/-- The event is negative and names no state. -/
def LegalEvent.unmapped (asOf : Date) (event : LegalEvent) : Bool :=
  event.negative && !event.country.any (· ≠ "") && !event.later asOf

section Filtered

variable {p : LegalEvent → Bool} (events : List LegalEvent) {asOf : Date}

theorem countryStatuses_filter (h : ∀ event, p event = false →
      ∀ tally, countEvent asOf tally event = tally) :
    countryStatuses (events.filter p) asOf = countryStatuses events asOf := by
  have hfold : (events.filter p).foldl (countEvent asOf) {}
      = events.foldl (countEvent asOf) {} := by
    rw [List.foldl_filter]
    refine congrArg (fun f => events.foldl f ({} : CountryTally)) ?_
    funext tally event
    cases hp : p event with
    | true => rfl
    | false => exact (h event hp tally).symm
  rw [countryStatuses_eq, countryStatuses_eq, hfold]

omit [Digits] in
theorem designatedStatesAtGrant_filter
    (h : ∀ event : LegalEvent, event.code = "AK" → p event = true) :
    designatedStatesAtGrant (events.filter p) = designatedStatesAtGrant events := by
  rw [designatedStatesAtGrant, designatedStatesAtGrant]
  refine congrArg firsts ?_
  induction events with
  | nil => rfl
  | cons event events ih =>
      rw [List.filter_cons, List.flatMap_cons]
      split
      · rw [List.flatMap_cons, ih]
      · next hnot =>
          rw [ih, if_neg fun hgrant => hnot (h event hgrant.1), List.nil_append]

theorem unknownNegative_eq (asOf : Date) : unknownNegative events asOf
    = (((events.filter (LegalEvent.unmapped asOf)).map
      LegalEvent.code).dedup).insertionSort (· ≤ ·) := rfl

theorem unknownNegative_filter (h : ∀ event : LegalEvent,
      event.unmapped asOf = true → p event = true) :
    unknownNegative (events.filter p) asOf = unknownNegative events asOf := by
  rw [unknownNegative_eq, unknownNegative_eq, List.filter_filter]
  have hfilter : (fun e : LegalEvent => e.unmapped asOf && p e)
      = LegalEvent.unmapped asOf := by
    funext e
    cases hunmapped : e.unmapped asOf with
    | true => rw [Bool.true_and, h e hunmapped]
    | false => rfl
  rw [hfilter]

theorem unitary_filter
    (h : ∀ event : LegalEvent, event.isUnitary = true → p event = true) :
    unitary (events.filter p) = unitary events := by
  show List.any _ LegalEvent.isUnitary = List.any _ LegalEvent.isUnitary
  rw [List.any_filter]
  refine congrArg (List.any events) (funext fun e => ?_)
  cases hunitary : e.isUnitary with
  | true => rw [h e hunitary]; rfl
  | false => rw [Bool.and_false]

end Filtered

-- ========================================================== the status

/-- The status of the patent, from the standings of the designated
states. -/
theorem status_epStatus (events : List LegalEvent) (asOf expiry : Date) :
    (epStatus asOf expiry events (countryStatuses events asOf)).1
      = if expiry < asOf then .expired
        else if unknownNegative events asOf ≠ [] then .undetermined
        else if unitary events then .presumedInForce
        else if designatedStatesAtGrant events = [] then .undetermined
        else if ∀ state ∈ designatedStatesAtGrant events,
            (standingOf events asOf state).Dead then .lapsed
        else .presumedInForce := by
  have halive : (designatedStatesAtGrant events).filter (fun state =>
        !((countryStatuses events asOf).find? fun status =>
          status.country = state).any CountryStatus.lapseInEffect) = []
      ↔ ∀ state ∈ designatedStatesAtGrant events,
        (standingOf events asOf state).Dead := by
    rw [List.filter_eq_nil_iff]
    refine forall₂_congr fun state _ => ?_
    rw [Bool.not_eq_true', Bool.not_eq_false, any_lapseInEffect_iff]
  rw [epStatus]
  dsimp only
  simp only [halive]
  split_ifs <;> rfl

/-- When the status is lapsed. -/
theorem lapsed_iff {events : List LegalEvent} {asOf expiry : Date} :
    (epStatus asOf expiry events (countryStatuses events asOf)).1 = .lapsed
      ↔ asOf ≤ expiry ∧ unknownNegative events asOf = []
        ∧ unitary events = false ∧ designatedStatesAtGrant events ≠ []
        ∧ ∀ state ∈ designatedStatesAtGrant events,
          (standingOf events asOf state).Dead := by
  rw [status_epStatus, ← not_lt, ← Bool.not_eq_true]
  split_ifs <;> simp_all

-- ====================================================== the assessment

section Assessment

variable {ν : Type _} [JsonNumber ν] [Printable] {payload : Json ν}
  {events : List LegalEvent} {publicationNumber : String}
  {filingDate asOf expiry : Date} {dataAsOf : Json ν}

/-- The assessment of events that are read, for an expiry date. -/
def assessed (events : List LegalEvent) (publicationNumber : String)
    (filingDate asOf expiry : Date) (dataAsOf : Json ν) :
    LegalStatusAssessment ν :=
  { jurisdiction := "EP"
    publicationNumber := publicationNumber
    asOf := asOf
    status := (epStatus asOf expiry events (countryStatuses events asOf)).1
    term := some {
      termStart := filingDate
      termStartBasis := "EP filing date " ++ filingDate.isoformat
      statutoryYears := 20
      adjustmentDays := 0
      expiryDate := expiry }
    evidence := events.filterMap epEvidence
    reviewReasons :=
      (epStatus asOf expiry events (countryStatuses events asOf)).2
    dataAsOf := dataAsOf
    countries := countryStatuses events asOf }

theorem map_assessEp (h : parseInpadoc payload = .ok events) {γ : Type _}
    (f : LegalStatusAssessment ν → γ) :
    (assessEp payload publicationNumber filingDate asOf dataAsOf).map f
      = (addYears filingDate 20).map fun expiry =>
        f (assessed events publicationNumber filingDate asOf expiry dataAsOf) := by
  rw [assessEp, h, ok_bind]
  cases addYears filingDate 20 with
  | error e => rfl
  | ok expiry => rfl

theorem assessEp_eq_ok (h : parseInpadoc payload = .ok events)
    {assessment : LegalStatusAssessment ν} :
    assessEp payload publicationNumber filingDate asOf dataAsOf = .ok assessment
      ↔ ∃ expiry, addYears filingDate 20 = .ok expiry
        ∧ assessed events publicationNumber filingDate asOf expiry dataAsOf
          = assessment := by
  rw [assessEp, h, ok_bind, bind_eq_ok]
  exact exists_congr fun expiry => and_congr_right fun _ => pure_eq_ok

omit [JsonNumber ν] [Printable] [Digits] in
/-- The countries report a lapse in effect for the state. -/
def LegalStatusAssessment.LapseInEffect (assessment : LegalStatusAssessment ν)
    (state : String) : Prop :=
  ∃ status ∈ assessment.countries,
    status.country = state ∧ status.lapseInEffect = true

omit [JsonNumber ν] [Printable] in
theorem lapseInEffect_assessed {state : String} :
    (assessed events publicationNumber filingDate asOf expiry
        dataAsOf).LapseInEffect state
      ↔ (standingOf events asOf state).Dead := by
  constructor
  · rintro ⟨status, hstatus, rfl, hlapse⟩
    rw [((mem_countryStatuses events asOf).mp hstatus).2, lapseInEffect_iff,
      standing_tally] at hlapse
    exact hlapse
  · intro h
    rw [← any_lapseInEffect_iff] at h
    obtain ⟨status, hfind, hlapse⟩ := (Option.any_eq_true ..).mp h
    have hstate : decide (status.country = state) = true :=
      List.find?_some (p := fun s : CountryStatus => decide (s.country = state))
        hfind
    exact ⟨status, List.mem_of_find?_eq_some hfind, of_decide_eq_true hstate,
      hlapse⟩

end Assessment

end PatentEvidence.LegalStatus
