/-
EP legal status from INPADOC legal events (modules/legal_status/ep.py).

The events are found wherever in the response they are (`legalEvents`), and
each is read from its lines of text. The two patterns of the source are
written out as the scans they stand for: the earliest place at which one
matches, and there the shortest match.
-/
import PatentEvidence.LegalStatus.Us

namespace PatentEvidence.LegalStatus

open Fallible Grouping Text

-- ============================================================ constants

/-- `SOURCE`. -/
def epSource : String := "EPO OPS INPADOC"

/-- `REINSTATEMENT_CODES`. -/
def reinstatementCodes : List String := ["PGRI"]

/-- `FEE_CODES`. -/
def feeCodes : List String := ["PGFP"]

/-- `UNITARY_PREFIX`. -/
def unitaryPrefix : String := "U"

/-- `GRANT_KINDS`. -/
def grantKinds : List String := ["B1", "B2", "B3"]

/-- The field names `_PRE_FIELD` looks for. -/
def preFieldNames : List String :=
  ["Ref Country Code", "Effective DATE", "Free Format Text", "Payment DATE",
    "Year of Fee Payment", "Kind Code of Ref Document", "Designated State(s)"]

variable {ν : Type _} [JsonNumber ν] [Printable] [Digits]

-- =============================================================== events

structure LegalEvent where
  code : String
  description : String
  influence : String
  gazetteDate : Option Date
  fields : Dict String String := .empty
  lines : List String := []

/-- `_yyyymmdd`. -/
def dateOfDigits (value : Option String) : Option Date := do
  let digits := (decimals (← value)).take 8
  let year ← numberOf (digits.take 4)
  let month ← numberOf ((digits.drop 4).take 2)
  let day ← numberOf (digits.drop 6)
  date? year month day

/-- `_COUNTRY_IN_DESC`. -/
def countryInDescription (description : String) : Option String :=
  match description.toList with
  | a :: b :: ':' :: _ =>
      if isCapital a && isCapital b then some (String.ofList [a, b]) else none
  | _ => none

/-- `LegalEvent.country`. -/
def LegalEvent.country (event : LegalEvent) : Option String :=
  match event.fields.get? "Ref Country Code" with
  | some code =>
      if code ≠ "" then some (String.ofList ((strip code).toList.take 2))
      else countryInDescription event.description
  | none => countryInDescription event.description

/-- `LegalEvent.effective_date`. -/
def LegalEvent.effectiveDate (event : LegalEvent) : Option Date :=
  dateOfDigits (event.fields.get? "Effective DATE") <|> event.gazetteDate

-- ============================================================== reading

/-- `\S*?[+\- ]`, and what follows. -/
def afterMark : List Char → Option (List Char)
  | [] => none
  | c :: cs =>
      if c ∈ ['+', '-', ' '] then some cs
      else if isSpace c then none
      else afterMark cs

/-- `\d{4}-\d{2}-\d{2}`, and what follows. -/
def afterDay : List Char → Option (List Char)
  | a :: b :: c :: d :: '-' :: e :: f :: '-' :: g :: h :: cs =>
      if [a, b, c, d, e, f, g, h].all fun c => (Digits.decimal? c).isSome then
        some cs
      else none
  | _ => none

/-- What is left of a line once `_PREFIX` is taken away. -/
def afterPrefix : List Char → Option (List Char)
  | [] => none
  | c :: cs =>
      match (afterDay (c :: cs)).bind afterMark with
      | some rest => some rest
      | none => if c = '\n' then none else afterPrefix cs

/-- `_PRE_FIELD` where it is tried, on a stripped line. -/
def preFieldAt (cs : List Char) : Option (String × String) :=
  preFieldNames.findSome? fun name =>
    let rest := cs.drop name.toList.length
    let value := rest.dropWhile isSpace
    if name.toList.isPrefixOf cs && value.length < rest.length
        && !value.contains '\n' then
      some (name, strip (String.ofList value))
    else none

/-- `_PRE_FIELD.search`. -/
def preField : List Char → Option (String × String)
  | [] => none
  | c :: cs => preFieldAt (c :: cs) <|> preField cs

/-- One entry of the lines of an event. -/
def readLine (desc : String) (read : List String × Dict String String)
    (entry : Json ν) : Py (List String × Dict String String) := do
  let text := (← entry.getD "$" (.str "")).toStr.toList
  let rest :=
    match (if desc ≠ "" then afterFirst desc.toList text else none) with
    | some rest => rest
    | none => (afterPrefix text).getD text
  let tail := strip (String.ofList rest)
  let (lines, fields) := read
  match preField tail.toList with
  | none => return (lines ++ [tail], fields)
  | some (key, value) =>
      let value :=
        match fields.get? key with
        | some previous => strip (previous ++ " " ++ value)
        | none => value
      return (lines ++ [tail], fields.set key value)

/-- `items if isinstance(items, list) else [items]`. -/
def asList : Json ν → List (Json ν)
  | .arr items => items
  | item => [item]

/-- One event of `parse_inpadoc`. -/
def parseEvent (item : Json ν) : Py LegalEvent := do
  let pre := asList ((← item.get "ops:pre").orElse (.arr []))
  let desc := (← item.getD "@desc" (.str "")).toStr
  let (lines, fields) ← pre.foldlM (readLine desc) ([], .empty)
  let code := (← item.getD "@code" (.str "")).toStr
  let influence := (← item.getD "@infl" (.str " ")).toStr
  let gazette := (← item.get "ops:L007EP").orElse (.obj [])
  return {
    code := strip code
    description := strip desc
    influence := influence
    gazetteDate := parseDate (← gazette.get "$")
    fields := fields
    lines := lines }

/-- The algebra of `legalEvents`: a value with the events inside it. -/
def legalAlg : Json.Alg ν (Json ν × List (Json ν)) where
  null := (.null, [])
  bool b := (.bool b, [])
  num n := (.num n, [])
  str s := (.str s, [])
  arr rs := (.arr (rs.map Prod.fst), rs.flatMap Prod.snd)
  obj es :=
    let entries := es.map fun e => (e.1, e.2.1)
    let found :=
      match entries.lookup "ops:legal" with
      | some items => asList items
      | none => []
    (.obj entries, found ++ es.flatMap fun e => e.2.2)

/-- `walk`: what stands under `ops:legal`, an object's own before what is
inside its values. -/
def legalEvents (payload : Json ν) : List (Json ν) :=
  (payload.fold legalAlg).2

/-- `parse_inpadoc`. -/
def parseInpadoc (payload : Json ν) : Py (List LegalEvent) :=
  (legalEvents payload).mapM parseEvent

-- ============================================================ countries

/-- `designated_states_at_grant`. -/
def designatedStatesAtGrant (events : List LegalEvent) : List String :=
  firsts <| events.flatMap fun event =>
    let kind := strip (event.fields.getD "Kind Code of Ref Document" "")
    if event.code = "AK" ∧ kind ∈ grantKinds then
      (words (event.fields.getD "Designated State(s)" "")).filter fun t =>
        t.toList.length = 2 && t.toList.all isCapital
    else []

/-- The accumulators of `_country_statuses`. -/
structure CountryTally where
  lapse : Dict String (Option Date × String) := .empty
  reinstated : Dict String (Option Date) := .empty
  fee : Dict String (Option Nat × Option Date) := .empty

/-- A date that takes the place of the one before: there is none yet, or it
is later. -/
def supersedes (date previous : Option Date) : Bool :=
  match previous, date with
  | none, _ => true
  | some previous, some date => previous < date
  | some _, none => false

/-- `year_text` and `year`, of a fee event. -/
def LegalEvent.feeYear (event : LegalEvent) : Option Nat :=
  numberOf (decimals (event.fields.getD "Year of Fee Payment" ""))

/-- A negative event, `event.influence.strip() == "-"`. -/
def LegalEvent.negative (event : LegalEvent) : Bool :=
  strip event.influence = "-"

/-- The event takes effect after the analysis date. -/
def LegalEvent.later (event : LegalEvent) (asOf : Date) : Bool :=
  event.effectiveDate.any (asOf < ·)

/-- What one event of a country adds to its tally. -/
def tallyEvent (tally : CountryTally) (country : String) (event : LegalEvent) :
    CountryTally :=
  if event.code ∈ reinstatementCodes then
    if supersedes event.effectiveDate (tally.reinstated.getD country none) then
      { tally with
        reinstated := tally.reinstated.set country event.effectiveDate }
    else tally
  else if event.code ∈ feeCodes then
    let paidOn :=
      dateOfDigits (event.fields.get? "Payment DATE") <|> event.gazetteDate
    let newer : Bool :=
      match tally.fee.get? country with
      | none => true
      | some previous => previous.1.getD 0 < event.feeYear.getD 0
    if newer then
      { tally with fee := tally.fee.set country (event.feeYear, paidOn) }
    else tally
  else if event.negative then
    let reason :=
      match event.fields.get? "Free Format Text" with
      | some text => if text ≠ "" then text else event.description
      | none => event.description
    let newer : Bool :=
      match tally.lapse.get? country with
      | none => true
      | some (previous, _) =>
          event.effectiveDate.isSome && supersedes event.effectiveDate previous
    if newer then
      { tally with
        lapse := tally.lapse.set country (event.effectiveDate, reason) }
    else tally
  else tally

/-- One turn of the loop of `_country_statuses`. -/
def countEvent (asOf : Date) (tally : CountryTally) (event : LegalEvent) :
    CountryTally :=
  match event.country with
  | none => tally
  | some country =>
      if country = "" ∨ event.later asOf then tally
      else tallyEvent tally country event

/-- The status of one country. -/
def CountryTally.status (tally : CountryTally) (country : String) :
    CountryStatus :=
  let lapse := tally.lapse.getD country (none, "")
  let fee := tally.fee.getD country (none, none)
  { country := country
    lapsedOn := lapse.1
    lapseReason := lapse.2
    reinstatedOn := tally.reinstated.getD country none
    lastFeeYear := fee.1.map Int.ofNat
    lastFeePaidOn := fee.2 }

/-- `_country_statuses`, in the order of the countries. -/
def countryStatuses (events : List LegalEvent) (asOf : Date) :
    List CountryStatus :=
  let tally := events.foldl (countEvent asOf) {}
  let countries := (tally.lapse.keys ++ tally.reinstated.keys
    ++ tally.fee.keys).dedup.insertionSort (· ≤ ·)
  countries.map tally.status

/-- `CountryStatus.lapse_in_effect`. -/
def CountryStatus.lapseInEffect (status : CountryStatus) : Bool :=
  match status.lapsedOn, status.reinstatedOn with
  | none, _ => false
  | some _, none => true
  | some lapsed, some reinstated => reinstated < lapsed

-- =============================================================== status

/-- The evidence an event is kept as, if it is. -/
def epEvidence (event : LegalEvent) : Option (StatusEvidence ν) :=
  if event.country.any (· ≠ "") || event.negative
      || startsWith unitaryPrefix event.code || event.code = "AK" then
    some {
      source := epSource
      code := event.code
      description := .str event.description
      eventDate := event.effectiveDate
      detail := join "; " (event.fields.entries.map fun e =>
        e.1 ++ ": " ++ e.2) }
  else none

/-- The codes of the negative events of no state. -/
def unknownNegative (events : List LegalEvent) (asOf : Date) : List String :=
  ((events.filter fun event => event.negative
      && !event.country.any (· ≠ "") && !event.later asOf).map
    LegalEvent.code).dedup.insertionSort (· ≤ ·)

/-- `unitary`. -/
def unitary (events : List LegalEvent) : Bool :=
  events.any fun event => startsWith unitaryPrefix event.code
    && allDigits (String.ofList (event.code.toList.drop 1))

/-- The status `assess_ep` returns and its reasons. -/
def epStatus (asOf expiry : Date) (events : List LegalEvent)
    (countries : List CountryStatus) : Status × List String :=
  let find (state : String) : Option CountryStatus :=
    countries.find? fun status => status.country = state
  let designated := designatedStatesAtGrant events
  let alive := designated.filter fun state =>
    !(find state).any CountryStatus.lapseInEffect
  let noEvidence := alive.filter fun state => (find state).isNone
  let unknown := unknownNegative events asOf
  if expiry < asOf then (.expired, [])
  else if unknown ≠ [] then
    (.undetermined, ["negative EP-level events not mapped to a state: "
      ++ join ", " unknown])
  else if unitary events then
    (.presumedInForce, ["unitary effect: national lapse events do not cover "
      ++ "participating states"])
  else if designated = [] then
    (.undetermined,
      ["grant-time designated states not found in AK events"])
  else if alive = [] then (.lapsed, [])
  else if noEvidence ≠ [] then
    (.presumedInForce, ["no national events reported for: "
      ++ join ", " noEvidence
      ++ " (status there is not evidenced either way)"])
  else (.presumedInForce, [])

/-- `assess_ep`. -/
def assessEp (payload : Json ν) (publicationNumber : String)
    (filingDate asOf : Date) (dataAsOf : Json ν) :
    Py (LegalStatusAssessment ν) := do
  let events ← parseInpadoc payload
  let expiry ← addYears filingDate 20
  let countries := countryStatuses events asOf
  let (status, reasons) := epStatus asOf expiry events countries
  return {
    jurisdiction := "EP"
    publicationNumber := publicationNumber
    asOf := asOf
    status := status
    term := some {
      termStart := filingDate
      termStartBasis := "EP filing date " ++ filingDate.isoformat
      statutoryYears := 20
      adjustmentDays := 0
      expiryDate := expiry }
    evidence := events.filterMap epEvidence
    reviewReasons := reasons
    dataAsOf := dataAsOf
    countries := countries }

end PatentEvidence.LegalStatus
