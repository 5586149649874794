/-
The corpus load: its scope and the filing dates its query selects
(modules/corpus/query.py).

A query is held as the literals it is written with; `filedSince` is the
condition its text states on the filing date of a row of the publications
table, where dates are integers and 0 is an unknown one.
-/
import PatentEvidence.LegalStatus.Us

namespace PatentEvidence.Corpus

open Fallible LegalStatus Text

/-- `CorpusScope`. -/
structure CorpusScope where
  asOf : Date
  classificationPrefixes : List String := ["H01M", "H02J"]
  usKinds : List String := ["B1", "B2", "E1"]
  epKinds : List String := ["B1", "B2", "B3"]
  statutoryYears : Int := 20
  usMarginYears : Int := 5
  epMarginYears : Int := 0

/-- `CorpusScope.cutoff`. -/
def CorpusScope.cutoff (scope : CorpusScope) (jurisdiction : String) : Py Date :=
  let margin :=
    if jurisdiction = "US" then scope.usMarginYears else scope.epMarginYears
  addYears scope.asOf (-(scope.statutoryYears + margin))

/-- `_yyyymmdd`. -/
def yyyymmdd (day : Date) : Nat :=
  day.year * 10000 + day.month * 100 + day.day

/-- `_quoted`: the values, where all may stand in a query. -/
def quoted [Alphanumeric] (values : List String) : Py (List String) :=
  if values.all fun value =>
      value ≠ "" && value.toList.all Alphanumeric.isAlnum then .ok values
  else .error .valueError

/-- The literals of a query. -/
structure CorpusQuery where
  classificationPrefixes : List String
  usKinds : List String
  usCutoff : Nat
  epKinds : List String
  epCutoff : Nat

/-- `build_corpus_query`. -/
def buildCorpusQuery [Alphanumeric] (scope : CorpusScope) : Py CorpusQuery := do
  let classificationPrefixes ← quoted scope.classificationPrefixes
  let usKinds ← quoted scope.usKinds
  let usCutoff ← scope.cutoff "US"
  let epKinds ← quoted scope.epKinds
  let epCutoff ← scope.cutoff "EP"
  return {
    classificationPrefixes := classificationPrefixes
    usKinds := usKinds
    usCutoff := yyyymmdd usCutoff
    epKinds := epKinds
    epCutoff := yyyymmdd epCutoff }

/-- The filing-date filter, `p.filing_date >= …`. -/
def CorpusQuery.filedSince (query : CorpusQuery) (jurisdiction : String)
    (filingDate : Int) : Bool :=
  if jurisdiction = "US" then query.usCutoff ≤ filingDate
  else query.epCutoff ≤ filingDate

end PatentEvidence.Corpus
