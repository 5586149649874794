/-
Legal-status assessment results (modules/legal_status/models.py).

What an assessment takes over from a record unread (a description, the time
of the data) is whatever the record held.
-/
import PatentEvidence.Lib.Calendar
import PatentEvidence.Lib.Json

namespace PatentEvidence.LegalStatus

inductive Status
  | presumedInForce
  | lapsed
  | expired
  | undetermined
  deriving DecidableEq

structure StatusEvidence (ν : Type _) where
  source : String
  code : String
  description : Json ν
  eventDate : Option Date
  detail : String := ""

/-- How the expiry date was derived. -/
structure TermComputation where
  termStart : Date
  termStartBasis : String
  statutoryYears : Nat
  adjustmentDays : Int
  expiryDate : Date
  deriving DecidableEq

/-- EP only: evidence for one contracting state. -/
structure CountryStatus where
  country : String
  lapsedOn : Option Date := none
  lapseReason : String := ""
  reinstatedOn : Option Date := none
  lastFeeYear : Option Int := none
  lastFeePaidOn : Option Date := none
  deriving DecidableEq

structure LegalStatusAssessment (ν : Type _) where
  jurisdiction : String
  publicationNumber : String
  asOf : Date
  status : Status
  term : Option TermComputation
  evidence : List (StatusEvidence ν)
  reviewReasons : List String := []
  dataAsOf : Json ν := .null
  countries : List CountryStatus := []

end PatentEvidence.LegalStatus
