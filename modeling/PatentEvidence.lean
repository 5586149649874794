import PatentEvidence.Lib.Dict
import PatentEvidence.Lib.Chain
import PatentEvidence.Lib.Fallible
import PatentEvidence.Lib.Text
import PatentEvidence.Lib.Date
import PatentEvidence.Lib.Grouping
import PatentEvidence.Lib.Run
import PatentEvidence.Lib.Table
import PatentEvidence.Lib.Json
import PatentEvidence.Lib.JsonText
import PatentEvidence.Lib.Python
import PatentEvidence.Lib.Select
import PatentEvidence.Lib.Keyed
import PatentEvidence.Lib.Calendar
import PatentEvidence.Lib.Locks
import PatentEvidence.Lib.AsciiJson
import PatentEvidence.Lib.Aware
import PatentEvidence.Lib.Scan
import PatentEvidence.Lib.Spans
import PatentEvidence.Lib.Listing
import PatentEvidence.Lib.Positional
import PatentEvidence.Lib.Base32
import PatentEvidence.Lib.Joins
import PatentEvidence.Lib.Lines
import PatentEvidence.Lib.SlidingWindow
import PatentEvidence.Lib.Hex
import PatentEvidence.Lib.Html
import PatentEvidence.Lib.ChainOrder
import PatentEvidence.Lib.Layout
import PatentEvidence.Lib.Audited
import PatentEvidence.Fto.Model
import PatentEvidence.Fto.Chart
import PatentEvidence.Fto.Product
import PatentEvidence.Fto.ProductFeatures
import PatentEvidence.Fto.EpClaims
import PatentEvidence.Fto.UsClaims
import PatentEvidence.Fto.Wording
import PatentEvidence.Fto.Proofs.Paths
import PatentEvidence.Fto.Proofs.Verdict
import PatentEvidence.Fto.Proofs.Conclusion
import PatentEvidence.Fto.Proofs.Reorder
import PatentEvidence.Fto.Proofs.Product
import PatentEvidence.Fto.Proofs.FeatureSets
import PatentEvidence.Fto.Proofs.ProductFeatures
import PatentEvidence.Fto.Proofs.UsClauses
import PatentEvidence.Fto.Proofs.ProductCover
import PatentEvidence.Fto.Proofs.UsFeatures
import PatentEvidence.Fto.Proofs.Dangling
import PatentEvidence.Fto.Proofs.EpFeatures
import PatentEvidence.Fto.Proofs.EpReading
import PatentEvidence.Fto.Proofs.EpReferences
import PatentEvidence.Fto.Proofs.Numbering
import PatentEvidence.Assessment.Model
import PatentEvidence.Assessment.Priority
import PatentEvidence.Assessment.Gates
import PatentEvidence.Assessment.Completeness
import PatentEvidence.Assessment.Package
import PatentEvidence.Assessment.Approval
import PatentEvidence.Assessment.Decisions
import PatentEvidence.Assessment.Records
import PatentEvidence.Assessment.Deliverable
import PatentEvidence.Assessment.DeliverableHtml
import PatentEvidence.Assessment.Snapshot
import PatentEvidence.Assessment.Diff
import PatentEvidence.Assessment.Payload
import PatentEvidence.Assessment.Proofs.Gate
import PatentEvidence.Assessment.Proofs.Completeness
import PatentEvidence.Assessment.Proofs.Decisions
import PatentEvidence.Assessment.Proofs.Signature
import PatentEvidence.Assessment.Proofs.Delivery
import PatentEvidence.Assessment.Proofs.DiffInputs
import PatentEvidence.Assessment.Proofs.Diff
import PatentEvidence.Assessment.Proofs.DiffItems
import PatentEvidence.Assessment.Proofs.Reference
import PatentEvidence.Assessment.Proofs.Snapshot
import PatentEvidence.Assessment.Proofs.AddedClaim
import PatentEvidence.Assessment.Proofs.Dates
import PatentEvidence.Assessment.Proofs.Coverage
import PatentEvidence.Assessment.Proofs.SourceCoverage
import PatentEvidence.Assessment.Proofs.DeliverableView
import PatentEvidence.Assessment.Proofs.DeliverableHtml
import PatentEvidence.Cases.Store
import PatentEvidence.Cases.Features
import PatentEvidence.Cases.Evaluator
import PatentEvidence.Cases.Comparison
import PatentEvidence.Cases.Assembly
import PatentEvidence.Cases.Creation
import PatentEvidence.Cases.Parser
import PatentEvidence.Cases.ParseQueue
import PatentEvidence.Cases.Proofs.Features
import PatentEvidence.Cases.Proofs.Codes
import PatentEvidence.Cases.Proofs.Comparison
import PatentEvidence.Cases.Proofs.Lock
import PatentEvidence.Cases.Proofs.Summary
import PatentEvidence.Cases.Proofs.Assembly
import PatentEvidence.Cases.Proofs.Creation
import PatentEvidence.Cases.Proofs.Splitting
import PatentEvidence.Cases.Proofs.Merging
import PatentEvidence.Cases.Proofs.Parser
import PatentEvidence.Cases.Proofs.ParseQueue
import PatentEvidence.Cases.Proofs.ParseVersions
import PatentEvidence.Review.Model
import PatentEvidence.Review.Proofs.Decisions
import PatentEvidence.Reports.Sealer
import PatentEvidence.Reports.Conclusion
import PatentEvidence.Reports.Generator
import PatentEvidence.Reports.Facts
import PatentEvidence.Reports.Blocks
import PatentEvidence.Reports.Proofs.Digest
import PatentEvidence.Reports.Proofs.Reading
import PatentEvidence.Reports.Proofs.Facts
import PatentEvidence.Reports.Proofs.Blocks
import PatentEvidence.Reports.Proofs.Inline
import PatentEvidence.Reports.Proofs.Tables
import PatentEvidence.LegalStatus.Model
import PatentEvidence.LegalStatus.Us
import PatentEvidence.LegalStatus.Ep
import PatentEvidence.LegalStatus.Serialize
import PatentEvidence.LegalStatus.Proofs.UsTimeline
import PatentEvidence.LegalStatus.Proofs.EpStanding
import PatentEvidence.LegalStatus.Proofs.EpEvents
import PatentEvidence.LegalStatus.Proofs.EpReinstatement
import PatentEvidence.LegalStatus.Proofs.UsExtract
import PatentEvidence.LegalStatus.Proofs.EpExtract
import PatentEvidence.Corpus.Query
import PatentEvidence.Corpus.Proofs.Cutoff
import PatentEvidence.Uploads.Guard
import PatentEvidence.Uploads.Proofs.Targets
import PatentEvidence.Uploads.Proofs.Entries
import PatentEvidence.Auth.Reset
import PatentEvidence.Auth.Totp
import PatentEvidence.Auth.PasswordWork
import PatentEvidence.Auth.RateLimit
import PatentEvidence.Auth.Sessions
import PatentEvidence.Auth.Proofs.Reset
import PatentEvidence.Auth.Proofs.Totp
import PatentEvidence.Auth.Proofs.PasswordWork
import PatentEvidence.Auth.Proofs.RateLimit
import PatentEvidence.Auth.Proofs.Sessions
import PatentEvidence.Auth.Proofs.Factors
import PatentEvidence.Organization.Model
import PatentEvidence.Organization.Members
import PatentEvidence.Organization.Invitations
import PatentEvidence.Organization.Access
import PatentEvidence.Organization.Proofs.Steps
import PatentEvidence.Organization.Proofs.Members
import PatentEvidence.Organization.Proofs.Invitations
import PatentEvidence.Organization.Proofs.Access
import PatentEvidence.Platform.Organizations
import PatentEvidence.Platform.Proofs.Fingerprint
import PatentEvidence.Platform.Proofs.Steps
import PatentEvidence.Platform.Proofs.Openings
import PatentEvidence.Lib.Pool
import PatentEvidence.Search.Importer
import PatentEvidence.Search.Pool
import PatentEvidence.Search.Proofs.Exports
import PatentEvidence.Search.Proofs.Pool
import PatentEvidence.Search.Proofs.PoolRuns
