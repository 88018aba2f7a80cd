import HdlReview.Advice.Inquiry
import HdlReview.Service.Server
import HdlReview.Settings
import HdlReview.Proofs.Lint.Isolation
import HdlReview.Proofs.Lint.RoundTrip
import HdlReview.Proofs.Scan.Lines
import HdlReview.Proofs.Lint.Review
import HdlReview.Proofs.Scan.Renaming
import HdlReview.Proofs.Scan.Stretch
import HdlReview.Proofs.Scan.Correspondence
import HdlReview.Proofs.Scan.Hits
import HdlReview.Proofs.Scan.Simulation
import HdlReview.Proofs.Scan.Names
import HdlReview.Proofs.Lint.Correspondence
import HdlReview.Proofs.Scan.Sources
import HdlReview.Proofs.Lint.Invariance
import HdlReview.Proofs.Lint.Caseless
import HdlReview.Proofs.Json.Sendable
import HdlReview.Proofs.Service.Echo
import HdlReview.Proofs.Json.Extent
import HdlReview.Proofs.Service.Faults
import HdlReview.Proofs.Service.Posted
import HdlReview.Proofs.Service.Agreement
import HdlReview.Proofs.Service.Failures
import HdlReview.Proofs.Service.Limit
import HdlReview.Proofs.Advice.RoundTrip
import HdlReview.Proofs.Decimal.Range
import HdlReview.Proofs.Tools.Conformance
import HdlReview.Proofs.Json.OneLine
import HdlReview.Proofs.Service.Recording
import HdlReview.Proofs.Service.Trail
import HdlReview.Proofs.Service.Secrecy
import HdlReview.Proofs.Scan.Identifiers
import HdlReview.Proofs.Scan.Marks
import HdlReview.Proofs.Lint.Assignments
import HdlReview.Proofs.Scan.Headers
import HdlReview.Proofs.Lint.Clocking
import HdlReview.Proofs.Lint.Sensitivity
import HdlReview.Proofs.Audit.Lines
import HdlReview.Proofs.Lint.Agreement
import HdlReview.Proofs.Scan.Tokens
import HdlReview.Proofs.Lint.ReportedLines
import HdlReview.Proofs.Decimal.Places
import HdlReview.Proofs.Tools.DirectAdvice
import HdlReview.Proofs.Lint.Summary
import HdlReview.Proofs.Validation.NormalForm
import HdlReview.Proofs.Scan.Forms
import HdlReview.Proofs.Scan.Coherence
import HdlReview.Proofs.Lint.Keywords
import HdlReview.Proofs.Lint.OpenEnds
import HdlReview.Proofs.Scan.Offsets
import HdlReview.Proofs.Scan.Division
import HdlReview.Proofs.Lint.Statements
