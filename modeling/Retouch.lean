import Retouch.Buffer
import Retouch.Config
import Retouch.Data.Json
import Retouch.Data.Toml
import Retouch.Data.TomlText
import Retouch.Data.Value
import Retouch.Decimal.Reading
import Retouch.Decimal.Rounding
import Retouch.Decimal.Shortest
import Retouch.Diff.Edit
import Retouch.Diff.Match
import Retouch.Diff.Unified
import Retouch.Digest
import Retouch.Document
import Retouch.Failure
import Retouch.FileTree
import Retouch.Formatter
import Retouch.Linting
import Retouch.Main
import Retouch.Measure.Coverage
import Retouch.Measure.Datum
import Retouch.Measure.Fingerprint
import Retouch.Measure.Journal
import Retouch.Measure.Profile
import Retouch.Measure.Round
import Retouch.Measure.SelfCheck
import Retouch.Measure.Share
import Retouch.Measure.Trial
import Retouch.Measure.Verdict
import Retouch.Moment
import Retouch.Options.Layout
import Retouch.Options.Reading
import Retouch.Options.Table
import Retouch.Path
import Retouch.Program
import Retouch.Project
import Retouch.Recording
import Retouch.Reformat
import Retouch.Repository
import Retouch.Revision
import Retouch.Selection
import Retouch.Session
import Retouch.Text.Blank
import Retouch.Text.LineBreak
import Retouch.Text.Numeral
import Retouch.Text.Printable
import Retouch.Text.Quoted
import Retouch.Text.Word
import Retouch.Text.Wrap
import Retouch.Verbosity
import Retouch.Workload
import Retouch.Workload.Edits
import Retouch.Workload.Projects
import Retouch.Workload.Site
import Retouch.Workload.Texts
import Retouch.Proofs.Matching
import Retouch.Proofs.Script
import Retouch.Proofs.Choice
import Retouch.Proofs.Execution
import Retouch.Proofs.Inquiry
import Retouch.Proofs.Candidates
import Retouch.Proofs.Course
import Retouch.Proofs.Listing
import Retouch.Proofs.Refusals
import Retouch.Proofs.Stillness
import Retouch.Proofs.Tiling
import Retouch.Proofs.Rewriting
import Retouch.Proofs.Lookup
import Retouch.Proofs.Overwriting
import Retouch.Proofs.Baseline
import Retouch.Proofs.Changes
import Retouch.Proofs.Footprint
import Retouch.Proofs.Parallel
import Retouch.Proofs.Dumping
import Retouch.Proofs.Rehearsal
import Retouch.Proofs.Calling
import Retouch.Proofs.Requested
import Retouch.Proofs.Longest
import Retouch.Proofs.Detection
import Retouch.Proofs.Relaying
import Retouch.Proofs.Arrangement
import Retouch.Proofs.Preview
import Retouch.Proofs.Completion
import Retouch.Proofs.Precedence
import Retouch.Proofs.Ranges
import Retouch.Proofs.Places
import Retouch.Proofs.Interruptions
import Retouch.Proofs.CommandLine
import Retouch.Proofs.Layers
import Retouch.Proofs.Diagonal
import Retouch.Proofs.Roots
import Retouch.Proofs.Sameness
import Retouch.Proofs.Patches
import Retouch.Proofs.Stored
import Retouch.Proofs.Rewinding
