import Reckoner.Binary64.Layout
import Reckoner.Text.Blank
import Reckoner.Text.Digit
import Reckoner.Text.Printable
import Reckoner.Text.UpperCase
import Reckoner.Text.Quoted
import Reckoner.Text.WholeNumber
import Reckoner.Json.Parser
import Reckoner.Json.Printer
import Reckoner.Json.Shown
import Reckoner.Expression.Token
import Reckoner.Expression.Evaluation
import Reckoner.Calendar.Clock
import Reckoner.Store.Basic
import Reckoner.Service.Answer
import Reckoner.Batch
import Reckoner.LoadTest.Percentile
import Reckoner.Settings.Severity
import Reckoner.Settings.Basic
import Reckoner.Main
import Reckoner.Http.SmokeTest
import Reckoner.Demonstration
import Reckoner.LoadTest.Program
import Reckoner.Proofs.Expression.Value
import Reckoner.Proofs.Expression.Arrangement
import Reckoner.Proofs.Expression.Totality
import Reckoner.Proofs.Service.Refinement
import Reckoner.Proofs.Service.Crowd
import Reckoner.Proofs.Service.Custody
import Reckoner.Proofs.Service.Deletion
import Reckoner.Proofs.Http.Refusal
import Reckoner.Proofs.Service.Isolation
import Reckoner.Proofs.Expression.Reassembly
import Reckoner.Proofs.Expression.Supplied
import Reckoner.Proofs.Binary64.Rounding
import Reckoner.Proofs.Binary64.DecimalValue
import Reckoner.Proofs.Binary64.Notation
import Reckoner.Proofs.Binary64.Display
import Reckoner.Proofs.Binary64.PlainDisplay
import Reckoner.Proofs.Binary64.WholeNumber
import Reckoner.Proofs.Expression.Reentry
import Reckoner.Proofs.Expression.IntegerValue
import Reckoner.Proofs.Http.Provenance
import Reckoner.Proofs.Service.Failure
import Reckoner.Proofs.Http.Status
import Reckoner.Proofs.Quantity
import Reckoner.Proofs.Json.RoundTrip
import Reckoner.Proofs.Expression.OneLine
import Reckoner.Proofs.Expression.Record
import Reckoner.Proofs.Batch.Modes
import Reckoner.Proofs.Http.Calculation
import Reckoner.Proofs.CommandLine.Expressions
import Reckoner.Proofs.Settings.Layers
import Reckoner.Proofs.Settings.Typing
import Reckoner.Proofs.Expression.Substitution
import Reckoner.Proofs.Expression.Location
import Reckoner.Proofs.Expression.Parenthesized
import Reckoner.Proofs.Expression.Balance
import Reckoner.Proofs.Expression.Finality
import Reckoner.Proofs.Store.ReadBack
import Reckoner.Proofs.Store.WallOrder
import Reckoner.Proofs.CommandLine.Input
import Reckoner.Proofs.CommandLine.Serving
import Reckoner.Proofs.Expression.Segments
import Reckoner.Proofs.Binary64.Order
import Reckoner.Proofs.LoadTest.Rank
import Reckoner.Proofs.Settings.Reports
