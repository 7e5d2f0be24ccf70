import FilterLang.Block
import FilterLang.Charset
import FilterLang.Command
import FilterLang.Condition
import FilterLang.Connector
import FilterLang.Double
import FilterLang.Edit
import FilterLang.Entry
import FilterLang.Error
import FilterLang.FieldMap
import FilterLang.Filter
import FilterLang.Json.Basic
import FilterLang.Json.Numeral
import FilterLang.Json.Pretty
import FilterLang.Json.Reader
import FilterLang.Main
import FilterLang.Node
import FilterLang.Node.Splice
import FilterLang.Operator
import FilterLang.Outcome
import FilterLang.Proofs.Acceptance
import FilterLang.Proofs.Adding
import FilterLang.Proofs.Agreement
import FilterLang.Proofs.Arguments
import FilterLang.Proofs.Composition
import FilterLang.Proofs.Confinement
import FilterLang.Proofs.Consumption
import FilterLang.Proofs.Counts
import FilterLang.Proofs.Deleting
import FilterLang.Proofs.Detection
import FilterLang.Proofs.Flattening
import FilterLang.Proofs.Joining
import FilterLang.Proofs.Leaves
import FilterLang.Proofs.Listing
import FilterLang.Proofs.Literals
import FilterLang.Proofs.Locality
import FilterLang.Proofs.Narrowing
import FilterLang.Proofs.Normalizing
import FilterLang.Proofs.Overwriting
import FilterLang.Proofs.Placeholders
import FilterLang.Proofs.Precedence
import FilterLang.Proofs.Quoting
import FilterLang.Proofs.ReadBack
import FilterLang.Proofs.Rendering
import FilterLang.Proofs.Retyping
import FilterLang.Proofs.RoundTrip
import FilterLang.Proofs.Sanitizing
import FilterLang.Proofs.Scanning
import FilterLang.Proofs.Selecting
import FilterLang.Proofs.SessionRun
import FilterLang.Proofs.Sources
import FilterLang.Proofs.Splicing
import FilterLang.Proofs.Spots
import FilterLang.Proofs.Standing
import FilterLang.Proofs.Tagging
import FilterLang.Proofs.Transcript
import FilterLang.Proofs.Typing
import FilterLang.Proofs.Undoing
import FilterLang.Proofs.Whitelisting
import FilterLang.Reading
import FilterLang.Registry
import FilterLang.Registry.Reader
import FilterLang.Report
import FilterLang.Resolver
import FilterLang.Restriction
import FilterLang.Segment
import FilterLang.Selection
import FilterLang.Session
import FilterLang.Settings
import FilterLang.Sql.Clause
import FilterLang.Sql.Fragment
import FilterLang.Sql.Predicate
import FilterLang.Sql.Query
import FilterLang.Sql.Quote
import FilterLang.Text.Basic
import FilterLang.Text.Blank
import FilterLang.Text.CaseTable
import FilterLang.Text.Decimal
import FilterLang.Text.Lowercase
import FilterLang.Value.Basic
import FilterLang.Value.Binding
import FilterLang.Value.Classify
