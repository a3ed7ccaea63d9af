import Haystack.Binary64.Basic
import Haystack.Binary64.Layout
import Haystack.Binary64.Numeral
import Haystack.Binary64.Rounding
import Haystack.Binary64.Shortest
import Haystack.Calendar.Date
import Haystack.Calendar.DateTime
import Haystack.Calendar.DayCount
import Haystack.Calendar.History
import Haystack.Calendar.RegionIds
import Haystack.Calendar.Regions
import Haystack.Calendar.Zone
import Haystack.Command.Arguments
import Haystack.Command.Basic
import Haystack.Command.Output
import Haystack.Error
import Haystack.Filter.Basic
import Haystack.Filter.Comparison
import Haystack.Filter.LikePattern
import Haystack.Filter.Path
import Haystack.Filter.Reading
import Haystack.Json.Document
import Haystack.Json.Numeral
import Haystack.Json.Reading
import Haystack.Json.Tagged
import Haystack.Json.Text
import Haystack.Main
import Haystack.Proofs.Binary64.Accuracy
import Haystack.Proofs.Binary64.Numeral
import Haystack.Proofs.Binary64.Rounding
import Haystack.Proofs.Binary64.Shortest
import Haystack.Proofs.Calendar.Days
import Haystack.Proofs.Calendar.Instants
import Haystack.Proofs.Calendar.Order
import Haystack.Proofs.Command.Queries
import Haystack.Proofs.Command.Streams
import Haystack.Proofs.Filter.Agreement
import Haystack.Proofs.Filter.Canonical
import Haystack.Proofs.Filter.Dependence
import Haystack.Proofs.Filter.Given
import Haystack.Proofs.Filter.Grammar
import Haystack.Proofs.Filter.Interchange
import Haystack.Proofs.Filter.Literals
import Haystack.Proofs.Filter.Paths
import Haystack.Proofs.Filter.Patterns
import Haystack.Proofs.Filter.Places
import Haystack.Proofs.Filter.Predicates
import Haystack.Proofs.Filter.Quotation
import Haystack.Proofs.Filter.Rereading
import Haystack.Proofs.Filter.Spelling
import Haystack.Proofs.Filter.Trees
import Haystack.Proofs.Filter.Uniqueness
import Haystack.Proofs.Json.Conversion
import Haystack.Proofs.Json.Documents
import Haystack.Proofs.Json.Given
import Haystack.Proofs.Json.OneLine
import Haystack.Proofs.Json.RoundTrip
import Haystack.Proofs.Json.Scalars
import Haystack.Proofs.Json.Sorted
import Haystack.Proofs.Store.Growth
import Haystack.Proofs.Store.History
import Haystack.Proofs.Store.Labels
import Haystack.Proofs.Store.Reachable
import Haystack.Proofs.Store.Reading
import Haystack.Proofs.Store.Soundness
import Haystack.Proofs.Tag.Coordinates
import Haystack.Proofs.Tag.Degrees
import Haystack.Proofs.Tag.Hashes
import Haystack.Proofs.Tag.Merging
import Haystack.Proofs.Tag.Names
import Haystack.Proofs.Tag.Order
import Haystack.Proofs.Tag.Records
import Haystack.Proofs.Tag.Sameness
import Haystack.Proofs.Tag.Updates
import Haystack.Proofs.Text.Digits
import Haystack.Proofs.Text.Fails
import Haystack.Proofs.Text.Places
import Haystack.Proofs.Text.Reads
import Haystack.Proofs.Text.Takes
import Haystack.Proofs.Text.Turns
import Haystack.Proofs.Zinc.Alphabets
import Haystack.Proofs.Zinc.Backslashes
import Haystack.Proofs.Zinc.Diffs
import Haystack.Proofs.Zinc.Enclosed
import Haystack.Proofs.Zinc.Exact
import Haystack.Proofs.Zinc.Failures
import Haystack.Proofs.Zinc.GivenGrids
import Haystack.Proofs.Zinc.GivenValues
import Haystack.Proofs.Zinc.Grids
import Haystack.Proofs.Zinc.LineEnds
import Haystack.Proofs.Zinc.Lines
import Haystack.Proofs.Zinc.LongOffsets
import Haystack.Proofs.Zinc.Moments
import Haystack.Proofs.Zinc.Numbers
import Haystack.Proofs.Zinc.Padding
import Haystack.Proofs.Zinc.Places
import Haystack.Proofs.Zinc.Progress
import Haystack.Proofs.Zinc.Quoting
import Haystack.Proofs.Zinc.Rereading
import Haystack.Proofs.Zinc.RoundTrip
import Haystack.Proofs.Zinc.SameText
import Haystack.Proofs.Zinc.Shapes
import Haystack.Proofs.Zinc.Streams
import Haystack.Proofs.Zinc.Tags
import Haystack.Proofs.Zinc.Values
import Haystack.Proofs.Zinc.Weights
import Haystack.Proofs.Zinc.Words
import Haystack.Store
import Haystack.Tag.Coordinates
import Haystack.Tag.Dict
import Haystack.Tag.Name
import Haystack.Tag.Number
import Haystack.Tag.Record
import Haystack.Tag.Resource
import Haystack.Tag.Value
import Haystack.Text.CharClass
import Haystack.Text.Cursor
import Haystack.Text.Digits
import Haystack.Text.Quoted
import Haystack.Text.Scan
import Haystack.Text.Unprintable
import Haystack.Text.UpperCase
import Haystack.Text.Utf8
import Haystack.Zinc.GridReading
import Haystack.Zinc.GridText
import Haystack.Zinc.Quoting
import Haystack.Zinc.ValueReading
import Haystack.Zinc.ValueText
