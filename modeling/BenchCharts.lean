import BenchCharts.Chart.Bars
import BenchCharts.Chart.Lines
import BenchCharts.Chart.Request
import BenchCharts.Chart.RequestCodec
import BenchCharts.Chart.Response
import BenchCharts.Chart.ResponseCodec
import BenchCharts.CommandLine.Arguments
import BenchCharts.CommandLine.Directory
import BenchCharts.CommandLine.Execution
import BenchCharts.CommandLine.Flag
import BenchCharts.CommandLine.Invocation
import BenchCharts.CommandLine.Spelling
import BenchCharts.Dashboard
import BenchCharts.Decimal.Binary
import BenchCharts.Decimal.Extended
import BenchCharts.Decimal.Nearest
import BenchCharts.Decimal.Rounding
import BenchCharts.Decimal.Scaled
import BenchCharts.Decimal.Shortest
import BenchCharts.Decimal.Spelling
import BenchCharts.Error
import BenchCharts.Filter
import BenchCharts.Json.Basic
import BenchCharts.Json.Codec
import BenchCharts.Json.Printer
import BenchCharts.Json.Reader
import BenchCharts.Json.Reread
import BenchCharts.LabelOrder
import BenchCharts.Main
import BenchCharts.Params.Containment
import BenchCharts.Params.Label
import BenchCharts.Params.Leaves
import BenchCharts.Params.Path
import BenchCharts.Proofs.Sorting
import BenchCharts.Proofs.Version.Order
import BenchCharts.ReferenceCache
import BenchCharts.Report
import BenchCharts.Run.Basic
import BenchCharts.Run.Codec
import BenchCharts.Selection
import BenchCharts.Sorting
import BenchCharts.Store.Bars
import BenchCharts.Store.Basic
import BenchCharts.Store.Cell
import BenchCharts.Store.Dump
import BenchCharts.Store.Listings
import BenchCharts.Store.Lookup
import BenchCharts.Store.NumericText
import BenchCharts.Store.Reduction
import BenchCharts.Store.Search
import BenchCharts.Store.Series
import BenchCharts.Text.Blank
import BenchCharts.Text.Bytes
import BenchCharts.Text.Casing
import BenchCharts.Text.Digit
import BenchCharts.Text.Lowercase
import BenchCharts.Text.Numeral
import BenchCharts.Text.Quoted
import BenchCharts.Text.Ranges
import BenchCharts.Text.Split
import BenchCharts.Time.Date
import BenchCharts.Time.Instant
import BenchCharts.Time.Reader
import BenchCharts.Time.Spelling
import BenchCharts.Version
import BenchCharts.Proofs.Json.Normal
import BenchCharts.Proofs.Params.Path
import BenchCharts.Proofs.Params.Leaves
import BenchCharts.Proofs.Params.Containment
import BenchCharts.Proofs.Filter
import BenchCharts.Proofs.Run.Codec
import BenchCharts.Proofs.Store.Reachable
import BenchCharts.Proofs.Json.Reread
import BenchCharts.Proofs.Store.Lookup
import BenchCharts.Proofs.Store.Search
import BenchCharts.Proofs.Store.Bars
import BenchCharts.Proofs.LabelOrder
import BenchCharts.Proofs.Chart.Bars
import BenchCharts.Proofs.Dashboard
import BenchCharts.Proofs.Ownership
import BenchCharts.Proofs.Selection
import BenchCharts.Proofs.Store.Rows
import BenchCharts.Proofs.Store.Alike
import BenchCharts.Proofs.Chart.Lines
import BenchCharts.Proofs.Dashboard.RunChart
import BenchCharts.Proofs.Dashboard.ImportOrder
import BenchCharts.Proofs.Dashboard.Metrics
import BenchCharts.Proofs.Params.ContainmentOrder
import BenchCharts.Proofs.Store.Calls
import BenchCharts.Proofs.Dashboard.DrillDown
import BenchCharts.Proofs.Dashboard.Modes
import BenchCharts.Proofs.Dashboard.Refusals
import BenchCharts.Proofs.ReferenceCache
import BenchCharts.Proofs.Dashboard.WarmUp
import BenchCharts.Proofs.Dashboard.LatestListed
import BenchCharts.Proofs.Text.Numeral
import BenchCharts.Proofs.Time.Reader
import BenchCharts.Proofs.Json.Codec
import BenchCharts.Proofs.Json.Depth
import BenchCharts.Proofs.Decimal.Shortest
import BenchCharts.Proofs.Json.Numerals
import BenchCharts.Proofs.Json.RoundTrip
import BenchCharts.Proofs.Chart.Codec
import BenchCharts.Proofs.Dashboard.Regular
import BenchCharts.Proofs.CommandLine.Directory
import BenchCharts.Proofs.CommandLine.Answers
import BenchCharts.Proofs.CommandLine.Sessions
import BenchCharts.Proofs.Store.Series
import BenchCharts.Proofs.Dashboard.Totals
import BenchCharts.Proofs.Decimal.Mean
import BenchCharts.Proofs.Dashboard.SeriesLayout
import BenchCharts.Proofs.Dashboard.RunOrder
import BenchCharts.Proofs.Store.Imports
import BenchCharts.Proofs.Store.Merging
import BenchCharts.Proofs.Store.Errors
import BenchCharts.Proofs.Version.Grammar
import BenchCharts.Proofs.Version.Snapshot
import BenchCharts.Proofs.Params.ContainmentSets
import BenchCharts.Proofs.Dashboard.Annotations
import BenchCharts.Proofs.Selection.Laws
import BenchCharts.Proofs.LabelOrder.Ties
import BenchCharts.Proofs.Store.Chronology
import BenchCharts.Proofs.Params.Removal
import BenchCharts.Proofs.Params.LeafPaths
import BenchCharts.Proofs.Params.Rendered
import BenchCharts.Proofs.Filter.Compiling
import BenchCharts.Proofs.Store.ReferenceLists
import BenchCharts.Proofs.Params.NullLeaves
