import PanelSearch.Highlight.Words
import PanelSearch.Service.Route
import PanelSearch.Proofs.Batch.Filled
import PanelSearch.Proofs.Batch.Framing
import PanelSearch.Proofs.Batch.Placeholders
import PanelSearch.Proofs.Frame.TimeCells
import PanelSearch.Proofs.Highlight.Degrees
import PanelSearch.Proofs.Highlight.Operators
import PanelSearch.Proofs.Highlight.Stopped
import PanelSearch.Proofs.Highlight.Trees
import PanelSearch.Proofs.Highlight.Words
import PanelSearch.Proofs.Index.Listing
import PanelSearch.Proofs.Index.TimeFormat
import PanelSearch.Proofs.Json.Reordered
import PanelSearch.Proofs.Number.Integer
import PanelSearch.Proofs.Number.Numeral
import PanelSearch.Proofs.Request.IntegerSettings
import PanelSearch.Proofs.Request.Nodes
import PanelSearch.Proofs.Request.References
import PanelSearch.Proofs.Request.Refusals
import PanelSearch.Proofs.Request.Shape
import PanelSearch.Proofs.Request.Siblings
import PanelSearch.Proofs.Request.TermsOrder
import PanelSearch.Proofs.Response.Agreement
import PanelSearch.Proofs.Response.Alias
import PanelSearch.Proofs.Response.DisplayNames
import PanelSearch.Proofs.Response.Documents
import PanelSearch.Proofs.Response.Drawn
import PanelSearch.Proofs.Response.Hiding
import PanelSearch.Proofs.Response.Innermost
import PanelSearch.Proofs.Response.LabelPaths
import PanelSearch.Proofs.Response.Lines
import PanelSearch.Proofs.Response.LogNames
import PanelSearch.Proofs.Response.Nesting
import PanelSearch.Proofs.Response.Percentiles
import PanelSearch.Proofs.Response.Reordered
import PanelSearch.Proofs.Response.Script
import PanelSearch.Proofs.Response.SortTimes
import PanelSearch.Proofs.Response.Table
import PanelSearch.Proofs.Response.TimeSeries
import PanelSearch.Proofs.Response.Times
import PanelSearch.Proofs.Response.Tree
import PanelSearch.Proofs.Response.Trimming
import PanelSearch.Proofs.Response.Walk
import PanelSearch.Proofs.Service.Counts
import PanelSearch.Proofs.Service.Discovery
import PanelSearch.Proofs.Service.Endpoints
import PanelSearch.Proofs.Service.RefIds
import PanelSearch.Proofs.Service.TimeBound
import PanelSearch.Proofs.Time.Codec
import PanelSearch.Proofs.Time.Rfc3339.Grammar
import PanelSearch.Proofs.Time.Units
