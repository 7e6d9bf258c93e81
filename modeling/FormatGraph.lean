import FormatGraph.Json.Parser
import FormatGraph.Json.Writer
import FormatGraph.Text.Lines
import FormatGraph.Text.Quoted
import FormatGraph.Kind
import FormatGraph.Vocabulary
import FormatGraph.Shape.OfText
import FormatGraph.Location
import FormatGraph.Schema
import FormatGraph.Draft
import FormatGraph.Payload.GraphPayload
import FormatGraph.Payload.TokenPayload
import FormatGraph.Payload.LineMap
import FormatGraph.Payload.Error
import FormatGraph.Link
import FormatGraph.Graph.Base
import FormatGraph.Graph.Cycle
import FormatGraph.Graph.Expression
import FormatGraph.Graph.Formats
import FormatGraph.Graph.Histogram
import FormatGraph.Graph.Member
import FormatGraph.Graph.Metadata
import FormatGraph.Graph.ScopeChain
import FormatGraph.Diagnostics
import FormatGraph.Files.Directory
import FormatGraph.Load
import FormatGraph.Report.Basic
import FormatGraph.Settings.Basic
import FormatGraph.Settings.Toml
import FormatGraph.Settings.Yaml
import FormatGraph.Settings.Load
import FormatGraph.Command.Invocation
import FormatGraph.Command.Run
import FormatGraph.Main
import FormatGraph.Proofs.Record
import FormatGraph.Proofs.Link.Value
import FormatGraph.Proofs.Link.Parts
import FormatGraph.Proofs.Draft
import FormatGraph.Proofs.Link.Assembly
import FormatGraph.Proofs.Link.Handles
import FormatGraph.Proofs.Link.Faithful
import FormatGraph.Proofs.Link.Outcome
import FormatGraph.Proofs.Link.Strictness
import FormatGraph.Proofs.Graph.Descent
import FormatGraph.Proofs.Graph.Walk
import FormatGraph.Proofs.Graph.Search
import FormatGraph.Proofs.Graph.Postorder
import FormatGraph.Proofs.Graph.Trace
import FormatGraph.Proofs.Graph.Calls
import FormatGraph.Proofs.Graph.Histogram
import FormatGraph.Proofs.Graph.Formats
import FormatGraph.Proofs.Graph.Chain
import FormatGraph.Proofs.Graph.Queries
import FormatGraph.Proofs.Graph.Ends
import FormatGraph.Proofs.Graph.Cycle
import FormatGraph.Proofs.Graph.Order
import FormatGraph.Proofs.Graph.Shadowing
import FormatGraph.Proofs.Graph.Resolution
import FormatGraph.Proofs.Link.Locality
import FormatGraph.Proofs.Link.Growth
import FormatGraph.Proofs.Payload.Place
import FormatGraph.Proofs.Json.RoundTrip
import FormatGraph.Proofs.Shape.Slots
import FormatGraph.Proofs.Shape.RoundTrip
import FormatGraph.Proofs.Payload.RoundTrip
import FormatGraph.Proofs.Json.Skip
import FormatGraph.Proofs.Json.Agree
import FormatGraph.Proofs.Shape.Agree
import FormatGraph.Proofs.Payload.Paths
import FormatGraph.Proofs.Graph.Scopes
import FormatGraph.Proofs.Graph.Precedence
import FormatGraph.Proofs.Graph.Paths
import FormatGraph.Proofs.Command.Dump
import FormatGraph.Proofs.Graph.Ties
import FormatGraph.Proofs.Text.Places
import FormatGraph.Proofs.Json.Message
import FormatGraph.Proofs.Payload.Message
import FormatGraph.Proofs.Edits
import FormatGraph.Proofs.Text.Pieces
import FormatGraph.Proofs.Text.Columns
import FormatGraph.Proofs.Children
import FormatGraph.Proofs.Command.Check
import FormatGraph.Proofs.Report.Table
