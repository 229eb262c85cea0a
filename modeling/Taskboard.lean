import Taskboard.Text.Blank
import Taskboard.Text.Lowercase
import Taskboard.Decimal.Layout
import Taskboard.Decimal.Reading
import Taskboard.Json.Arranged
import Taskboard.Json.Writing
import Taskboard.Json.Reading
import Taskboard.Board.Item.Json
import Taskboard.Board.Fingerprint
import Taskboard.Query.Filter
import Taskboard.Query.Preset
import Taskboard.Hash.Blake3
import Taskboard.Graph.Digraph
import Taskboard.Graph.Depth
import Taskboard.Graph.Dependency
import Taskboard.Centrality.Scalar
import Taskboard.Centrality.PageRank
import Taskboard.Centrality.Betweenness
import Taskboard.Centrality.Provider
import Taskboard.Triage.Metrics
import Taskboard.Triage.Report
import Taskboard.Triage.Report.Json
import Taskboard.Triage.Debouncer
import Taskboard.Triage.Engine
import Taskboard.Toml.Document
import Taskboard.Toml.Quoted
import Taskboard.Toml.Number
import Taskboard.Toml.Reading
import Taskboard.Settings
import Taskboard.Command.Run
import Taskboard.Main
import Taskboard.Proofs.Text.LetterCase
import Taskboard.Proofs.Decimal.Reading
import Taskboard.Proofs.Board.Structure
import Taskboard.Proofs.Triage.Congruence
import Taskboard.Proofs.Triage.Freshness
import Taskboard.Proofs.Triage.Waiting
import Taskboard.Proofs.Query.Grammar
import Taskboard.Proofs.Query.Correspondence
import Taskboard.Proofs.Query.Recognition
import Taskboard.Proofs.Query.Lexing
import Taskboard.Proofs.Query.Composition
import Taskboard.Proofs.Query.Value
import Taskboard.Proofs.Query.Progress
import Taskboard.Proofs.Query.Viability
import Taskboard.Proofs.Query.Rendering
import Taskboard.Proofs.Graph.Relation
import Taskboard.Proofs.Graph.Digest
import Taskboard.Proofs.Graph.Depth
import Taskboard.Proofs.Graph.Renumbering
import Taskboard.Proofs.Centrality.Renumbering
import Taskboard.Proofs.Triage.Metrics
import Taskboard.Proofs.Triage.BoardOrder
import Taskboard.Proofs.Centrality.ShortestPaths
import Taskboard.Proofs.Centrality.NewEdge
import Taskboard.Proofs.Triage.NewLink
import Taskboard.Proofs.Triage.Stability
import Taskboard.Proofs.Triage.Agreement
import Taskboard.Proofs.Graph.Embedding
import Taskboard.Proofs.Graph.Parts
import Taskboard.Proofs.Triage.UnrelatedBoards
import Taskboard.Proofs.Query.EntryPoints
import Taskboard.Proofs.Query.FurtherProperties
import Taskboard.Proofs.Query.Height
import Taskboard.Proofs.Query.LetterCase
import Taskboard.Proofs.Json.Arranged
import Taskboard.Proofs.Json.Writing
import Taskboard.Proofs.Board.Members
import Taskboard.Proofs.Centrality.PathsThrough
import Taskboard.Proofs.Command.Loading
import Taskboard.Proofs.Command.Outcome
import Taskboard.Proofs.Command.Printing
import Taskboard.Proofs.Command.TriageView
import Taskboard.Proofs.Graph.Chains
import Taskboard.Proofs.Triage.Unblocking
import Taskboard.Proofs.Decimal.Exact
import Taskboard.Proofs.Centrality.RankFlow
import Taskboard.Proofs.Centrality.PageRank
import Taskboard.Proofs.Centrality.RankConvergence
import Taskboard.Proofs.Graph.Cycles
import Taskboard.Proofs.Query.Coverage
import Taskboard.Proofs.Query.Operators
import Taskboard.Proofs.Text.Occurrence
import Taskboard.Proofs.Query.Search
import Taskboard.Proofs.Query.NormalForm
import Taskboard.Proofs.Triage.Pending
