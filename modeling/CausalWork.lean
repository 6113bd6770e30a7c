import CausalWork.Artifact
import CausalWork.Collate
import CausalWork.Command
import CausalWork.Command.Help
import CausalWork.Command.Reader
import CausalWork.Command.Run
import CausalWork.Command.Signature
import CausalWork.Config
import CausalWork.Date
import CausalWork.Disk
import CausalWork.Event
import CausalWork.Failure
import CausalWork.FileError
import CausalWork.FileTree
import CausalWork.FileTree.Edit
import CausalWork.FileTree.Write
import CausalWork.Flight
import CausalWork.Graph
import CausalWork.Injection
import CausalWork.Json.Basic
import CausalWork.Json.Fields
import CausalWork.Json.Range
import CausalWork.Json.Reader
import CausalWork.Kind
import CausalWork.Main
import CausalWork.Network
import CausalWork.Path
import CausalWork.Pattern
import CausalWork.Pool
import CausalWork.Pool.File
import CausalWork.Project
import CausalWork.Prose
import CausalWork.Record
import CausalWork.Replay
import CausalWork.Report
import CausalWork.Resolution
import CausalWork.Snapshot
import CausalWork.Status
import CausalWork.Store
import CausalWork.Store.Files
import CausalWork.Store.Memory
import CausalWork.Text.Blank
import CausalWork.Text.Bytes
import CausalWork.Text.Decimal
import CausalWork.Text.Duration
import CausalWork.Text.Hex
import CausalWork.Text.Lines
import CausalWork.Timestamp
import CausalWork.Timestamp.Text
import CausalWork.Uuid
import CausalWork.Validation
import CausalWork.WorkUnit
import CausalWork.Yaml.Basic
import CausalWork.Yaml.Mark
import CausalWork.Yaml.Reader
import CausalWork.Yaml.Scalar
import CausalWork.Yaml.Token
import CausalWork.Proofs.Json.Numeral
import CausalWork.Proofs.Json.Quoted
import CausalWork.Proofs.Json.Document
import CausalWork.Proofs.Json.Record
import CausalWork.Proofs.Json.Extended
import CausalWork.Proofs.Text.LastLine
import CausalWork.Proofs.Event
import CausalWork.Proofs.Journal
import CausalWork.Proofs.Pool.Call
import CausalWork.Proofs.Pool.OneLive
import CausalWork.Proofs.Pool.Ordered
import CausalWork.Proofs.Pool.Settled
import CausalWork.Proofs.Pool.Roster
import CausalWork.Proofs.Resolution
import CausalWork.Proofs.Injection
import CausalWork.Proofs.Countdown
import CausalWork.Proofs.Precedence
import CausalWork.Proofs.Collate
import CausalWork.Proofs.Graph
import CausalWork.Proofs.Graph.Search
import CausalWork.Proofs.Graph.Order
import CausalWork.Proofs.Graph.Dangling
import CausalWork.Proofs.Graph.Cycle
import CausalWork.Proofs.Resolution.Recall
import CausalWork.Proofs.Resolution.Inquiry
import CausalWork.Proofs.Snapshot.Contents
import CausalWork.Proofs.BrokenLinks
import CausalWork.Proofs.Pool.Attempt
import CausalWork.Proofs.Pool.Log
import CausalWork.Proofs.Pool.Frame
import CausalWork.Proofs.Pool.Append
import CausalWork.Proofs.Resolution.Agreement
import CausalWork.Proofs.Resolution.Errand
import CausalWork.Proofs.Resolution.Flight
import CausalWork.Proofs.Resolution.Batch
import CausalWork.Proofs.Pool.Lifecycle
import CausalWork.Proofs.FileTree.Growth
import CausalWork.Proofs.Sequence
import CausalWork.Proofs.Pool.Closed
import CausalWork.Proofs.Store.Listing
import CausalWork.Proofs.Snapshot.Unreached
import CausalWork.Proofs.Graph.Shape
import CausalWork.Proofs.Graph.Insertion
import CausalWork.Proofs.Graph.Seed
import CausalWork.Proofs.Examination
import CausalWork.Proofs.Isolation
import CausalWork.Proofs.Refusal
import CausalWork.Proofs.Crossing
import CausalWork.Proofs.Resolution.Earliest
import CausalWork.Proofs.Snapshot.Queries
import CausalWork.Proofs.Format
import CausalWork.Proofs.Rehearsal
import CausalWork.Proofs.Graph.Tips
import CausalWork.Proofs.Text.Trim
import CausalWork.Proofs.Comment
import CausalWork.Proofs.Prose
import CausalWork.Proofs.Store.Retrieval
import CausalWork.Proofs.Store.Confinement
import CausalWork.Proofs.Snapshot.Subsystem
import CausalWork.Proofs.Validation
import CausalWork.Proofs.Replay
import CausalWork.Proofs.FileTree.Absolute
import CausalWork.Proofs.Config
