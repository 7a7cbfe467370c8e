import OutputIndex.Address
import OutputIndex.Address.Parser
import OutputIndex.Binary.Format
import OutputIndex.Bridge
import OutputIndex.Bridge.Files
import OutputIndex.Bytes
import OutputIndex.Command
import OutputIndex.Command.Parser
import OutputIndex.Cursor
import OutputIndex.Digest
import OutputIndex.Digits
import OutputIndex.Disk
import OutputIndex.Document
import OutputIndex.Document.Json
import OutputIndex.Document.Overlay
import OutputIndex.Double
import OutputIndex.Double.Decimal
import OutputIndex.Error
import OutputIndex.Field
import OutputIndex.FileTree
import OutputIndex.Filter
import OutputIndex.Filter.Json
import OutputIndex.Hex
import OutputIndex.Identifier
import OutputIndex.Index
import OutputIndex.Index.Bootstrap
import OutputIndex.Index.Import
import OutputIndex.Json.Basic
import OutputIndex.Json.Printer
import OutputIndex.Json.Reader
import OutputIndex.Ledger
import OutputIndex.Ledger.Json
import OutputIndex.Main
import OutputIndex.Output
import OutputIndex.Output.Binary
import OutputIndex.Output.Json
import OutputIndex.Output.Raw
import OutputIndex.Path
import OutputIndex.Program
import OutputIndex.Proofs.Address
import OutputIndex.Proofs.Address.Key
import OutputIndex.Proofs.Binary.Format
import OutputIndex.Proofs.Bridge.Files
import OutputIndex.Proofs.Cursor
import OutputIndex.Proofs.Cursor.Order
import OutputIndex.Proofs.Index.Accepts
import OutputIndex.Proofs.Index.Atomic
import OutputIndex.Proofs.Index.Bootstrap
import OutputIndex.Proofs.Index.Commits
import OutputIndex.Proofs.Index.Definitions
import OutputIndex.Proofs.Index.Final
import OutputIndex.Proofs.Index.Follow
import OutputIndex.Proofs.Index.Handle
import OutputIndex.Proofs.Index.Import
import OutputIndex.Proofs.Index.Ledger
import OutputIndex.Proofs.Index.Load
import OutputIndex.Proofs.Index.Operations
import OutputIndex.Proofs.Index.Parts
import OutputIndex.Proofs.Index.Reachable
import OutputIndex.Proofs.Index.Redelivery
import OutputIndex.Proofs.Index.References
import OutputIndex.Proofs.Index.Replay
import OutputIndex.Proofs.Index.Residue
import OutputIndex.Proofs.Index.Retry
import OutputIndex.Proofs.Index.Rows
import OutputIndex.Proofs.Index.Settled
import OutputIndex.Proofs.Index.Shared
import OutputIndex.Proofs.Index.Snapshot
import OutputIndex.Proofs.Index.Spends
import OutputIndex.Proofs.Index.Steps
import OutputIndex.Proofs.Json
import OutputIndex.Proofs.Json.Text
import OutputIndex.Proofs.Ledger.Json
import OutputIndex.Proofs.Output
import OutputIndex.Proofs.Output.Json
import OutputIndex.Proofs.Output.Raw
import OutputIndex.Proofs.Query.Answer
import OutputIndex.Proofs.Query.Combined
import OutputIndex.Proofs.Query.Driver
import OutputIndex.Proofs.Query.Found
import OutputIndex.Proofs.Query.Options
import OutputIndex.Proofs.Query.Order
import OutputIndex.Proofs.Query.Pages
import OutputIndex.Proofs.Query.Scan
import OutputIndex.Proofs.Record
import OutputIndex.Proofs.Record.Binary
import OutputIndex.Proofs.Store.Complete
import OutputIndex.Proofs.Store.Exact
import OutputIndex.Proofs.Store.FullScan
import OutputIndex.Proofs.Store.References
import OutputIndex.Proofs.Store.Rows
import OutputIndex.Proofs.Store.Sweep
import OutputIndex.Proofs.Store.Transactions
import OutputIndex.Proofs.Store.Writer
import OutputIndex.Proofs.Table
import OutputIndex.Proofs.Text
import OutputIndex.Query
import OutputIndex.Record
import OutputIndex.Record.Binary
import OutputIndex.Record.Extract
import OutputIndex.Record.Json
import OutputIndex.Record.Summary
import OutputIndex.Sample
import OutputIndex.Settings
import OutputIndex.Settings.Sources
import OutputIndex.Status
import OutputIndex.Store
import OutputIndex.Store.Image
import OutputIndex.Store.Scan
import OutputIndex.Store.Writer
import OutputIndex.Table
import OutputIndex.Text.Utf8
import OutputIndex.Toml.Number
import OutputIndex.Toml.Reader
import OutputIndex.Toml.Text
import OutputIndex.Toml.Time
import OutputIndex.Toml.Tree
