import SchemaLedger.Column.Type
import SchemaLedger.Column.Value
import SchemaLedger.CommandLine
import SchemaLedger.CommandLine.Help
import SchemaLedger.CommandLine.Output
import SchemaLedger.Database
import SchemaLedger.Database.Command
import SchemaLedger.Database.Edit
import SchemaLedger.Database.Storage
import SchemaLedger.Database.Update
import SchemaLedger.Ddl
import SchemaLedger.Digest.Hex
import SchemaLedger.Digest.Sha256
import SchemaLedger.Dump
import SchemaLedger.Dump.Column
import SchemaLedger.Dump.Key
import SchemaLedger.Dump.Notes
import SchemaLedger.Dump.Table
import SchemaLedger.Entity
import SchemaLedger.Entity.Json
import SchemaLedger.Error
import SchemaLedger.Fact
import SchemaLedger.Fact.Decoration
import SchemaLedger.Fact.Delta
import SchemaLedger.Fact.Json
import SchemaLedger.Fact.Ledger
import SchemaLedger.Fact.Notes
import SchemaLedger.Fact.Tree
import SchemaLedger.Identifier
import SchemaLedger.Identifier.Derived
import SchemaLedger.Insert
import SchemaLedger.Json
import SchemaLedger.Json.Debug
import SchemaLedger.Json.Decode
import SchemaLedger.Json.Double
import SchemaLedger.Json.Number
import SchemaLedger.Json.Outline
import SchemaLedger.Json.Reader
import SchemaLedger.Json.Token
import SchemaLedger.Lowering
import SchemaLedger.Lowering.Notes
import SchemaLedger.Main
import SchemaLedger.Note
import SchemaLedger.Proofs.Column.Literal
import SchemaLedger.Proofs.Column.Value
import SchemaLedger.Proofs.Database.Alteration
import SchemaLedger.Proofs.Database.Ancestry
import SchemaLedger.Proofs.Database.Coherent
import SchemaLedger.Proofs.Database.Command
import SchemaLedger.Proofs.Database.Creation
import SchemaLedger.Proofs.Database.Described
import SchemaLedger.Proofs.Database.Duplicate
import SchemaLedger.Proofs.Database.Edit
import SchemaLedger.Proofs.Database.Extension
import SchemaLedger.Proofs.Database.Fitting
import SchemaLedger.Proofs.Database.Grounded
import SchemaLedger.Proofs.Database.IndexStatement
import SchemaLedger.Proofs.Database.Indexing
import SchemaLedger.Proofs.Database.Keyed
import SchemaLedger.Proofs.Database.Meaning
import SchemaLedger.Proofs.Database.Redump
import SchemaLedger.Proofs.Database.Removal
import SchemaLedger.Proofs.Database.Renaming
import SchemaLedger.Proofs.Database.Replay
import SchemaLedger.Proofs.Database.Restorable
import SchemaLedger.Proofs.Database.Rooted
import SchemaLedger.Proofs.Database.Rows
import SchemaLedger.Proofs.Database.Sound
import SchemaLedger.Proofs.Database.Step
import SchemaLedger.Proofs.Database.Storage
import SchemaLedger.Proofs.Database.Written
import SchemaLedger.Proofs.Dump
import SchemaLedger.Proofs.Dump.Again
import SchemaLedger.Proofs.Dump.Body
import SchemaLedger.Proofs.Dump.Coherent
import SchemaLedger.Proofs.Dump.Column
import SchemaLedger.Proofs.Dump.ColumnText
import SchemaLedger.Proofs.Dump.Dangling
import SchemaLedger.Proofs.Dump.Index
import SchemaLedger.Proofs.Dump.Key
import SchemaLedger.Proofs.Dump.Order
import SchemaLedger.Proofs.Dump.Own
import SchemaLedger.Proofs.Dump.Parents
import SchemaLedger.Proofs.Dump.Refusal
import SchemaLedger.Proofs.Dump.Sound
import SchemaLedger.Proofs.Dump.Split
import SchemaLedger.Proofs.Dump.Storable
import SchemaLedger.Proofs.Dump.Table
import SchemaLedger.Proofs.Fact.Decoration
import SchemaLedger.Proofs.Fact.Frame
import SchemaLedger.Proofs.Fact.Tree
import SchemaLedger.Proofs.Failing
import SchemaLedger.Proofs.FiniteMap
import SchemaLedger.Proofs.Identifier
import SchemaLedger.Proofs.Identifier.Collision
import SchemaLedger.Proofs.Identifier.Derived
import SchemaLedger.Proofs.Identifier.IndexName
import SchemaLedger.Proofs.Insert
import SchemaLedger.Proofs.Json
import SchemaLedger.Proofs.Json.Decode
import SchemaLedger.Proofs.Json.Number
import SchemaLedger.Proofs.Lowering.Alteration
import SchemaLedger.Proofs.Lowering.AutoIncrement
import SchemaLedger.Proofs.Lowering.CreateTable
import SchemaLedger.Proofs.Lowering.Draft
import SchemaLedger.Proofs.Lowering.Expressible
import SchemaLedger.Proofs.Lowering.Meaning
import SchemaLedger.Proofs.Lowering.Mirror
import SchemaLedger.Proofs.Lowering.Names
import SchemaLedger.Proofs.Lowering.Position
import SchemaLedger.Proofs.Lowering.Table
import SchemaLedger.Proofs.Lowering.Touched
import SchemaLedger.Proofs.Lowering.Unique
import SchemaLedger.Proofs.Program
import SchemaLedger.Proofs.Reconciliation.Cycle
import SchemaLedger.Proofs.Reconciliation.Delta
import SchemaLedger.Proofs.Reconciliation.Desired
import SchemaLedger.Proofs.Reconciliation.Diff
import SchemaLedger.Proofs.Reconciliation.Program
import SchemaLedger.Proofs.Reconciliation.Recorded
import SchemaLedger.Proofs.Reconciliation.Rows
import SchemaLedger.Proofs.Reconciliation.SideTable
import SchemaLedger.Proofs.Reconciliation.Stored
import SchemaLedger.Proofs.RoundTrip
import SchemaLedger.Proofs.Statement.Json
import SchemaLedger.Proofs.Surrogate
import SchemaLedger.Proofs.Synchronization.Again
import SchemaLedger.Proofs.Synchronization.Backed
import SchemaLedger.Proofs.Synchronization.Batch
import SchemaLedger.Proofs.Synchronization.Cache
import SchemaLedger.Proofs.Synchronization.Decorated
import SchemaLedger.Proofs.Synchronization.Direct
import SchemaLedger.Proofs.Synchronization.DryRun
import SchemaLedger.Proofs.Synchronization.Entities
import SchemaLedger.Proofs.Synchronization.Following
import SchemaLedger.Proofs.Synchronization.NewTable
import SchemaLedger.Proofs.Synchronization.Prediction
import SchemaLedger.Proofs.Synchronization.Reload
import SchemaLedger.Proofs.Synchronization.Settled
import SchemaLedger.Proofs.Synchronization.Skipped
import SchemaLedger.Proofs.Synchronization.Stale
import SchemaLedger.Proofs.Synchronization.Tolerance
import SchemaLedger.Proofs.Table
import SchemaLedger.Proofs.Table.Difference
import SchemaLedger.Proofs.Text.Backticks
import SchemaLedger.Proofs.Text.Lines
import SchemaLedger.Proofs.Text.Nesting
import SchemaLedger.Proofs.Text.Parts
import SchemaLedger.Proofs.Text.RunOn
import SchemaLedger.Proofs.Text.Scanning
import SchemaLedger.Proofs.Text.Shifting
import SchemaLedger.Proofs.Text.Splitting
import SchemaLedger.Reconciliation
import SchemaLedger.Statement
import SchemaLedger.Statement.Json
import SchemaLedger.Surrogate
import SchemaLedger.Synchronization
import SchemaLedger.Table
import SchemaLedger.Table.Difference
import SchemaLedger.Table.Json
import SchemaLedger.Text.Blank
import SchemaLedger.Text.Quotation
import SchemaLedger.Text.Scanner
import SchemaLedger.Text.Spelled
import SchemaLedger.Text.Terminal
import SchemaLedger.Text.WordChar
