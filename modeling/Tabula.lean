import Tabula.Number.Binary64
import Tabula.Number.Decimal
import Tabula.Text.Blank
import Tabula.Text.Digit
import Tabula.Text.Printable
import Tabula.Text.Case
import Tabula.Number.Reading
import Tabula.Text.Quoted
import Tabula.Value
import Tabula.Value.Display
import Tabula.Json.Reader
import Tabula.Json.Nesting
import Tabula.Json.Writer
import Tabula.Cell
import Tabula.Query.Filter
import Tabula.Query.Plan
import Tabula.Ingest.Batch
import Tabula.Time.Moment
import Tabula.Store.Clause
import Tabula.Store.Rows
import Tabula.Ingest.Job
import Tabula.Text.Shorten
import Tabula.Time.Timestamp
import Tabula.Ingest.Checkpoint
import Tabula.Ingest.Path
import Tabula.Ingest.Saving
import Tabula.Ingest.Ledger
import Tabula.Store.Database
import Tabula.Catalog
import Tabula.RowStore
import Tabula.Turns
import Tabula.Value.Conversion
import Tabula.Workspace.Columns
import Tabula.Workspace.Rows
import Tabula.Workspace.Views
import Tabula.Workspace.Conditions
import Tabula.Ingest.Descriptor
import Tabula.Ingest.Source
import Tabula.Ingest.Jobs
import Tabula.Ingest.Request
import Tabula.Ingest.Run
import Tabula.Ingest.Worker
import Tabula.Ingest.Outage
import Tabula.Config.Settings
import Tabula.Ingest.Timer
import Tabula.Config.Address
import Tabula.Config.Substitution
import Tabula.Config.Logging
import Tabula.Text.Percent
import Tabula.Web.Request
import Tabula.Web.Resource
import Tabula.Web.Service
import Tabula.Cli.Command
import Tabula.Config.Yaml.Node
import Tabula.Config.Yaml.Cursor
import Tabula.Config.Yaml.Document
import Tabula.Config.Loading
import Tabula.Main
import Tabula.Proofs.Actions
import Tabula.Proofs.Batches
import Tabula.Proofs.Wildcards
import Tabula.Proofs.RowIds
import Tabula.Proofs.Appending
import Tabula.Proofs.JobLedger
import Tabula.Proofs.Readback
import Tabula.Proofs.CheckpointFiles
import Tabula.Proofs.CheckpointHistories
import Tabula.Proofs.CheckpointPaths
import Tabula.Proofs.Flight
import Tabula.Proofs.Accounts
import Tabula.Proofs.RunEnds
import Tabula.Proofs.Attempts
import Tabula.Proofs.Completion
import Tabula.Proofs.Resumption
import Tabula.Proofs.BatchSizes
import Tabula.Proofs.Sequential
import Tabula.Proofs.Interruptions
import Tabula.Proofs.Durability
import Tabula.Proofs.FloatOrder
import Tabula.Proofs.Lifecycle
import Tabula.Proofs.StoredCells
import Tabula.Proofs.WeakOrder
import Tabula.Proofs.Ranking
import Tabula.Proofs.TruthValues
import Tabula.Proofs.Filtering
import Tabula.Proofs.KeySorting
import Tabula.Proofs.AlikeRows
import Tabula.Proofs.Sorting
import Tabula.Proofs.Containment
import Tabula.Proofs.Effects
import Tabula.Proofs.Retyping
import Tabula.Proofs.Ingesting
import Tabula.Proofs.StoredViews
import Tabula.Proofs.Changes
import Tabula.Proofs.Operations
import Tabula.Proofs.OwnTables
import Tabula.Proofs.Integrity
import Tabula.Proofs.CellTypes
import Tabula.Proofs.ViewPlans
import Tabula.Proofs.Refusals
import Tabula.Proofs.Confluence
import Tabula.Proofs.JobQueue
import Tabula.Proofs.Draining
import Tabula.Proofs.Ownership
import Tabula.Proofs.Edits
import Tabula.Proofs.TwoRuns
import Tabula.Proofs.Answers
import Tabula.Proofs.NewRecords
import Tabula.Proofs.OwnChanges
import Tabula.Proofs.JobIds
import Tabula.Proofs.Isolation
import Tabula.Proofs.SavedViews
import Tabula.Proofs.StoredValues
import Tabula.Proofs.Races
import Tabula.Proofs.Outages
import Tabula.Proofs.Rounding
import Tabula.Proofs.ShortestDigits
import Tabula.Proofs.NumberTexts
import Tabula.Proofs.JsonTexts
import Tabula.Proofs.NestedValues
import Tabula.Proofs.DamagedCheckpoints
import Tabula.Proofs.RowBatches
import Tabula.Proofs.Inheritance
import Tabula.Proofs.Stamps
import Tabula.Proofs.LooseIds
import Tabula.Proofs.Insertion
import Tabula.Proofs.Additions
import Tabula.Proofs.InsertedRows
import Tabula.Proofs.Names
import Tabula.Proofs.Positions
import Tabula.Proofs.Searching
import Tabula.Proofs.JobRowCounts
import Tabula.Proofs.IntegerFilters
import Tabula.Proofs.IntegerTexts
import Tabula.Proofs.KeyRemoval
import Tabula.Proofs.Trichotomy
import Tabula.Proofs.QueryForms
import Tabula.Proofs.Compilation
import Tabula.Proofs.Pages
import Tabula.Proofs.References
import Tabula.Proofs.Tiling
import Tabula.Proofs.Draws
import Tabula.Proofs.SyntheticRows
import Tabula.Proofs.Coercion
