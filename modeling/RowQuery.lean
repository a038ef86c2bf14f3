import RowQuery.Codec.Catalog
import RowQuery.Digest.Blake3
import RowQuery.Document.Shape
import RowQuery.Engine.Config
import RowQuery.Engine.Ids
import RowQuery.Engine.Jobs
import RowQuery.Engine.Pool
import RowQuery.Engine.ResultSets
import RowQuery.Engine.RunError
import RowQuery.Engine.Tokens
import RowQuery.Engine.Workspace
import RowQuery.Json.Reader
import RowQuery.Number.Arithmetic
import RowQuery.Number.Layout
import RowQuery.Number.Numeral
import RowQuery.Pipeline.Basic
import RowQuery.Pipeline.Collect
import RowQuery.Pipeline.Persist
import RowQuery.Pipeline.Run
import RowQuery.Pipeline.Segment
import RowQuery.Pipeline.Stage
import RowQuery.Query.Basic
import RowQuery.Query.Document
import RowQuery.Query.Execute
import RowQuery.Query.PartFile
import RowQuery.Query.Plan
import RowQuery.Query.QueryError
import RowQuery.Query.Yaml
import RowQuery.Row
import RowQuery.Sorting
import RowQuery.Store
import RowQuery.Store.FileTree
import RowQuery.Store.Memory
import RowQuery.Store.Path
import RowQuery.Term.Eval
import RowQuery.Text.Blank
import RowQuery.Text.Bytes
import RowQuery.Text.Case
import RowQuery.Value.Json
import RowQuery.Yaml.Cursor
import RowQuery.Yaml.Node
import RowQuery.Yaml.Resolve
import RowQuery.Yaml.ScalarText
import RowQuery.Yaml.Token
import RowQuery.Proofs.Codec.Columns
import RowQuery.Proofs.Codec.Concatenation
import RowQuery.Proofs.Codec.Csv
import RowQuery.Proofs.Codec.Jsonl
import RowQuery.Proofs.Codec.Records
import RowQuery.Proofs.Document.Fields
import RowQuery.Proofs.Engine.Handles
import RowQuery.Proofs.Engine.Ids
import RowQuery.Proofs.Engine.Location
import RowQuery.Proofs.Engine.OwnCells
import RowQuery.Proofs.Engine.ResultSets
import RowQuery.Proofs.Engine.Tokens
import RowQuery.Proofs.Json.Blanks
import RowQuery.Proofs.Json.Number
import RowQuery.Proofs.Json.OneLine
import RowQuery.Proofs.Json.RoundTrip
import RowQuery.Proofs.Json.Steps
import RowQuery.Proofs.Number.Digits
import RowQuery.Proofs.Number.Nearest
import RowQuery.Proofs.Number.Rounding
import RowQuery.Proofs.Outcome
import RowQuery.Proofs.Pipeline.Account
import RowQuery.Proofs.Pipeline.Collect
import RowQuery.Proofs.Pipeline.DistinctRows
import RowQuery.Proofs.Pipeline.Layout
import RowQuery.Proofs.Pipeline.Load
import RowQuery.Proofs.Pipeline.PartWise
import RowQuery.Proofs.Pipeline.Persist
import RowQuery.Proofs.Pipeline.Reads
import RowQuery.Proofs.Pipeline.Segment
import RowQuery.Proofs.Pipeline.SortCommutes
import RowQuery.Proofs.Pipeline.SortRows
import RowQuery.Proofs.Pipeline.Unpartitioned
import RowQuery.Proofs.Pipeline.Visits
import RowQuery.Proofs.Pipeline.Workers
import RowQuery.Proofs.Query.Answer
import RowQuery.Proofs.Query.Calls
import RowQuery.Proofs.Query.Destination
import RowQuery.Proofs.Query.Files
import RowQuery.Proofs.Query.Folder
import RowQuery.Proofs.Query.Interleaving
import RowQuery.Proofs.Query.ObjectPaths
import RowQuery.Proofs.Query.PartFile
import RowQuery.Proofs.Query.PartJob
import RowQuery.Proofs.Query.Projection
import RowQuery.Proofs.Query.Session
import RowQuery.Proofs.Query.SharedStore
import RowQuery.Proofs.Query.Shares
import RowQuery.Proofs.Query.Spared
import RowQuery.Proofs.Query.Where
import RowQuery.Proofs.Query.Written
import RowQuery.Proofs.Row
import RowQuery.Proofs.Sorting
import RowQuery.Proofs.Sorting.Merging
import RowQuery.Proofs.Sorting.Pieces
import RowQuery.Proofs.Sorting.Quicksort
import RowQuery.Proofs.Sorting.Runs
import RowQuery.Proofs.Splits
import RowQuery.Proofs.Store.Changes
import RowQuery.Proofs.Store.Combining
import RowQuery.Proofs.Store.Directories
import RowQuery.Proofs.Store.Files
import RowQuery.Proofs.Store.Hierarchy
import RowQuery.Proofs.Store.Names
import RowQuery.Proofs.Store.Objects
import RowQuery.Proofs.Store.Operations
import RowQuery.Proofs.Store.Places
import RowQuery.Proofs.Store.Walk
import RowQuery.Proofs.Store.Writers
import RowQuery.Proofs.Term.Checking
import RowQuery.Proofs.Term.ColumnNames
import RowQuery.Proofs.Term.Columns
import RowQuery.Proofs.Term.Comparison
import RowQuery.Proofs.Term.Compiled
import RowQuery.Proofs.Term.Division
import RowQuery.Proofs.Term.Integers
import RowQuery.Proofs.Term.Logic
import RowQuery.Proofs.Term.Nulls
import RowQuery.Proofs.Term.Written
import RowQuery.Proofs.Text.Bytes
import RowQuery.Proofs.Value.Cell
import RowQuery.Proofs.Value.Hashing
import RowQuery.Proofs.Value.Order
import RowQuery.Proofs.Value.Plain
import RowQuery.Proofs.Value.SortOrder
import RowQuery.Proofs.Value.Tagged
