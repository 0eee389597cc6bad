import Columnar.Failure
import Columnar.Layout
import Columnar.Column
import Columnar.Text.Utf8
import Columnar.Capacity
import Columnar.Memo
import Columnar.Kernel
import Columnar.Distinct
import Columnar.Merge
import Columnar.Sample
import Columnar.Number.Read
import Columnar.Toml.Document
import Columnar.Config
import Columnar.Arguments
import Columnar.Calendar
import Columnar.Cell
import Columnar.OffsetTree.Check
import Columnar.ColumnFile.Footer
import Columnar.ColumnFile
import Columnar.FileStore
import Columnar.Session
import Columnar.Main
import Columnar.Proofs.Merge.Runs
import Columnar.Proofs.Merge.Partition
import Columnar.Proofs.Layout.Order
import Columnar.Proofs.Merge.Ascending
import Columnar.Proofs.Merge.Concat
import Columnar.Proofs.Distinct.Counts
import Columnar.Proofs.Distinct.Encode
import Columnar.Proofs.Trace
import Columnar.Proofs.Text.Boundaries
import Columnar.Proofs.Memo.Requests
import Columnar.Proofs.Kernel.Calls
import Columnar.Proofs.Kernel.Counting
import Columnar.Proofs.Kernel.Counts
import Columnar.Proofs.Kernel.KeyAccount
import Columnar.Proofs.Kernel.Reset
import Columnar.Proofs.Kernel.Concat
import Columnar.Proofs.Kernel.Clients
import Columnar.Proofs.Kernel.Nulls
import Columnar.Proofs.Kernel.Refused
import Columnar.Proofs.Distinct.Groups
import Columnar.Proofs.Distinct.Blocks
import Columnar.Proofs.Distinct.Ends
import Columnar.Proofs.Memo.Text
import Columnar.Proofs.Layout.TotalOrder
import Columnar.Proofs.Merge.Compare
import Columnar.Proofs.Distinct.Rechunk
import Columnar.Proofs.Session.Reading
import Columnar.Proofs.Session.Batches
import Columnar.Proofs.Merge.Packed
import Columnar.Proofs.Merge.Ends
import Columnar.Proofs.Column.Chunks
import Columnar.Proofs.Distinct.Whole
import Columnar.Proofs.Sample.Variety
import Columnar.Proofs.Kernel.Room
import Columnar.Proofs.Merge.InPlace
import Columnar.Proofs.Arguments.Spellings
import Columnar.Proofs.Config.Override
import Columnar.Proofs.Tally.Observations
import Columnar.Proofs.Merge.Filling
