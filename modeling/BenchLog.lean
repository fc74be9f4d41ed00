import BenchLog.Axis
import BenchLog.CommandLine
import BenchLog.Config.Load
import BenchLog.Main
import BenchLog.Mining.Cursor
import BenchLog.Section
import BenchLog.Table.Indexed
import BenchLog.Proofs.Axis
import BenchLog.Proofs.Text.Piece
import BenchLog.Proofs.Section.Openings
import BenchLog.Proofs.Section.Concatenation
import BenchLog.Proofs.Table.Rows
import BenchLog.Proofs.Table.View
import BenchLog.Proofs.Table.Absorb
import BenchLog.Proofs.Table.History
import BenchLog.Proofs.Table.Pattern
import BenchLog.Proofs.Table.Keys
import BenchLog.Proofs.Mining.Syscall
import BenchLog.Proofs.Mining.Entries
import BenchLog.Proofs.Mining.Declare
import BenchLog.Proofs.Mining.Cells
import BenchLog.Proofs.Mining.Merge
import BenchLog.Proofs.Mining.InStep
import BenchLog.Proofs.Mining.Outline
import BenchLog.Proofs.Mining.Summary
import BenchLog.Proofs.Section.Positions
import BenchLog.Proofs.Mining.Records
import BenchLog.Proofs.Mining.Searches
import BenchLog.Proofs.Mining.Steps
import BenchLog.Proofs.Files.Changes
import BenchLog.Proofs.Files.Directories
import BenchLog.Proofs.Files.Fault
import BenchLog.Proofs.Files.Suffix
import BenchLog.Proofs.Job.Reading
import BenchLog.Proofs.Job.Effect
import BenchLog.Proofs.Job.Batch
import BenchLog.Proofs.Mining.Concatenation
import BenchLog.Proofs.Record.Keyword
import BenchLog.Proofs.Table.Csv
import BenchLog.Proofs.Table.Indexed
import BenchLog.Proofs.Decimal.Numeral
import BenchLog.Proofs.Record.Counter
import BenchLog.Proofs.Mining.Delimiters
import BenchLog.Proofs.Selection
import BenchLog.Proofs.Rate
import BenchLog.Proofs.Mining.SecondHighest
import BenchLog.Proofs.Mining.Grouping
import BenchLog.Proofs.Selection.Real
import BenchLog.Proofs.Selection.Middle
import BenchLog.Proofs.Mining.Rows
import BenchLog.Proofs.Text.Utf8
import BenchLog.Proofs.Text.Lines
import BenchLog.Proofs.Mining.Cursor
import BenchLog.Proofs.Mining.Locality
import BenchLog.Proofs.Mining.SearchBounds
import BenchLog.Proofs.Record.Measurement
import BenchLog.Proofs.Files.Name
import BenchLog.Proofs.Job.LogSpec
import BenchLog.Proofs.Config.Word
import BenchLog.Proofs.Config.Override
import BenchLog.Proofs.Config.Load
