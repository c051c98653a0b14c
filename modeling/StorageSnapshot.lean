import StorageSnapshot.Ast.Index
import StorageSnapshot.Ast.Node
import StorageSnapshot.Ast.TypeName
import StorageSnapshot.Bytes
import StorageSnapshot.Check
import StorageSnapshot.CommandLine
import StorageSnapshot.Cursor
import StorageSnapshot.Datum.Basic
import StorageSnapshot.Datum.Convert
import StorageSnapshot.Datum.Display
import StorageSnapshot.Decode.MappingPath
import StorageSnapshot.Decode.Packed
import StorageSnapshot.Decode.Value
import StorageSnapshot.Double.Basic
import StorageSnapshot.Double.Text
import StorageSnapshot.Dump
import StorageSnapshot.Fault
import StorageSnapshot.Files
import StorageSnapshot.Json.Json5
import StorageSnapshot.Json.Printer
import StorageSnapshot.Json.Reader
import StorageSnapshot.Json.Strict
import StorageSnapshot.Keccak
import StorageSnapshot.Key
import StorageSnapshot.Layout
import StorageSnapshot.Limits
import StorageSnapshot.Logging
import StorageSnapshot.Main
import StorageSnapshot.Options.Basic
import StorageSnapshot.Options.Merge
import StorageSnapshot.Options.Reserved
import StorageSnapshot.Proofs.AbortReport
import StorageSnapshot.Proofs.Aborts
import StorageSnapshot.Proofs.AddedOption
import StorageSnapshot.Proofs.Arguments
import StorageSnapshot.Proofs.Array
import StorageSnapshot.Proofs.Attached
import StorageSnapshot.Proofs.Bounds
import StorageSnapshot.Proofs.Bytes
import StorageSnapshot.Proofs.DatumEq
import StorageSnapshot.Proofs.Depth
import StorageSnapshot.Proofs.DumpOption
import StorageSnapshot.Proofs.Encoding
import StorageSnapshot.Proofs.ExpectedDump
import StorageSnapshot.Proofs.Failure
import StorageSnapshot.Proofs.Files
import StorageSnapshot.Proofs.Footprint
import StorageSnapshot.Proofs.HashedSnapshot
import StorageSnapshot.Proofs.Headers
import StorageSnapshot.Proofs.HexText
import StorageSnapshot.Proofs.Indexed
import StorageSnapshot.Proofs.Integers
import StorageSnapshot.Proofs.KeyTexts
import StorageSnapshot.Proofs.KeyWords
import StorageSnapshot.Proofs.Limits
import StorageSnapshot.Proofs.LogSession
import StorageSnapshot.Proofs.MappingPath
import StorageSnapshot.Proofs.Marks
import StorageSnapshot.Proofs.MergedOption
import StorageSnapshot.Proofs.Merging
import StorageSnapshot.Proofs.MidWord
import StorageSnapshot.Proofs.Moves
import StorageSnapshot.Proofs.NextPlace
import StorageSnapshot.Proofs.OneFile
import StorageSnapshot.Proofs.Outcome
import StorageSnapshot.Proofs.Packed
import StorageSnapshot.Proofs.Packing
import StorageSnapshot.Proofs.Reached
import StorageSnapshot.Proofs.Reading
import StorageSnapshot.Proofs.Recursion
import StorageSnapshot.Proofs.Resolution
import StorageSnapshot.Proofs.RoundTrip
import StorageSnapshot.Proofs.Rows
import StorageSnapshot.Proofs.Safety
import StorageSnapshot.Proofs.Silence
import StorageSnapshot.Proofs.Spelling
import StorageSnapshot.Proofs.Store
import StorageSnapshot.Proofs.Struct
import StorageSnapshot.Proofs.Utf8
import StorageSnapshot.Proofs.ValueTypes
import StorageSnapshot.Proofs.Variables
import StorageSnapshot.Proofs.WellFormed
import StorageSnapshot.Report.Cell
import StorageSnapshot.Report.Request
import StorageSnapshot.Report.Row
import StorageSnapshot.Report.Table
import StorageSnapshot.Resolver
import StorageSnapshot.Run
import StorageSnapshot.Slot
import StorageSnapshot.Store
import StorageSnapshot.Text.Blank
import StorageSnapshot.Text.CharClass
import StorageSnapshot.Text.CodePoint
import StorageSnapshot.Text.Escape
import StorageSnapshot.Text.Letter
import StorageSnapshot.Text.Numeral
import StorageSnapshot.Text.Printable
import StorageSnapshot.Text.Quoted
import StorageSnapshot.Text.Utf8
import StorageSnapshot.Trace
import StorageSnapshot.Ty.Basic
import StorageSnapshot.Ty.Describe
import StorageSnapshot.Ty.Elementary
import StorageSnapshot.Ty.Keyword
import StorageSnapshot.Value.Basic
import StorageSnapshot.Value.Text
import StorageSnapshot.Proofs.DumpWords
import StorageSnapshot.Proofs.Conversions
import StorageSnapshot.Proofs.KeyKinds
import StorageSnapshot.Proofs.MergeOutcome
import StorageSnapshot.Proofs.TypeExpr
import StorageSnapshot.Proofs.TypeNames
import StorageSnapshot.Proofs.Spans
import StorageSnapshot.Proofs.WordTexts
import StorageSnapshot.Proofs.Requests
