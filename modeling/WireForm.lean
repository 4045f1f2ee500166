import WireForm.Binary64
import WireForm.Binary64.Shortest
import WireForm.Command
import WireForm.Command.Arguments
import WireForm.Command.Help
import WireForm.Command.Report
import WireForm.Document
import WireForm.Error
import WireForm.Folder
import WireForm.Inflater
import WireForm.Json.Fault
import WireForm.Json.NumberReader
import WireForm.Json.Reader
import WireForm.Json.Reading
import WireForm.Json.StringReader
import WireForm.Json.Writer
import WireForm.Kind
import WireForm.Main
import WireForm.Number
import WireForm.Proofs.Binary64.Rounding
import WireForm.Proofs.Binary64.Scaling
import WireForm.Proofs.Binary64.Shortest
import WireForm.Proofs.Binary64.Written
import WireForm.Proofs.Command.Arguments
import WireForm.Proofs.Command.DecodeReport
import WireForm.Proofs.Command.Discriminator
import WireForm.Proofs.Command.Flags
import WireForm.Proofs.Command.Help
import WireForm.Proofs.Command.JsonReport
import WireForm.Proofs.Command.ListedKeys
import WireForm.Proofs.Command.Outcomes
import WireForm.Proofs.Command.PrintedForm
import WireForm.Proofs.Command.Rearrangement
import WireForm.Proofs.Command.Requests
import WireForm.Proofs.Command.Runs
import WireForm.Proofs.Document.Load
import WireForm.Proofs.Document.SizeLimit
import WireForm.Proofs.Document.Transparency
import WireForm.Proofs.Json.Accepted
import WireForm.Proofs.Json.Denoted
import WireForm.Proofs.Json.Depth
import WireForm.Proofs.Json.FloatReadBack
import WireForm.Proofs.Json.Layout
import WireForm.Proofs.Json.LayoutBytes
import WireForm.Proofs.Json.Members
import WireForm.Proofs.Json.NumberReadBack
import WireForm.Proofs.Json.NumberSize
import WireForm.Proofs.Json.NumberText
import WireForm.Proofs.Json.NumeralValues
import WireForm.Proofs.Json.Numerals
import WireForm.Proofs.Json.Printable
import WireForm.Proofs.Json.ReadBack
import WireForm.Proofs.Json.ReadSteps
import WireForm.Proofs.Json.Reread
import WireForm.Proofs.Json.Rereadable
import WireForm.Proofs.Json.StringReadBack
import WireForm.Proofs.Outcome
import WireForm.Proofs.Record.Admitted
import WireForm.Proofs.Record.Chain
import WireForm.Proofs.Record.Dispatch
import WireForm.Proofs.Record.DistinctKeys
import WireForm.Proofs.Record.Equality
import WireForm.Proofs.Record.Faithful
import WireForm.Proofs.Record.Faults
import WireForm.Proofs.Record.Grammar
import WireForm.Proofs.Record.PointStored
import WireForm.Proofs.Record.RoundTrip
import WireForm.Proofs.Record.Sentinel
import WireForm.Proofs.Record.Views
import WireForm.Proofs.Text.Utf8
import WireForm.Proofs.Value.Condensed
import WireForm.Proofs.Value.Equality
import WireForm.Proofs.Value.Parts
import WireForm.Record
import WireForm.Record.Data
import WireForm.Record.Point
import WireForm.Record.Slots
import WireForm.Record.Variant
import WireForm.Record.Wrapper
import WireForm.Tag
import WireForm.Text.Hidden
import WireForm.Text.Quoted
import WireForm.Text.Utf8
import WireForm.Trace
import WireForm.Value
import WireForm.Zstd.Bits
import WireForm.Zstd.Block
import WireForm.Zstd.Checksum
import WireForm.Zstd.Content
import WireForm.Zstd.Defect
import WireForm.Zstd.Delivery
import WireForm.Zstd.Frame
import WireForm.Zstd.FrameHeader
import WireForm.Zstd.Literals
import WireForm.Zstd.PrefixCode
import WireForm.Zstd.Sequences
import WireForm.Zstd.StateTable
