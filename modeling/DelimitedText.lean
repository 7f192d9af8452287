import DelimitedText.Text.Unprintable
import DelimitedText.Text.Quoted
import DelimitedText.Text.Utf8
import DelimitedText.Error
import DelimitedText.Notice
import DelimitedText.Options
import DelimitedText.Line.Format
import DelimitedText.Line.Scanner
import DelimitedText.Line.Split
import DelimitedText.Schema
import DelimitedText.Number.Integer
import DelimitedText.Number.Binary
import DelimitedText.Number.Decimal
import DelimitedText.Number.Float
import DelimitedText.Value.Basic
import DelimitedText.Value.Fields
import DelimitedText.Shape.Basic
import DelimitedText.Shape.Read
import DelimitedText.Stream.Source
import DelimitedText.Stream.Reader
import DelimitedText.Stream.Sink
import DelimitedText.Stream.Writer
import DelimitedText.Typed
import DelimitedText.Timestamp
import DelimitedText.Sample
import DelimitedText.Proofs.Run
import DelimitedText.Proofs.Literal
import DelimitedText.Proofs.Field
import DelimitedText.Proofs.Cell
import DelimitedText.Proofs.RoundTrip
import DelimitedText.Proofs.Grammar
import DelimitedText.Proofs.Reformat
import DelimitedText.Proofs.Utf8
import DelimitedText.Proofs.PhysicalLine
import DelimitedText.Proofs.Reading
import DelimitedText.Proofs.FirstRecord
import DelimitedText.Proofs.LineShift
import DelimitedText.Proofs.Resume
import DelimitedText.Proofs.Chunking
import DelimitedText.Proofs.Calls
import DelimitedText.Proofs.PolicyChange
import DelimitedText.Proofs.Writing
import DelimitedText.Proofs.WriteRead
import DelimitedText.Proofs.Terminators
import DelimitedText.Proofs.FieldTexts
import DelimitedText.Proofs.FixedArity
import DelimitedText.Proofs.FlatType
import DelimitedText.Proofs.TypedStream
import DelimitedText.Proofs.Delivery
import DelimitedText.Proofs.Header
import DelimitedText.Proofs.LineNumber
import DelimitedText.Proofs.Interruption
import DelimitedText.Proofs.BeforeFailure
import DelimitedText.Proofs.FailedRead
import DelimitedText.Proofs.Pause
import DelimitedText.Proofs.OptionalRecord
import DelimitedText.Proofs.ReadAgain
import DelimitedText.Proofs.DeadEnd
import DelimitedText.Proofs.OpenQuote
import DelimitedText.Proofs.Quoting
import DelimitedText.Proofs.SampleLine
import DelimitedText.Proofs.Progress
import DelimitedText.Proofs.ScannerState
