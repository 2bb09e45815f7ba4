import LoxLexer.Binary64.Basic
import LoxLexer.Binary64.Value
import LoxLexer.Command.Directory
import LoxLexer.Command.Report
import LoxLexer.Command.Request
import LoxLexer.Command.Run
import LoxLexer.Command.Session
import LoxLexer.Diagnostic
import LoxLexer.Event.Basic
import LoxLexer.Event.Filter
import LoxLexer.Event.Pattern
import LoxLexer.Event.Scan
import LoxLexer.Listing
import LoxLexer.Main
import LoxLexer.Proofs.Alphabet
import LoxLexer.Proofs.Binary64.Bits
import LoxLexer.Proofs.Binary64.Nearest
import LoxLexer.Proofs.Binary64.Rounding
import LoxLexer.Proofs.Binary64.Shortest
import LoxLexer.Proofs.Command.Agreement
import LoxLexer.Proofs.Command.Argument
import LoxLexer.Proofs.Command.File
import LoxLexer.Proofs.Command.Logging
import LoxLexer.Proofs.Command.Report
import LoxLexer.Proofs.Command.Request
import LoxLexer.Proofs.Command.Session
import LoxLexer.Proofs.Cursor.Bytes
import LoxLexer.Proofs.Cursor.Loops
import LoxLexer.Proofs.Cursor.Restart
import LoxLexer.Proofs.Cursor.Run
import LoxLexer.Proofs.Cursor.Safety
import LoxLexer.Proofs.Cursor.Step
import LoxLexer.Proofs.Decimal
import LoxLexer.Proofs.Event.Scan
import LoxLexer.Proofs.Listing.Decoding
import LoxLexer.Proofs.Listing.Lines
import LoxLexer.Proofs.Scan.ByLine
import LoxLexer.Proofs.Scan.Composition
import LoxLexer.Proofs.Scan.Concatenation
import LoxLexer.Proofs.Scan.Diagnosis
import LoxLexer.Proofs.Scan.Image
import LoxLexer.Proofs.Scan.Layout
import LoxLexer.Proofs.Scan.LineEnd
import LoxLexer.Proofs.Scan.MaximalMunch
import LoxLexer.Proofs.Scan.Reading
import LoxLexer.Proofs.Scan.Repair
import LoxLexer.Proofs.Scan.Spans
import LoxLexer.Proofs.Scan.Stability
import LoxLexer.Proofs.Scan.StringBody
import LoxLexer.Proofs.Scan.Trimming
import LoxLexer.Proofs.Segment.Boundary
import LoxLexer.Proofs.Segment.Row
import LoxLexer.Proofs.Text.Cut
import LoxLexer.Proofs.Token.Adjacency
import LoxLexer.Proofs.Token.Equality
import LoxLexer.Proofs.Token.Number
import LoxLexer.Proofs.Token.WellFormed
import LoxLexer.Scan
import LoxLexer.Scan.Cursor
import LoxLexer.Scan.Diagnosis
import LoxLexer.Scan.Edit
import LoxLexer.Segment.Basic
import LoxLexer.Segment.Cut
import LoxLexer.Segment.Grammar
import LoxLexer.Text.Cut
import LoxLexer.Text.Unicode
import LoxLexer.Token.Basic
import LoxLexer.Token.WellFormed
