import LyqlHighlight.Descriptor
import LyqlHighlight.Editor.Basic
import LyqlHighlight.Editor.Document
import LyqlHighlight.Editor.Operations
import LyqlHighlight.Editor.Setting
import LyqlHighlight.Lexical.Alphabet
import LyqlHighlight.Lexical.Piece
import LyqlHighlight.Lexical.Program
import LyqlHighlight.Lexical.Scan
import LyqlHighlight.Lexical.Word
import LyqlHighlight.Node
import LyqlHighlight.Node.Reading
import LyqlHighlight.Number.Binary64
import LyqlHighlight.Number.Shortest
import LyqlHighlight.Options
import LyqlHighlight.Paint.Block
import LyqlHighlight.Paint.Format
import LyqlHighlight.Paint.Highlighter
import LyqlHighlight.Paint.RangeIndex
import LyqlHighlight.Parse.Adapter
import LyqlHighlight.Parse.Parser
import LyqlHighlight.Parse.Startup
import LyqlHighlight.Proofs.Barrier
import LyqlHighlight.Proofs.Blocks
import LyqlHighlight.Proofs.Building
import LyqlHighlight.Proofs.Bytes
import LyqlHighlight.Proofs.CodeUnits
import LyqlHighlight.Proofs.Coherence
import LyqlHighlight.Proofs.Conversion
import LyqlHighlight.Proofs.Decomposition
import LyqlHighlight.Proofs.DepthLimits
import LyqlHighlight.Proofs.Descriptors
import LyqlHighlight.Proofs.DocumentOrder
import LyqlHighlight.Proofs.Editing
import LyqlHighlight.Proofs.Faults
import LyqlHighlight.Proofs.Following
import LyqlHighlight.Proofs.Formats
import LyqlHighlight.Proofs.Grammar
import LyqlHighlight.Proofs.InStep
import LyqlHighlight.Proofs.Independence
import LyqlHighlight.Proofs.Innermost
import LyqlHighlight.Proofs.Layout
import LyqlHighlight.Proofs.LetterCase
import LyqlHighlight.Proofs.Levels
import LyqlHighlight.Proofs.Lines
import LyqlHighlight.Proofs.Lists
import LyqlHighlight.Proofs.Measures
import LyqlHighlight.Proofs.Nesting
import LyqlHighlight.Proofs.OptionChanges
import LyqlHighlight.Proofs.OptionRuns
import LyqlHighlight.Proofs.Painting
import LyqlHighlight.Proofs.Parking
import LyqlHighlight.Proofs.PlainScan
import LyqlHighlight.Proofs.RangeIndex
import LyqlHighlight.Proofs.Ranges
import LyqlHighlight.Proofs.Reading
import LyqlHighlight.Proofs.Rearranging
import LyqlHighlight.Proofs.Refusals
import LyqlHighlight.Proofs.Registration
import LyqlHighlight.Proofs.Reparsing
import LyqlHighlight.Proofs.Requests
import LyqlHighlight.Proofs.Resets
import LyqlHighlight.Proofs.Respacing
import LyqlHighlight.Proofs.ScanErrors
import LyqlHighlight.Proofs.Separation
import LyqlHighlight.Proofs.Sessions
import LyqlHighlight.Proofs.SharedClasses
import LyqlHighlight.Proofs.Spelling
import LyqlHighlight.Proofs.StableOrder
import LyqlHighlight.Proofs.Startup
import LyqlHighlight.Proofs.TokenPainting
import LyqlHighlight.Proofs.TokenRow
import LyqlHighlight.Proofs.Totality
import LyqlHighlight.Proofs.Turns
import LyqlHighlight.Proofs.Units
import LyqlHighlight.Proofs.Visits
import LyqlHighlight.Proofs.Writing
import LyqlHighlight.Registry
import LyqlHighlight.Span
import LyqlHighlight.SyntaxTree
import LyqlHighlight.Table
import LyqlHighlight.Text.Blank
import LyqlHighlight.Text.Case.Capital
import LyqlHighlight.Text.Case.Lower
import LyqlHighlight.Text.Case.Table
import LyqlHighlight.Text.CodeRanges
import LyqlHighlight.Text.DecimalDigit
import LyqlHighlight.Text.Letter
import LyqlHighlight.Text.Numeral
import LyqlHighlight.Text.Offset
import LyqlHighlight.Text.Printable
import LyqlHighlight.Text.Quoted
import LyqlHighlight.Tree
import LyqlHighlight.Tree.Build
import LyqlHighlight.Value
