import LyqlHighlight.Lexical.Program
import LyqlHighlight.Node.Reading
import LyqlHighlight.SyntaxTree
import LyqlHighlight.Tree.Build

namespace LyqlHighlight

/-!
# Parsers

A parser is foreign code: it is handed a whole text, and it returns a loosely typed value, fails, or
is interrupted.

* `Failure` — the causes for which a text has no tree;
* `Reply`, `Parser` — what a parser reports, and a parser;
* `Parser.lyql` — the scanner as a parser;
* `Parser.ofSyntax` — a grammar that yields concrete syntax trees as a parser.
-/

/-- Why a text has no tree. -/
inductive Failure where
  /-- The text is not LyQL. -/
  | scan (e : Lexical.ScanError)
  /-- The value that the parser returned is no node. -/
  | read (e : ReadError)
  /-- The node is nested too deeply for a tree. -/
  | build (e : TooDeep)
  /-- The concrete syntax tree has no counterpart over characters. -/
  | conversion (e : ConversionError)
  /-- The parser failed for a reason of its own, of some kind. -/
  | raised (kind message : String)
  /-- A value of this kind was given for a parser. -/
  | noParser (kind : String)
  /-- The parser has not been started up. -/
  | notReady
deriving Repr

/-- The wording of the failure. -/
def Failure.message : Failure → String
  | scan e => e.message
  | read e => e.message
  | build e => e.message
  | conversion e => e.message
  | raised _ message => message
  | noParser kind => "'" ++ kind ++ "' object is not callable"
  | notReady => ""

/-- What a parser reports for a text. -/
inductive Reply where
  /-- The parser returned a value. -/
  | value (v : Value)
  /-- The parser failed. -/
  | failed (e : Failure)
  /-- The parser was interrupted from outside, which nobody but the user answers for. -/
  | interrupted (message : String)

/-- A named parser. -/
structure Parser where
  /-- The name of the parser. -/
  name : String
  /-- What it reports for a text. -/
  run : String → Reply

namespace Parser

/-- The scanner as a parser: the tokens of a text under one node. -/
def lyql : Parser where
  name := "tokenize"
  run text :=
    match Lexical.tokenize text with
    | .ok n => .value (.node n)
    | .error e => .failed (.scan e)

/-- A grammar as a parser: its concrete syntax trees over the characters of the text. -/
def ofSyntax (name : String) (grammar : String → SyntaxTree) (namedOnly : Bool := false)
    (depth : Int := Node.defaultDepth) : Parser where
  name := name
  run text :=
    match (grammar text).toNode text namedOnly depth with
    | .ok n => .value (.node n)
    | .error e => .failed (.conversion e)

end Parser

end LyqlHighlight
