import LyqlHighlight.Lexical.Alphabet
import LyqlHighlight.Text.Case.Capital

namespace LyqlHighlight.Lexical

/-!
# Tags of tokens

* `TokenTag` — the lexical classes that a token may have;
* `keywords`, `literals`, `sqlKeywords` — the words with a class of their own.  Keywords of the
  language count in lower case only, those of queries in any case;
* `wordTag` — the class of a word.
-/

/-- The lexical class of a token. -/
inductive TokenTag where
  /-- A quoted string. -/
  | string
  /-- A number. -/
  | number
  /-- A name. -/
  | identifier
  /-- A keyword of the language. -/
  | keyword
  /-- The literal without a value. -/
  | undefined
  /-- A truth value. -/
  | boolean
  /-- A keyword of queries. -/
  | sqlKeyword
  /-- An operator or a punctuation mark. -/
  | symbol
deriving DecidableEq, Repr

/-- The name of a class, which tags the nodes of its tokens. -/
def TokenTag.name : TokenTag → String
  | string => "String"
  | number => "Number"
  | identifier => "Identifier"
  | keyword => "Keyword"
  | undefined => "Undefined"
  | boolean => "Boolean"
  | sqlKeyword => "SqlKeyword"
  | symbol => "Symbol"

/-- The keywords of the language. -/
def keywords : List String :=
  ["class", "else", "for", "function", "if", "break", "continue", "return", "super", "this", "var",
   "while", "loop"]

/-- The words that are literals. -/
def literals : List (String × TokenTag) :=
  [("undefined", .undefined), ("false", .boolean), ("true", .boolean)]

/-- The keywords of queries, in capitals. -/
def sqlKeywords : List String :=
  ["ALL", "DISTINCT", "UNION", "INTERSECT", "EXCEPT", "BEGIN", "TRANSACTION", "ROLLBACK", "COMMIT",
   "WHERE", "HAVING", "ASC", "DESC", "ORDER", "BY", "AND", "OR", "EXPLAIN", "IS", "NOT", "LIKE",
   "IN", "BETWEEN", "OFFSET", "LIMIT", "JOIN", "INNER", "RIGHT", "LEFT", "ON", "CREATE", "INSERT",
   "UPDATE", "DELETE", "DROP", "INTO", "VALUES", "INDEX", "SELECT", "FROM", "AS", "CROSS",
   "DEFAULT", "GROUP", "KEY", "OF", "ONLY", "PRIMARY", "REFERENCES", "SET", "SYSTEM",
   "COLLECTION", "UNIQUE", "READ", "WRITE"]

/-- The class of a word that nothing forces to be a name. -/
def freeWordTag (word : List Char) : TokenTag :=
  if String.ofList word ∈ keywords then .keyword
  else match literals.lookup (String.ofList word) with
    | some tag => tag
    | none =>
      if String.ofList (Text.capitals word) ∈ sqlKeywords then .sqlKeyword else .identifier

/-- The class of a word.  Behind a dot, and with a backslash in front, every word is a name. -/
def wordTag (afterDot : Bool) (word : List Char) : TokenTag :=
  if afterDot ∨ word.head? = some '\\' then .identifier else freeWordTag word

end LyqlHighlight.Lexical
