import LyqlHighlight.Text.Blank
import LyqlHighlight.Text.Case.Lower
import LyqlHighlight.Text.Quoted

namespace LyqlHighlight

/-!
# The tag registry

A registry says how each tag is highlighted.  It is written as a list of entries; an entry names
one or more tags, separated by blanks, that share a category and a style class.

* `Category`, `Rule`, `Entry` — the parts of a registry;
* `className` — the style class of an entry;
* `Registry` — rules with distinct tags, and the look-ups in them;
* `Registry.ofEntries` — the registry that entries describe, unless a tag occurs twice;
* `Registry.lyql` — the registry of the tags of LyQL.
-/

/-- The highlight categories. -/
inductive Category where
  /-- Quoted text. -/
  | string
  /-- Numbers. -/
  | number
  /-- Names. -/
  | identifier
  /-- Truth values. -/
  | boolean
  /-- Words of the language that stand out. -/
  | link
  /-- Keywords. -/
  | keyword
  /-- Operators and punctuation. -/
  | operator
  /-- Missing values. -/
  | null
deriving DecidableEq, Repr

/-- The name of a category. -/
def Category.name : Category → String
  | string => "string"
  | number => "number"
  | identifier => "identifier"
  | boolean => "boolean"
  | link => "link"
  | keyword => "keyword"
  | operator => "operator"
  | null => "null"

/-- How one tag is highlighted. -/
structure Rule where
  /-- The tag. -/
  tag : String
  /-- Its category. -/
  category : Category
  /-- Its style class. -/
  className : String
deriving DecidableEq, Repr

/-- One or more tags that share a category and a style class. -/
structure Entry where
  /-- The tags, separated by blanks. -/
  names : String
  /-- Their category. -/
  category : Category
deriving DecidableEq, Repr

/-- A text with its first space replaced by a hyphen. -/
def hyphenateFirst : List Char → List Char
  | [] => []
  | c :: cs => if c = ' ' then '-' :: cs else c :: hyphenateFirst cs

/-- The style class of the tags named together.  Only the first space between them becomes a
    hyphen. -/
def className (names : String) : String :=
  "cm-" ++ String.ofList (hyphenateFirst (Text.lower names).toList)

/-- The rules of an entry, in the order of its tags. -/
def Entry.rules (e : Entry) : List Rule :=
  (Text.words e.names).map fun tag => ⟨tag, e.category, LyqlHighlight.className e.names⟩

/-- The first member of a list that has occurred before, in the list or in `seen`. -/
def firstRepeated? {α : Type} [DecidableEq α] (seen : List α) : List α → Option α
  | [] => none
  | x :: xs => if x ∈ seen then some x else firstRepeated? (x :: seen) xs

/-- Nothing is repeated in a list without duplicates that avoids `seen`, and nowhere else. -/
theorem firstRepeated?_eq_none_iff {α : Type} [DecidableEq α] {seen l : List α} :
    firstRepeated? seen l = none ↔ l.Nodup ∧ ∀ x ∈ l, x ∉ seen := by
  induction l generalizing seen with
  | nil => simp [firstRepeated?]
  | cons x xs ih =>
    by_cases hx : x ∈ seen
    · simp [firstRepeated?, hx]
    · simp only [firstRepeated?, hx, if_false, ih, List.nodup_cons, List.mem_cons, not_or]
      grind

/-- Rules with distinct tags, in the order of their registration. -/
structure Registry where
  /-- The rules. -/
  rules : List Rule
  /-- No tag has two rules. -/
  tags_nodup : (rules.map Rule.tag).Nodup

/-- A tag that is registered twice. -/
structure RegistryError where
  /-- The tag. -/
  tag : String
deriving DecidableEq, Repr

/-- The wording of the error. -/
def RegistryError.message (e : RegistryError) : String :=
  "Tag " ++ Text.quoted e.tag ++ " is registered twice"

namespace Registry

/-- The registry that entries describe.  The error names the first tag that had occurred
    before. -/
def ofEntries (entries : List Entry) : Except RegistryError Registry :=
  let rules := entries.flatMap Entry.rules
  match h : firstRepeated? [] (rules.map Rule.tag) with
  | some tag => .error ⟨tag⟩
  | none => .ok ⟨rules, (firstRepeated?_eq_none_iff.mp h).1⟩

/-- The rule of a tag. -/
def rule? (r : Registry) (tag : String) : Option Rule :=
  r.rules.find? (·.tag = tag)

/-- The category of a tag. -/
def category? (r : Registry) (tag : String) : Option Category :=
  (r.rule? tag).map Rule.category

/-- Whether a tag is registered. -/
def contains (r : Registry) (tag : String) : Bool :=
  (r.rule? tag).isSome

/-- The number of registered tags. -/
def size (r : Registry) : Nat :=
  r.rules.length

/-- The style classes, each once, in the order of their first rules. -/
def classNames (r : Registry) : List String :=
  (r.rules.map Rule.className).eraseDups

/-- The entries for the tags of LyQL. -/
def lyqlEntries : List Entry :=
  [⟨"String", .string⟩, ⟨"Number", .number⟩, ⟨"Identifier", .identifier⟩,
   ⟨"Boolean", .boolean⟩, ⟨"Keyword", .link⟩, ⟨"SqlKeyword", .keyword⟩, ⟨"Symbol", .operator⟩,
   ⟨"Null Undefined", .null⟩]

/-- The registry of the tags of LyQL. -/
def lyql : Registry where
  rules := lyqlEntries.flatMap Entry.rules
  tags_nodup := by decide

end Registry

end LyqlHighlight
