import LyqlHighlight.Paint.Highlighter
import Mathlib.Data.List.Basic

namespace LyqlHighlight

/-!
# The formats of a highlighter

The specs of style classes are put together rule by rule, and a class keeps the spec that its first
rule brought in.

* `get?_classSpecs` — the spec of a class: the given one, or that of the category of its first rule;
* `exists_firstOfClass` — that the class of each rule has a first rule;
* `Highlighter.get?_formats_ofSpecs`, `Highlighter.exists_format` — the same for formats, and that
  the class of each rule has one.
-/

private theorem get?_foldl_classSpecs (given : Value) (className : String) (rules : List Rule)
    (specs : Table Value) :
    (rules.foldl
        (fun specs r =>
          if specs.contains r.className then specs
          else specs.insert r.className ((given.field? r.className).getD r.category.spec))
        specs).get? className =
      (specs.get? className).or
        ((rules.find? (·.className = className)).map fun r =>
          (given.field? className).getD r.category.spec) := by
  induction rules generalizing specs with
  | nil => simp
  | cons r rules ih =>
    rw [List.foldl_cons, ih, List.find?_cons]
    -- A rule for another class changes nothing; one for this class counts if it is the first.
    by_cases hclass : r.className = className
    · subst hclass
      rw [decide_eq_true rfl]
      cases hknown : specs.get? r.className with
      | some spec => simp [Table.contains, hknown]
      | none => simp [Table.contains, hknown]
    · have hne : className ≠ r.className := fun h => hclass h.symm
      rw [decide_eq_false hclass]
      split
      · rfl
      · rw [Table.get?_insert, if_neg hne]

/-- **The spec of a class.** It is the given one, or else that of the category of the first rule for
    the class. -/
theorem get?_classSpecs (rules : List Rule) (given : Value) (className : String) :
    (classSpecs rules given).get? className =
      (rules.find? (·.className = className)).map fun r =>
        (given.field? className).getD r.category.spec := by
  unfold classSpecs
  rw [get?_foldl_classSpecs, Table.get?_empty, Option.none_or]

/-- The class of each rule has a first rule. -/
theorem exists_firstOfClass {rules : List Rule} {rule : Rule} (h : rule ∈ rules) :
    ∃ first, rules.find? (·.className = rule.className) = some first ∧
      first.className = rule.className := by
  have found : (rules.find? (·.className = rule.className)).isSome = true := by
    rw [List.find?_isSome]
    exact ⟨rule, h, decide_eq_true rfl⟩
  obtain ⟨first, hfirst⟩ := Option.isSome_iff_exists.mp found
  exact ⟨first, hfirst, by simpa using List.find?_some hfirst⟩

namespace Highlighter

theorem get?_formats_ofSpecs (rules : List Rule) (given : Value) (className : String) :
    (ofSpecs rules given).formats.get? className =
      (rules.find? (·.className = className)).map fun r =>
        Format.ofSpec ((given.field? className).getD r.category.spec) := by
  unfold ofSpecs
  rw [Table.get?_map, get?_classSpecs, Option.map_map]
  rfl

/-- The class of each rule has a format. -/
theorem exists_format {rules : List Rule} (given : Value) {rule : Rule} (h : rule ∈ rules) :
    ∃ format, (ofSpecs rules given).formats.get? rule.className = some format := by
  obtain ⟨first, hfirst, -⟩ := exists_firstOfClass h
  exact ⟨_, by rw [get?_formats_ofSpecs, hfirst, Option.map_some]⟩

end Highlighter

end LyqlHighlight
