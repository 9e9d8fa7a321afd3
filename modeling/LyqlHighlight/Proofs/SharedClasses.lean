import LyqlHighlight.Proofs.Formats
import LyqlHighlight.Proofs.Registration

namespace LyqlHighlight

/-!
# Entries that share a style class

A style class has one spec.  An entry of a registry makes its class out of the names of its tags, in
lower case, so two entries can have the same class although they name different tags; the registry
takes both.  If they are of different categories, the rules of the later entry get the spec of a
category that is not theirs.

* `Rule.spec` — the spec that a rule asks for;
* `Entry.ClassesApart` — entries of different categories have different classes;
* `Registry.classSpecs_ofEntries` — what the rules of a registry get, and that all of them get what
  they ask for exactly if the classes of the entries are apart in this way.
-/

/-- The spec that a rule asks for: the one given for its class, or else that of its category. -/
def Rule.spec (r : Rule) (given : Value) : Value :=
  (given.field? r.className).getD r.category.spec

/-- Different categories have different specs. -/
theorem Category.spec_inj {c d : Category} : c.spec = d.spec ↔ c = d := by
  cases c <;> cases d <;> simp [spec, colorSpec]

/-- A rule asks for what another rule of its class asks for exactly if a spec is given for the class
    or the two are of one category. -/
theorem Rule.spec_eq_iff {r s : Rule} {given : Value} (h : s.className = r.className) :
    s.spec given = r.spec given ↔
      (given.field? r.className).isSome = true ∨ s.category = r.category := by
  unfold spec
  rw [h]
  cases given.field? r.className with
  | none => simp [Category.spec_inj]
  | some v => simp

/-! ### Entries -/

/-- Of entries that name tags, no two of different categories have the same style class. -/
def Entry.ClassesApart (entries : List Entry) : Prop :=
  ∀ e ∈ entries, ∀ e' ∈ entries, Text.words e.names ≠ [] → Text.words e'.names ≠ [] →
    e.category ≠ e'.category → className e.names ≠ className e'.names

/-- The classes of entries are apart exactly if those of their rules are. -/
theorem Entry.classesApart_iff {entries : List Entry} :
    ClassesApart entries ↔ ∀ r ∈ entries.flatMap rules, ∀ s ∈ entries.flatMap rules,
      r.category ≠ s.category → r.className ≠ s.className := by
  constructor
  · intro apart r hr s hs
    obtain ⟨e, he, hr⟩ := List.mem_flatMap.mp hr
    obtain ⟨e', he', hs⟩ := List.mem_flatMap.mp hs
    obtain ⟨hr, hrc, hrn⟩ := mem_rules_iff.mp hr
    obtain ⟨hs, hsc, hsn⟩ := mem_rules_iff.mp hs
    rw [hrc, hsc, hrn, hsn]
    exact apart e he e' he' (List.ne_nil_of_mem hr) (List.ne_nil_of_mem hs)
  · intro apart e he e' he' some some'
    -- Each entry that names a tag has a rule of its category and its class.
    obtain ⟨tag, htag⟩ := List.exists_mem_of_ne_nil _ some
    obtain ⟨tag', htag'⟩ := List.exists_mem_of_ne_nil _ some'
    have hr : (⟨tag, e.category, className e.names⟩ : Rule) ∈ entries.flatMap rules :=
      List.mem_flatMap.mpr ⟨e, he, mem_rules_iff.mpr ⟨htag, rfl, rfl⟩⟩
    have hs : (⟨tag', e'.category, className e'.names⟩ : Rule) ∈ entries.flatMap rules :=
      List.mem_flatMap.mpr ⟨e', he', mem_rules_iff.mpr ⟨htag', rfl, rfl⟩⟩
    exact apart _ hr _ hs

namespace Registry

/-- The class of a rule has the spec that its first rule asks for. -/
theorem exists_first (registry : Registry) (given : Value) {r : Rule} (hr : r ∈ registry.rules) :
    ∃ first, registry.rules.find? (·.className = r.className) = some first ∧
      first.className = r.className ∧
      (classSpecs registry.rules given).get? r.className = some (first.spec given) := by
  obtain ⟨first, hfirst, same⟩ := exists_firstOfClass hr
  refine ⟨first, hfirst, same, ?_⟩
  rw [get?_classSpecs, hfirst, Option.map_some, Rule.spec, same]

/-- Each rule gets what it asks for, whatever specs are given, exactly if rules of different
    categories have different classes. -/
theorem classSpecs_eq_spec_iff (registry : Registry) :
    (∀ given, ∀ r ∈ registry.rules,
      (classSpecs registry.rules given).get? r.className = some (r.spec given)) ↔
      ∀ r ∈ registry.rules, ∀ s ∈ registry.rules,
        r.category ≠ s.category → r.className ≠ s.className := by
  constructor
  · intro own r hr s hs other same
    -- Both rules get the spec of the class, which without given specs is that of their category.
    have hrs : some (r.spec .none) = some (s.spec .none) := by
      rw [← own .none r hr, ← own .none s hs, same]
    exact other (Category.spec_inj.mp (Option.some.inj hrs))
  · intro apart given r hr
    obtain ⟨first, hfirst, same, got⟩ := registry.exists_first given hr
    have category : first.category = r.category := by
      by_contra other
      exact apart first (List.mem_of_find?_eq_some hfirst) r hr other same
    rw [got, (Rule.spec_eq_iff same).mpr (.inr category)]

/-- **What rules get.**  In a registry that entries describe, the class of each rule has a spec: the
    one given for it, or else that of the category of the first rule of the class.  This is what the
    rule itself asks for exactly if a spec is given or the first rule of the class is of its
    category.  All rules get what they ask for, whatever specs are given, exactly if no two entries
    of different categories have the same class; and then no two rules of different categories
    have. -/
theorem classSpecs_ofEntries {entries : List Entry} {registry : Registry}
    (accepted : ofEntries entries = .ok registry) :
    (∀ given, ∀ r ∈ registry.rules, ∃ first,
      registry.rules.find? (·.className = r.className) = some first ∧
      (classSpecs registry.rules given).get? r.className = some (first.spec given) ∧
      (first.spec given = r.spec given ↔
        (given.field? r.className).isSome = true ∨ first.category = r.category)) ∧
    (Entry.ClassesApart entries ↔ ∀ given, ∀ r ∈ registry.rules,
      (classSpecs registry.rules given).get? r.className = some (r.spec given)) ∧
    (Entry.ClassesApart entries ↔ ∀ r ∈ registry.rules, ∀ s ∈ registry.rules,
      r.category ≠ s.category → r.className ≠ s.className) := by
  have rules := ofEntries_eq_ok_iff.mp accepted
  have apart : Entry.ClassesApart entries ↔ _ := Entry.classesApart_iff
  rw [← rules] at apart
  refine ⟨fun given r hr => ?_, ?_, apart⟩
  · obtain ⟨first, hfirst, same, got⟩ := registry.exists_first given hr
    exact ⟨first, hfirst, got, Rule.spec_eq_iff same⟩
  · rw [apart, classSpecs_eq_spec_iff]

/-- Entries of two tags, and of one whose class has a spec of its own. -/
def mixedEntries : List Entry :=
  [⟨"Integer Float", .number⟩, ⟨"Call", .link⟩, ⟨"String", .number⟩]

/-- The classes of the entries are apart, so a rule without a given spec gets that of its category,
    and the one with a given spec gets that. -/
theorem classSpecs_mixedEntries :
    ∃ registry, ofEntries mixedEntries = .ok registry ∧ Entry.ClassesApart mixedEntries ∧
      (classSpecs registry.rules lyqlSpecs).get? "cm-integer-float" = some Category.number.spec ∧
      (classSpecs registry.rules lyqlSpecs).get? "cm-string" = some Category.string.spec := by
  have accepted : ofEntries mixedEntries = .ok
      ⟨[⟨"Integer", .number, "cm-integer-float"⟩, ⟨"Float", .number, "cm-integer-float"⟩,
        ⟨"Call", .link, "cm-call"⟩, ⟨"String", .number, "cm-string"⟩], by simp⟩ :=
    ofEntries_eq_ok_iff.mpr (by decide +kernel)
  obtain ⟨-, own, apart⟩ := classSpecs_ofEntries accepted
  have classes : Entry.ClassesApart mixedEntries := apart.mpr (by simp)
  have float := own.mp classes lyqlSpecs ⟨"Float", .number, "cm-integer-float"⟩ (by simp)
  have string := own.mp classes lyqlSpecs ⟨"String", .number, "cm-string"⟩ (by simp)
  exact ⟨_, accepted, classes, float, string⟩

/-- Two entries that differ in the case of a letter. -/
def clashingEntries : List Entry :=
  [⟨"Call", .link⟩, ⟨"call", .identifier⟩]

/-- The registry takes both, but the identifier gets the spec of a link. -/
theorem not_own_spec_of_clashingEntries :
    ∃ registry, ofEntries clashingEntries = .ok registry ∧
      ∃ r ∈ registry.rules, r.category = .identifier ∧
        (classSpecs registry.rules (.mapping [])).get? r.className = some Category.link.spec ∧
        r.spec (.mapping []) = Category.identifier.spec ∧
        ¬(classSpecs registry.rules (.mapping [])).get? r.className =
          some (r.spec (.mapping [])) := by
  have accepted : ofEntries clashingEntries = .ok
      ⟨[⟨"Call", .link, "cm-call"⟩, ⟨"call", .identifier, "cm-call"⟩], by simp⟩ :=
    ofEntries_eq_ok_iff.mpr (by decide +kernel)
  have got : (classSpecs [⟨"Call", .link, "cm-call"⟩, ⟨"call", .identifier, "cm-call"⟩]
      (.mapping [])).get? "cm-call" = some Category.link.spec := rfl
  refine ⟨_, accepted, ⟨"call", .identifier, "cm-call"⟩, by simp, rfl, got, rfl, ?_⟩
  rw [got, Option.some.injEq]
  show Category.link.spec ≠ Category.identifier.spec
  rw [Ne, Category.spec_inj]
  decide

end Registry

end LyqlHighlight
