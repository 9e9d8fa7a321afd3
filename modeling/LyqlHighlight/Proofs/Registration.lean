import LyqlHighlight.Registry
import LyqlHighlight.Table
import LyqlHighlight.Proofs.Lists

namespace LyqlHighlight

/-!
# Registration

Entries can be registered one by one, and the tags of each entry one by one, until one comes that
has a rule already.  The registry that entries describe is what this leads to: it holds the rules of
the entries in a row, and if a tag is repeated among them, the first one that is keeps it from being
made.

* `IsFirstRepeated`, `firstRepeated?_eq_some_iff` — the first member of a list that repeats an
  earlier one;
* `Registry.enter`, `Registry.enterAll` — registration step by step;
* `Registry.foldlM_enter` — what a row of rules leads to;
* `Registry.Flattens` — a registry is made of the rules of entries in a row;
* `Registry.ofEntries_flattens` — the main result.
-/

/-! ### Repetitions -/

section Repetitions

variable {α : Type} [DecidableEq α]

/-- The member `x` is the first one of the list that repeats an earlier one. -/
def IsFirstRepeated (l : List α) (x : α) : Prop :=
  ∃ front back, l = front ++ x :: back ∧ front.Nodup ∧ x ∈ front

/-- What is found first is a member that has been seen, or stands in front of its place, while none
    of those in front is repeated or has been seen. -/
theorem firstRepeated?_eq_some_iff {seen l : List α} {x : α} :
    firstRepeated? seen l = some x ↔ ∃ front back, l = front ++ x :: back ∧ front.Nodup ∧
      (∀ y ∈ front, y ∉ seen) ∧ (x ∈ front ∨ x ∈ seen) := by
  induction l generalizing seen with
  | nil => simp [firstRepeated?]
  | cons y l ih =>
    rw [firstRepeated?]
    by_cases known : y ∈ seen
    · rw [if_pos known]
      constructor
      · rintro ⟨⟩
        exact ⟨[], l, rfl, List.nodup_nil, by simp, .inr known⟩
      · rintro ⟨front, back, whole, -, unseen, -⟩
        -- Nothing can stand in front, since the first member has been seen.
        cases front with
        | nil => rw [(List.cons.inj whole).1]
        | cons z front =>
          rw [← (List.cons.inj whole).1] at unseen
          exact absurd known (unseen y List.mem_cons_self)
    · rw [if_neg known, ih]
      constructor
      · rintro ⟨front, back, rfl, nodup, unseen, again⟩
        have new : y ∉ front := fun hy => unseen y hy List.mem_cons_self
        refine ⟨y :: front, back, rfl, List.nodup_cons.mpr ⟨new, nodup⟩, ?_, ?_⟩
        · exact List.forall_mem_cons.mpr
            ⟨known, fun z hz => (not_or.mp (mt List.mem_cons.mpr (unseen z hz))).2⟩
        · simp only [List.mem_cons] at again ⊢
          tauto
      · rintro ⟨front, back, whole, nodup, unseen, again⟩
        cases front with
        | nil =>
          rw [← (List.cons.inj whole).1] at again
          exact absurd (again.resolve_left List.not_mem_nil) known
        | cons z front =>
          obtain ⟨rfl, rfl⟩ := List.cons.inj whole
          obtain ⟨new, nodup⟩ := List.nodup_cons.mp nodup
          obtain ⟨-, unseen⟩ := List.forall_mem_cons.mp unseen
          refine ⟨front, back, rfl, nodup, fun x hx => ?_, ?_⟩
          · rw [List.mem_cons, not_or]
            exact ⟨fun same => new (same ▸ hx), unseen x hx⟩
          · simp only [List.mem_cons] at again ⊢
            tauto

end Repetitions

/-! ### Entries -/

namespace Entry

/-- The tags that entries name, in reading order. -/
def tags (entries : List Entry) : List String :=
  entries.flatMap fun e => Text.words e.names

theorem map_tag_rules (e : Entry) : e.rules.map Rule.tag = Text.words e.names := by
  simp [rules, Function.comp_def]

theorem map_tag_flatMap_rules (entries : List Entry) :
    (entries.flatMap rules).map Rule.tag = tags entries := by
  rw [List.map_flatMap, tags]
  simp only [map_tag_rules]

theorem mem_rules_iff {e : Entry} {r : Rule} :
    r ∈ e.rules ↔
      r.tag ∈ Text.words e.names ∧ r.category = e.category ∧ r.className = className e.names := by
  unfold rules
  rw [List.mem_map]
  constructor
  · rintro ⟨tag, htag, rfl⟩
    exact ⟨htag, rfl, rfl⟩
  · obtain ⟨tag, category, class_⟩ := r
    rintro ⟨htag, rfl, rfl⟩
    exact ⟨tag, htag, rfl⟩

end Entry

namespace Registry

/-- Entries describe the registry of their rules, if its tags are distinct. -/
theorem ofEntries_eq_ok_iff {entries : List Entry} {registry : Registry} :
    ofEntries entries = .ok registry ↔ registry.rules = entries.flatMap Entry.rules := by
  unfold ofEntries
  constructor
  · intro accepted
    dsimp only at accepted
    split at accepted
    · cases accepted
    · obtain rfl := Except.ok.inj accepted
      rfl
  · intro rules
    dsimp only
    split
    · next tag repeated =>
      have distinct := registry.tags_nodup
      rw [rules] at distinct
      rw [firstRepeated?_eq_none_iff.mpr ⟨distinct, by simp⟩] at repeated
      cases repeated
    · obtain ⟨_, _⟩ := registry
      cases rules
      rfl

/-- The first repeated tag keeps entries from describing a registry. -/
theorem ofEntries_eq_error_iff {entries : List Entry} {e : RegistryError} :
    ofEntries entries = .error e ↔ firstRepeated? [] (Entry.tags entries) = some e.tag := by
  rw [← Entry.map_tag_flatMap_rules]
  unfold ofEntries
  dsimp only
  split
  · next tag repeated =>
    rw [repeated, Except.error.injEq, Option.some.injEq]
    exact ⟨congrArg RegistryError.tag, congrArg RegistryError.mk⟩
  · next distinct => simp [distinct]

/-- Entries describe a registry exactly if they name no tag twice. -/
theorem exists_ofEntries_iff {entries : List Entry} :
    (∃ registry, ofEntries entries = .ok registry) ↔ (Entry.tags entries).Nodup := by
  constructor
  · rintro ⟨registry, accepted⟩
    rw [← Entry.map_tag_flatMap_rules, ← ofEntries_eq_ok_iff.mp accepted]
    exact registry.tags_nodup
  · intro distinct
    rw [← Entry.map_tag_flatMap_rules] at distinct
    exact ⟨⟨_, distinct⟩, ofEntries_eq_ok_iff.mpr rfl⟩

/-! ### Step by step -/

/-- Enters a rule under its tag, unless the tag has one. -/
def enter (rules : Table Rule) (rule : Rule) : Except RegistryError (Table Rule) :=
  if rules.contains rule.tag then .error ⟨rule.tag⟩ else .ok (rules.insert rule.tag rule)

/-- Enters the rules of entries, entry by entry and tag by tag, up to the first tag that is
    there. -/
def enterAll (entries : List Entry) : Except RegistryError (Table Rule) :=
  entries.foldlM (fun rules e => e.rules.foldlM enter rules) .empty

/-- The rules of a registry under their tags. -/
def table (r : Registry) : Table Rule where
  entries := r.rules.map fun rule => (rule.tag, rule)
  keys_nodup := by simpa [Function.comp_def] using r.tags_nodup

/-- Entering the rules of the entries in a row is the same. -/
theorem enterAll_eq_foldlM (entries : List Entry) :
    enterAll entries = (entries.flatMap Entry.rules).foldlM enter .empty := by
  unfold enterAll
  generalize (Table.empty : Table Rule) = rules
  induction entries generalizing rules with
  | nil => rfl
  | cons e entries ih =>
    rw [List.foldlM_cons, List.flatMap_cons, List.foldlM_append]
    exact bind_congr ih

/-- **A row of rules.** Entering rules one by one fails at the first one whose tag is there or
    stands in front of it, with this tag.  If there is no such rule, all of them come behind the
    others. -/
theorem foldlM_enter (row : List Rule) {rules : Table Rule} {seen : List String}
    (same : ∀ tag, tag ∈ rules.keys ↔ tag ∈ seen) :
    (∀ tag, firstRepeated? seen (row.map Rule.tag) = some tag →
      row.foldlM enter rules = .error ⟨tag⟩) ∧
    (firstRepeated? seen (row.map Rule.tag) = none →
      ∃ after, row.foldlM enter rules = .ok after ∧
        after.entries = rules.entries ++ row.map fun rule => (rule.tag, rule)) := by
  induction row generalizing rules seen with
  | nil =>
    refine ⟨fun tag found => ?_, fun _ => ⟨rules, rfl, ?_⟩⟩
    · cases found
    · rw [List.map_nil, List.append_nil]
  | cons rule row ih =>
    rw [List.map_cons, firstRepeated?, List.foldlM_cons, enter]
    by_cases known : rule.tag ∈ seen
    · have there : rules.contains rule.tag = true := by
        rwa [Table.contains_iff_mem_keys, same]
      rw [if_pos known, if_pos there]
      refine ⟨fun tag found => ?_, fun distinct => ?_⟩
      · rw [Option.some.inj found]
        rfl
      · cases distinct
    · have new : rules.contains rule.tag = false := by
        rwa [← Bool.not_eq_true, Table.contains_iff_mem_keys, same]
      have absent : rule.tag ∉ rules.keys := mt (same _).mp known
      have grown : ∀ tag, tag ∈ (rules.insert rule.tag rule).keys ↔ tag ∈ rule.tag :: seen := by
        intro tag
        rw [Table.keys_insert, if_neg absent, List.mem_append, List.mem_singleton, same,
          List.mem_cons, or_comm]
      obtain ⟨fails, goesThrough⟩ := ih grown
      rw [if_neg known, if_neg (Bool.eq_false_iff.mp new)]
      refine ⟨fails, fun distinct => ?_⟩
      obtain ⟨after, run, entries⟩ := goesThrough distinct
      refine ⟨after, run, ?_⟩
      rw [entries, Table.entries_insert_of_notMem absent, List.append_assoc]
      rfl

/-- **Step by step.** Registering entries step by step fails as describing a registry by them does,
    or leads to the same rules. -/
theorem enterAll_eq (entries : List Entry) :
    enterAll entries = (ofEntries entries).map table := by
  have unknown : ∀ tag, tag ∈ (Table.empty : Table Rule).keys ↔ tag ∈ ([] : List String) := by simp
  obtain ⟨fails, goesThrough⟩ := foldlM_enter (entries.flatMap Entry.rules) unknown
  rw [Entry.map_tag_flatMap_rules, ← enterAll_eq_foldlM] at fails goesThrough
  cases described : ofEntries entries with
  | error e => exact fails _ (ofEntries_eq_error_iff.mp described)
  | ok registry =>
    have distinct := exists_ofEntries_iff.mp ⟨registry, described⟩
    obtain ⟨after, run, rules⟩ :=
      goesThrough (firstRepeated?_eq_none_iff.mpr ⟨distinct, by simp⟩)
    rw [← ofEntries_eq_ok_iff.mp described] at rules
    obtain ⟨_, _⟩ := after
    cases rules
    exact run

/-! ### Look-ups -/

theorem rule?_eq_some_iff {r : Registry} {tag : String} {rule : Rule} :
    r.rule? tag = some rule ↔ rule ∈ r.rules ∧ rule.tag = tag := by
  constructor
  · intro found
    exact ⟨List.mem_of_find?_eq_some found, by simpa using List.find?_some found⟩
  · rintro ⟨mem, rfl⟩
    obtain ⟨front, back, whole⟩ := List.append_of_mem mem
    have distinct := r.tags_nodup
    rw [whole, List.map_append, List.map_cons] at distinct
    -- No rule in front of it has its tag.
    have others : ∀ other ∈ front, other.tag ≠ rule.tag := fun other hother same =>
      (List.nodup_append.mp distinct).2.2 _ (List.mem_map_of_mem hother) _ List.mem_cons_self same
    rw [rule?, whole, List.find?_append, List.find?_eq_none.mpr (by simpa using others),
      Option.none_or, List.find?_cons_of_pos (by simp)]

theorem contains_iff {r : Registry} {tag : String} :
    r.contains tag = true ↔ tag ∈ r.rules.map Rule.tag := by
  rw [contains, rule?, List.find?_isSome, List.mem_map]
  simp only [decide_eq_true_eq]

/-- In the table the rules are found under their tags. -/
theorem get?_table (r : Registry) (tag : String) : r.table.get? tag = r.rule? tag := by
  show (r.rules.map fun rule => (rule.tag, rule)).lookup tag = r.rules.find? (·.tag = tag)
  induction r.rules with
  | nil => rfl
  | cons rule rules ih =>
    rw [List.map_cons, List.lookup_cons, List.find?_cons, ih]
    by_cases same : rule.tag = tag
    · simp [same]
    · rw [decide_eq_false same, beq_eq_false_iff_ne.mpr (Ne.symm same)]

/-- The registry is what is left of entries if they are read as one row of tags. -/
structure Flattens (r : Registry) (entries : List Entry) : Prop where
  /-- The rules are those of the tags in reading order, each with the category and the style class
      of its entry. -/
  rules_eq : r.rules = entries.flatMap fun e =>
    (Text.words e.names).map fun tag => ⟨tag, e.category, LyqlHighlight.className e.names⟩
  /-- A tag that an entry names has the rule for it. -/
  rule?_eq : ∀ e ∈ entries, ∀ tag ∈ Text.words e.names,
    r.rule? tag = some ⟨tag, e.category, LyqlHighlight.className e.names⟩
  /-- It has the category of the entry. -/
  category?_eq : ∀ e ∈ entries, ∀ tag ∈ Text.words e.names, r.category? tag = some e.category
  /-- These are the tags that are registered. -/
  contains_iff : ∀ tag, r.contains tag = true ↔ tag ∈ Entry.tags entries
  /-- Any other one has neither a rule nor a category. -/
  other_eq : ∀ tag ∉ Entry.tags entries, r.rule? tag = none ∧ r.category? tag = none
  /-- There are as many rules as tags. -/
  size_eq : r.size = (Entry.tags entries).length
  /-- The style classes are those of the rules, each once, in the order of their first rules. -/
  classNames : FirstOccurrences (r.rules.map Rule.className) r.classNames

theorem flattens_of_ofEntries {entries : List Entry} {registry : Registry}
    (described : ofEntries entries = .ok registry) : registry.Flattens entries := by
  have rules := ofEntries_eq_ok_iff.mp described
  have tags : registry.rules.map Rule.tag = Entry.tags entries := by
    rw [rules, Entry.map_tag_flatMap_rules]
  have found : ∀ e ∈ entries, ∀ tag ∈ Text.words e.names,
      registry.rule? tag = some ⟨tag, e.category, LyqlHighlight.className e.names⟩ := by
    intro e he tag htag
    rw [rule?_eq_some_iff, rules]
    exact ⟨List.mem_flatMap.mpr ⟨e, he, Entry.mem_rules_iff.mpr ⟨htag, rfl, rfl⟩⟩, rfl⟩
  have registered (tag : String) : registry.contains tag = true ↔ tag ∈ Entry.tags entries := by
    rw [contains_iff, tags]
  refine ⟨rules, found, fun e he tag htag => ?_, registered, fun tag other => ?_, ?_,
    firstOccurrences_eraseDups _⟩
  · rw [category?, found e he tag htag, Option.map_some]
  · have none : registry.rule? tag = none := by
      rw [← Option.not_isSome_iff_eq_none]
      exact mt (registered tag).mp other
    exact ⟨none, by rw [category?, none, Option.map_none]⟩
  · rw [size, ← tags, List.length_map]

/-- **Flattening.** Entries describe a registry exactly if they name no tag twice, and otherwise the
    error names the first tag, in reading order, that had come before.  The registry is the
    flattening of the entries.  Registering them step by step fails in the same way, or leads to the
    same rules under the same tags. -/
theorem ofEntries_flattens (entries : List Entry) :
    ((∃ registry, ofEntries entries = .ok registry) ↔ (Entry.tags entries).Nodup) ∧
    (∀ e, ofEntries entries = .error e ↔ IsFirstRepeated (Entry.tags entries) e.tag) ∧
    (∀ registry, ofEntries entries = .ok registry → registry.Flattens entries) ∧
    enterAll entries = (ofEntries entries).map table ∧
    ∀ (registry : Registry) (tag : String), registry.table.get? tag = registry.rule? tag := by
  refine ⟨exists_ofEntries_iff, fun e => ?_, fun registry => flattens_of_ofEntries,
    enterAll_eq entries, get?_table⟩
  rw [ofEntries_eq_error_iff, firstRepeated?_eq_some_iff]
  simp only [List.not_mem_nil, not_false_eq_true, implies_true, true_and, or_false,
    IsFirstRepeated]

end Registry

end LyqlHighlight
