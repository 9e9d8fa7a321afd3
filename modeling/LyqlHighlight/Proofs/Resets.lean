import LyqlHighlight.Proofs.OptionChanges
import Mathlib.Data.List.Nodup

namespace LyqlHighlight

/-!
# Resets in full

A reset drops the keys that have been set, one after the other, and announces them at the end.  If
no key that has been set is listed twice, this is all it does.  Otherwise the second time that such a
key comes up breaks the reset off: what was dropped until then stays dropped, and nobody is told.

* `Options.ResetInFull` — a reset as it ought to be;
* `Options.entries_eraseEach`, `Options.error_eraseEach` — what is left of a table after keys have
  been erased, and where that breaks off;
* `Options.nodup_dropped_iff` — no key is dropped twice if none that has been set is listed twice;
* `Options.reset_in_full` — the main result.
-/

namespace Options

variable {α : Type}

/-- A reset is complete and announced. -/
structure ResetInFull (o : Options α) (keys : List String) (change : OptionChange α) : Prop where
  /-- The reset does not break off. -/
  error : change.error = none
  /-- The keys are not set any more; all other values stay as they were, in their order. -/
  overrides : change.options.overrides.entries = o.overrides.entries.filter fun e => e.1 ∉ keys
  /-- The defaults stay. -/
  defaults : change.options.defaults = o.defaults
  /-- Nothing is announced exactly if nothing is dropped. -/
  silent : change.announced = none ↔ ∀ key ∈ keys, o.overrides.contains key = false
  /-- Each key that is dropped is announced once, and no other. -/
  announced : ∀ names, change.announced = some names →
    names.Nodup ∧ ∀ key, key ∈ names ↔ key ∈ keys ∧ o.overrides.contains key = true

/-! ### Erasing keys -/

/-- Erasing keys leaves the other entries in their order. -/
theorem entries_eraseEach {keys : List String} {t : Table α}
    (done : (eraseEach t keys).2 = none) :
    (eraseEach t keys).1.entries = t.entries.filter fun e => e.1 ∉ keys := by
  induction keys generalizing t with
  | nil => exact (List.filter_eq_self.mpr (by simp)).symm
  | cons key keys ih =>
    rw [eraseEach] at done ⊢
    split at done
    · next present =>
      rw [if_pos present, ih done, Table.erase, List.filter_filter]
      apply List.filter_congr
      intro e _
      simp [Bool.and_comm]
    · cases done

/-- Erasing breaks off at the first key that is gone already, and then does nothing more. -/
theorem error_eraseEach {keys : List String} {t : Table α} {e : MissingKey}
    (off : (eraseEach t keys).2 = some e) : (eraseEach t keys).1.contains e.key = false := by
  induction keys generalizing t with
  | nil => simp [eraseEach] at off
  | cons key keys ih =>
    rw [eraseEach] at off ⊢
    split at off
    · next present =>
      rw [if_pos present]
      exact ih off
    · next absent =>
      obtain rfl := Option.some.inj off
      rw [if_neg absent]
      exact Bool.eq_false_iff.mpr absent

/-- It breaks off at one of the keys; if all of them are there at first, at one that is listed
    twice. -/
theorem count_of_eraseEach {keys : List String} {t : Table α} {e : MissingKey}
    (off : (eraseEach t keys).2 = some e) :
    e.key ∈ keys ∧ (t.contains e.key = true → 2 ≤ keys.count e.key) := by
  induction keys generalizing t with
  | nil => simp [eraseEach] at off
  | cons key keys ih =>
    rw [eraseEach] at off
    split at off
    · next present =>
      obtain ⟨listed, twice⟩ := ih off
      refine ⟨List.mem_cons_of_mem _ listed, fun there => ?_⟩
      by_cases same : key = e.key
      · -- The key has been erased just now, and comes up again.
        have again : 0 < keys.count e.key := List.count_pos_iff.mpr listed
        rw [same, List.count_cons_self]
        omega
      · have still : (t.erase key).contains e.key = true := by
          rw [Table.contains, Table.get?_erase, if_neg (Ne.symm same)]
          exact there
        rw [List.count_cons_of_ne same]
        exact twice still
    · next absent =>
      obtain rfl := Option.some.inj off
      exact ⟨List.mem_cons_self, fun there => absurd there absent⟩

/-! ### Resets -/

theorem overrides_reset (o : Options α) (keys : List String) :
    (o.reset keys).options.overrides = (eraseEach o.overrides (o.dropped keys)).1 := by
  unfold reset
  dsimp only
  rw [show keys.filter o.overrides.contains = o.dropped keys from rfl]
  rcases eraseEach o.overrides (o.dropped keys) with ⟨overrides, _ | error⟩ <;> rfl

/-- A reset that breaks off announces nothing. -/
theorem announced_reset_of_error {o : Options α} {keys : List String} {e : MissingKey}
    (off : (o.reset keys).error = some e) : (o.reset keys).announced = none := by
  unfold reset at off ⊢
  dsimp only at off ⊢
  split at off
  · rfl
  · cases off

/-- No key is dropped twice exactly if none that has been set is listed twice. -/
theorem nodup_dropped_iff {o : Options α} {keys : List String} :
    (o.dropped keys).Nodup ↔ ∀ key, o.overrides.contains key = true → keys.count key ≤ 1 := by
  rw [dropped, List.nodup_iff_count_le_one]
  constructor
  · intro once key set
    rw [← List.count_filter set]
    exact once key
  · intro once key
    by_cases set : o.overrides.contains key = true
    · rw [List.count_filter set]
      exact once key set
    · have absent : key ∉ keys.filter o.overrides.contains :=
        fun h => set (List.mem_filter.mp h).2
      rw [List.count_eq_zero_of_not_mem absent]
      exact Nat.zero_le 1

theorem resetInFull_of_nodup {o : Options α} {keys : List String} (once : (o.dropped keys).Nodup) :
    o.ResetInFull keys (o.reset keys) := by
  have spec := o.reset_spec once
  have done := spec.error
  rw [error_reset] at done
  refine ⟨spec.error, ?_, spec.defaults, ?_, fun names hnames => ?_⟩
  · rw [overrides_reset, entries_eraseEach done]
    apply List.filter_congr
    intro e he
    have set : o.overrides.contains e.1 = true :=
      (Table.contains_iff_mem_keys _ _).mpr (List.mem_map_of_mem he)
    simp [mem_dropped, set]
  · rw [spec.announced]
    simp [dropped]
  · rw [spec.announced] at hnames
    split at hnames
    · cases hnames
    · obtain rfl := Option.some.inj hnames
      exact ⟨once, fun key => mem_dropped⟩

/-- **Resets in full.**  A reset of any keys drops them all, and nothing else, and announces once
    each key that it has dropped, if no key that has been set is listed twice.  If some such key is,
    the reset breaks off at one of them: its value is gone then, and nothing is announced. -/
theorem reset_in_full (o : Options α) (keys : List String) :
    ((∀ key, o.overrides.contains key = true → keys.count key ≤ 1) →
      o.ResetInFull keys (o.reset keys)) ∧
    ∀ key, o.overrides.contains key = true → 2 ≤ keys.count key →
      ∃ e, (o.reset keys).error = some e ∧ 2 ≤ keys.count e.key ∧
        o.overrides.contains e.key = true ∧
        (o.reset keys).options.overrides.contains e.key = false ∧
        (o.reset keys).announced = none := by
  refine ⟨fun once => resetInFull_of_nodup (nodup_dropped_iff.mpr once), fun key set twice => ?_⟩
  cases off : (o.reset keys).error with
  | none =>
    have once := nodup_dropped_iff.mp (error_reset_eq_none_iff.mp off) key set
    omega
  | some e =>
    have announced := announced_reset_of_error off
    rw [error_reset] at off
    obtain ⟨listed, count⟩ := count_of_eraseEach off
    have there := (mem_dropped.mp listed).2
    refine ⟨e, rfl, ?_, there, ?_, announced⟩
    · rw [← List.count_filter there]
      exact count there
    · rw [overrides_reset]
      exact error_eraseEach off

/-- Options with three values over one default. -/
def styledOptions : Options String where
  defaults := .ofList [("colors", "light")]
  overrides := .ofList [("font", "Mono"), ("colors", "dark"), ("size", "11")]

/-- A key that has not been set may be listed twice. -/
theorem reset_in_full_styled :
    (∀ key, styledOptions.overrides.contains key = true →
      ["speed", "colors", "speed"].count key ≤ 1) ∧
    (styledOptions.reset ["speed", "colors", "speed"]).options.overrides.entries =
      [("font", "Mono"), ("size", "11")] ∧
    (styledOptions.reset ["speed", "colors", "speed"]).announced = some ["colors"] := by
  have once : ∀ key, styledOptions.overrides.contains key = true →
      ["speed", "colors", "speed"].count key ≤ 1 := by
    intro key set
    rw [Table.contains_iff_mem_keys] at set
    have keys : styledOptions.overrides.keys = ["font", "colors", "size"] := by decide
    rw [keys] at set
    simp only [List.mem_cons, List.not_mem_nil, or_false] at set
    rcases set with rfl | rfl | rfl <;> decide
  have full := (reset_in_full styledOptions ["speed", "colors", "speed"]).1 once
  exact ⟨once, full.overrides.trans (by decide), by decide⟩

/-- A key that has been set and is listed twice is dropped, and nobody is told. -/
theorem not_resetInFull_of_twice :
    ¬styledOptions.ResetInFull ["font", "font"] (styledOptions.reset ["font", "font"]) := by
  intro full
  have off : (styledOptions.reset ["font", "font"]).error = some ⟨"font"⟩ := by decide
  rw [full.error] at off
  cases off

end Options

end LyqlHighlight
