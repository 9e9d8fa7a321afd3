import LyqlHighlight.Proofs.OptionChanges

namespace LyqlHighlight

/-!
# Runs of option changes

Whoever follows the options has to read again only the keys that are announced.  No matter how the
options are changed, what is read in this way stays what the options read as, which is always the
last value that was set and not taken back, or else the default.

* `OptionOperation`, `OptionOperation.events` — what can be done with options, and what has to be
  announced;
* `OptionMirror`, `OptionWatch` — what somebody who follows the options has read, and a run;
* `lastWrite?` — the last value that a history leaves under a key;
* `OptionWatch.accounted_run` — the main result.
-/

variable {α : Type}

namespace Options

/-! ### Keys and values -/

theorem contains_iff (o : Options α) (key : String) :
    o.contains key = true ↔ ∃ a, o.get? key = some a := by
  unfold contains Table.contains get?
  cases o.overrides.get? key <;> cases o.defaults.get? key <;> simp

theorem mem_keys_iff (o : Options α) (key : String) : key ∈ o.keys ↔ o.contains key = true := by
  rw [keys, List.mem_append, List.mem_filter, ← Table.contains_iff_mem_keys,
    ← Table.contains_iff_mem_keys, contains, Bool.or_eq_true]
  cases o.defaults.contains key <;> simp

theorem nodup_keys (o : Options α) : o.keys.Nodup := by
  refine List.nodup_append.mpr ⟨o.defaults.keys_nodup, o.overrides.keys_nodup.filter _, ?_⟩
  rintro key defaulted other hother rfl
  have fresh := (List.mem_filter.mp hother).2
  rw [(Table.contains_iff_mem_keys _ _).mpr defaulted] at fresh
  cases fresh

theorem get_eq_ok_iff (o : Options α) (key : String) (a : α) :
    o.get key = .ok a ↔ o.get? key = some a := by
  unfold get
  cases o.get? key <;> simp

end Options

/-! ### Operations -/

/-- What can be done with options. -/
inductive OptionOperation (α : Type) where
  /-- One value is set. -/
  | set (key : String) (a : α)
  /-- Several values are set at once. -/
  | update (values : Table α)
  /-- Keys fall back to their defaults. -/
  | reset (keys : List String)

namespace OptionOperation

/-- The change that an operation leads to. -/
def change (o : Options α) : OptionOperation α → OptionChange α
  | set key a => o.set key a
  | update values => o.update values
  | reset keys => o.reset keys

/-- What an operation has to announce: the keys that are given, all at once; and of the keys to be
    reset those that had been set, unless there are none. -/
def events (o : Options α) : OptionOperation α → List (List String)
  | set key _ => [[key]]
  | update values => [values.keys]
  | reset keys => if keys.any o.overrides.contains then [keys.filter o.overrides.contains] else []

/-- What an operation does to one key: it writes a value there, or takes back what was written, or
    leaves the key alone. -/
def touch? (key : String) : OptionOperation α → Option (Option α)
  | set k a => if k = key then some (some a) else none
  | update values => (values.get? key).map some
  | reset keys => if key ∈ keys then some none else none

variable {o : Options α} {op : OptionOperation α}

theorem change_set (key : String) (a : α) :
    (set key a).change o = (update (Table.empty.insert key a)).change o := rfl

theorem keys_single (key : String) (a : α) : (Table.empty.insert key a).keys = [key] := by
  rw [Table.keys_insert, Table.keys_empty, if_neg List.not_mem_nil]
  rfl

/-- An operation that goes through announces what it has to. -/
theorem announced_change (made : (op.change o).error = none) :
    (op.change o).announced.toList = op.events o := by
  cases op with
  | set key a => rw [change_set, events, ← keys_single key a]; rfl
  | update values => rfl
  | reset keys =>
    show (o.reset keys).announced.toList = _
    rw [(o.reset_spec (Options.error_reset_eq_none_iff.mp made)).announced, events]
    by_cases some : keys.any o.overrides.contains = true
    · obtain ⟨key, hkey, set⟩ := List.any_eq_true.mp some
      have dropped : key ∈ o.dropped keys := Options.mem_dropped.mpr ⟨hkey, set⟩
      rw [if_pos some, if_neg fun nothing => by simp [List.isEmpty_iff.mp nothing] at dropped]
      rfl
    · have nothing : o.dropped keys = [] := by
        refine List.filter_eq_nil_iff.mpr fun key hkey set => some ?_
        exact List.any_eq_true.mpr ⟨key, hkey, set⟩
      rw [if_neg some, nothing]
      rfl

/-- An operation that goes through announces all keys under which the options then read
    differently. -/
theorem exists_announces (made : (op.change o).error = none) :
    ∃ keys, o.Announces (op.change o) keys := by
  cases op with
  | set key a => exact ⟨_, o.announces_update _⟩
  | update values => exact ⟨_, o.announces_update values⟩
  | reset keys => exact ⟨_, o.announces_reset (Options.error_reset_eq_none_iff.mp made)⟩

theorem defaults_change (made : (op.change o).error = none) :
    (op.change o).options.defaults = o.defaults := by
  cases op with
  | set key a => rfl
  | update values => rfl
  | reset keys => exact (o.reset_spec (Options.error_reset_eq_none_iff.mp made)).defaults

/-- What the options read as under a key after an operation that goes through: what the operation
    wrote there, or the default if it took that back, or else what was there before. -/
theorem get?_change (made : (op.change o).error = none) (key : String) :
    (op.change o).options.get? key =
      (op.touch? key).elim (o.get? key) fun written => written.or (o.defaults.get? key) := by
  cases op with
  | set k a =>
    show (o.update _).options.get? key = _
    rw [Options.get?_update, Table.get?_insert, Table.get?_empty, touch?]
    by_cases hk : k = key
    · rw [if_pos hk.symm, if_pos hk]
      rfl
    · rw [if_neg (Ne.symm hk), if_neg hk]
      rfl
  | update values =>
    show (o.update values).options.get? key = _
    rw [Options.get?_update, touch?]
    cases values.get? key <;> rfl
  | reset keys =>
    show (o.reset keys).options.get? key = _
    rw [Options.get?_reset o (Options.error_reset_eq_none_iff.mp made), touch?]
    split <;> rfl

end OptionOperation

/-- The value that a history leaves under a key: the last one that was written and not taken back. -/
def lastWrite? (key : String) (history : List (OptionOperation α)) : Option α :=
  (history.filterMap (OptionOperation.touch? key)).getLast?.join

theorem lastWrite?_append (key : String) (history : List (OptionOperation α))
    (op : OptionOperation α) :
    lastWrite? key (history ++ [op]) = (op.touch? key).elim (lastWrite? key history) id := by
  unfold lastWrite?
  rw [List.filterMap_append]
  rcases hop : op.touch? key with _ | written
  · simp [hop]
  · simp [hop]

/-! ### Those who follow the options -/

/-- What somebody has read of options, for each key the value, if there was one. -/
abbrev OptionMirror (α : Type) := String → Option α

/-- The keys of an announcement are read again. -/
def OptionMirror.hear (o : Options α) (m : OptionMirror α) (keys : List String) : OptionMirror α :=
  fun key => if key ∈ keys then o.get? key else m key

/-- Options, and what somebody who follows them has read. -/
structure OptionWatch (α : Type) where
  /-- The options. -/
  options : Options α
  /-- What has been read. -/
  mirror : OptionMirror α

namespace OptionWatch

/-- Somebody starts to follow the options, having read them. -/
def start (o : Options α) : OptionWatch α := ⟨o, o.get?⟩

/-- An operation, with what is read again because of it. -/
def step (w : OptionWatch α) (op : OptionOperation α) : Except MissingKey (OptionWatch α) :=
  let change := op.change w.options
  match change.error with
  | some e => .error e
  | none =>
    .ok ⟨change.options, change.announced.toList.foldl (OptionMirror.hear change.options) w.mirror⟩

/-- Several operations, as long as they go through. -/
def run (w : OptionWatch α) (ops : List (OptionOperation α)) : Except MissingKey (OptionWatch α) :=
  ops.foldlM step w

/-- Options are accounted for by the defaults and a history, and are read in full. -/
structure Accounted (defaults : Table α) (history : List (OptionOperation α))
    (w : OptionWatch α) : Prop where
  /-- The defaults stay. -/
  based : w.options.defaults = defaults
  /-- What has been read is what the options read as. -/
  mirror : ∀ key, w.mirror key = w.options.get? key
  /-- Under each key there is what was written last and not taken back, or else the default. -/
  value : ∀ key, w.options.get? key = (lastWrite? key history).or (defaults.get? key)

theorem accounted_start (defaults given : Table α) :
    (start ⟨defaults, given⟩).Accounted defaults [.update given] where
  based := rfl
  mirror _ := rfl
  value key := by
    show (given.get? key).or (defaults.get? key) = _
    rw [lastWrite?, List.filterMap_cons, OptionOperation.touch?]
    cases given.get? key <;> rfl

/-- The announced keys suffice. -/
theorem hear_announced {o : Options α} {change : OptionChange α} {keys : List String}
    (announces : o.Announces change keys) (key : String) :
    change.announced.toList.foldl (OptionMirror.hear change.options) o.get? key =
      change.options.get? key := by
  by_cases hkey : key ∈ keys
  · rcases announces.announced with told | ⟨-, rfl⟩
    · rw [told]
      exact if_pos hkey
    · cases hkey
  · -- Nothing has changed under a key that is not announced.
    rw [announces.others key hkey]
    rcases announces.announced with told | ⟨silent, -⟩
    · rw [told]
      exact if_neg hkey
    · rw [silent]
      rfl

theorem Accounted.step {defaults : Table α} {history : List (OptionOperation α)}
    {w w' : OptionWatch α} {op : OptionOperation α} (h : w.Accounted defaults history)
    (done : w.step op = .ok w') : w'.Accounted defaults (history ++ [op]) := by
  unfold OptionWatch.step at done
  dsimp only at done
  split at done
  · cases done
  next made =>
  obtain rfl := Except.ok.inj done
  obtain ⟨keys, announces⟩ := OptionOperation.exists_announces made
  refine ⟨(OptionOperation.defaults_change made).trans h.based, fun key => ?_, fun key => ?_⟩
  · rw [funext h.mirror]
    exact hear_announced announces key
  · rw [OptionOperation.get?_change made, lastWrite?_append, h.value, h.based]
    cases op.touch? key <;> rfl

theorem Accounted.run {defaults : Table α} {history ops : List (OptionOperation α)}
    {w w' : OptionWatch α} (h : w.Accounted defaults history) (done : w.run ops = .ok w') :
    w'.Accounted defaults (history ++ ops) := by
  unfold OptionWatch.run at done
  induction ops generalizing w history with
  | nil =>
    obtain rfl := Except.ok.inj done
    rw [List.append_nil]
    exact h
  | cons op ops ih =>
    rw [List.foldlM_cons] at done
    rcases first : w.step op with e | w₁
    · rw [first] at done
      cases done
    · rw [first] at done
      have accounted := ih (h.step first) done
      rwa [List.append_assoc] at accounted

/-- **No option changes silently.**  Take any options and any operations that go through, with
    somebody who has read the options at first and then reads again what is announced.

    * What has been read is what the options read as, under each key.
    * The next operation announces, if it goes through, the keys that are given, all at once; a
      reset those of them that had been set, unless there are none.
    * The options contain the keys that they list, which are those that have a value.
    * No key is listed twice, and those with defaults come first, in their order.
    * Under each key there is the value that was written last and not taken back, where the
      overrides at first count as written; or else the default, if there is one. -/
theorem accounted_run (defaults given : Table α) (ops : List (OptionOperation α))
    {w : OptionWatch α} (done : (start ⟨defaults, given⟩).run ops = .ok w) :
    (∀ key, w.mirror key = w.options.get? key) ∧
    (∀ op : OptionOperation α, (op.change w.options).error = none →
      (op.change w.options).announced.toList = op.events w.options) ∧
    (∀ key, (w.options.contains key = true ↔ key ∈ w.options.keys) ∧
      (key ∈ w.options.keys ↔ ∃ a, w.options.get key = .ok a)) ∧
    (w.options.keys.Nodup ∧ defaults.keys <+: w.options.keys) ∧
    ∀ key, w.options.get key =
      ((lastWrite? key (.update given :: ops)).or (defaults.get? key)).elim (.error ⟨key⟩) .ok := by
  have accounted := (accounted_start defaults given).run done
  refine ⟨accounted.mirror, fun op => OptionOperation.announced_change, fun key => ?_, ⟨?_, ?_⟩,
    fun key => ?_⟩
  · simp only [Options.mem_keys_iff, Options.get_eq_ok_iff, Options.contains_iff, and_self]
  · exact w.options.nodup_keys
  · rw [← accounted.based]
    exact List.prefix_append _ _
  · rw [Options.get, accounted.value]
    rfl

/-- A key is reset twice after it had been set once more, and another one falls back to its
    default. -/
theorem accounted_run_resets :
    ∃ w, (start ⟨.ofList [("depth", 1), ("width", 2)], .ofList [("font", 3), ("width", 4)]⟩).run
        [.set "color" 5, .reset ["color", "color-of-old", "color-of-old", "width"], .set "color" 6,
          .reset ["width"]] = .ok w ∧
      w.options.keys = ["depth", "width", "font", "color"] ∧
      w.mirror "color" = some 6 ∧ w.options.get "width" = .ok 2 := by
  refine ⟨_, rfl, ?_⟩
  obtain ⟨mirror, -, -, -, value⟩ := accounted_run
    (.ofList [("depth", 1), ("width", 2)]) (.ofList [("font", 3), ("width", 4)])
    [.set "color" 5, .reset ["color", "color-of-old", "color-of-old", "width"], .set "color" 6,
      .reset ["width"]] rfl
  exact ⟨by decide, (mirror "color").trans rfl, (value "width").trans rfl⟩

end OptionWatch

end LyqlHighlight
