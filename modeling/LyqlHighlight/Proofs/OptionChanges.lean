import LyqlHighlight.Editor.Setting

namespace LyqlHighlight

/-!
# Changes of options

What options read as after a change.  Setting values overrides what there was under their keys;
resetting keys uncovers the defaults.  Under all other keys nothing changes.

* `Table.get?_merge` — what a table reads as with another one put in;
* `Options.get?_update`, `Options.get?_reset` — what options read as after a change;
* `Options.error_reset_eq_none_iff` — a reset goes through if it drops no key twice;
* `Options.reset_spec` — all that such a reset does;
* `Options.Announces` — a change announces all keys under which the options then read differently.
-/

namespace Table

variable {α : Type}

theorem get?_foldl_insert (entries : List (String × α)) (t : Table α) (key : String)
    (distinct : (entries.map Prod.fst).Nodup) :
    (entries.foldl (fun t e => t.insert e.1 e.2) t).get? key =
      (entries.lookup key).or (t.get? key) := by
  induction entries generalizing t with
  | nil => rfl
  | cons e entries ih =>
    obtain ⟨k, a⟩ := e
    rw [List.map_cons, List.nodup_cons] at distinct
    rw [List.foldl_cons, ih _ distinct.2, get?_insert, List.lookup_cons]
    by_cases hk : key = k
    · -- The keys are distinct, so no later entry overrides the one under this key.
      have later : entries.lookup k = none := by
        rw [List.lookup_eq_none_iff]
        intro e he
        have hne : k ≠ e.1 := fun h => distinct.1 (List.mem_map.mpr ⟨e, he, h.symm⟩)
        simpa using hne
      rw [if_pos hk, hk, later]
      simp
    · have hk' : (key == k) = false := by simpa using hk
      rw [if_neg hk, hk']

/-- A table with another one put in reads as that one, where it has a value. -/
theorem get?_merge (t u : Table α) (key : String) :
    (t.merge u).get? key = (u.get? key).or (t.get? key) :=
  get?_foldl_insert u.entries t key u.keys_nodup

theorem get?_eq_none_of_not_mem {t : Table α} {key : String} (h : key ∉ t.keys) :
    t.get? key = none := by
  rw [← contains_iff_mem_keys, contains] at h
  simpa using h

end Table

namespace Options

variable {α : Type}

/-- What options read as with values set. -/
theorem get?_update (o : Options α) (values : Table α) (key : String) :
    (o.update values).options.get? key = (values.get? key).or (o.get? key) := by
  show ((o.overrides.merge values).get? key).or (o.defaults.get? key) = _
  rw [Table.get?_merge, Option.or_assoc]
  rfl

/-- Erasing distinct keys that all have values does not break off. -/
theorem eraseEach_of_nodup {keys : List String} (distinct : keys.Nodup) {t : Table α}
    (present : ∀ key ∈ keys, t.contains key = true) :
    (eraseEach t keys).2 = none ∧
      ∀ k, (eraseEach t keys).1.get? k = if k ∈ keys then none else t.get? k := by
  induction keys generalizing t with
  | nil => exact ⟨rfl, fun k => by simp [eraseEach]⟩
  | cons key keys ih =>
    obtain ⟨fresh, distinct⟩ := List.nodup_cons.mp distinct
    have others : ∀ k ∈ keys, (t.erase key).contains k = true := by
      intro k hk
      have hne : k ≠ key := fun h => fresh (h ▸ hk)
      rw [Table.contains, Table.get?_erase, if_neg hne]
      exact present k (List.mem_cons_of_mem _ hk)
    obtain ⟨done, reads⟩ := ih distinct others
    rw [eraseEach, if_pos (present key List.mem_cons_self)]
    refine ⟨done, fun k => ?_⟩
    rw [reads k, Table.get?_erase]
    by_cases hk : k = key
    · simp [hk]
    · simp [hk]

/-- Only distinct keys are erased without breaking off. -/
theorem nodup_of_eraseEach {keys : List String} {t : Table α} (done : (eraseEach t keys).2 = none) :
    keys.Nodup ∧ ∀ key ∈ keys, t.contains key = true := by
  induction keys generalizing t with
  | nil => exact ⟨List.nodup_nil, by simp⟩
  | cons key keys ih =>
    rw [eraseEach] at done
    split at done
    · next present =>
      obtain ⟨distinct, others⟩ := ih done
      -- What is left after the first key has gone does not contain it any more.
      have still : ∀ k ∈ keys, k ≠ key ∧ t.contains k = true := by
        intro k hk
        have left := others k hk
        rw [Table.contains, Table.get?_erase] at left
        split at left
        · cases left
        · next hne => exact ⟨hne, left⟩
      refine ⟨List.nodup_cons.mpr ⟨fun hkey => (still key hkey).1 rfl, distinct⟩, ?_⟩
      exact List.forall_mem_cons.mpr ⟨present, fun k hk => (still k hk).2⟩
    · cases done

/-- The keys that a reset drops: those that have been set. -/
def dropped (o : Options α) (keys : List String) : List String :=
  keys.filter o.overrides.contains

theorem mem_dropped {o : Options α} {keys : List String} {key : String} :
    key ∈ o.dropped keys ↔ key ∈ keys ∧ o.overrides.contains key = true :=
  List.mem_filter

theorem nodup_dropped (o : Options α) {keys : List String} (distinct : keys.Nodup) :
    (o.dropped keys).Nodup :=
  distinct.filter _

theorem error_reset (o : Options α) (keys : List String) :
    (o.reset keys).error = (eraseEach o.overrides (o.dropped keys)).2 := by
  unfold reset
  dsimp only
  rw [show keys.filter o.overrides.contains = o.dropped keys from rfl]
  rcases eraseEach o.overrides (o.dropped keys) with ⟨overrides, _ | error⟩ <;> rfl

/-- A reset goes through exactly if it drops no key twice. -/
theorem error_reset_eq_none_iff {o : Options α} {keys : List String} :
    (o.reset keys).error = none ↔ (o.dropped keys).Nodup := by
  rw [error_reset]
  constructor
  · exact fun done => (nodup_of_eraseEach done).1
  · exact fun once => (eraseEach_of_nodup once fun key hkey => (mem_dropped.mp hkey).2).1

/-- What a reset that goes through leads to.  It uncovers the defaults, and announces the keys that
    had been set, if there were any. -/
structure ResetTo (o : Options α) (keys : List String) (change : OptionChange α) : Prop where
  /-- The reset does not break off. -/
  error : change.error = none
  /-- The keys that had been set are announced. -/
  announced : change.announced = if (o.dropped keys).isEmpty then none else some (o.dropped keys)
  /-- The defaults stay. -/
  defaults : change.options.defaults = o.defaults
  /-- The keys are not set any more, and all others are as before. -/
  overrides : ∀ k, change.options.overrides.get? k =
    if k ∈ keys then none else o.overrides.get? k

theorem reset_spec (o : Options α) {keys : List String} (once : (o.dropped keys).Nodup) :
    o.ResetTo keys (o.reset keys) := by
  have present : ∀ key ∈ o.dropped keys, o.overrides.contains key = true :=
    fun key hkey => (mem_dropped.mp hkey).2
  obtain ⟨done, reads⟩ := eraseEach_of_nodup once present
  -- The keys that are erased are distinct and have values, so erasing them does not break off.
  have change : o.reset keys =
      ⟨{ o with overrides := (eraseEach o.overrides (o.dropped keys)).1 },
        if (o.dropped keys).isEmpty then none else some (o.dropped keys), none⟩ := by
    unfold reset
    dsimp only
    rw [show keys.filter o.overrides.contains = o.dropped keys from rfl]
    generalize eraseEach o.overrides (o.dropped keys) = erased at done ⊢
    obtain ⟨overrides, error⟩ := erased
    simp only at done
    rw [done]
  rw [change]
  refine ⟨rfl, rfl, rfl, fun k => ?_⟩
  rw [reads k]
  by_cases hk : k ∈ keys
  · by_cases hset : o.overrides.contains k = true
    · rw [if_pos (mem_dropped.mpr ⟨hk, hset⟩), if_pos hk]
    · have unset : o.overrides.get? k = none := by simpa [Table.contains] using hset
      rw [if_pos hk, unset, ite_self]
  · rw [if_neg fun h => hk (mem_dropped.mp h).1, if_neg hk]

/-- What options read as after a reset that goes through. -/
theorem get?_reset (o : Options α) {keys : List String} (once : (o.dropped keys).Nodup)
    (key : String) :
    (o.reset keys).options.get? key =
      if key ∈ keys then o.defaults.get? key else o.get? key := by
  have spec := o.reset_spec once
  rw [get?, spec.overrides, spec.defaults]
  by_cases hk : key ∈ keys
  · rw [if_pos hk, if_pos hk]
    rfl
  · rw [if_neg hk, if_neg hk]
    rfl

/-- A change does not break off, and announces all keys under which the options then read
    differently. -/
structure Announces (o : Options α) (change : OptionChange α) (keys : List String) : Prop where
  /-- The change does not break off. -/
  made : change.error = none
  /-- The keys are announced, unless there are none. -/
  announced : change.announced = some keys ∨ (change.announced = none ∧ keys = [])
  /-- Under all other keys the options read as before. -/
  others : ∀ key, key ∉ keys → change.options.get? key = o.get? key

theorem announces_update (o : Options α) (values : Table α) :
    o.Announces (o.update values) values.keys where
  made := rfl
  announced := .inl rfl
  others key hkey := by
    rw [get?_update, Table.get?_eq_none_of_not_mem hkey, Option.none_or]

theorem announces_reset (o : Options α) {keys : List String} (once : (o.dropped keys).Nodup) :
    o.Announces (o.reset keys) (o.dropped keys) := by
  have spec := o.reset_spec once
  refine ⟨spec.error, ?_, fun key hkey => ?_⟩
  · rw [spec.announced]
    rcases o.dropped keys with _ | ⟨key, rest⟩
    · exact .inr ⟨rfl, rfl⟩
    · exact .inl rfl
  · rw [get?_reset o once]
    split
    · next named =>
      -- The key had not been set, so the default was what the options read as before.
      have unset : o.overrides.get? key = none := by
        simpa [mem_dropped, named, Table.contains] using hkey
      rw [get?, unset, Option.none_or]
    · rfl

end Options

/-- A key with a default always has a value. -/
theorem Options.exists_get?_of_mem {o : Options Setting} (h : o.defaults = Setting.defaults)
    (key : String) (defaulted : key ∈ Setting.defaults.keys) : ∃ s, o.get? key = some s := by
  rw [← Table.contains_iff_mem_keys, Table.contains] at defaulted
  obtain ⟨s, hs⟩ := Option.isSome_iff_exists.mp defaulted
  rw [get?, h, hs]
  cases o.overrides.get? key with
  | none => exact ⟨s, rfl⟩
  | some s' => exact ⟨s', rfl⟩

end LyqlHighlight
