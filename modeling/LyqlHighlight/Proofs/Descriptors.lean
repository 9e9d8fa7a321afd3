import LyqlHighlight.Descriptor
import Mathlib.Data.List.Basic

namespace LyqlHighlight

/-!
# Histories of descriptors

Descriptors change in one way only: a tag is asked for.  So the descriptors over a registry that
can come about are those after some row of tags.

* `Descriptors.describeAll` — the descriptors after a row of tags;
* `Descriptors.describe_describeAll` — a descriptor once handed out stays;
* `Descriptors.Faithful`, `Descriptors.style_describe` — the rule in a descriptor is the one of the
  registry.
-/

namespace Descriptors

/-- The descriptors after tags have been asked for one by one. -/
def describeAll (ds : Descriptors) (tags : List String) : Descriptors :=
  tags.foldl (fun ds tag => (ds.describe tag).2) ds

theorem describeAll_cons (ds : Descriptors) (tag : String) (tags : List String) :
    ds.describeAll (tag :: tags) = (ds.describe tag).2.describeAll tags := rfl

theorem describeAll_append (ds : Descriptors) (tags more : List String) :
    ds.describeAll (tags ++ more) = (ds.describeAll tags).describeAll more :=
  List.foldl_append

/-! ### A descriptor once handed out stays -/

/-- Asking for a tag leaves the descriptors of others as they are. -/
theorem get?_describe_of_get? {ds : Descriptors} {t : String} {d : Descriptor}
    (h : ds.get? t = some d) (tag : String) : (ds.describe tag).2.get? t = some d := by
  unfold describe
  split
  · exact h
  · show (ds.known ++ _).find? _ = some d
    rw [List.find?_append, show ds.known.find? (·.name = t) = some d from h, Option.some_or]

/-- A tag has the descriptor that it was given. -/
theorem get?_describe_self (ds : Descriptors) (tag : String) :
    (ds.describe tag).2.get? tag = some (ds.describe tag).1 := by
  unfold describe
  split
  · next d hd => exact hd
  · next hnone =>
    show (ds.known ++ _).find? _ = _
    rw [List.find?_append, show ds.known.find? (·.name = tag) = none from hnone, Option.none_or]
    simp

theorem get?_describeAll_of_get? {ds : Descriptors} {t : String} {d : Descriptor}
    (h : ds.get? t = some d) (tags : List String) : (ds.describeAll tags).get? t = some d := by
  induction tags generalizing ds with
  | nil => exact h
  | cons tag tags ih => exact ih (get?_describe_of_get? h tag)

/-- A tag that has a descriptor is given that one. -/
theorem describe_fst_of_get? {ds : Descriptors} {tag : String} {d : Descriptor}
    (h : ds.get? tag = some d) : (ds.describe tag).1 = d := by
  unfold describe
  rw [h]

/-- **Stability.** Once a tag has been asked for, it is given the same descriptor ever after. -/
theorem describe_describeAll (ds : Descriptors) (tag : String) (more : List String) :
    (((ds.describe tag).2.describeAll more).describe tag).1 = (ds.describe tag).1 :=
  describe_fst_of_get? (get?_describeAll_of_get? (get?_describe_self ds tag) more)

/-! ### Rules -/

@[simp] theorem registry_describe (ds : Descriptors) (tag : String) :
    (ds.describe tag).2.registry = ds.registry := by
  unfold describe
  split <;> rfl

@[simp] theorem registry_describeAll (ds : Descriptors) (tags : List String) :
    (ds.describeAll tags).registry = ds.registry := by
  induction tags generalizing ds with
  | nil => rfl
  | cons tag tags ih => rw [describeAll_cons, ih, registry_describe]

/-- Each descriptor holds the rule that the registry has for its tag. -/
def Faithful (ds : Descriptors) : Prop :=
  ∀ d ∈ ds.known, d.style = ds.registry.rule? d.name

theorem faithful_empty (r : Registry) : (empty r).Faithful := by
  intro d hd
  exact absurd hd List.not_mem_nil

theorem Faithful.describe {ds : Descriptors} (h : ds.Faithful) (tag : String) :
    (ds.describe tag).2.Faithful := by
  unfold Descriptors.describe
  split
  · exact h
  · intro d hd
    rcases List.mem_append.mp hd with old | new
    · exact h d old
    · rw [List.mem_singleton.mp new]

theorem Faithful.describeAll {ds : Descriptors} (h : ds.Faithful) (tags : List String) :
    (ds.describeAll tags).Faithful := by
  induction tags generalizing ds with
  | nil => exact h
  | cons tag tags ih => exact ih (h.describe tag)

/-- The descriptor of a tag holds the rule that the registry has for the tag. -/
theorem Faithful.style_describe {ds : Descriptors} (h : ds.Faithful) (tag : String) :
    (ds.describe tag).1.style = ds.registry.rule? tag := by
  unfold Descriptors.describe
  split
  · next d hd =>
    have name : d.name = tag := by simpa using List.find?_some hd
    rw [h d (List.mem_of_find?_eq_some hd), name]
  · rfl

/-- Whatever has been asked for, the descriptor of a tag holds the rule of the registry. -/
theorem style_describe (r : Registry) (tags : List String) (tag : String) :
    (((empty r).describeAll tags).describe tag).1.style = r.rule? tag := by
  rw [((faithful_empty r).describeAll tags).style_describe, registry_describeAll]
  rfl

end Descriptors

end LyqlHighlight
