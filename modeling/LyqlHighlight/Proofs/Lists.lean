import Mathlib.Data.List.Forall2
import Mathlib.Data.List.Induction

namespace LyqlHighlight

/-!
# Lists

Facts about lists of parts of a text, one or none for each member, or in a row.

* `filterMap_cons_toList` — the first member of a list that is mapped to parts;
* `bind_eq_ok_iff`, `bind_eq_error_iff` — actions in a row that do not fail, or do;
* `mapM_eq_ok_iff` — actions for each member that do not fail;
* `error?`, `error?_mapM` — the error of an action, or of one for each member;
* `mapM_eq_ok` — an action for each member that never fails;
* `exists_pairs` — something for each member of a list;
* `filter_eq_singleton` — the only member of a row over some place;
* `pairwise_imp_iff` — some of the members make up the front of a row;
* `map_modify` — what a list is mapped to where a change of a member cannot be seen;
* `FirstOccurrences`, `firstOccurrences_eraseDups` — the members of a list, each of them once.
-/

variable {α β ε : Type}

theorem filterMap_cons_toList (f : α → Option β) (a : α) (l : List α) :
    (a :: l).filterMap f = (f a).toList ++ l.filterMap f := by
  rw [List.filterMap_eq_flatMap_toList, List.filterMap_eq_flatMap_toList, List.flatMap_cons]

/-- Two actions in a row do not fail exactly if neither of them does. -/
theorem bind_eq_ok_iff {m : Except ε α} {f : α → Except ε β} {b : β} :
    m >>= f = .ok b ↔ ∃ a, m = .ok a ∧ f a = .ok b := by
  cases m <;> simp [bind, Except.bind]

/-- Two actions in a row fail exactly if the first one does, or the second one behind it. -/
theorem bind_eq_error_iff {m : Except ε α} {f : α → Except ε β} {e : ε} :
    m >>= f = .error e ↔ m = .error e ∨ ∃ a, m = .ok a ∧ f a = .error e := by
  cases m <;> simp [bind, Except.bind]

/-- An action for each member gives certain values exactly if it gives each member its value. -/
theorem mapM_eq_ok_iff {f : α → Except ε β} {l : List α} {values : List β} :
    l.mapM f = .ok values ↔ List.Forall₂ (fun a b => f a = .ok b) l values := by
  induction l generalizing values with
  | nil =>
    rw [List.mapM_nil, List.forall₂_nil_left_iff]
    exact ⟨fun h => (Except.ok.inj h).symm, fun h => congrArg Except.ok h.symm⟩
  | cons a l ih =>
    rw [List.mapM_cons, bind_eq_ok_iff, List.forall₂_cons_left_iff]
    simp only [bind_eq_ok_iff, ih]
    constructor
    · rintro ⟨b, hb, others, hothers, h⟩
      exact ⟨b, others, hb, hothers, (Except.ok.inj h).symm⟩
    · rintro ⟨b, others, hb, hothers, rfl⟩
      exact ⟨b, hb, others, hothers, rfl⟩

/-- Each value of an action for each member is that of some member. -/
theorem exists_of_mapM_eq_ok {f : α → Except ε β} {l : List α} {values : List β}
    (h : l.mapM f = .ok values) {b : β} (hb : b ∈ values) : ∃ a ∈ l, f a = .ok b := by
  have all := mapM_eq_ok_iff.mp h
  induction all with
  | nil => exact absurd hb List.not_mem_nil
  | cons hab hrest ih =>
    rcases List.mem_cons.mp hb with rfl | hb
    · exact ⟨_, List.mem_cons_self, hab⟩
    · obtain ⟨a, ha, hfa⟩ := ih (mapM_eq_ok_iff.mpr hrest) hb
      exact ⟨a, List.mem_cons_of_mem _ ha, hfa⟩

/-- The value of each member is among those of an action for each member. -/
theorem mem_of_mapM_eq_ok {f : α → Except ε β} {l : List α} {values : List β}
    (h : l.mapM f = .ok values) {a : α} (ha : a ∈ l) {b : β} (hb : f a = .ok b) : b ∈ values := by
  have all := mapM_eq_ok_iff.mp h
  induction all with
  | nil => exact absurd ha List.not_mem_nil
  | cons hfirst hrest ih =>
    rcases List.mem_cons.mp ha with rfl | ha
    · rw [hb] at hfirst
      rw [Except.ok.inj hfirst]
      exact List.mem_cons_self
    · exact List.mem_cons_of_mem _ (ih (mapM_eq_ok_iff.mpr hrest) ha)

/-- An action for each member does not fail exactly if it fails for none. -/
theorem exists_mapM_eq_ok_iff {f : α → Except ε β} {l : List α} :
    (∃ values, l.mapM f = .ok values) ↔ ∀ a ∈ l, ∃ b, f a = .ok b := by
  simp only [mapM_eq_ok_iff]
  induction l with
  | nil => simp
  | cons a l ih =>
    rw [List.forall_mem_cons, ← ih]
    simp only [List.forall₂_cons_left_iff]
    constructor
    · rintro ⟨values, b, others, hb, hothers, -⟩
      exact ⟨⟨b, hb⟩, others, hothers⟩
    · rintro ⟨⟨b, hb⟩, others, hothers⟩
      exact ⟨b :: others, b, others, hb, hothers, rfl⟩

/-- The error of an action, if it fails. -/
def error? : Except ε α → Option ε
  | .ok _ => none
  | .error e => some e

theorem error?_eq_some_iff {m : Except ε α} {e : ε} : error? m = some e ↔ m = .error e := by
  cases m <;> simp [error?]

theorem error?_eq_none_iff {m : Except ε α} : error? m = none ↔ ∃ a, m = .ok a := by
  cases m <;> simp [error?]

/-- An action for each member fails with the error of the first one for which it does. -/
theorem error?_mapM (f : α → Except ε β) (l : List α) :
    error? (l.mapM f) = l.findSome? fun a => error? (f a) := by
  induction l with
  | nil => rfl
  | cons a l ih =>
    rw [List.mapM_cons, List.findSome?_cons, ← ih]
    cases f a with
    | error e => rfl
    | ok b => cases l.mapM f <;> rfl

/-- If no member makes an action fail, it gives the values of all members. -/
theorem mapM_eq_ok {f : α → Except ε β} {g : α → β} {l : List α}
    (hf : ∀ a ∈ l, f a = .ok (g a)) : l.mapM f = .ok (l.map g) := by
  induction l with
  | nil => rfl
  | cons a l ih =>
    rw [List.mapM_cons, hf a List.mem_cons_self, ih fun b hb => hf b (List.mem_cons_of_mem _ hb)]
    rfl

/-- If there is something for each member, it can be put in front of the members in one list. -/
theorem exists_pairs {P : α → β → Prop} {l : List β} (h : ∀ b ∈ l, ∃ a, P a b) :
    ∃ pairs : List (α × β), pairs.map Prod.snd = l ∧ ∀ p ∈ pairs, P p.1 p.2 := by
  induction l with
  | nil => exact ⟨[], rfl, by simp⟩
  | cons b l ih =>
    obtain ⟨a, hab⟩ := h b List.mem_cons_self
    obtain ⟨pairs, rfl, hpairs⟩ := ih fun c hc => h c (List.mem_cons_of_mem _ hc)
    exact ⟨(a, b) :: pairs, rfl, List.forall_mem_cons.mpr ⟨hab, hpairs⟩⟩

/-- A member is the only one that is kept, if none is kept that stands in the relation to it, or it
    to them. -/
theorem filter_eq_singleton {R : α → α → Prop} {keep : α → Bool} {l : List α} {a : α}
    (row : l.Pairwise R) (ha : a ∈ l) (kept : keep a = true)
    (before : ∀ b, R b a → ¬ keep b = true) (after : ∀ b, R a b → ¬ keep b = true) :
    l.filter keep = [a] := by
  obtain ⟨front, back, rfl⟩ := List.append_of_mem ha
  obtain ⟨-, behind, earlier⟩ := List.pairwise_append.mp row
  have no_earlier : front.filter keep = [] := by
    rw [List.filter_eq_nil_iff]
    intro b hb
    exact before b (earlier b hb a List.mem_cons_self)
  have no_later : back.filter keep = [] := by
    rw [List.filter_eq_nil_iff]
    intro b hb
    exact after b ((List.pairwise_cons.mp behind).1 b hb)
  rw [List.filter_append, no_earlier, List.filter_cons_of_pos kept, no_later]
  rfl

/-- None of some members stands behind one of the others exactly if they make up the front. -/
theorem pairwise_imp_iff {p : α → Prop} {l : List α} :
    (l.Pairwise fun a b => p b → p a) ↔
      ∃ front back, l = front ++ back ∧ (∀ a ∈ front, p a) ∧ ∀ b ∈ back, ¬p b := by
  constructor
  · intro row
    induction l with
    | nil => exact ⟨[], [], rfl, by simp, by simp⟩
    | cons a l ih =>
      obtain ⟨first, others⟩ := List.pairwise_cons.mp row
      by_cases ha : p a
      · obtain ⟨front, back, rfl, hfront, hback⟩ := ih others
        exact ⟨a :: front, back, rfl, List.forall_mem_cons.mpr ⟨ha, hfront⟩, hback⟩
      · have none : ∀ b ∈ l, ¬p b := fun b hb hpb => ha (first b hb hpb)
        exact ⟨[], a :: l, rfl, by simp, List.forall_mem_cons.mpr ⟨ha, none⟩⟩
  · rintro ⟨front, back, rfl, hfront, hback⟩
    refine List.pairwise_append.mpr ⟨?_, ?_, fun a ha _ _ _ => hfront a ha⟩
    · exact List.pairwise_of_forall_mem_list fun a ha _ _ _ => hfront a ha
    · exact List.pairwise_of_forall_mem_list fun _ _ b hb hpb => absurd hpb (hback b hb)

/-- A change of one member that cannot be seen in what it is mapped to. -/
theorem map_modify {f : α → α} {g : α → β} (unseen : ∀ a, g (f a) = g a) (l : List α) (i : Nat) :
    (l.modify i f).map g = l.map g := by
  apply List.ext_getElem?
  intro j
  rw [List.getElem?_map, List.getElem?_modify, List.getElem?_map]
  cases l[j]? with
  | none => rfl
  | some a => by_cases hj : i = j <;> simp [hj, unseen]

/-- The row holds the members of a list, each of them once, in the order in which they first occur
    there. -/
structure FirstOccurrences [DecidableEq α] (l row : List α) : Prop where
  /-- The members are those of the list. -/
  mem_iff : ∀ x, x ∈ row ↔ x ∈ l
  /-- None is repeated. -/
  nodup : row.Nodup
  /-- An earlier one has the earlier place in the list. -/
  ascending : row.Pairwise fun x y => l.idxOf x < l.idxOf y

theorem firstOccurrences_eraseDups [DecidableEq α] (l : List α) : FirstOccurrences l l.eraseDups := by
  have ascending : l.eraseDups.Pairwise fun x y => l.idxOf x < l.idxOf y := by
    -- From the front on, so that a new member has the last place of all.
    induction l using List.reverseRecOn with
    | nil => exact .nil
    | append_singleton l x ih =>
      have places : l.eraseDups.Pairwise fun y z => (l ++ [x]).idxOf y < (l ++ [x]).idxOf z := by
        refine ih.imp_of_mem fun hy hz before => ?_
        rwa [List.idxOf_append_of_mem (List.mem_eraseDups.mp hy),
          List.idxOf_append_of_mem (List.mem_eraseDups.mp hz)]
      rw [List.eraseDups_append]
      by_cases known : x ∈ l
      · simpa [List.removeAll, known] using places
      · have itself : [x].removeAll l = [x] := by simp [List.removeAll, known]
        rw [itself]
        refine List.pairwise_append.mpr ⟨places, List.pairwise_singleton .., fun y hy z hz => ?_⟩
        rw [List.mem_singleton.mp hz]
        have inside := List.mem_eraseDups.mp hy
        rw [List.idxOf_append_of_mem inside, List.idxOf_append, if_neg known]
        exact Nat.lt_add_left _ (List.idxOf_lt_length_iff.mpr inside)
  refine ⟨fun x => List.mem_eraseDups, ascending.imp fun before => ?_, ascending⟩
  rintro rfl
  exact Nat.lt_irrefl _ before

end LyqlHighlight
