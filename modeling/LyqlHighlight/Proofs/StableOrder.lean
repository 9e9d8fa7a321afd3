import LyqlHighlight.Tree.Build
import Mathlib.Data.List.Permutation
import Mathlib.Data.List.Sort

namespace LyqlHighlight

/-!
# The stable order by a key

Siblings are put in order by a sort that keeps the order of those at the same place.  Such a sort
is determined by two facts: the keys ascend, and the members with any one key stand as they stood.

* `eq_of_ascending_of_filter_eq` — two ascending lists with the same members for each key, in the
  same order, are equal;
* `filter_sortBy`, `sortBy_filter` — what a stable sort leaves in place, and that it commutes with
  dropping members;
* `sortBy_map` — sorting by a key of what members are mapped to;
* `Node.mem_inOrder`, `Node.inOrder_filter` — the same for nodes in the order of their places.
-/

variable {α : Type}

/-- The stable sort by an integer key. -/
def sortBy (key : α → Int) (l : List α) : List α :=
  l.mergeSort fun a b => key a ≤ key b

/-! ### What determines a stable sort -/

/-- Members with the first key of an ascending list come first in it. -/
private theorem key_le_of_mem (key : α → Int) {a b : α} {l : List α}
    (h : (a :: l).Pairwise fun x y => key x ≤ key y) (hb : b ∈ a :: l) : key a ≤ key b := by
  rcases List.mem_cons.mp hb with rfl | hb
  · exact le_refl _
  · exact List.rel_of_pairwise_cons h hb

/-- **Uniqueness.** Two ascending lists with the same members for each key, in the same order, are
    equal. -/
theorem eq_of_ascending_of_filter_eq (key : α → Int) {l₁ l₂ : List α}
    (h₁ : l₁.Pairwise fun x y => key x ≤ key y) (h₂ : l₂.Pairwise fun x y => key x ≤ key y)
    (h : ∀ k, l₁.filter (fun x => key x = k) = l₂.filter (fun x => key x = k)) : l₁ = l₂ := by
  -- The keys of the two heads bound each other, so the heads have one key and stand first in the
  -- members with that key.
  induction l₁ generalizing l₂ with
  | nil =>
    cases l₂ with
    | nil => rfl
    | cons b l₂ => simpa using h (key b)
  | cons a l₁ ih =>
    cases l₂ with
    | nil => simpa using h (key a)
    | cons b l₂ =>
      have mem_iff : ∀ x, x ∈ a :: l₁ ↔ x ∈ b :: l₂ := by
        intro x
        have hx := congrArg (x ∈ ·) (h (key x))
        simpa only [List.mem_filter, decide_true, and_true, eq_iff_iff] using hx
      -- Each head is a member of the other list, whose head has the least key.
      have hab : key a ≤ key b := key_le_of_mem key h₁ ((mem_iff b).mpr (by simp))
      have hba : key b ≤ key a := key_le_of_mem key h₂ ((mem_iff a).mp (by simp))
      have hkey : key b = key a := le_antisymm hba hab
      have head : a = b := by
        have ha := h (key a)
        rw [List.filter_cons_of_pos (by simp), List.filter_cons_of_pos (by simp [hkey])] at ha
        exact (List.cons.inj ha).1
      subst head
      -- Without the common head the members for each key still agree, so the rest is equal, too.
      have tail : ∀ k, l₁.filter (fun x => key x = k) = l₂.filter (fun x => key x = k) := by
        intro k
        have hk := h k
        rw [List.filter_cons, List.filter_cons] at hk
        split at hk
        · exact (List.cons.inj hk).2
        · exact hk
      rw [ih (List.Pairwise.of_cons h₁) (List.Pairwise.of_cons h₂) tail]

/-! ### The sort -/

theorem sortBy_perm (key : α → Int) (l : List α) : (sortBy key l).Perm l :=
  List.mergeSort_perm l _

@[simp] theorem mem_sortBy (key : α → Int) {l : List α} {a : α} : a ∈ sortBy key l ↔ a ∈ l :=
  (sortBy_perm key l).mem_iff

private theorem key_le_trans (key : α → Int) (a b c : α) :
    decide (key a ≤ key b) = true → decide (key b ≤ key c) = true →
      decide (key a ≤ key c) = true := by
  simp only [decide_eq_true_eq]
  exact le_trans

private theorem key_le_total (key : α → Int) (a b : α) :
    (decide (key a ≤ key b) || decide (key b ≤ key a)) = true := by
  simp only [Bool.or_eq_true, decide_eq_true_eq]
  exact le_total _ _

/-- The keys ascend in the sorted list. -/
theorem sortBy_ascending (key : α → Int) (l : List α) :
    (sortBy key l).Pairwise fun x y => key x ≤ key y := by
  have h := List.pairwise_mergeSort (key_le_trans key) (key_le_total key) l
  exact h.imp fun hab => of_decide_eq_true hab

/-- **Stability.** The members with one key stay in their order. -/
theorem filter_sortBy (key : α → Int) (l : List α) (k : Int) :
    (sortBy key l).filter (fun x => key x = k) = l.filter (fun x => key x = k) := by
  have ascending : (l.filter fun x => key x = k).Pairwise fun a b => decide (key a ≤ key b) := by
    refine List.pairwise_of_forall_mem_list fun a ha b hb => ?_
    simp only [List.mem_filter, decide_eq_true_eq] at ha hb ⊢
    exact le_of_eq (ha.2.trans hb.2.symm)
  have kept : (l.filter fun x => key x = k).Sublist (sortBy key l) :=
    List.sublist_mergeSort (key_le_trans key) (key_le_total key) ascending List.filter_sublist
  -- A sublist of the same length is the whole list.
  have inner := kept.filter fun x => key x = k
  rw [List.filter_filter] at inner
  simp only [Bool.and_self] at inner
  exact (inner.eq_of_length ((sortBy_perm key l).filter _).length_eq.symm).symm

/-- An ascending list is left as it is. -/
theorem sortBy_of_ascending (key : α → Int) {l : List α}
    (h : l.Pairwise fun x y => key x ≤ key y) : sortBy key l = l :=
  eq_of_ascending_of_filter_eq key (sortBy_ascending key l) h (filter_sortBy key l)

/-- Dropping members before or after the sort is the same. -/
theorem sortBy_filter (key : α → Int) (keep : α → Bool) (l : List α) :
    sortBy key (l.filter keep) = (sortBy key l).filter keep := by
  apply eq_of_ascending_of_filter_eq key
  · exact sortBy_ascending key _
  · exact (sortBy_ascending key l).filter _
  · intro k
    rw [filter_sortBy, List.filter_comm, List.filter_comm (l := sortBy key l), filter_sortBy]

/-- What members are mapped to can be put in order by sorting the members. -/
theorem sortBy_map {β : Type} {key : α → Int} {key' : β → Int} {f : α → β} {l : List α}
    (h : ∀ a ∈ l, key a = key' (f a)) : sortBy key' (l.map f) = (sortBy key l).map f := by
  refine (List.map_mergeSort fun a ha b hb => ?_).symm
  rw [h a ha, h b hb]

/-! ### Nodes in order -/

namespace Node

theorem inOrder_eq_sortBy (nodes : List Node) : inOrder nodes = sortBy place nodes :=
  rfl

@[simp] theorem inOrder_nil : inOrder [] = [] :=
  List.mergeSort_nil

@[simp] theorem mem_inOrder {n : Node} {nodes : List Node} : n ∈ inOrder nodes ↔ n ∈ nodes :=
  mem_sortBy place

theorem inOrder_perm (nodes : List Node) : (inOrder nodes).Perm nodes :=
  sortBy_perm place nodes

theorem inOrder_ascending (nodes : List Node) :
    (inOrder nodes).Pairwise fun a b => a.place ≤ b.place :=
  sortBy_ascending place nodes

theorem inOrder_filter (keep : Node → Bool) (nodes : List Node) :
    inOrder (nodes.filter keep) = (inOrder nodes).filter keep :=
  sortBy_filter place keep nodes

end Node

end LyqlHighlight
