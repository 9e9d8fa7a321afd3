import LyqlHighlight.Paint.Highlighter
import LyqlHighlight.Proofs.StableOrder

namespace LyqlHighlight

/-!
# Painting from the index

A highlighter paints a block from the ranges between two places of its index.  The ranges outside
leave the block alone, so the calls are those of a scan over all ranges.

* `runningMaxima_ascending`, `forall₂_le_runningMaxima` — the greatest entries up to each place;
* `lt_boundary_iff` — what lies before the boundary of an ascending array;
* `filterMap_extract` — a window of a list is enough, if there is nothing outside;
* `Highlighter.paint_eq_filterMap` — painting a block is a scan over all ranges.
-/

/-! ### Running maxima -/

theorem le_of_mem_maximaFrom {most m : Int} {ns : List Int} (h : m ∈ maximaFrom most ns) :
    most ≤ m := by
  induction ns generalizing most with
  | nil => exact absurd h List.not_mem_nil
  | cons n ns ih =>
    rw [maximaFrom, List.mem_cons] at h
    rcases h with rfl | h
    · exact Int.le_max_left most n
    · exact le_trans (Int.le_max_left most n) (ih h)

theorem maximaFrom_ascending (most : Int) (ns : List Int) :
    (maximaFrom most ns).Pairwise (· ≤ ·) := by
  induction ns generalizing most with
  | nil => exact List.Pairwise.nil
  | cons n ns ih => exact List.Pairwise.cons (fun m hm => le_of_mem_maximaFrom hm) (ih _)

theorem forall₂_le_maximaFrom (most : Int) (ns : List Int) :
    List.Forall₂ (· ≤ ·) ns (maximaFrom most ns) := by
  induction ns generalizing most with
  | nil => exact List.Forall₂.nil
  | cons n ns ih => exact List.Forall₂.cons (Int.le_max_right most n) (ih _)

/-- The greatest entries up to each place ascend. -/
theorem runningMaxima_ascending (ns : List Int) : (runningMaxima ns).Pairwise (· ≤ ·) := by
  cases ns with
  | nil => exact List.Pairwise.nil
  | cons n ns =>
    exact List.Pairwise.cons (fun m hm => le_of_mem_maximaFrom hm) (maximaFrom_ascending n ns)

/-- Each entry is at most the greatest up to its place. -/
theorem forall₂_le_runningMaxima (ns : List Int) :
    List.Forall₂ (· ≤ ·) ns (runningMaxima ns) := by
  cases ns with
  | nil => exact List.Forall₂.nil
  | cons n ns => exact List.Forall₂.cons (le_refl n) (forall₂_le_maximaFrom n ns)

/-! ### Windows -/

/-- The entries before the boundary are those for which the condition holds, if it holds of no entry
    behind one for which it does not. -/
theorem lt_boundary_iff {α : Type} {holds : α → Bool} {l : List α}
    (h : l.Pairwise fun a b => holds b → holds a) {i : Nat} (hi : i < l.length) :
    i < boundary holds l.toArray ↔ holds l[i] := by
  have mono : ∀ i j : Nat, i ≤ j → l.toArray[j]?.any holds → l.toArray[i]?.any holds := by
    intro i j hij hj
    rw [List.getElem?_toArray] at hj ⊢
    rcases Nat.lt_or_ge j l.length with hjlt | hjge
    · rw [List.getElem?_eq_getElem hjlt] at hj
      rw [List.getElem?_eq_getElem (by omega)]
      rcases Nat.eq_or_lt_of_le hij with rfl | hlt
      · exact hj
      · exact List.pairwise_iff_getElem.mp h i j (by omega) hjlt hlt hj
    · rw [List.getElem?_eq_none hjge] at hj
      exact absurd hj (by simp)
  -- The bisection runs over an array; read at an index it is the list again.
  unfold boundary
  rw [lt_boundaryWithin_iff mono (Nat.zero_le i) (by simpa using hi), List.getElem?_toArray,
    List.getElem?_eq_getElem hi]
  rfl

/-- A window of a list is enough for `filterMap`, if the function gives nothing outside. -/
theorem filterMap_extract {α β : Type} {f : α → Option β} {l : List α} {first last : Nat}
    (before : ∀ i (h : i < l.length), i < first → f l[i] = none)
    (behind : ∀ i (h : i < l.length), last ≤ i → f l[i] = none) :
    (l.extract first last).filterMap f = l.filterMap f := by
  have drop_first : (l.take first).filterMap f = [] := by
    rw [List.filterMap_eq_nil_iff]
    intro a ha
    obtain ⟨i, hi, rfl⟩ := List.mem_take_iff_getElem.mp ha
    exact before i (by omega) (by omega)
  have drop_last : ((l.drop first).drop (last - first)).filterMap f = [] := by
    rw [List.filterMap_eq_nil_iff]
    intro a ha
    rw [List.drop_drop] at ha
    obtain ⟨i, hi, rfl⟩ := List.mem_drop_iff_getElem.mp ha
    by_cases hfirst : first + (last - first) + i < first
    · exact before _ _ hfirst
    · exact behind _ _ (by omega)
  calc (l.extract first last).filterMap f
      = ((l.drop first).take (last - first)).filterMap f := by rw [List.extract_eq_take_drop]
    _ = ((l.drop first).take (last - first)).filterMap f ++
          ((l.drop first).drop (last - first)).filterMap f := by rw [drop_last, List.append_nil]
    _ = (l.drop first).filterMap f := by rw [← List.filterMap_append, List.take_append_drop]
    _ = (l.take first).filterMap f ++ (l.drop first).filterMap f := by
        rw [drop_first, List.nil_append]
    _ = l.filterMap f := by rw [← List.filterMap_append, List.take_append_drop]

/-! ### The scan over all ranges -/

namespace Highlighter

variable {h : Highlighter} {b : Block} {r : PaintRange}

/-- A range that ends before a block starts leaves it alone. -/
theorem call?_eq_none_of_stop_le (hr : r.stop ≤ b.position) : h.call? b r = none := by
  unfold call?
  rw [Option.bind_eq_none_iff]
  intro format _
  exact if_neg (by omega)

/-- A range that starts after a block ends leaves it alone. -/
theorem call?_eq_none_of_le_start (hr : b.stop ≤ r.start) : h.call? b r = none := by
  unfold Block.stop at hr
  unfold call?
  rw [Option.bind_eq_none_iff]
  intro format _
  exact if_neg (by omega)

/-- **Painting is a scan.** The calls for a block are those of a scan over all ranges of the index
    in their order. -/
theorem paint_eq_filterMap {ranges : List PaintRange} (hx : h.index = .ofList ranges) (b : Block) :
    h.paint b = (sortBy PaintRange.start ranges).filterMap (h.call? b) := by
  have ascending := sortBy_ascending PaintRange.start ranges
  have reaches := forall₂_le_runningMaxima ((sortBy PaintRange.start ranges).map PaintRange.stop)
  have reach_ascending :=
    runningMaxima_ascending ((sortBy PaintRange.start ranges).map PaintRange.stop)
  have near : h.index.near b = (sortBy PaintRange.start ranges).extract
      (boundary (fun (n : Int) => n ≤ b.position)
        (runningMaxima ((sortBy PaintRange.start ranges).map PaintRange.stop)).toArray)
      (boundary (fun (r : PaintRange) => r.start < b.stop)
        (sortBy PaintRange.start ranges).toArray) := by
    rw [hx]
    unfold RangeIndex.near
    rw [Array.toList_extract]
    rfl
  generalize sortBy PaintRange.start ranges = l at *
  have length_eq := reaches.length_eq
  rw [List.length_map] at length_eq
  unfold paint
  rw [near]
  apply filterMap_extract
  · -- In front of the window all ranges so far have stopped before the block.
    intro i hi hfirst
    have mono : (runningMaxima (l.map PaintRange.stop)).Pairwise fun m n =>
        decide (n ≤ b.position) = true → decide (m ≤ b.position) = true :=
      reach_ascending.imp fun hmn hn => by
        simp only [decide_eq_true_eq] at hn ⊢
        exact le_trans hmn hn
    have reach := (lt_boundary_iff mono (length_eq ▸ hi)).mp hfirst
    have stop_le := reaches.get (by simpa using hi) (length_eq ▸ hi)
    simp only [decide_eq_true_eq] at reach
    simp only [List.get_eq_getElem, List.getElem_map] at stop_le
    exact call?_eq_none_of_stop_le (le_trans stop_le reach)
  · -- Behind the window ranges start after the block.
    intro i hi hlast
    have mono : l.Pairwise fun r s =>
        decide (s.start < b.stop) = true → decide (r.start < b.stop) = true :=
      ascending.imp fun hrs hs => by
        simp only [decide_eq_true_eq] at hs ⊢
        exact lt_of_le_of_lt hrs hs
    have outside : ¬l[i].start < b.stop := by
      intro hlt
      have := (lt_boundary_iff mono hi).mpr (by simpa using hlt)
      omega
    exact call?_eq_none_of_le_start (by omega)

end Highlighter

end LyqlHighlight
