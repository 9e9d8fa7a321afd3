import LyqlHighlight.Proofs.Painting
import LyqlHighlight.Proofs.Ranges
import LyqlHighlight.Proofs.Reading
import LyqlHighlight.Proofs.Sessions

namespace LyqlHighlight

/-!
# Taking in a published tree

A highlighter is handed trees whose nodes lie anywhere, and texts other than those that the trees
were made of.  It leaves out the ranges that stop behind the text.  A range that starts in front of
the text is looked up all the same, and then either has no unit or one that is counted from the
wrong end.

* `Tree.start_lt_stop_of_mem`, `Tree.le_start_of_mem_ofRoot` — bounds of the ranges of a tree;
* `Highlighter.TakesIn` — a tree is taken in for a text;
* `Highlighter.setTree_no_error_iff` — when no error comes of a tree;
* `Highlighter.takesIn_all_iff` — when a tree is taken in for each text;
* `Adapter.takesIn_published` — the same for the trees that an adapter publishes.
-/

/-! ### Bounds of ranges -/

namespace Tree

theorem bounds_of_mem_ownRange {type : Descriptor} {offset length : Int} {r : StyledRange}
    (h : r ∈ ownRange type offset length) : r.start = offset ∧ r.start < r.stop := by
  unfold ownRange at h
  split at h
  · split at h
    · rw [List.mem_singleton.mp h]
      exact ⟨rfl, by show offset < offset + length; omega⟩
    · exact absurd h List.not_mem_nil
  · exact absurd h List.not_mem_nil

/-- No range of a tree is empty. -/
theorem start_lt_stop_of_mem {tree : Tree} {offset : Int} {r : StyledRange}
    (h : r ∈ tree.styledRanges offset) : r.start < r.stop := by
  revert h
  -- Over a tree and the list of its children at once, as the walk goes.
  refine styledRanges.induct (fun offset tree => r ∈ tree.styledRanges offset → r.start < r.stop)
    (fun offset children => r ∈ childRanges offset children → r.start < r.stop)
    ?_ ?_ ?_ ?_ offset tree
  · intro offset h
    exact absurd h List.not_mem_nil
  · intro offset type children length ih h
    rcases List.mem_append.mp h with h | h
    · exact (bounds_of_mem_ownRange h).2
    · exact ih h
  · intro offset h
    exact absurd h List.not_mem_nil
  · intro offset position child others ih₁ ih₂ h
    rcases List.mem_append.mp h with h | h
    · exact ih₁ h
    · exact ih₂ h

/-- No range of the tree of a node starts before the tree, since no child does. -/
theorem le_start_of_mem_ofNode {ds : Descriptors} (n : Node) {offset : Int} {r : StyledRange}
    (h : r ∈ (ofNode ds n).styledRanges offset) : offset ≤ r.start := by
  induction n using Node.inductionOn generalizing offset with
  | detached tag nodes _ =>
    rw [ofNode_detached] at h
    exact absurd h List.not_mem_nil
  | spanned tag span nodes ih =>
    rw [ofNode_spanned, styledRanges, childRanges_eq_flatMap, List.flatMap_map] at h
    rcases List.mem_append.mp h with h | h
    · exact le_of_eq (bounds_of_mem_ownRange h).1.symm
    · obtain ⟨c, hc, h⟩ := List.mem_flatMap.mp h
      have inner := ih c (Node.mem_inOrder.mp hc) h
      simp only at inner
      omega

/-- No range of a tree under the root starts before the document, if the node does not. -/
theorem le_start_of_mem_ofRoot {ds : Descriptors} {n : Node}
    (hstart : ∀ span ∈ n.span?, 0 ≤ span.start) {r : StyledRange}
    (h : r ∈ (ofRoot ds n).styledRanges 0) : 0 ≤ r.start := by
  cases n with
  | detached tag nodes => exact absurd h List.not_mem_nil
  | spanned tag span nodes =>
    rw [ofRoot, styledRanges, childRanges, childRanges, List.append_nil] at h
    rcases List.mem_append.mp h with h | h
    · exact le_of_eq (bounds_of_mem_ownRange h).1.symm
    · have inner := le_start_of_mem_ofNode _ h
      have top : 0 ≤ span.start := hstart span rfl
      omega

end Tree

/-! ### Ranges with a place in the text -/

namespace PaintRange

variable {text : List Char}

/-- A range that stops in the text has a place exactly if its start has a unit. -/
theorem exists_ofStyled_iff {r : StyledRange} (hlt : r.start < r.stop)
    (hstop : r.stop ≤ text.length) :
    (∃ p, ofStyled text r = .ok p) ↔
      Text.units text = text.length ∨ -(text.length + 1 : Int) ≤ r.start := by
  have hstart : r.start ≤ text.length := by omega
  have start_iff := Text.exists_unitOffset_iff hstart
  have stop_iff := Text.exists_unitOffset_iff hstop
  unfold ofStyled
  simp only [bind_eq_ok_iff]
  constructor
  · rintro ⟨p, first, hfirst, -⟩
    exact start_iff.mp ⟨first, hfirst⟩
  · intro hplace
    -- The range stops behind its start, so its stop has a unit as well.
    obtain ⟨first, hfirst⟩ := start_iff.mpr hplace
    obtain ⟨last, hlast⟩ := stop_iff.mpr (hplace.imp_right fun hle => by omega)
    exact ⟨_, first, hfirst, last, hlast, rfl⟩

/-- A range within a text that is not empty is not empty in units, and stays within. -/
theorem bounds_inUnits {r : StyledRange} (hr : r.Within text) (hlt : r.start < r.stop) :
    0 ≤ (inUnits text r).start ∧ (inUnits text r).start < (inUnits text r).stop ∧
      (inUnits text r).stop ≤ Text.units text := by
  have nonneg := hr.nonneg
  have stop_le := hr.stop_le
  have grows : Text.unitsBefore text r.start.toNat < Text.unitsBefore text r.stop.toNat :=
    Text.unitsBefore_lt_unitsBefore (by omega) (by omega)
  have within : Text.unitsBefore text r.stop.toNat ≤ Text.unitsBefore text text.length :=
    Text.unitsBefore_le_unitsBefore (by omega)
  rw [Text.unitsBefore_length] at within
  unfold inUnits
  simp only
  omega

end PaintRange

@[simp] theorem RangeIndex.mem_ranges_ofList {ranges : List PaintRange} {r : PaintRange} :
    r ∈ (RangeIndex.ofList ranges).ranges ↔ r ∈ ranges := by
  unfold ofList
  rw [List.mem_toArray]
  exact mem_sortBy PaintRange.start

/-! ### Taking in -/

namespace Highlighter

/-- A highlighter takes in a tree for a text: no error comes of it, and the ranges to paint are not
    empty and lie in the document. -/
structure TakesIn (h : Highlighter) (tree : Tree) (text : String) : Prop where
  /-- No error comes of the tree. -/
  no_error : (h.setTree tree text).2 = none
  /-- The ranges lie in the document and are not empty. -/
  within : ∀ r ∈ (h.setTree tree text).1.index.ranges,
    0 ≤ r.start ∧ r.start < r.stop ∧ r.stop ≤ Text.units text.toList

variable {tree : Tree} {text : String}

/-- No error comes of a tree exactly if the units of the text are its characters, or no range that
    stops in the text starts so far before it that counting from its end finds nothing. -/
theorem setTree_no_error_iff (h : Highlighter) (tree : Tree) (text : String) :
    (h.setTree tree text).2 = none ↔
      Text.units text.toList = text.toList.length ∨
      ∀ r ∈ tree.styledRanges 0, r.stop ≤ text.toList.length →
        -(text.toList.length + 1 : Int) ≤ r.start := by
  have ok_iff : (h.setTree tree text).2 = none ↔
      ∃ ranges, PaintRange.ofTree tree text.toList = .ok ranges := by
    constructor
    · intro done
      obtain ⟨ranges, hranges, -⟩ := h.exists_setTree_eq done
      exact ⟨ranges, hranges⟩
    · rintro ⟨ranges, hranges⟩
      rw [h.setTree_of_ofTree hranges]
  rw [ok_iff]
  unfold PaintRange.ofTree
  rw [exists_mapM_eq_ok_iff]
  constructor
  · intro hall
    by_cases same : Text.units text.toList = text.toList.length
    · exact .inl same
    · refine .inr fun r hr hstop => ?_
      have place := hall r (List.mem_filter.mpr ⟨hr, decide_eq_true hstop⟩)
      rw [PaintRange.exists_ofStyled_iff (Tree.start_lt_stop_of_mem hr) hstop] at place
      exact place.resolve_left same
  · intro hplace r hr
    obtain ⟨hmem, hstop⟩ := List.mem_filter.mp hr
    have hstop : r.stop ≤ text.toList.length := of_decide_eq_true hstop
    rw [PaintRange.exists_ofStyled_iff (Tree.start_lt_stop_of_mem hmem) hstop]
    exact hplace.imp_right fun hall => hall r hmem hstop

/-- A tree is taken in for a text if no range that stops in the text starts before it. -/
theorem takesIn_of_nonneg (h : Highlighter)
    (hstart : ∀ r ∈ tree.styledRanges 0, r.stop ≤ text.toList.length → 0 ≤ r.start) :
    h.TakesIn tree text := by
  have inside : ∀ r ∈ tree.styledRanges 0, r.stop ≤ text.toList.length → r.Within text.toList :=
    fun r hr hstop => ⟨hstart r hr hstop, le_of_lt (Tree.start_lt_stop_of_mem hr), hstop⟩
  have taken := h.setTree_of_ofTree (PaintRange.ofTree_eq_filter inside)
  refine ⟨by rw [taken], fun p hp => ?_⟩
  rw [taken, RangeIndex.mem_ranges_ofList] at hp
  obtain ⟨r, hr, rfl⟩ := List.mem_map.mp hp
  obtain ⟨hmem, hstop⟩ := List.mem_filter.mp hr
  exact PaintRange.bounds_inUnits (inside r hmem (of_decide_eq_true hstop))
    (Tree.start_lt_stop_of_mem hmem)

/-- In a text whose units are its characters each range that stops in it is kept as it is. -/
theorem mem_ranges_setTree_of_units_eq (h : Highlighter)
    (same : Text.units text.toList = text.toList.length) {r : StyledRange}
    (hr : r ∈ tree.styledRanges 0) (hstop : r.stop ≤ text.toList.length) :
    ⟨r.start, r.stop, r.rule.className⟩ ∈ (h.setTree tree text).1.index.ranges := by
  have no_error := (h.setTree_no_error_iff tree text).mpr (.inl same)
  have kept : r ∈ (tree.styledRanges 0).filter fun r => r.stop ≤ (text.toList.length : Int) :=
    List.mem_filter.mpr ⟨hr, decide_eq_true hstop⟩
  have itself : PaintRange.ofStyled text.toList r =
      .ok ⟨r.start, r.stop, r.rule.className⟩ := by
    unfold PaintRange.ofStyled
    rw [Text.unitOffset_of_units_eq same, Text.unitOffset_of_units_eq same]
    rfl
  obtain ⟨ranges, hranges, taken⟩ := h.exists_setTree_eq no_error
  rw [taken, RangeIndex.mem_ranges_ofList]
  exact mem_of_mapM_eq_ok hranges kept itself

/-- **Totality.** A tree is taken in for each text exactly if none of its ranges starts before the
    document. -/
theorem takesIn_all_iff (h : Highlighter) (tree : Tree) :
    (∀ text, h.TakesIn tree text) ↔ ∀ r ∈ tree.styledRanges 0, 0 ≤ r.start := by
  constructor
  · intro hall r hr
    -- A text of plain characters that is long enough keeps the range as it is.
    obtain ⟨text, hlength, same⟩ := Text.exists_units_eq_length r.stop.toNat
    have kept := h.mem_ranges_setTree_of_units_eq same hr (by omega)
    exact ((hall text).within _ kept).1
  · intro hstart text
    exact h.takesIn_of_nonneg fun r hr _ => hstart r hr

end Highlighter

namespace Adapter

/-- **Published trees.** If a pass over some text succeeds, then for each highlighter:

    * the tree is taken in for a text if no range that stops in the text starts before it;
    * it is taken in for each text exactly if none of its ranges starts before the document;
    * so it is if the node that was read has no place, or none before the document;
    * no error comes of it for a text exactly if the units of the text are its characters, or each
      range that stops in the text starts where counting back from the end still finds an entry. -/
theorem takesIn_published (a : Adapter) (ds : Descriptors) (source : String) (outcome : Outcome)
    (returned : (a.attempt ds source).result = .ok outcome) (ok : outcome.ok = true)
    (h : Highlighter) :
    let tree := outcome.snapshot.tree
    (∀ text : String, (∀ r ∈ tree.styledRanges 0, r.stop ≤ text.toList.length → 0 ≤ r.start) →
      h.TakesIn tree text) ∧
    ((∀ text, h.TakesIn tree text) ↔ ∀ r ∈ tree.styledRanges 0, 0 ≤ r.start) ∧
    (∃ v n, a.parser.run source = .value v ∧ Node.ofValue v a.depth = .ok n ∧
      ((∀ span ∈ n.span?, 0 ≤ span.start) → ∀ text, h.TakesIn tree text)) ∧
    (∀ text : String, (h.setTree tree text).2 = none ↔
      Text.units text.toList = text.toList.length ∨
      ∀ r ∈ tree.styledRanges 0, r.stop ≤ text.toList.length →
        -(text.toList.length + 1 : Int) ≤ r.start) := by
  intro tree
  refine ⟨fun text => h.takesIn_of_nonneg, h.takesIn_all_iff tree, ?_,
    h.setTree_no_error_iff tree⟩
  obtain ⟨made, after, hconverts, rfl⟩ := converts_of_ok returned ok
  generalize hreply : a.parser.run source = reply at hconverts
  cases hconverts with
  | @intro v n _ _ read built =>
    refine ⟨v, n, rfl, read, fun hstart => ?_⟩
    rw [h.takesIn_all_iff]
    intro r hr
    have hr : r ∈ made.styledRanges 0 := by
      rw [← a.snapshot_tree made]
      exact hr
    obtain ⟨rfl, -⟩ := Tree.eq_ofRoot_of_buildRoot built
    exact Tree.le_start_of_mem_ofRoot hstart hr

/-- An adapter whose parser reports one string literal for each text. -/
def literalAdapter (span : Span) : Adapter where
  parser := ⟨"literal", fun _ => .value (Node.written "String" span [])⟩

/-- The tree of the literal. -/
def literalTree (span : Span) : Tree :=
  .node ⟨Tree.rootTag, 1, none⟩
    [(span.start, .node ⟨"String", 2, some ⟨"String", .string, "cm-string"⟩⟩ [] span.length)]
    span.stop

/-- A pass over any text publishes the tree of the literal. -/
theorem attempt_literal (span : Span) (ordered : span.start ≤ span.stop) (text : String) :
    ((literalAdapter span).attempt (.empty .lyql) text).result =
      .ok ⟨⟨1, literalTree span⟩, none⟩ := by
  have read : Node.ofValue (Node.written "String" span []) Node.defaultDepth =
      .ok (.spanned "String" span []) := Node.read_written ordered .nil
  have demand : Node.rootDemand Node.defaultDepth (.spanned "String" span []) =
      ⟨[Tree.rootTag, "String"], none⟩ := by
    show Demand.andThen ⟨[Tree.rootTag], none⟩ (Node.demand (510 + 1) _) = _
    rw [Node.demand, Node.inOrder_nil]
    rfl
  have built := Tree.run_buildRoot (congrArg Demand.refused demand) (.empty .lyql)
  have tree : Tree.ofRoot ((Descriptors.empty .lyql).describeAll [Tree.rootTag, "String"])
      (.spanned "String" span []) = literalTree span := by
    rw [Tree.ofRoot, Tree.ofNode_spanned, Node.inOrder_nil]
    rfl
  rw [demand, tree] at built
  rw [attempt_of_ready rfl]
  exact congrArg Pass.result
    (receive_of_converts (a := literalAdapter span) (.intro read built))

/-- A literal that starts in the document is taken in for each text.  One that starts before it is
    not, and has no unit in a text with a character of two units. -/
theorem takesIn_published_literal :
    (∃ outcome, ((literalAdapter ⟨1, 3⟩).attempt (.empty .lyql) "abc").result = .ok outcome ∧
      outcome.ok = true ∧
      ∀ text, (Highlighter.ofSpecs [] .none).TakesIn outcome.snapshot.tree text) ∧
    ∃ outcome, ((literalAdapter ⟨-5, 2⟩).attempt (.empty .lyql) "abc").result = .ok outcome ∧
      outcome.ok = true ∧
      ¬(∀ text, (Highlighter.ofSpecs [] .none).TakesIn outcome.snapshot.tree text) ∧
      ((Highlighter.ofSpecs [] .none).setTree outcome.snapshot.tree "😀a").2 ≠ none := by
  constructor
  · have returned := attempt_literal ⟨1, 3⟩ (by decide) "abc"
    refine ⟨_, returned, rfl, ?_⟩
    obtain ⟨-, -, ⟨v, n, hreply, hread, hall⟩, -⟩ :=
      takesIn_published _ _ _ _ returned rfl (Highlighter.ofSpecs [] .none)
    cases hreply
    cases hread
    exact hall (by decide)
  · have returned := attempt_literal ⟨-5, 2⟩ (by decide) "abc"
    refine ⟨_, returned, rfl, ?_⟩
    obtain ⟨-, all_iff, -, no_error_iff⟩ :=
      takesIn_published _ _ _ _ returned rfl (Highlighter.ofSpecs [] .none)
    rw [Ne, all_iff, no_error_iff]
    decide +kernel

/-- So what is published need not be taken in. -/
theorem not_takesIn_published :
    ¬∀ (a : Adapter) (ds : Descriptors) (source : String) (outcome : Outcome),
      (a.attempt ds source).result = .ok outcome → outcome.ok = true →
      ∀ (h : Highlighter) (text : String), h.TakesIn outcome.snapshot.tree text := by
  intro hall
  have taken := hall _ _ _ _ (attempt_literal ⟨-5, 2⟩ (by decide) "😀a") rfl
    (Highlighter.ofSpecs [] .none) "😀a"
  have refused : ((Highlighter.ofSpecs [] .none).setTree (literalTree ⟨-5, 2⟩) "😀a").2 =
      some .outOfRange := by decide +kernel
  rw [taken.no_error] at refused
  cases refused

end Adapter

end LyqlHighlight
