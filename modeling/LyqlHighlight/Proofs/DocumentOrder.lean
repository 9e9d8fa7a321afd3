import LyqlHighlight.Proofs.Nesting
import LyqlHighlight.Proofs.Painting
import LyqlHighlight.Proofs.Ranges

namespace LyqlHighlight

/-!
# Ranges in document order

Where nodes lie inside their parents and apart from their siblings, a walk yields the ranges in the
order of the document: of two ranges the later one lies inside the earlier one or behind it.  A
highlighter sorts the ranges by their starts, which then changes nothing.

* `StyledRange.Follows`, `StyledRange.InDocumentOrder` — the order of two ranges, and what follows
  for a row of them;
* `Node.Nested.ranges_follow`, `Node.Nested.ranges_inDocumentOrder` — the ranges of nested nodes;
* `Tree.inDocumentOrder_of_nested` — the ranges of a tree that was built of nested nodes, and what a
  highlighter makes of them.
-/

namespace StyledRange

/-- The characters of a range. -/
def span (s : StyledRange) : Span :=
  ⟨s.start, s.stop⟩

/-- The later of two ranges lies inside the earlier one or behind it. -/
def Follows (s t : StyledRange) : Prop :=
  t.span.Inside s.span ∨ s.stop ≤ t.start

theorem follows_iff {s t : StyledRange} :
    s.Follows t ↔ (s.start ≤ t.start ∧ t.stop ≤ s.stop) ∨ s.stop ≤ t.start := by
  rw [Follows, Span.inside_iff]
  rfl

/-- A row of ranges in the order of a document. -/
structure InDocumentOrder (ranges : List StyledRange) : Prop where
  /-- The starts do not decrease. -/
  ascending : ranges.Pairwise fun s t => s.start ≤ t.start
  /-- Any two ranges are nested or apart. -/
  laminar : ranges.Pairwise fun s t =>
    s.span.Inside t.span ∨ t.span.Inside s.span ∨ s.span.Apart t.span
  /-- A range that lies inside another one comes later, unless both hold the same characters. -/
  outer_first : ranges.Pairwise fun s t => s.span.Inside t.span → s.span = t.span

/-- Ranges that are not empty and follow each other are in the order of the document. -/
theorem inDocumentOrder_of_follows {ranges : List StyledRange}
    (nonempty : ∀ s ∈ ranges, s.start < s.stop) (follow : ranges.Pairwise Follows) :
    InDocumentOrder ranges where
  ascending := by
    refine follow.imp_of_mem fun {s t} hs _ hst => ?_
    have := nonempty s hs
    have := follows_iff.mp hst
    omega
  laminar := by
    refine follow.imp fun {s t} hst => ?_
    rcases hst with inside | behind
    · exact .inr (.inl inside)
    · exact .inr (.inr (Span.apart_iff.mpr (.inr (.inr (.inl behind)))))
  outer_first := by
    refine follow.imp_of_mem fun {s t} hs ht hst enclosed => ?_
    have := nonempty s hs
    have := nonempty t ht
    have := follows_iff.mp hst
    simp only [Span.inside_iff, span, Span.mk.injEq] at enclosed ⊢
    omega

end StyledRange

/-! ### The ranges of nested nodes -/

/-- What a visited node that is not displaced has for a range. -/
theorem Visit.rangeAt_zero_eq_some {r : Registry} {v : Visit} {range : StyledRange}
    (h : v.rangeAt r 0 = some range) :
    v.span.start < v.span.stop ∧ range.start = v.span.start ∧ range.stop = v.span.stop := by
  unfold rangeAt at h
  split at h
  · next hlt =>
    obtain ⟨rule, _, rfl⟩ := Option.map_eq_some_iff.mp h
    exact ⟨hlt, Int.add_zero _, Int.add_zero _⟩
  · exact absurd h (by simp)

namespace Node.Nested

variable {tag : String} {span : Span} {nodes : List Node} {r : Registry}

/-- A visited node, or the root, lies between the start of the document and the end of the top
    node. -/
theorem within_of_mem (h : Nested (.spanned tag span nodes)) (htop : 0 ≤ span.start) {v : Visit}
    (hv : v ∈ Visit.atRoot span.stop :: (Node.spanned tag span nodes).visits) :
    0 ≤ v.span.start ∧ v.span.stop ≤ span.stop := by
  rcases List.mem_cons.mp hv with rfl | hv
  · exact ⟨le_refl 0, le_refl span.stop⟩
  · have inside := (h.visit_inside hv).1 span rfl
    exact ⟨le_trans htop inside.start_le, inside.stop_le⟩

/-- The ranges of nested nodes lie there, too, and none of them is empty. -/
theorem bounds_of_mem_ranges (h : Nested (.spanned tag span nodes)) (htop : 0 ≤ span.start)
    {s : StyledRange}
    (hs : s ∈ (Visit.atRoot span.stop :: (Node.spanned tag span nodes).visits).filterMap
      (Visit.rangeAt r 0)) : 0 ≤ s.start ∧ s.start < s.stop ∧ s.stop ≤ span.stop := by
  obtain ⟨v, hv, hrange⟩ := List.mem_filterMap.mp hs
  obtain ⟨hlt, hstart, hstop⟩ := Visit.rangeAt_zero_eq_some hrange
  have := h.within_of_mem htop hv
  omega

/-- The ranges of nested nodes follow each other. -/
theorem ranges_follow (h : Nested (.spanned tag span nodes)) (htop : 0 ≤ span.start) :
    ((Visit.atRoot span.stop :: (Node.spanned tag span nodes).visits).filterMap
      (Visit.rangeAt r 0)).Pairwise StyledRange.Follows := by
  rw [List.pairwise_filterMap, List.pairwise_cons]
  constructor
  · -- The root starts with the document and ends with the top node, so it encloses all others.
    intro w hw s hs t ht
    obtain ⟨_, hstart, hstop⟩ := Visit.rangeAt_zero_eq_some hs
    obtain ⟨_, htstart, htstop⟩ := Visit.rangeAt_zero_eq_some ht
    have inside := Span.inside_iff.mp ((h.visit_inside hw).1 span rfl)
    have root : (Visit.atRoot span.stop).span = ⟨0, span.stop⟩ := rfl
    simp only [root] at hstart hstop
    apply StyledRange.follows_iff.mpr
    omega
  · refine (h.visits_follow []).imp fun {v w} hvw s hs t ht => ?_
    obtain ⟨hv, hstart, hstop⟩ := Visit.rangeAt_zero_eq_some hs
    obtain ⟨hw, htstart, htstop⟩ := Visit.rangeAt_zero_eq_some ht
    apply StyledRange.follows_iff.mpr
    rcases hvw with ⟨inside, -⟩ | behind
    · have := Span.inside_iff.mp inside
      omega
    · have := behind hv hw
      omega

/-- The ranges of nested nodes are in the order of the document. -/
theorem ranges_inDocumentOrder (h : Nested (.spanned tag span nodes)) (htop : 0 ≤ span.start) :
    StyledRange.InDocumentOrder
      ((Visit.atRoot span.stop :: (Node.spanned tag span nodes).visits).filterMap
        (Visit.rangeAt r 0)) :=
  StyledRange.inDocumentOrder_of_follows (fun _ hs => (h.bounds_of_mem_ranges htop hs).2.1)
    (h.ranges_follow htop)

end Node.Nested

/-! ### The ranges of a tree -/

namespace Highlighter

/-- Ranges that ascend are stored in the order of the tree, if they lie within the text. -/
theorem setTree_of_ascending (h : Highlighter) {tree : Tree} {text : String}
    (hr : ∀ s ∈ tree.styledRanges 0, s.Within text.toList)
    (ascending : (tree.styledRanges 0).Pairwise fun s t => s.start ≤ t.start) :
    (h.setTree tree text).2 = none ∧
      (h.setTree tree text).1.index.ranges.toList =
        (tree.styledRanges 0).map (PaintRange.inUnits text.toList) := by
  rw [setTree_eq h hr]
  refine ⟨rfl, ?_⟩
  exact sortBy_of_ascending _ (PaintRange.ascending_inUnits ascending)

end Highlighter

namespace Tree

variable {r : Registry} {asked : List String} {n : Node} {depth : Int} {tree : Tree}
  {ds : Descriptors}

/-- The ranges of a tree that was built of nested nodes are the spans of the nodes. -/
theorem styledRanges_of_nested {tag : String} {span : Span} {nodes : List Node}
    (nested : (Node.spanned tag span nodes).Nested)
    (built : (buildRoot (.spanned tag span nodes) depth).run.run
      ((Descriptors.empty r).describeAll asked) = (.ok tree, ds)) :
    tree.styledRanges 0 =
      (Visit.atRoot span.stop :: (Node.spanned tag span nodes).visits).filterMap
        (Visit.rangeAt r 0) := by
  rw [styledRanges_of_built built]
  refine filterMap_range?_of_startsInParent (nested.startsInParent ?_) span.stop
  rintro s _ parent ⟨⟩

/-- The tree of a detached node is empty. -/
theorem eq_empty_of_detached {tag : String} {nodes : List Node}
    (built : (buildRoot (.detached tag nodes) depth).run.run
      ((Descriptors.empty r).describeAll asked) = (.ok tree, ds)) : tree = .empty := by
  cases built
  rfl

/-- **Document order.** Take nested nodes the topmost of which starts in the document, and a tree
    built of them, whatever has been asked for before.  The walk over the tree yields the ranges in
    the order of the document: their starts do not decrease, any two of them are nested or apart, and
    an enclosing range comes before those that it encloses.  So for each text that contains the
    ranges, the highlighter stores them in the order in which the walk yields them: there is nothing
    for its sort to move. -/
theorem inDocumentOrder_of_nested (r : Registry) (asked : List String) (n : Node) (depth : Int)
    (tree : Tree) (ds : Descriptors) (nested : n.Nested) (htop : ∀ s ∈ n.span?, 0 ≤ s.start)
    (built : (buildRoot n depth).run.run ((Descriptors.empty r).describeAll asked) =
      (.ok tree, ds)) :
    StyledRange.InDocumentOrder (tree.styledRanges 0) ∧
      ∀ (h : Highlighter) (text : String),
        (∀ s ∈ tree.styledRanges 0, s.stop ≤ text.length) →
        PaintRange.ofTree tree text.toList =
            .ok ((tree.styledRanges 0).map (PaintRange.inUnits text.toList)) ∧
          (h.setTree tree text).2 = none ∧
          (h.setTree tree text).1.index.ranges.toList =
            (tree.styledRanges 0).map (PaintRange.inUnits text.toList) := by
  have facts : StyledRange.InDocumentOrder (tree.styledRanges 0) ∧
      ∀ s ∈ tree.styledRanges 0, 0 ≤ s.start ∧ s.start < s.stop := by
    cases n with
    | detached tag nodes =>
      rw [eq_empty_of_detached built, styledRanges]
      exact ⟨⟨.nil, .nil, .nil⟩, by simp⟩
    | spanned tag span nodes =>
      rw [styledRanges_of_nested nested built]
      refine ⟨nested.ranges_inDocumentOrder (htop span rfl), fun s hs => ?_⟩
      have := nested.bounds_of_mem_ranges (htop span rfl) hs
      omega
  obtain ⟨order, bounds⟩ := facts
  refine ⟨order, fun h text contains => ?_⟩
  rw [← String.length_toList] at contains
  have within : ∀ s ∈ tree.styledRanges 0, s.Within text.toList := fun s hs =>
    ⟨(bounds s hs).1, le_of_lt (bounds s hs).2, contains s hs⟩
  exact ⟨PaintRange.ofTree_eq within, h.setTree_of_ascending within order.ascending⟩

/-- Nodes out of order: one with a child of the same span, a detached one, and empty ones. -/
def shuffledNodes : List Node :=
  [.spanned "Word" ⟨4, 6⟩ [], .detached "Part" [.spanned "Part" ⟨0, 9⟩ []],
    .spanned "Part" ⟨1, 4⟩ [.spanned "Word" ⟨2, 2⟩ [], .spanned "Word" ⟨1, 4⟩ []],
    .spanned "Part" ⟨3, 3⟩ []]

theorem nested_shuffledNodes : (Node.spanned "Whole" ⟨1, 6⟩ shuffledNodes).Nested := by
  have inner : (Node.spanned "Part" ⟨1, 4⟩
      [.spanned "Word" ⟨2, 2⟩ [], .spanned "Word" ⟨1, 4⟩ []]).Nested := by
    refine .spanned _ _ _ ?_ ?_ (by simpa using ⟨.leaf _ _, .leaf _ _⟩)
    · simp [Node.span?, Span.inside_iff]
    · simp [Node.span?, Span.apart_iff]
  refine .spanned _ _ _ ?_ ?_ ?_
  · simp [shuffledNodes, Node.span?, Span.inside_iff]
  · simp [shuffledNodes, Node.span?, Span.apart_iff]
  · simpa [shuffledNodes] using ⟨.leaf _ _, .detached _ _, inner, .leaf _ _⟩

/-- The two ranges with the same characters stay in the order of parent and child, and the empty
    node inside its neighbour has no range. -/
theorem inDocumentOrder_shuffledNodes :
    ∃ tree ds,
      (buildRoot (.spanned "Whole" ⟨1, 6⟩ shuffledNodes) 4).run.run
          ((Descriptors.empty sampleRegistry).describeAll ["Word"]) = (.ok tree, ds) ∧
      StyledRange.InDocumentOrder (tree.styledRanges 0) ∧
      ((Highlighter.setTree { formats := .empty } tree "a𝒳\nbcd").1.index.ranges.toList) =
        [⟨0, 7, "cm-root"⟩, ⟨1, 5, "cm-part"⟩, ⟨1, 5, "cm-word"⟩, ⟨5, 7, "cm-word"⟩] := by
  have accepted : (Node.rootDemand 4 (.spanned "Whole" ⟨1, 6⟩ shuffledNodes)).refused = none := by
    cbv
  obtain ⟨tree, ds, built⟩ : ∃ tree ds,
      (buildRoot (.spanned "Whole" ⟨1, 6⟩ shuffledNodes) 4).run.run
        ((Descriptors.empty sampleRegistry).describeAll ["Word"]) = (.ok tree, ds) :=
    ⟨_, _, run_buildRoot accepted _⟩
  obtain ⟨order, stored⟩ := inDocumentOrder_of_nested sampleRegistry ["Word"] _ 4 tree ds
    nested_shuffledNodes (by simp [Node.span?]) built
  have ranges : tree.styledRanges 0 =
      [⟨0, 6, ⟨rootTag, .null, "cm-root"⟩⟩, ⟨1, 4, ⟨"Part", .string, "cm-part"⟩⟩,
        ⟨1, 4, ⟨"Word", .keyword, "cm-word"⟩⟩, ⟨4, 6, ⟨"Word", .keyword, "cm-word"⟩⟩] := by
    rw [styledRanges_of_nested nested_shuffledNodes built]
    cbv
  have inside : ∀ s ∈ tree.styledRanges 0, s.stop ≤ "a𝒳\nbcd".length := by
    rw [ranges]
    decide
  refine ⟨tree, ds, built, order, ?_⟩
  rw [(stored _ _ inside).2.2, ranges]
  rfl

end Tree

end LyqlHighlight
