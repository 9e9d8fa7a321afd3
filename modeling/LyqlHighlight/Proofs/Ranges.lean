import Mathlib
import LyqlHighlight.Proofs.Building
import LyqlHighlight.Proofs.Lists

namespace LyqlHighlight

/-!
# The ranges of a built tree

A built tree holds relative starts that are clamped to be no less than zero.  Summed up again they
give back the spans of the nodes, apart from what the clamp displaces.

* `Visit.rangeAt`, `Visit.range?` — the range of a visited node at some displacement, and at its
  own;
* `Visit.atRoot` — the root as a visited node;
* `Tree.styledRanges_ofRoot` — the ranges of the tree of a node;
* `Tree.styledRanges_buildRoot` — the same for a tree that was built, and the case without
  displacement.
-/

namespace Visit

/-- The range of a visited node that is displaced by `d`, if the node is not empty and its tag is
    registered. -/
def rangeAt (r : Registry) (d : Int) (v : Visit) : Option StyledRange :=
  if v.span.start < v.span.stop then
    (r.rule? v.tag).map fun rule => ⟨v.span.start + d, v.span.stop + d, rule⟩
  else none

/-- The range of a visited node. -/
def range? (r : Registry) (v : Visit) : Option StyledRange :=
  v.rangeAt r v.shift

/-- The root above a node that ends at `stop`, as a visited node of its own. -/
def atRoot (stop : Int) : Visit :=
  ⟨Tree.rootTag, ⟨0, stop⟩, []⟩

end Visit

namespace Tree

variable {r : Registry} {ds : Descriptors}

/-- The range that a node covers by itself is that of its visit, if its descriptor holds the rule
    of the registry. -/
theorem ownRange_eq_toList (hstyle : ∀ tag, (ds.describe tag).1.style = r.rule? tag)
    (tag : String) (span : Span) (above : List Int) (d : Int) :
    ownRange (ds.describe tag).1 (span.start + d) span.length =
      (Visit.rangeAt r d ⟨tag, span, above⟩).toList := by
  unfold ownRange Visit.rangeAt Span.length
  rw [hstyle tag]
  have bound : span.start + d + (span.stop - span.start) = span.stop + d := by omega
  by_cases hlt : span.start < span.stop
  · rw [if_pos hlt]
    cases r.rule? tag with
    | none => rfl
    | some rule =>
      show (if _ then [_] else []) = _
      rw [if_pos (by omega), bound]
      rfl
  · rw [if_neg hlt]
    cases r.rule? tag with
    | none => rfl
    | some rule =>
      show (if _ then [_] else []) = _
      rw [if_neg (by omega)]
      rfl

/-- The clamped start of a child and the displacement of its parent make up the start of the child
    and its own displacement. -/
theorem offset_child (parent child : Int) (above : List Int) :
    parent + Visit.shiftOf (parent :: above) + max (child - parent) 0 =
      child + Visit.shiftOf (child :: parent :: above) := by
  rw [Visit.shiftOf]
  omega

theorem childRanges_eq_flatMap (offset : Int) (children : List (Int × Tree)) :
    childRanges offset children =
      children.flatMap fun c => styledRanges (offset + c.1) c.2 := by
  induction children with
  | nil => rfl
  | cons c children ih => rw [childRanges, ih, List.flatMap_cons]

/-- **Flattening a subtree.** The tree of a node yields the ranges of the visits of a walk from the
    node on, if it starts where the node is displaced to. -/
theorem styledRanges_ofNode (hstyle : ∀ tag, (ds.describe tag).1.style = r.rule? tag) (n : Node)
    (above : List Int) :
    (ofNode ds n).styledRanges (n.place + Visit.shiftOf (n.place :: above)) =
      (n.visitsBelow above).filterMap (Visit.range? r) := by
  -- The starts above are general, since they grow by one on the way to a child.
  induction n using Node.inductionOn generalizing above with
  | detached tag nodes _ =>
    rw [ofNode_detached, Node.visitsBelow_detached]
    rfl
  | spanned tag span nodes ih =>
    have children : childRanges (span.start + Visit.shiftOf (span.start :: above))
          ((Node.inOrder nodes).map fun c => (max (c.place - span.start) 0, ofNode ds c)) =
        ((Node.inOrder nodes).flatMap (Node.visitsBelow (span.start :: above))).filterMap
          (Visit.range? r) := by
      rw [childRanges_eq_flatMap, List.flatMap_map, List.filterMap_flatMap]
      apply List.flatMap_congr
      intro c hc
      rw [offset_child]
      exact ih c (Node.mem_inOrder.mp hc) (span.start :: above)
    have own := ownRange_eq_toList hstyle tag span above (Visit.shiftOf (span.start :: above))
    show (ofNode ds (.spanned tag span nodes)).styledRanges
      (span.start + Visit.shiftOf (span.start :: above)) = _
    rw [ofNode_spanned, styledRanges, own, children, Node.visitsBelow_spanned,
      Node.flatMap_visitsBelow_inOrder, filterMap_cons_toList]
    rfl

/-- **Flattening a tree.** The tree of a node under the root yields the range of the root, and those
    of the visits of a walk from the node on. -/
theorem styledRanges_ofRoot (hstyle : ∀ tag, (ds.describe tag).1.style = r.rule? tag) (tag : String)
    (span : Span) (nodes : List Node) :
    (ofRoot ds (.spanned tag span nodes)).styledRanges 0 =
      (Visit.atRoot span.stop :: (Node.spanned tag span nodes).visits).filterMap
        (Visit.range? r) := by
  -- The root holds the start of the node as it is, so nothing is displaced here.
  have top : (ofNode ds (.spanned tag span nodes)).styledRanges (0 + span.start) =
      (Node.spanned tag span nodes).visits.filterMap (Visit.range? r) := by
    rw [Int.add_comm]
    exact styledRanges_ofNode hstyle (.spanned tag span nodes) []
  have own : ownRange (ds.describe rootTag).1 0 span.stop =
      (Visit.range? r (Visit.atRoot span.stop)).toList := by
    have h := ownRange_eq_toList hstyle rootTag ⟨0, span.stop⟩ [] 0
    rw [show Span.length ⟨0, span.stop⟩ = span.stop from Int.sub_zero _] at h
    exact h
  rw [ofRoot, styledRanges, childRanges, childRanges, List.append_nil, top, own,
    filterMap_cons_toList]

/-- The same for a tree that was built, whatever had been asked for before. -/
theorem styledRanges_of_built {asked : List String} {tag : String} {span : Span}
    {nodes : List Node} {depth : Int} {tree : Tree}
    (h : (buildRoot (.spanned tag span nodes) depth).run.run
      ((Descriptors.empty r).describeAll asked) = (.ok tree, ds)) :
    tree.styledRanges 0 =
      (Visit.atRoot span.stop :: (Node.spanned tag span nodes).visits).filterMap
        (Visit.range? r) := by
  obtain ⟨rfl, hds⟩ := eq_ofRoot_of_buildRoot h
  rw [← Descriptors.describeAll_append] at hds
  refine styledRanges_ofRoot (fun t => ?_) tag span nodes
  rw [hds]
  exact Descriptors.style_describe r _ t

/-- Without displacement each range is the span of its node. -/
theorem filterMap_range?_of_startsInParent {n : Node} (h : ∀ v ∈ n.visits, v.StartsInParent)
    (stop : Int) :
    (Visit.atRoot stop :: n.visits).filterMap (Visit.range? r) =
      (Visit.atRoot stop :: n.visits).filterMap (Visit.rangeAt r 0) := by
  have still := Visit.shift_eq_zero n h
  apply List.filterMap_congr
  intro v hv
  rcases List.mem_cons.mp hv with rfl | hv
  · rfl
  · rw [Visit.range?, still v hv]

/-- **The ranges of a built tree.** Whatever has been asked for before, the tree that is built of a
    spanned node yields the range of the root and then, in the order of the walk, one range for each
    visited node that is not empty and whose tag is registered: its span, displaced by the distances
    by which the nodes on the way to it start before their parents.  So where no visited node starts
    before its parent each range is the span itself. -/
theorem styledRanges_buildRoot (r : Registry) (asked : List String) (tag : String) (span : Span)
    (nodes : List Node) (depth : Int) (tree : Tree) (ds : Descriptors)
    (h : (buildRoot (.spanned tag span nodes) depth).run.run
      ((Descriptors.empty r).describeAll asked) = (.ok tree, ds)) :
    tree.styledRanges 0 =
        (Visit.atRoot span.stop :: (Node.spanned tag span nodes).visits).filterMap
          (fun v => v.rangeAt r v.shift) ∧
      ((∀ v ∈ (Node.spanned tag span nodes).visits, v.StartsInParent) →
        tree.styledRanges 0 =
          (Visit.atRoot span.stop :: (Node.spanned tag span nodes).visits).filterMap
            (Visit.rangeAt r 0)) := by
  have ranges := styledRanges_of_built h
  refine ⟨ranges, fun hstart => ?_⟩
  rw [ranges, filterMap_range?_of_startsInParent hstart]

/-- Rules for the root and for two tags. -/
def sampleRegistry : Registry where
  rules := [⟨rootTag, .null, "cm-root"⟩, ⟨"Part", .string, "cm-part"⟩,
    ⟨"Word", .keyword, "cm-word"⟩]
  tags_nodup := by decide

/-- Nodes out of order, two of which start before their parents, and a detached one. -/
def strayedNodes : List Node :=
  [.spanned "Part" ⟨8, 9⟩ [], .detached "Part" [.spanned "Part" ⟨4, 5⟩ []],
    .spanned "Part" ⟨1, 6⟩ [.spanned "Part" ⟨0, 2⟩ [], .spanned "Part" ⟨3, 3⟩ []]]

/-- The two nodes are displaced by two and by three characters. -/
theorem styledRanges_strayedNodes :
    ∃ tree ds,
      (buildRoot (.spanned "Whole" ⟨3, 20⟩ strayedNodes) 4).run.run
          ((Descriptors.empty sampleRegistry).describeAll ["Part", "Other"]) = (.ok tree, ds) ∧
      tree.styledRanges 0 =
        [⟨0, 20, ⟨rootTag, .null, "cm-root"⟩⟩, ⟨3, 8, ⟨"Part", .string, "cm-part"⟩⟩,
          ⟨3, 5, ⟨"Part", .string, "cm-part"⟩⟩, ⟨8, 9, ⟨"Part", .string, "cm-part"⟩⟩] := by
  have accepted : (Node.rootDemand 4 (.spanned "Whole" ⟨3, 20⟩ strayedNodes)).refused = none := by
    cbv
  have run := run_buildRoot accepted
    ((Descriptors.empty sampleRegistry).describeAll ["Part", "Other"])
  refine ⟨_, _, run, ?_⟩
  rw [(styledRanges_buildRoot sampleRegistry ["Part", "Other"] "Whole" ⟨3, 20⟩ strayedNodes 4 _ _
    run).1]
  cbv

end Tree

end LyqlHighlight
