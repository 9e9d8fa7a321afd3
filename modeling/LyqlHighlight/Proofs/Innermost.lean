import Mathlib
import LyqlHighlight.Proofs.DocumentOrder
import LyqlHighlight.Proofs.Formats

namespace LyqlHighlight

/-!
# The innermost style wins

Calls for a block overwrite each other, so the last call over a unit decides how it looks.  For
nested nodes that call belongs to the deepest node over the character.

* `Visit.marks`, `Node.innermost?` — the visited nodes with a say about a character, and the
  innermost of them;
* `Highlighter.setTrees` — a highlighter after several trees;
* `Highlighter.stylesAt_of_nested` — the styles of a unit are those of the nodes with a say, outer
  ones first;
* `Highlighter.getLast?_stylesAt_of_nested` — the last of them is the style of the innermost node.
-/

/-- Whether a visited node has a say about a character: the node holds it, and its tag is
    registered. -/
def Visit.marks (r : Registry) (i : Int) (v : Visit) : Bool :=
  v.span.covers i && r.contains v.tag

/-- Of the visited nodes with a say about a character the deepest; the root counts as the outermost
    node. -/
def Node.innermost? (r : Registry) (i : Int) : Node → Option Visit
  | .detached _ _ => none
  | n@(.spanned _ span _) =>
    ((n.visits.filter (Visit.marks r i)).argmax Visit.depth).or
      ((some (Visit.atRoot span.stop)).filter (Visit.marks r i))

/-- A highlighter after it has taken in several trees, each with its text. -/
def Highlighter.setTrees (h : Highlighter) (passes : List (Tree × String)) : Highlighter :=
  passes.foldl (fun h p => (h.setTree p.1 p.2).1) h

@[simp] theorem Highlighter.formats_setTree (h : Highlighter) (tree : Tree) (text : String) :
    (h.setTree tree text).1.formats = h.formats := by
  unfold setTree
  split <;> rfl

@[simp] theorem Highlighter.formats_setTrees (h : Highlighter) (passes : List (Tree × String)) :
    (h.setTrees passes).formats = h.formats := by
  unfold setTrees
  induction passes generalizing h with
  | nil => rfl
  | cons p passes ih => rw [List.foldl_cons, ih, formats_setTree]

/-! ### The innermost node stands last -/

/-- Where the values grow along a list, the greatest is the last. -/
private theorem argmax_eq_getLast? {α : Type} {f : α → Nat} {l : List α}
    (h : l.Pairwise fun a b => f a < f b) : l.argmax f = l.getLast? := by
  rcases List.eq_nil_or_concat l with rfl | ⟨l, a, rfl⟩
  · rfl
  · rw [List.concat_eq_append] at h ⊢
    rw [List.argmax_concat, List.getLast?_append, List.getLast?_singleton, Option.some_or]
    cases hmax : l.argmax f with
    | none => rfl
    | some c =>
      have hlt : f c < f a :=
        (List.pairwise_append.mp h).2.2 c (List.argmax_mem hmax) a List.mem_cons_self
      simp only [if_pos hlt]

namespace Node.Nested

variable {tag : String} {span : Span} {nodes : List Node} {r : Registry}

/-- Of the nodes with a say about a character the innermost is the last that a walk meets. -/
theorem innermost?_eq_getLast? (h : Nested (.spanned tag span nodes)) (i : Int) :
    (Node.spanned tag span nodes).innermost? r i =
      ((Visit.atRoot span.stop :: (Node.spanned tag span nodes).visits).filter
        (Visit.marks r i)).getLast? := by
  -- Spans over one character are nested, so the depths grow along the walk.
  have deeper : ((Node.spanned tag span nodes).visits.filter (Visit.marks r i)).Pairwise
      fun v w => v.depth < w.depth := by
    refine ((h.visits_follow []).filter _).imp_of_mem ?_
    intro v w hv hw hvw
    have markV := (List.mem_filter.mp hv).2
    have markW := (List.mem_filter.mp hw).2
    unfold Visit.marks at markV markW
    rw [Bool.and_eq_true] at markV markW
    exact hvw.depth_lt markV.1 markW.1
  show (((Node.spanned tag span nodes).visits.filter (Visit.marks r i)).argmax Visit.depth).or
    ((some (Visit.atRoot span.stop)).filter (Visit.marks r i)) = _
  rw [argmax_eq_getLast? deeper, List.filter_cons]
  by_cases hroot : Visit.marks r i (Visit.atRoot span.stop) = true
  · rw [if_pos hroot, List.getLast?_cons]
    cases ((Node.spanned tag span nodes).visits.filter (Visit.marks r i)).getLast? <;>
      simp [hroot]
  · rw [if_neg hroot, Option.filter_some_neg (Bool.eq_false_iff.mpr hroot), Option.or_none]

end Node.Nested

/-! ### The styles of a unit -/

namespace Visit

/-- The style class of a visited node with its format. -/
def style? (r : Registry) (h : Highlighter) (v : Visit) : Option (String × Format) :=
  (r.rule? v.tag).bind fun rule => h.style? rule.className

/-- The range of a visited node that is not displaced gives its style to the characters about which
    the node has a say. -/
theorem filterMap_style?_rangeAt (r : Registry) (h : Highlighter) (i : Int) (v : Visit) :
    ((v.rangeAt r 0).toList.filter (StyledRange.covers i)).filterMap
        (fun s => h.style? s.rule.className) =
      if v.marks r i then (v.style? r h).toList else [] := by
  unfold rangeAt marks style? Registry.contains
  by_cases hlt : v.span.start < v.span.stop
  · rw [if_pos hlt]
    cases r.rule? v.tag with
    | none => simp
    | some rule =>
      have same : StyledRange.covers i ⟨v.span.start + 0, v.span.stop + 0, rule⟩ =
          v.span.covers i := by
        unfold StyledRange.covers Span.covers
        rw [Int.add_zero, Int.add_zero]
      rw [Option.map_some, Option.toList_some, List.filter_cons, same, Option.isSome_some,
        Bool.and_true]
      cases v.span.covers i with
      | false => rfl
      | true =>
        show [_].filterMap _ = (h.style? rule.className).toList
        rw [filterMap_cons_toList]
        exact List.append_nil _
  · -- An empty node has no range, and holds no character either.
    have outside : ¬(v.span.covers i && (r.rule? v.tag).isSome) = true := by
      rw [Bool.and_eq_true, Span.covers_iff]
      omega
    rw [if_neg hlt, if_neg outside]
    rfl

/-- The same for several visited nodes, in their order. -/
theorem filterMap_style?_filterMap_rangeAt (r : Registry) (h : Highlighter) (i : Int)
    (l : List Visit) :
    ((l.filterMap (rangeAt r 0)).filter (StyledRange.covers i)).filterMap
        (fun s => h.style? s.rule.className) =
      (l.filter (marks r i)).filterMap (style? r h) := by
  induction l with
  | nil => rfl
  | cons v l ih =>
    rw [filterMap_cons_toList, List.filter_append, List.filterMap_append, filterMap_style?_rangeAt,
      ih, List.filter_cons]
    split
    · rw [filterMap_cons_toList]
    · rfl

end Visit

namespace Node.Nested

variable {tag : String} {span : Span} {nodes : List Node} {r : Registry} {text : List Char}

/-- The ranges of nested nodes lie within the text. -/
theorem range_within (h : Nested (.spanned tag span nodes)) (htop : span.Inside ⟨0, text.length⟩) :
    ∀ s ∈ (Visit.atRoot span.stop :: (Node.spanned tag span nodes).visits).filterMap
      (Visit.rangeAt r 0), s.Within text := by
  intro s hs
  obtain ⟨nonneg, hlt, stop_le⟩ := h.bounds_of_mem_ranges htop.start_le hs
  exact ⟨nonneg, le_of_lt hlt, le_trans stop_le htop.stop_le⟩

end Node.Nested

/-! ### The calls of a highlighter -/

namespace Highlighter

variable {r : Registry} {asked : List String} {tag : String} {span : Span} {nodes : List Node}
  {depth : Int} {tree : Tree} {ds : Descriptors} {text : String}

/-- A tree that was built of nested nodes within a text is taken in without an error. -/
theorem setTree_of_nested (h : Highlighter) (nested : (Node.spanned tag span nodes).Nested)
    (htop : span.Inside ⟨0, text.length⟩)
    (built : (Tree.buildRoot (.spanned tag span nodes) depth).run.run
      ((Descriptors.empty r).describeAll asked) = (.ok tree, ds)) :
    (h.setTree tree text).2 = none := by
  rw [← String.length_toList] at htop
  rw [setTree_eq h]
  rw [Tree.styledRanges_of_nested nested built]
  exact nested.range_within htop

/-- **The styles of a unit.** After a tree of nested nodes, a unit of a block gets the styles of the
    nodes with a say about its character, outer ones first. -/
theorem stylesAt_of_nested (h : Highlighter) (nested : (Node.spanned tag span nodes).Nested)
    (htop : span.Inside ⟨0, text.length⟩)
    (built : (Tree.buildRoot (.spanned tag span nodes) depth).run.run
      ((Descriptors.empty r).describeAll asked) = (.ok tree, ds))
    {b : Block} {i : Nat} {unit : Int} (hu : Text.WithinChar text.toList i unit)
    (hlow : b.position ≤ unit) (hhigh : unit < b.stop) :
    (h.setTree tree text).1.stylesAt b unit =
      ((Visit.atRoot span.stop :: (Node.spanned tag span nodes).visits).filter
        (Visit.marks r i)).filterMap (Visit.style? r h) := by
  rw [← String.length_toList] at htop
  have ranges := Tree.styledRanges_of_nested nested built
  rw [stylesAt_setTree h _ _ hu hlow hhigh, ranges, Visit.filterMap_style?_filterMap_rangeAt]
  · rw [ranges]
    exact nested.range_within htop
  · rw [ranges]
    exact (nested.ranges_inDocumentOrder htop.start_le).ascending

/-- A node with a say about a character has a style, if the highlighter has formats for all rules of
    the registry. -/
theorem exists_style {h : Highlighter} {given : Value}
    (hformats : h.formats = (ofSpecs r.rules given).formats) {i : Int} {v : Visit}
    (hv : v.marks r i = true) :
    ∃ rule format, r.rule? v.tag = some rule ∧
      (ofSpecs r.rules given).formats.get? rule.className = some format ∧
      v.style? r h = some (rule.className, format) := by
  unfold Visit.marks Registry.contains at hv
  rw [Bool.and_eq_true, Option.isSome_iff_exists] at hv
  obtain ⟨-, rule, hrule⟩ := hv
  obtain ⟨format, hformat⟩ := exists_format given (List.mem_of_find?_eq_some hrule)
  refine ⟨rule, format, hrule, hformat, ?_⟩
  unfold Visit.style? style?
  rw [hrule, Option.bind_some, hformats, hformat, Option.map_some]

/-- **The innermost style wins.** A highlighter for the rules of a registry takes in a tree of
    nested nodes within a text, whatever it had taken in before.  For each block and each unit in it
    that belongs to a character of the text, the last call over the unit gives it the format of the
    class of the innermost node that holds the character and whose tag is registered; if there is no
    such node, no call does. -/
theorem getLast?_stylesAt_of_nested (r : Registry) (given : Value) (passes : List (Tree × String))
    (asked : List String) (tag : String) (span : Span) (nodes : List Node) (depth : Int)
    (tree : Tree) (ds : Descriptors) (text : String)
    (nested : (Node.spanned tag span nodes).Nested) (htop : span.Inside ⟨0, text.length⟩)
    (built : (Tree.buildRoot (.spanned tag span nodes) depth).run.run
      ((Descriptors.empty r).describeAll asked) = (.ok tree, ds)) :
    (((ofSpecs r.rules given).setTrees passes).setTree tree text).2 = none ∧
      ∀ (b : Block) (i : Nat) (unit : Int), Text.WithinChar text.toList i unit →
        b.position ≤ unit → unit < b.stop →
        match (Node.spanned tag span nodes).innermost? r i with
        | some v =>
          ∃ rule format, r.rule? v.tag = some rule ∧
            (ofSpecs r.rules given).formats.get? rule.className = some format ∧
            ((((ofSpecs r.rules given).setTrees passes).setTree tree text).1.stylesAt b
              unit).getLast? = some (rule.className, format)
        | none =>
          (((ofSpecs r.rules given).setTrees passes).setTree tree text).1.stylesAt b unit = [] := by
  refine ⟨setTree_of_nested _ nested htop built, fun b i unit hu hlow hhigh => ?_⟩
  rw [stylesAt_of_nested _ nested htop built hu hlow hhigh, nested.innermost?_eq_getLast?]
  cases hlast : ((Visit.atRoot span.stop :: (Node.spanned tag span nodes).visits).filter
      (Visit.marks r i)).getLast? with
  | none =>
    rw [List.getLast?_eq_none_iff.mp hlast]
    rfl
  | some v =>
    -- The last node has a style, so it is also the last style.
    obtain ⟨outer, heq⟩ := List.getLast?_eq_some_iff.mp hlast
    have hv : v.marks r i = true := (List.mem_filter.mp (heq ▸ List.mem_concat_self)).2
    obtain ⟨rule, format, hrule, hformat, hstyle⟩ :=
      exists_style (h := (ofSpecs r.rules given).setTrees passes) (formats_setTrees _ passes) hv
    refine ⟨rule, format, hrule, hformat, ?_⟩
    rw [heq, List.filterMap_append, List.getLast?_append, List.filterMap_cons, hstyle]
    rfl

/-- Nodes in each other and out of order, an empty one and a detached one. -/
def layeredNodes : List Node :=
  [.spanned "Word" ⟨3, 4⟩ [], .detached "Word" [.spanned "Word" ⟨0, 9⟩ []],
    .spanned "Part" ⟨0, 3⟩
      [.spanned "Word" ⟨1, 3⟩ [.spanned "Plain" ⟨1, 3⟩ []], .spanned "Word" ⟨1, 1⟩ []]]

theorem layeredNodes_nested : (Node.spanned "Whole" ⟨0, 4⟩ layeredNodes).Nested := by
  have inner : (Node.spanned "Word" ⟨1, 3⟩ [.spanned "Plain" ⟨1, 3⟩ []]).Nested := by
    refine .spanned _ _ _ ?_ (List.pairwise_singleton _ _) (by simpa using .leaf _ _)
    simp [Node.span?, Span.inside_iff]
  have outer : (Node.spanned "Part" ⟨0, 3⟩
      [.spanned "Word" ⟨1, 3⟩ [.spanned "Plain" ⟨1, 3⟩ []], .spanned "Word" ⟨1, 1⟩ []]).Nested := by
    refine .spanned _ _ _ ?_ ?_ (by simpa using ⟨inner, .leaf _ _⟩)
    · simp [Node.span?, Span.inside_iff]
    · simp [Node.span?, Span.apart_iff]
  refine .spanned _ _ _ ?_ ?_ ?_
  · simp [layeredNodes, Node.span?, Span.inside_iff]
  · simp [layeredNodes, Node.span?, Span.apart_iff]
  · simpa [layeredNodes] using ⟨.leaf _ _, .detached _ _, outer⟩

/-- The second character takes two units and is decided by the inner node, the first one by the
    outer node. -/
theorem getLast?_stylesAt_layeredNodes :
    ∃ tree ds,
      (Tree.buildRoot (.spanned "Whole" ⟨0, 4⟩ layeredNodes) 5).run.run
          ((Descriptors.empty Tree.sampleRegistry).describeAll []) = (.ok tree, ds) ∧
      ∀ h, h = ((ofSpecs Tree.sampleRegistry.rules lyqlSpecs).setTrees []).setTree tree "a𝒳\nb" →
        h.2 = none ∧
          (∃ format, (h.1.stylesAt ⟨0, 4⟩ 0).getLast? = some ("cm-part", format)) ∧
          (∃ format, (h.1.stylesAt ⟨0, 4⟩ 2).getLast? = some ("cm-word", format)) := by
  have accepted :
      (Node.rootDemand 5 (.spanned "Whole" ⟨0, 4⟩ layeredNodes)).refused = none := by cbv
  have run := Tree.run_buildRoot accepted ((Descriptors.empty Tree.sampleRegistry).describeAll [])
  refine ⟨_, _, run, ?_⟩
  rintro h rfl
  obtain ⟨taken, all⟩ := getLast?_stylesAt_of_nested Tree.sampleRegistry lyqlSpecs [] [] "Whole"
    ⟨0, 4⟩ layeredNodes 5 _ _ "a𝒳\nb" layeredNodes_nested ⟨by decide, by decide⟩ run
  have first := all ⟨0, 4⟩ 0 0 ⟨by decide, by decide, by decide⟩ (by decide) (by decide)
  have second := all ⟨0, 4⟩ 1 2 ⟨by decide, by decide, by decide⟩ (by decide) (by decide)
  have outer : (Node.spanned "Whole" ⟨0, 4⟩ layeredNodes).innermost? Tree.sampleRegistry (0 : Nat) =
      some ⟨"Part", ⟨0, 3⟩, [0]⟩ := by cbv
  have inner : (Node.spanned "Whole" ⟨0, 4⟩ layeredNodes).innermost? Tree.sampleRegistry (1 : Nat) =
      some ⟨"Word", ⟨1, 3⟩, [0, 0]⟩ := by cbv
  rw [outer] at first
  rw [inner] at second
  obtain ⟨rule, format, hrule, -, hfirst⟩ := first
  obtain ⟨rule', format', hrule', -, hsecond⟩ := second
  obtain rfl : rule = ⟨"Part", .string, "cm-part"⟩ := by
    exact (Option.some.inj hrule).symm
  obtain rfl : rule' = ⟨"Word", .keyword, "cm-word"⟩ := by
    exact (Option.some.inj hrule').symm
  exact ⟨taken, ⟨format, hfirst⟩, ⟨format', hsecond⟩⟩

end Highlighter

end LyqlHighlight
