import LyqlHighlight.Proofs.Nesting
import LyqlHighlight.Proofs.Rearranging
import LyqlHighlight.Proofs.Requests
import LyqlHighlight.Proofs.Writing

namespace LyqlHighlight

/-!
# The layout of a built tree

Each part of a built tree was made of one node.  If this is a spanned one, the children of the part
were made of its children, one of each, in the stable order of their places, and their relative
starts ascend from zero on.  Where spanned nodes lie inside their parents, so do the parts.

* `Node.StablyOrdered` — the children of a node in the order in which a tree holds them;
* `Tree.MadeOf` — the parts of a tree and the nodes that they were made of;
* `Tree.Renders` — a tree is what building a node returns, once all its tags have descriptors;
* `Tree.WellFormed`, `Tree.FitsIn` — the layout of a part, and of one where nothing sticks out;
* `Tree.build_wellFormed` — each part of a built tree has this layout.
-/

/-- A row holds the children of a node in the stable order of their places. -/
structure Node.StablyOrdered (nodes row : List Node) : Prop extends SameTies nodes row where
  /-- The places ascend. -/
  ascending : row.Pairwise fun a b => a.place ≤ b.place

/-- There is one such row. -/
theorem Node.StablyOrdered.eq_inOrder {nodes row : List Node} (h : StablyOrdered nodes row) :
    row = inOrder nodes := by
  rw [inOrder_eq_of_sameTies h.toSameTies, inOrder_eq_sortBy, sortBy_of_ascending place h.ascending]

theorem Node.stablyOrdered_inOrder (nodes : List Node) : StablyOrdered nodes (inOrder nodes) where
  perm := (inOrder_perm nodes).symm
  ties k := (filter_sortBy place nodes k).symm
  ascending := inOrder_ascending nodes

/-- The spanned children of a node that is spanned itself lie inside it. -/
def Node.HoldsChildren (n : Node) : Prop :=
  ∀ span ∈ n.span?, ∀ c ∈ n.children, ∀ s ∈ c.span?, s.Inside span

/-! ### Descriptors that are there -/

/-- Asking for tags that have descriptors changes nothing. -/
theorem Descriptors.describeAll_of_known {ds : Descriptors} {tags : List String}
    (h : ∀ tag ∈ tags, (ds.get? tag).isSome) : ds.describeAll tags = ds := by
  induction tags with
  | nil => rfl
  | cons tag tags ih =>
    obtain ⟨own, others⟩ := List.forall_mem_cons.mp h
    obtain ⟨d, hd⟩ := Option.isSome_iff_exists.mp own
    have same : (ds.describe tag).2 = ds := by
      unfold describe
      rw [hd]
    rw [describeAll_cons, same, ih others]

/-- Several demands that are not refused ask for the tags of all. -/
theorem Demand.tags_all {demands : List Demand} (h : ∀ d ∈ demands, d.refused = none) :
    (all demands).tags = demands.flatMap tags := by
  induction demands with
  | nil => rfl
  | cons d demands ih =>
    obtain ⟨own, others⟩ := List.forall_mem_cons.mp h
    show (d.andThen (all demands)).tags = _
    rw [List.flatMap_cons, ← ih others, andThen, own]

namespace Tree

/-- The tree is what building returns for the node, with some allowance of levels, and all that this
    asks for is among the descriptors. -/
def Renders (ds : Descriptors) (n : Node) (t : Tree) : Prop :=
  ∃ depth : Int, (build n depth).run.run ds = (.ok t, ds)

/-- All tags that building a node asks for have descriptors. -/
def Known (ds : Descriptors) (n : Node) : Prop :=
  ∃ depth : Nat, (n.demand depth).refused = none ∧
    ∀ tag ∈ (n.demand depth).tags, (ds.get? tag).isSome

theorem Known.renders {ds : Descriptors} {n : Node} (h : Known ds n) :
    Renders ds n (ofNode ds n) := by
  obtain ⟨depth, accepted, known⟩ := h
  refine ⟨depth, ?_⟩
  rw [run_build n depth accepted ds, Int.toNat_natCast, Descriptors.describeAll_of_known known]

/-- The tags of a node are known after it was built. -/
theorem known_of_build {n : Node} {depth : Int} {ds after : Descriptors} {t : Tree}
    (h : (build n depth).run.run ds = (.ok t, after)) : Known after n ∧ t = ofNode after n := by
  rw [build, (buildWithin_follows depth.toNat n).run_eq ds, Prod.mk.injEq] at h
  obtain ⟨result, rfl⟩ := h
  cases refused : (n.demand depth.toNat).refused with
  | some e =>
    rw [refused] at result
    cases result
  | none =>
    rw [refused] at result
    refine ⟨⟨depth.toNat, refused, fun tag htag => ?_⟩, (Except.ok.inj result).symm⟩
    rw [Descriptors.get?_describeAll_of_mem htag]
    rfl

/-- So are those of its children. -/
theorem Known.child {ds : Descriptors} {tag : String} {span : Span} {nodes : List Node}
    (h : Known ds (.spanned tag span nodes)) {c : Node} (hc : c ∈ nodes) : Known ds c := by
  obtain ⟨depth, accepted, known⟩ := h
  cases depth with
  | zero => cases accepted
  | succ depth =>
    rw [Node.demand] at accepted known
    rw [Demand.refused_andThen_tags] at accepted
    have each : ∀ d ∈ (Node.inOrder nodes).map fun child => child.demand depth,
        d.refused = none := Demand.refused_all.mp accepted
    have mem := List.mem_map_of_mem (f := fun child => child.demand depth) (Node.mem_inOrder.mpr hc)
    refine ⟨depth, each _ mem, fun tag' htag => known tag' ?_⟩
    rw [Demand.andThen, accepted, Demand.tags_all each]
    exact List.mem_append_left _ (List.mem_flatMap.mpr ⟨_, mem, htag⟩)

/-! ### Parts of a tree -/

/-- For a tree `t` made of a node `n`: the part of the tree was made of the other node.  The
    children of what was made of a spanned node were made of its children in their stable order. -/
inductive MadeOf (n : Node) (t : Tree) : Node → Tree → Prop where
  /-- The whole tree. -/
  | top : MadeOf n t n t
  /-- A child of a part. -/
  | child {tag : String} {span : Span} {nodes row : List Node} {part : Tree} {c : Node}
      {position : Int} {below : Tree} (above : MadeOf n t (.spanned tag span nodes) part)
      (order : Node.StablyOrdered nodes row) (mem : (c, position, below) ∈ row.zip part.children) :
      MadeOf n t c below

/-- The layout of a part that was made of a spanned node with these children, where `row` holds the
    children in order and `ds` are the descriptors at the end. -/
structure WellFormed (ds : Descriptors) (tag : String) (span : Span) (nodes row : List Node)
    (part : Tree) : Prop where
  /-- The part has the descriptor of the tag. -/
  type_eq : part.type = (ds.describe tag).1
  /-- It is as long as the span. -/
  length_eq : part.length = span.stop - span.start
  /-- The children stand in the stable order of their places. -/
  order : Node.StablyOrdered nodes row
  /-- There are as many of them. -/
  size_eq : part.children.length = nodes.length
  /-- Each is what building makes of its node. -/
  renders : List.Forall₂ (fun c child => Renders ds c child.2) row part.children
  /-- The relative starts are not negative. -/
  nonneg : ∀ child ∈ part.children, 0 ≤ child.1
  /-- They ascend. -/
  ascending : part.children.Pairwise fun a b => a.1 ≤ b.1

/-- Each child that was made of a spanned node starts as far behind the start of the part as the
    node behind that of its parent, and stops in the part. -/
def FitsIn (span : Span) (row : List Node) (part : Tree) : Prop :=
  List.Forall₂ (fun c child => ∀ s ∈ c.span?,
    child.1 = s.start - span.start ∧ child.1 + child.2.length ≤ part.length) row part.children

/-! ### The layout -/

/-- The children of a node beside what is made of them. -/
theorem zip_children_ofNode (ds : Descriptors) (tag : String) (span : Span) (nodes : List Node) :
    (Node.inOrder nodes).zip (ofNode ds (.spanned tag span nodes)).children =
      (Node.inOrder nodes).map fun c => (c, max (c.place - span.start) 0, ofNode ds c) := by
  rw [ofNode_spanned, children, List.map_prod_left_eq_zip]

/-- The parts of the tree of a node are the trees of the nodes that they were made of. -/
theorem MadeOf.eq_ofNode {ds : Descriptors} {n m : Node} {t part : Tree} (h : MadeOf n t m part)
    (known : Known ds n) (whole : t = ofNode ds n) : Known ds m ∧ part = ofNode ds m := by
  induction h with
  | top => exact ⟨known, whole⟩
  | child above order mem ih =>
    obtain ⟨known, rfl⟩ := ih
    rw [order.eq_inOrder, zip_children_ofNode, List.mem_map] at mem
    obtain ⟨c, hc, same⟩ := mem
    cases same
    exact ⟨known.child (Node.mem_inOrder.mp hc), rfl⟩

/-- What holds throughout a node holds throughout the nodes that parts were made of. -/
theorem MadeOf.throughout {P : Node → Prop} {n m : Node} {t part : Tree} (h : MadeOf n t m part)
    (all : n.Throughout P) : m.Throughout P := by
  induction h with
  | top => exact all
  | child above order mem ih =>
    obtain ⟨-, below⟩ := ih
    exact below _ (order.perm.mem_iff.mpr (List.of_mem_zip mem).1)

variable {ds : Descriptors} {tag : String} {span : Span} {nodes : List Node}

theorem wellFormed_ofNode (known : Known ds (.spanned tag span nodes)) :
    WellFormed ds tag span nodes (Node.inOrder nodes) (ofNode ds (.spanned tag span nodes)) := by
  rw [ofNode_spanned]
  refine ⟨rfl, rfl, Node.stablyOrdered_inOrder nodes, ?_, ?_, ?_, ?_⟩
  · rw [children, List.length_map, (Node.inOrder_perm nodes).length_eq]
  · rw [children, List.forall₂_map_right_iff, List.forall₂_same]
    intro c hc
    exact (known.child (Node.mem_inOrder.mp hc)).renders
  · intro child hchild
    obtain ⟨c, -, rfl⟩ := List.mem_map.mp hchild
    exact Int.le_max_right _ _
  · rw [children, List.pairwise_map]
    refine (Node.inOrder_ascending nodes).imp fun hab => ?_
    show max _ 0 ≤ max _ 0
    omega

theorem fitsIn_ofNode (holds : (Node.spanned tag span nodes).HoldsChildren) :
    FitsIn span (Node.inOrder nodes) (ofNode ds (.spanned tag span nodes)) := by
  rw [ofNode_spanned, FitsIn, children, List.forall₂_map_right_iff, List.forall₂_same]
  intro c hc s hs
  have inside := holds span rfl c (Node.mem_inOrder.mp hc) s hs
  have start_le := inside.start_le
  have stop_le := inside.stop_le
  cases c with
  | detached _ _ => cases hs
  | spanned _ own _ =>
    obtain rfl : own = s := Option.some.inj hs
    -- The clamp does nothing, since the child does not start in front of its parent.
    rw [ofNode_spanned]
    show max (own.start - span.start) 0 = own.start - span.start ∧
      max (own.start - span.start) 0 + (own.stop - own.start) ≤ span.stop - span.start
    omega

/-- **Layout.** If building a node makes a tree, then each part that was made of a spanned node has
    the layout for it: it has the descriptor of the tag and the length of the span, and its children
    are what building makes of the children of the node, one of each, in the stable order of their
    places, at starts that ascend from zero on.  If spanned children lie inside their spanned
    parents throughout the node, each child that was made of a spanned node starts where that node
    does, relative to its parent, and stops in the part. -/
theorem build_wellFormed {n : Node} {depth : Int} {ds after : Descriptors} {t : Tree}
    (built : (build n depth).run.run ds = (.ok t, after)) {tag : String} {span : Span}
    {nodes : List Node} {part : Tree} (made : MadeOf n t (.spanned tag span nodes) part) :
    ∃ row, WellFormed after tag span nodes row part ∧
      (n.Throughout Node.HoldsChildren → FitsIn span row part) := by
  obtain ⟨known, whole⟩ := known_of_build built
  obtain ⟨known, rfl⟩ := made.eq_ofNode known whole
  refine ⟨Node.inOrder nodes, wellFormed_ofNode known, fun all => ?_⟩
  obtain ⟨own, -⟩ := made.throughout all
  exact fitsIn_ofNode own

/-- Each child of a spanned node has a part of its own. -/
theorem MadeOf.of_mem {n c : Node} {t : Tree}
    (above : MadeOf n t (.spanned tag span nodes) (ofNode ds (.spanned tag span nodes)))
    (hc : c ∈ nodes) : MadeOf n t c (ofNode ds c) := by
  have mem : (c, max (c.place - span.start) 0, ofNode ds c) ∈
      (Node.inOrder nodes).zip (ofNode ds (.spanned tag span nodes)).children := by
    rw [zip_children_ofNode]
    exact List.mem_map_of_mem (Node.mem_inOrder.mpr hc)
  exact above.child (Node.stablyOrdered_inOrder nodes) mem

/-- Nodes out of order, one of them empty. -/
def lateNodes : List Node :=
  [.spanned "Second" ⟨7, 9⟩ [], .spanned "First" ⟨5, 6⟩ [], .spanned "Nothing" ⟨7, 7⟩ []]

/-- A node whose children overlap, and one of which is detached. -/
def filledNode : Node :=
  .spanned "Whole" ⟨2, 9⟩
    [.spanned "Late" ⟨5, 9⟩ lateNodes, .detached "Lost" [], .spanned "Early" ⟨2, 6⟩ []]

theorem holdsChildren_filledNode : filledNode.Throughout Node.HoldsChildren := by
  have leaf : ∀ tag span, (Node.spanned tag span []).Throughout Node.HoldsChildren :=
    fun tag span => .intro (by simp [Node.HoldsChildren, Node.children]) (by simp [Node.children])
  have lost : (Node.detached "Lost" []).Throughout Node.HoldsChildren :=
    .intro (by simp [Node.HoldsChildren, Node.children]) (by simp [Node.children])
  have late : (Node.spanned "Late" ⟨5, 9⟩ lateNodes).Throughout Node.HoldsChildren := by
    refine .intro ?_ (by simp [lateNodes, Node.children, leaf])
    simp [Node.HoldsChildren, lateNodes, Node.span?, Node.children, Span.inside_iff]
  refine .intro ?_ (by simp [filledNode, Node.children, leaf, lost, late])
  simp [Node.HoldsChildren, filledNode, Node.span?, Node.children, Span.inside_iff]

/-- The part for the later child, whose own children start at the same place as it does, and two
    characters behind. -/
theorem build_wellFormed_filled :
    ∃ t after part row,
      (build filledNode 3).run.run (.empty .lyql) = (.ok t, after) ∧
      MadeOf filledNode t (.spanned "Late" ⟨5, 9⟩ lateNodes) part ∧
      WellFormed after "Late" ⟨5, 9⟩ lateNodes row part ∧ FitsIn ⟨5, 9⟩ row part ∧
      part.children.map Prod.fst = [0, 2, 2] := by
  have built := run_build filledNode 3 (by cbv) (.empty .lyql)
  have made : ∀ ds, MadeOf filledNode (ofNode ds filledNode) (.spanned "Late" ⟨5, 9⟩ lateNodes)
      (ofNode ds (.spanned "Late" ⟨5, 9⟩ lateNodes)) :=
    fun ds => MadeOf.top.of_mem List.mem_cons_self
  obtain ⟨row, wellFormed, fitsIn⟩ := build_wellFormed built (made _)
  have starts : ∀ ds,
      (ofNode ds (.spanned "Late" ⟨5, 9⟩ lateNodes)).children.map Prod.fst = [0, 2, 2] := by
    intro ds
    rw [ofNode_spanned, children, List.map_map]
    show (Node.inOrder lateNodes).map (fun c => max (c.place - 5) 0) = [0, 2, 2]
    cbv
  exact ⟨_, _, _, row, built, made _, wellFormed, fitsIn holdsChildren_filledNode,
    starts _⟩

end Tree

end LyqlHighlight
