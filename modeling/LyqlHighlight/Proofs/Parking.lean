import LyqlHighlight.Proofs.Layout

namespace LyqlHighlight

/-!
# The places of detached children

A detached child has no start and is put in order as if it started one before the document.  If all
siblings start in the document, the detached ones come first, in the order in which they were given,
each as the empty tree at the start of its parent.  But a span may start anywhere: a sibling may
stand in front of the document, too, and so may the parent.

* `Node.isDetached`, `Node.filter_isDetached_inOrder` — the detached children in the stable order;
* `Node.pairwise_inOrder_iff` — when they come first in it;
* `Node.LeavesRoom` — nothing stands in front of the document where there are detached children;
* `Tree.ParkedInFront`, `Tree.parkedInFront_ofNode` — the part of a node where they are in front;
* `Tree.build_parked` — what becomes of the detached children of each part of a built tree.
-/

namespace Node

/-- The node has no place in the source. -/
def isDetached (n : Node) : Bool :=
  n.span?.isNone

@[simp] theorem isDetached_detached (tag : String) (nodes : List Node) :
    (detached tag nodes).isDetached = true :=
  rfl

@[simp] theorem isDetached_spanned (tag : String) (span : Span) (nodes : List Node) :
    (spanned tag span nodes).isDetached = false :=
  rfl

theorem place_of_isDetached {n : Node} (h : n.isDetached = true) : n.place = -1 := by
  cases n with
  | detached => rfl
  | spanned => contradiction

/-! ### In order -/

/-- The detached children keep their order, for they are at the same place. -/
theorem filter_isDetached_inOrder (nodes : List Node) :
    (inOrder nodes).filter isDetached = nodes.filter isDetached := by
  rw [← inOrder_filter, inOrder_eq_sortBy]
  apply sortBy_of_ascending
  refine List.pairwise_of_forall_mem_list fun a ha b hb => ?_
  rw [place_of_isDetached (List.mem_filter.mp ha).2, place_of_isDetached (List.mem_filter.mp hb).2]

/-- Of the children at the place of the detached ones, no spanned one stands in front of one of
    them. -/
def DetachedFirst (row : List Node) : Prop :=
  row.Pairwise fun a b => a.place = -1 → b.isDetached = true → a.isDetached = true

/-- This depends on the children at this place only. -/
theorem detachedFirst_iff {row : List Node} :
    DetachedFirst row ↔ (row.filter fun c => c.place = -1).Pairwise fun a b =>
      b.isDetached = true → a.isDetached = true := by
  rw [DetachedFirst, List.pairwise_filter]
  simp only [decide_eq_true_eq]
  constructor
  · exact List.Pairwise.imp fun first ha _ => first ha
  · exact List.Pairwise.imp fun first ha hb => first ha (place_of_isDetached hb) hb

theorem detachedFirst_inOrder_iff {nodes : List Node} :
    DetachedFirst (inOrder nodes) ↔ DetachedFirst nodes := by
  rw [detachedFirst_iff, detachedFirst_iff, inOrder_eq_sortBy, filter_sortBy]

/-- **In front.** In the stable order, the detached children come first exactly if no sibling starts
    further in front of the document than they are put, and none that starts there was given before
    one of them. -/
theorem pairwise_inOrder_iff {nodes : List Node} :
    ((inOrder nodes).Pairwise fun a b => b.isDetached = true → a.isDetached = true) ↔
      (∀ c ∈ nodes, c.isDetached = true → ∀ s ∈ nodes, -1 ≤ s.place) ∧ DetachedFirst nodes := by
  constructor
  · intro row
    have ties : DetachedFirst (inOrder nodes) := by
      refine row.imp ?_
      intro a b first _
      exact first
    refine ⟨?_, detachedFirst_inOrder_iff.mp ties⟩
    obtain ⟨front, back, whole, lost, placed⟩ := pairwise_imp_iff.mp row
    have ascending := inOrder_ascending nodes
    rw [whole] at ascending
    obtain ⟨-, -, below⟩ := List.pairwise_append.mp ascending
    intro c hc detached s hs
    rw [← mem_inOrder, whole, List.mem_append] at hc hs
    have hc : c ∈ front := hc.resolve_right fun hc => placed c hc detached
    rcases hs with hs | hs
    · exact (place_of_isDetached (lost s hs)).ge
    · rw [← place_of_isDetached detached]
      exact below c hc s hs
  · rintro ⟨bound, ties⟩
    have ties := detachedFirst_inOrder_iff.mpr ties
    refine (ties.and (inOrder_ascending nodes)).imp_of_mem fun ha hb h detached => ?_
    -- What stands in front of a detached child is at its place, since nothing starts earlier.
    have least := bound _ (mem_inOrder.mp hb) detached _ (mem_inOrder.mp ha)
    have earlier := h.2
    rw [place_of_isDetached detached] at earlier
    exact h.1 (le_antisymm earlier least) detached

/-- There is room for detached children in front of the others and at the start of their parent. -/
structure LeavesRoom (span : Span) (nodes : List Node) : Prop where
  /-- A parent of detached children starts at the place where these are put, or later. -/
  start_ge : ∀ c ∈ nodes, c.isDetached = true → -1 ≤ span.start
  /-- Their siblings do. -/
  place_ge : ∀ c ∈ nodes, c.isDetached = true → ∀ s ∈ nodes, -1 ≤ s.place
  /-- Those that start at this place were not given before them. -/
  ties : DetachedFirst nodes

/-- There is room if everything starts in the document. -/
theorem leavesRoom_of_throughout {tag : String} {span : Span} {nodes : List Node}
    (h : (spanned tag span nodes).Throughout fun m => ∀ s ∈ m.span?, 0 ≤ s.start) :
    LeavesRoom span nodes := by
  obtain ⟨own, below⟩ := h
  have start : 0 ≤ span.start := own span rfl
  have places : ∀ c ∈ nodes, c.isDetached = true ∨ 0 ≤ c.place := by
    intro c hc
    obtain ⟨inside, -⟩ := below c hc
    cases c with
    | detached => exact .inl rfl
    | spanned _ s _ => exact .inr (inside s rfl)
  refine ⟨fun _ _ _ => by omega, fun _ _ _ s hs => ?_, ?_⟩
  · rcases places s hs with detached | inside
    · exact (place_of_isDetached detached).ge
    · omega
  · refine List.pairwise_of_forall_mem_list fun a ha _ _ front _ => ?_
    exact (places a ha).resolve_right (by omega)

end Node

/-! ### In a tree -/

namespace Tree

/-- In a part that was made of a spanned node with these children, where `row` holds them in order,
    the detached children come first, as they were given, each as the empty tree at the start of
    the part. -/
def ParkedInFront (nodes row : List Node) (part : Tree) : Prop :=
  ∃ behind : List (Node × Int × Tree),
    row.zip part.children =
      (nodes.filter Node.isDetached).map (fun c => (c, 0, empty)) ++ behind ∧
    ∀ entry ∈ behind, entry.1.isDetached = false

variable {ds : Descriptors} {tag : String} {span : Span} {nodes : List Node}

/-- What becomes of a detached child. -/
theorem ofNode_of_isDetached {c : Node} (h : c.isDetached = true) :
    (c, max (c.place - span.start) 0, ofNode ds c) = (c, max (-1 - span.start) 0, empty) := by
  rw [Node.place_of_isDetached h]
  cases c with
  | detached => rw [ofNode_detached]
  | spanned => contradiction

/-- What becomes of a child stands for a detached one at the start of the part only if the child is
    detached and the part does not start further in front of the document than it is put. -/
theorem isDetached_of_mem_parked {c : Node}
    (h : (c, max (c.place - span.start) 0, ofNode ds c) ∈
      (nodes.filter Node.isDetached).map fun c => (c, 0, empty)) :
    c.isDetached = true ∧ -1 ≤ span.start := by
  obtain ⟨d, hd, same⟩ := List.mem_map.mp h
  obtain ⟨rfl, same⟩ := Prod.mk.inj same
  obtain ⟨start, -⟩ := Prod.mk.inj same
  have detached := (List.mem_filter.mp hd).2
  rw [Node.place_of_isDetached detached] at start
  exact ⟨detached, by omega⟩

/-- **Room in front.** The detached children are in front exactly if there is room for them. -/
theorem parkedInFront_ofNode :
    ParkedInFront nodes (Node.inOrder nodes) (ofNode ds (.spanned tag span nodes)) ↔
      Node.LeavesRoom span nodes := by
  rw [ParkedInFront, zip_children_ofNode]
  constructor
  · rintro ⟨behind, whole, placed⟩
    obtain ⟨front, back, split, parked, rfl⟩ := List.map_eq_append_iff.mp whole
    have lost : ∀ c ∈ front, c.isDetached = true ∧ -1 ≤ span.start := by
      intro c hc
      apply isDetached_of_mem_parked
      rw [← parked]
      exact List.mem_map_of_mem hc
    have others : ∀ c ∈ back, ¬c.isDetached = true := by
      intro c hc
      rw [placed _ (List.mem_map_of_mem hc)]
      exact Bool.false_ne_true
    obtain ⟨bound, ties⟩ := Node.pairwise_inOrder_iff.mp
      (pairwise_imp_iff.mpr ⟨front, back, split, fun c hc => (lost c hc).1, others⟩)
    refine ⟨fun c hc detached => ?_, bound, ties⟩
    rw [← Node.mem_inOrder, split, List.mem_append] at hc
    exact (lost c (hc.resolve_right fun hc => others c hc detached)).2
  · intro room
    obtain ⟨front, back, split, lost, others⟩ :=
      pairwise_imp_iff.mp (Node.pairwise_inOrder_iff.mpr ⟨room.place_ge, room.ties⟩)
    have parked : nodes.filter Node.isDetached = front := by
      rw [← Node.filter_isDetached_inOrder, split, List.filter_append,
        List.filter_eq_self.mpr lost, List.filter_eq_nil_iff.mpr others, List.append_nil]
    refine ⟨back.map fun c => (c, max (c.place - span.start) 0, ofNode ds c), ?_, ?_⟩
    · rw [parked, split, List.map_append]
      congr 1
      apply List.map_congr_left
      intro c hc
      have mem : c ∈ nodes := by
        rw [← Node.mem_inOrder, split]
        exact List.mem_append_left _ hc
      have start := room.start_ge c mem (lost c hc)
      rw [ofNode_of_isDetached (lost c hc), max_eq_right (by omega)]
    · intro entry hentry
      obtain ⟨c, hc, rfl⟩ := List.mem_map.mp hentry
      exact Bool.eq_false_of_not_eq_true (others c hc)

/-- **Detached children.**  If building a node makes a tree, then in each part that was made of a
    spanned node the detached children of this stand in the order in which they were given, each as
    the empty tree, and all at one position: the start of the part, or further behind if the span
    starts early in front of the document.  They come in front of the others, at the start of the
    part, exactly if neither the span nor a sibling starts further in front of the document than
    they are put, and no sibling that starts just there was given before one of them.  This is so in
    each part if nothing starts in front of the document. -/
theorem build_parked {n : Node} {depth : Int} {ds after : Descriptors} {t : Tree}
    (built : (build n depth).run.run ds = (.ok t, after)) {tag : String} {span : Span}
    {nodes : List Node} {part : Tree} (made : MadeOf n t (.spanned tag span nodes) part) :
    ∃ row, WellFormed after tag span nodes row part ∧
      row.filter Node.isDetached = nodes.filter Node.isDetached ∧
      (∀ entry ∈ row.zip part.children, entry.1.isDetached = true →
        entry.2 = (max (-1 - span.start) 0, empty)) ∧
      (ParkedInFront nodes row part ↔ Node.LeavesRoom span nodes) ∧
      (n.Throughout (fun m => ∀ s ∈ m.span?, 0 ≤ s.start) → ParkedInFront nodes row part) := by
  obtain ⟨known, whole⟩ := known_of_build built
  obtain ⟨known, rfl⟩ := made.eq_ofNode known whole
  refine ⟨Node.inOrder nodes, wellFormed_ofNode known, Node.filter_isDetached_inOrder nodes, ?_,
    parkedInFront_ofNode, fun inside => ?_⟩
  · rw [zip_children_ofNode]
    intro entry hentry detached
    obtain ⟨c, -, rfl⟩ := List.mem_map.mp hentry
    exact (Prod.mk.inj (ofNode_of_isDetached detached)).2
  · exact parkedInFront_ofNode.mpr (Node.leavesRoom_of_throughout (made.throughout inside))

/-- Detached children among others, one of which starts at the place where these are put. -/
def scatteredNodes : List Node :=
  [.spanned "Late" ⟨2, 4⟩ [], .detached "Lost" [], .detached "Stray" [],
    .spanned "Early" ⟨-1, 1⟩ []]

/-- There is room for them in a parent that starts there as well. -/
theorem build_parked_scattered :
    ∃ t after row,
      (build (.spanned "Whole" ⟨-1, 4⟩ scatteredNodes) 2).run.run (.empty .lyql) = (.ok t, after) ∧
      MadeOf (.spanned "Whole" ⟨-1, 4⟩ scatteredNodes) t (.spanned "Whole" ⟨-1, 4⟩ scatteredNodes)
        t ∧
      WellFormed after "Whole" ⟨-1, 4⟩ scatteredNodes row t ∧
      ParkedInFront scatteredNodes row t := by
  have built := run_build (.spanned "Whole" ⟨-1, 4⟩ scatteredNodes) 2 (by cbv) (.empty .lyql)
  obtain ⟨row, wellFormed, -, -, parked, -⟩ := build_parked built .top
  have room : Node.LeavesRoom ⟨-1, 4⟩ scatteredNodes := by
    refine ⟨fun _ _ _ => le_refl _, fun _ _ _ => ?_, ?_⟩
    · simp [scatteredNodes, Node.place]
    · simp [Node.DetachedFirst, scatteredNodes, Node.place]
  exact ⟨_, _, row, built, .top, wellFormed, parked.mpr room⟩

/-- A detached child of a node that starts early in front of the document, as does its sibling. -/
def strandedNodes : List Node :=
  [.spanned "A" ⟨-3, 2⟩ [], .detached "Lost" []]

/-- It comes behind its sibling, and not at the start of the part. -/
theorem not_parked_stranded :
    ∃ t after,
      (build (.spanned "P" ⟨-5, 5⟩ strandedNodes) 2).run.run (.empty .lyql) = (.ok t, after) ∧
      (∃ a, t.children = [(2, a), (4, empty)]) ∧
      ∀ row, Node.StablyOrdered strandedNodes row → ¬ParkedInFront strandedNodes row t := by
  have built := run_build (.spanned "P" ⟨-5, 5⟩ strandedNodes) 2 (by cbv) (.empty .lyql)
  refine ⟨_, _, built, ?_, fun row order => ?_⟩
  · have row : Node.inOrder strandedNodes = strandedNodes := by cbv
    rw [ofNode_spanned, row, strandedNodes, children, List.map_cons, List.map_cons, List.map_nil,
      ofNode_detached]
    exact ⟨_, rfl⟩
  · rw [order.eq_inOrder, parkedInFront_ofNode]
    intro room
    have start := room.start_ge (.detached "Lost" []) (by simp [strandedNodes]) rfl
    contradiction

end Tree

end LyqlHighlight
