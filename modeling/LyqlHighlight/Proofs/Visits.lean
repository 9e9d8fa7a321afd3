import LyqlHighlight.Proofs.StableOrder

namespace LyqlHighlight

/-!
# Walks over syntax nodes

A walk visits the spanned nodes that are reached from the top through spanned nodes only: parents
before their children, siblings in the stable order of their starts.  A detached node hides all that
is below it.

* `Node.inductionOn` — induction over nodes and the lists of their children;
* `Visit`, `Node.visits` — the visits of a walk;
* `Visit.shift` — how far the clamp of relative starts displaces a visited node;
* `Visit.shift_eq_zero` — nothing is displaced where no node starts before its parent.
-/

namespace Node

/-- Induction over nodes, with the hypothesis for each child. -/
@[elab_as_elim]
theorem inductionOn {motive : Node → Prop} (n : Node)
    (detached : ∀ tag nodes, (∀ c ∈ nodes, motive c) → motive (.detached tag nodes))
    (spanned : ∀ tag span nodes, (∀ c ∈ nodes, motive c) → motive (.spanned tag span nodes)) :
    motive n := by
  match n with
  | .detached tag nodes =>
    exact detached tag nodes fun c _ => inductionOn c detached spanned
  | .spanned tag span nodes =>
    exact spanned tag span nodes fun c _ => inductionOn c detached spanned
termination_by sizeOf n

/-- Whether a node has a place in the source. -/
def isSpanned : Node → Bool
  | spanned _ _ _ => true
  | detached _ _ => false

theorem sizeOf_lt_of_mem_inOrder {keep : Node → Bool} {c : Node} {nodes : List Node}
    (h : c ∈ inOrder (nodes.filter keep)) : sizeOf c < 1 + sizeOf nodes := by
  have hc := List.sizeOf_lt_of_mem (List.mem_of_mem_filter (mem_inOrder.mp h))
  omega

end Node

/-- A spanned node as a walk meets it. -/
structure Visit where
  /-- The tag of the node. -/
  tag : String
  /-- Its span. -/
  span : Span
  /-- The starts of the nodes above it, the nearest first. -/
  above : List Int
deriving DecidableEq, Repr

/-- The visits of a walk from a node on, below nodes with the given starts. -/
def Node.visitsBelow (above : List Int) : Node → List Visit
  | .detached _ _ => []
  | .spanned tag span nodes =>
    ⟨tag, span, above⟩ ::
      (inOrder (nodes.filter isSpanned)).attach.flatMap fun ⟨child, _⟩ =>
        visitsBelow (span.start :: above) child
termination_by n => sizeOf n
decreasing_by
  have := sizeOf_lt_of_mem_inOrder ‹_›
  simp only [spanned.sizeOf_spec]
  omega

/-- The visits of a walk from the top. -/
def Node.visits (n : Node) : List Visit :=
  n.visitsBelow []

namespace Node

@[simp] theorem visitsBelow_detached (above : List Int) (tag : String) (nodes : List Node) :
    (detached tag nodes).visitsBelow above = [] := by
  rw [visitsBelow]

/-- A walk visits a node and then its spanned children in order. -/
theorem visitsBelow_spanned (above : List Int) (tag : String) (span : Span) (nodes : List Node) :
    (spanned tag span nodes).visitsBelow above =
      ⟨tag, span, above⟩ ::
        (inOrder (nodes.filter isSpanned)).flatMap (visitsBelow (span.start :: above)) := by
  rw [visitsBelow, List.flatMap_subtype (g := visitsBelow (span.start :: above)) (fun _ _ => rfl),
    List.unattach_attach]

/-- What adds nothing for detached nodes may as well be collected from the others alone. -/
theorem flatMap_inOrder_filter {β : Type} {f : Node → List β}
    (nothing : ∀ tag nodes, f (detached tag nodes) = []) (nodes : List Node) :
    (inOrder (nodes.filter isSpanned)).flatMap f = (inOrder nodes).flatMap f := by
  rw [inOrder_filter]
  induction inOrder nodes with
  | nil => rfl
  | cons n nodes ih =>
    cases n with
    | spanned tag span children =>
      rw [List.filter_cons_of_pos rfl, List.flatMap_cons, List.flatMap_cons, ih]
    | detached tag children =>
      rw [List.filter_cons_of_neg (by simp [isSpanned]), List.flatMap_cons, nothing, ih,
        List.nil_append]

/-- Detached children add nothing, so a walk may as well pass over them. -/
theorem flatMap_visitsBelow_inOrder (above : List Int) (nodes : List Node) :
    (inOrder (nodes.filter isSpanned)).flatMap (visitsBelow above) =
      (inOrder nodes).flatMap (visitsBelow above) :=
  flatMap_inOrder_filter (visitsBelow_detached above) nodes

end Node

/-! ### Displacement -/

namespace Visit

/-- For a row of starts, each below the next: the sum of the distances by which one of them lies
    before the next. -/
def shiftOf : List Int → Int
  | start :: parent :: above => max 0 (parent - start) + shiftOf (parent :: above)
  | _ => 0

/-- The sum, over the steps from the top to a node, of the distances by which a child starts before
    its parent. -/
def shift (v : Visit) : Int :=
  shiftOf (v.span.start :: v.above)

/-- The number of nodes above. -/
def depth (v : Visit) : Nat :=
  v.above.length

/-- Whether the node starts at or after its parent. -/
def StartsInParent (v : Visit) : Prop :=
  ∀ parent ∈ v.above.head?, parent ≤ v.span.start

theorem shiftOf_cons {start : Int} {above : List Int}
    (h : ∀ parent ∈ above.head?, parent ≤ start) : shiftOf (start :: above) = shiftOf above := by
  cases above with
  | nil => rfl
  | cons parent above =>
    have hle : parent ≤ start := h parent rfl
    rw [shiftOf, max_eq_left (by omega), Int.zero_add]

/-- Below nodes that are not displaced, nothing is displaced if each visited node starts in its
    parent. -/
theorem shift_eq_zero_of_above (n : Node) {above : List Int} (habove : shiftOf above = 0)
    (h : ∀ v ∈ n.visitsBelow above, v.StartsInParent) :
    ∀ v ∈ n.visitsBelow above, v.shift = 0 := by
  induction n using Node.inductionOn generalizing above with
  | detached tag nodes _ => simp
  | spanned tag span nodes ih =>
    rw [Node.visitsBelow_spanned] at h ⊢
    have own : shiftOf (span.start :: above) = 0 := by
      rw [shiftOf_cons (h ⟨tag, span, above⟩ List.mem_cons_self), habove]
    intro v hv
    rcases List.mem_cons.mp hv with rfl | hv
    · exact own
    · obtain ⟨child, hchild, hv⟩ := List.mem_flatMap.mp hv
      -- The row of starts above the child is the one that was just seen to have no displacement.
      refine ih child ?_ own ?_ v hv
      · exact List.mem_of_mem_filter (Node.mem_inOrder.mp hchild)
      · intro w hw
        exact h w (List.mem_cons_of_mem _ (List.mem_flatMap.mpr ⟨child, hchild, hw⟩))

/-- **No displacement.** Where no visited node starts before its parent, none is displaced. -/
theorem shift_eq_zero (n : Node) (h : ∀ v ∈ n.visits, v.StartsInParent) :
    ∀ v ∈ n.visits, v.shift = 0 :=
  shift_eq_zero_of_above n rfl h

end Visit

end LyqlHighlight
