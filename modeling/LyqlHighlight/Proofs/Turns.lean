import LyqlHighlight.Proofs.Levels
import Mathlib.Data.List.TakeWhile

namespace LyqlHighlight

/-!
# The turns of a walk

A walk enters a node, goes through what is below it, and leaves it.  Building follows the walk: it
gives up when it enters a node with too many nodes above it, and asks for the tag of a node when it
leaves it.  So what has been asked for until then belongs to the nodes that had been left.

* `Turn`, `Node.turns` — entering and leaving, in the order of a walk;
* `Node.turns_entered`, `Node.turns_left` — the nodes in the order in which they are entered, and in
  which they are left: parents before their children, and children before their parents;
* `Node.leftWithin` — the nodes that are left before a walk meets its limit;
* `Node.demand_eq_along` — what building asks for, and what it refuses.
-/

/-- A turn of a walk at a spanned node. -/
inductive Turn where
  /-- The walk comes to the node. -/
  | enter (v : Visit)
  /-- The walk leaves the node, after all that is below it. -/
  | leave (v : Visit)
deriving DecidableEq, Repr

namespace Turn

/-- The node that is entered, if one is. -/
def entered? : Turn → Option Visit
  | enter v => some v
  | leave _ => none

/-- The node that is left, if one is. -/
def left? : Turn → Option Visit
  | enter _ => none
  | leave v => some v

/-- Whether a node is entered that has `limit` nodes above it. -/
def meets (limit : Nat) : Turn → Bool
  | enter v => v.depth = limit
  | leave _ => false

end Turn

/-- The turns of a walk from a node on, below nodes with the given starts. -/
def Node.turnsBelow (above : List Int) : Node → List Turn
  | .detached _ _ => []
  | .spanned tag span nodes =>
    .enter ⟨tag, span, above⟩ ::
      ((inOrder (nodes.filter isSpanned)).attach.flatMap fun ⟨child, _⟩ =>
        turnsBelow (span.start :: above) child) ++ [.leave ⟨tag, span, above⟩]
termination_by n => sizeOf n
decreasing_by
  have := sizeOf_lt_of_mem_inOrder ‹_›
  simp only [spanned.sizeOf_spec]
  omega

/-- The nodes below nodes with the given starts, each after all that is below it. -/
def Node.returnsBelow (above : List Int) : Node → List Visit
  | .detached _ _ => []
  | .spanned tag span nodes =>
    ((inOrder (nodes.filter isSpanned)).attach.flatMap fun ⟨child, _⟩ =>
      returnsBelow (span.start :: above) child) ++ [⟨tag, span, above⟩]
termination_by n => sizeOf n
decreasing_by
  have := sizeOf_lt_of_mem_inOrder ‹_›
  simp only [spanned.sizeOf_spec]
  omega

namespace Node

/-- The turns of a walk from the top. -/
def turns (n : Node) : List Turn :=
  n.turnsBelow []

/-- The nodes of a walk from the top, each after all that is below it. -/
def returns (n : Node) : List Visit :=
  n.returnsBelow []

/-- The nodes that a walk from the top has left when it first enters one with `limit` nodes above
    it, or at its end if it enters none. -/
def leftWithin (limit : Nat) (n : Node) : List Visit :=
  (n.turns.takeWhile fun t => !t.meets limit).filterMap Turn.left?

@[simp] theorem turnsBelow_detached (above : List Int) (tag : String) (nodes : List Node) :
    (detached tag nodes).turnsBelow above = [] := by
  rw [turnsBelow]

theorem turnsBelow_spanned (above : List Int) (tag : String) (span : Span) (nodes : List Node) :
    (spanned tag span nodes).turnsBelow above =
      .enter ⟨tag, span, above⟩ ::
        (inOrder (nodes.filter isSpanned)).flatMap (turnsBelow (span.start :: above)) ++
          [.leave ⟨tag, span, above⟩] := by
  rw [turnsBelow, List.flatMap_subtype (g := turnsBelow (span.start :: above)) (fun _ _ => rfl),
    List.unattach_attach]

@[simp] theorem returnsBelow_detached (above : List Int) (tag : String) (nodes : List Node) :
    (detached tag nodes).returnsBelow above = [] := by
  rw [returnsBelow]

theorem returnsBelow_spanned (above : List Int) (tag : String) (span : Span) (nodes : List Node) :
    (spanned tag span nodes).returnsBelow above =
      (inOrder (nodes.filter isSpanned)).flatMap (returnsBelow (span.start :: above)) ++
        [⟨tag, span, above⟩] := by
  rw [returnsBelow,
    List.flatMap_subtype (g := returnsBelow (span.start :: above)) (fun _ _ => rfl),
    List.unattach_attach]

/-- What is picked from the turns of each child is picked from those of all children. -/
theorem filterMap_turns_children {pick : Turn → Option Visit} {walk : Node → List Visit}
    {above : List Int} {nodes : List Node}
    (picked : ∀ c ∈ nodes, (c.turnsBelow above).filterMap pick = walk c) :
    ((inOrder (nodes.filter isSpanned)).flatMap (turnsBelow above)).filterMap pick =
      (inOrder (nodes.filter isSpanned)).flatMap walk := by
  rw [List.filterMap_flatMap]
  apply List.flatMap_congr
  intro c hc
  exact picked c (List.mem_of_mem_filter (mem_inOrder.mp hc))

/-- A walk enters the nodes in the order of its visits. -/
theorem turns_entered (n : Node) (above : List Int) :
    (n.turnsBelow above).filterMap Turn.entered? = n.visitsBelow above := by
  induction n using Node.inductionOn generalizing above with
  | detached tag nodes _ => simp
  | spanned tag span nodes ih =>
    rw [turnsBelow_spanned, visitsBelow_spanned, List.cons_append, List.filterMap_cons,
      List.filterMap_append, filterMap_turns_children fun c hc => ih c hc (span.start :: above)]
    exact congrArg _ (List.append_nil _)

/-- A walk leaves each node after all that is below it. -/
theorem turns_left (n : Node) (above : List Int) :
    (n.turnsBelow above).filterMap Turn.left? = n.returnsBelow above := by
  induction n using Node.inductionOn generalizing above with
  | detached tag nodes _ => simp
  | spanned tag span nodes ih =>
    rw [turnsBelow_spanned, returnsBelow_spanned, List.cons_append, List.filterMap_cons,
      List.filterMap_append, filterMap_turns_children fun c hc => ih c hc (span.start :: above)]
    rfl

end Node

/-! ### What is asked for along a walk -/

namespace Demand

@[simp] theorem nothing_andThen (d : Demand) : nothing.andThen d = d :=
  rfl

theorem andThen_assoc (a b c : Demand) : (a.andThen b).andThen c = a.andThen (b.andThen c) := by
  obtain ⟨_, _ | e⟩ := a
  · obtain ⟨_, _ | e⟩ := b
    · simp [andThen]
    · rfl
  · rfl

/-- What building asks for along some turns: the tags of the nodes that are left, until a node is
    entered with `limit` nodes above it, which is refused. -/
def along (limit : Nat) (turns : List Turn) : Demand where
  tags := ((turns.takeWhile fun t => !t.meets limit).filterMap Turn.left?).map Visit.tag
  refused := ((turns.filterMap Turn.entered?).find? fun v => v.depth = limit).map fun v => ⟨v.tag⟩

variable {limit : Nat}

theorem along_cons (t : Turn) (turns : List Turn) :
    along limit (t :: turns) = (along limit [t]).andThen (along limit turns) := by
  cases t with
  | leave v => rfl
  | enter v =>
    by_cases h : v.depth = limit
    · simp [along, andThen, Turn.meets, Turn.entered?, h]
    · have passes : Turn.meets limit (.enter v) = false := decide_eq_false h
      simp [along, andThen, Turn.entered?, List.filterMap_cons, Turn.left?, passes, h]

/-- What is asked for along two rows of turns. -/
theorem along_append (turns more : List Turn) :
    along limit (turns ++ more) = (along limit turns).andThen (along limit more) := by
  induction turns with
  | nil => rfl
  | cons t turns ih => rw [List.cons_append, along_cons, ih, along_cons t turns, andThen_assoc]

theorem along_flatMap {α : Type} (f : α → List Turn) (l : List α) :
    along limit (l.flatMap f) = all (l.map fun a => along limit (f a)) := by
  induction l with
  | nil => rfl
  | cons a l ih =>
    rw [List.flatMap_cons, along_append, ih]
    rfl

end Demand

namespace Node

/-- Detached children take no turns, so a walk may as well pass over them. -/
theorem flatMap_turnsBelow_inOrder (above : List Int) (nodes : List Node) :
    (inOrder (nodes.filter isSpanned)).flatMap (turnsBelow above) =
      (inOrder nodes).flatMap (turnsBelow above) :=
  flatMap_inOrder_filter (turnsBelow_detached above) nodes

/-- **Demand.** What building asks for, and what it refuses, is what lies along the turns of the
    walk. -/
theorem demand_eq_along (n : Node) (depth : Nat) (above : List Int) :
    n.demand depth = Demand.along (above.length + depth) (n.turnsBelow above) := by
  -- On the way to a child one level is used up, and one node more is above.
  induction depth generalizing n above with
  | zero =>
    cases n with
    | detached tag nodes =>
      rw [turnsBelow_detached]
      rfl
    | spanned tag span nodes =>
      rw [turnsBelow_spanned, List.cons_append, Demand.along_cons]
      simp [demand, Demand.along, Demand.andThen, Turn.meets, Turn.entered?, Visit.depth]
  | succ depth ih =>
    cases n with
    | detached tag nodes =>
      rw [turnsBelow_detached]
      rfl
    | spanned tag span nodes =>
      have child : ∀ c : Node, c.demand depth =
          Demand.along (above.length + (depth + 1)) (c.turnsBelow (span.start :: above)) := by
        intro c
        rw [ih c (span.start :: above), List.length_cons, Nat.add_right_comm, Nat.add_assoc]
      have first : Demand.along (above.length + (depth + 1)) [.enter ⟨tag, span, above⟩] =
          .nothing := by
        simp [Demand.along, Demand.nothing, Turn.meets, Turn.entered?, Turn.left?, Visit.depth]
      rw [turnsBelow_spanned, flatMap_turnsBelow_inOrder, Demand.along_append, Demand.along_cons,
        first, Demand.nothing_andThen, Demand.along_flatMap, demand]
      simp only [child]
      rfl

/-- The tags that building asks for are those of the nodes that it has left. -/
theorem tags_demand (n : Node) (depth : Nat) :
    (n.demand depth).tags = (n.leftWithin depth).map Visit.tag := by
  rw [demand_eq_along n depth [], List.length_nil, Nat.zero_add]
  rfl

/-- If no node has `limit` nodes above it, all are left. -/
theorem leftWithin_eq_returns {n : Node} {limit : Nat}
    (h : ∀ v ∈ n.visits, v.depth ≠ limit) : n.leftWithin limit = n.returns := by
  have passes : ∀ t ∈ n.turns, t.meets limit = false := by
    intro t ht
    cases t with
    | leave v => rfl
    | enter v =>
      have hv : v ∈ n.visits := by
        rw [visits, ← turns_entered]
        exact List.mem_filterMap.mpr ⟨_, ht, rfl⟩
      exact decide_eq_false (h v hv)
  have whole : n.turns.takeWhile (fun t => !t.meets limit) = n.turns := by
    rw [List.takeWhile_eq_self_iff]
    intro t ht
    rw [passes t ht]
    rfl
  rw [leftWithin, whole]
  exact turns_left n []

end Node

end LyqlHighlight
