import LyqlHighlight.Proofs.Building
import Mathlib.Order.MinMax

namespace LyqlHighlight

/-!
# Levels of nodes

Building a tree goes down through spanned nodes only, and so does a walk.  A node has as many levels
as there are spanned nodes in the longest row of them that begins with it and goes from parent to
child.

* `Node.levels` — the number of levels of a node;
* `Node.exists_visit_iff` — the levels as a walk meets them;
* `Node.refused_demand` — the node that building refuses: the first one in the walk with as many
  nodes above it as levels are allowed;
* `Node.refused_demand_eq_none_iff`, `Node.refused_rootDemand_eq_none_iff` — nothing is refused of a
  node of few levels.
-/

namespace Node

mutual

/-- The number of levels of spanned nodes, from a node down. -/
def levels : Node → Nat
  | spanned _ _ children => mostLevels children + 1
  | detached _ _ => 0

/-- The greatest number of levels of several nodes. -/
def mostLevels : List Node → Nat
  | [] => 0
  | n :: nodes => max n.levels (mostLevels nodes)

end

@[simp] theorem levels_spanned (tag : String) (span : Span) (nodes : List Node) :
    (spanned tag span nodes).levels = mostLevels nodes + 1 := by
  rw [levels]

@[simp] theorem levels_detached (tag : String) (nodes : List Node) :
    (detached tag nodes).levels = 0 := by
  rw [levels]

theorem lt_mostLevels_iff {d : Nat} {nodes : List Node} :
    d < mostLevels nodes ↔ ∃ c ∈ nodes, d < c.levels := by
  induction nodes with
  | nil => simp [mostLevels]
  | cons n nodes ih => rw [mostLevels, lt_max_iff, ih, List.exists_mem_cons_iff]

theorem mostLevels_le_iff {d : Nat} {nodes : List Node} :
    mostLevels nodes ≤ d ↔ ∀ c ∈ nodes, c.levels ≤ d := by
  rw [← Nat.not_lt, lt_mostLevels_iff]
  push Not
  rfl

/-- A walk meets a node with `d` more nodes above it than the first one has exactly if the first one
    has more than `d` levels. -/
theorem exists_visit_iff (n : Node) (d : Nat) (above : List Int) :
    (∃ v ∈ n.visitsBelow above, v.depth = above.length + d) ↔ d < n.levels := by
  induction n using Node.inductionOn generalizing d above with
  | detached tag nodes _ => simp
  | spanned tag span nodes ih =>
    rw [visitsBelow_spanned, flatMap_visitsBelow_inOrder, levels_spanned, List.exists_mem_cons_iff]
    cases d with
    | zero => exact ⟨fun _ => Nat.succ_pos _, fun _ => .inl rfl⟩
    | succ d =>
      -- The node itself has too few nodes above it, so the visit is one of a child.
      have other : ¬(⟨tag, span, above⟩ : Visit).depth = above.length + (d + 1) := by
        show ¬above.length = above.length + (d + 1)
        omega
      rw [or_iff_right other, Nat.succ_lt_succ_iff, lt_mostLevels_iff]
      have child : ∀ c ∈ nodes,
          ((∃ v ∈ c.visitsBelow (span.start :: above), v.depth = above.length + (d + 1)) ↔
            d < c.levels) := by
        intro c hc
        rw [← ih c hc d (span.start :: above), List.length_cons, Nat.add_right_comm,
          Nat.add_assoc]
      constructor
      · rintro ⟨v, hv, hdepth⟩
        obtain ⟨c, hc, hv⟩ := List.mem_flatMap.mp hv
        have hc := mem_inOrder.mp hc
        exact ⟨c, hc, (child c hc).mp ⟨v, hv, hdepth⟩⟩
      · rintro ⟨c, hc, hlevels⟩
        obtain ⟨v, hv, hdepth⟩ := (child c hc).mpr hlevels
        exact ⟨v, List.mem_flatMap.mpr ⟨c, mem_inOrder.mpr hc, hv⟩, hdepth⟩

end Node

/-! ### What building refuses -/

namespace Node

/-- **Refusal.** Building refuses the first node in the walk with as many nodes above it, from the
    top on, as levels are allowed. -/
theorem refused_demand (n : Node) (depth : Nat) (above : List Int) :
    (n.demand depth).refused =
      ((n.visitsBelow above).find? fun v => v.depth = above.length + depth).map
        fun v => ⟨v.tag⟩ := by
  -- On the way to a child one level is used up, and one node more is above.
  induction depth generalizing n above with
  | zero =>
    cases n with
    | detached tag nodes =>
      rw [visitsBelow_detached]
      rfl
    | spanned tag span nodes =>
      rw [visitsBelow_spanned, List.find?_cons_of_pos (by simp [Visit.depth])]
      rfl
  | succ depth ih =>
    cases n with
    | detached tag nodes =>
      rw [visitsBelow_detached]
      rfl
    | spanned tag span nodes =>
      have child : ∀ c : Node, (c.demand depth).refused =
          ((c.visitsBelow (span.start :: above)).find?
            fun v => v.depth = above.length + (depth + 1)).map fun v => ⟨v.tag⟩ := by
        intro c
        rw [ih c (span.start :: above), List.length_cons, Nat.add_right_comm, Nat.add_assoc]
      rw [demand, Demand.refused_andThen_tags, Demand.refused_all_eq_findSome?,
        List.findSome?_map, visitsBelow_spanned, flatMap_visitsBelow_inOrder,
        List.find?_cons_of_neg (by simp [Visit.depth]), List.find?_flatMap, List.map_findSome?]
      congr 1
      funext c
      exact child c

/-- Building refuses nothing exactly if a node has no more levels than allowed. -/
theorem refused_demand_eq_none_iff {n : Node} {depth : Nat} :
    (n.demand depth).refused = none ↔ n.levels ≤ depth := by
  rw [refused_demand n depth [], Option.map_eq_none_iff, List.find?_eq_none, ← Nat.not_lt,
    ← exists_visit_iff n depth []]
  simp

/-- The same under the root, which takes one of the allowed levels. -/
theorem refused_rootDemand_eq_none_iff {n : Node} {depth : Int} :
    (n.rootDemand depth).refused = none ↔ n.levels = 0 ∨ (n.levels : Int) < depth := by
  cases n with
  | detached tag nodes => simp [rootDemand, Demand.nothing]
  | spanned tag span nodes =>
    rw [rootDemand, Demand.refused_tags_andThen, refused_demand_eq_none_iff, levels_spanned]
    omega

/-- Under the root, building refuses the first node in the walk with one node less above it than
    levels are allowed. -/
theorem refused_rootDemand (n : Node) (depth : Int) :
    (n.rootDemand depth).refused =
      (n.visits.find? fun v => v.depth = (depth - 1).toNat).map fun v => ⟨v.tag⟩ := by
  cases n with
  | detached tag nodes =>
    rw [visits, visitsBelow_detached]
    rfl
  | spanned tag span nodes =>
    rw [rootDemand, Demand.refused_tags_andThen, refused_demand _ _ []]
    simp [visits]

end Node

end LyqlHighlight
