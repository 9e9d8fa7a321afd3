import LyqlHighlight.Proofs.Levels

namespace LyqlHighlight

/-!
# Nodes that nest too deeply

What makes building fail is a row of spanned nodes that is too long: it begins with the node that
is built, and each of its members is a child of the one in front.  A detached node ends such a row,
so nothing below it counts.

* `Node.Lineage` — the rows;
* `Node.lt_levels_iff` — a node has more than `d` levels exactly if more than `d` nodes stand in
  such a row;
* `Tree.build_refused` — when building fails, and at which node.
-/

namespace Node

/-- Spanned nodes in a row, each a child of the one in front of it. -/
structure Lineage (row : List Node) : Prop where
  /-- Each member has a place in the source. -/
  spanned : ∀ n ∈ row, n.isSpanned = true
  /-- Each member but the first is a child of the one in front. -/
  linked : row.IsChain fun parent child => child ∈ parent.children

theorem lineage_singleton_iff {n : Node} : Lineage [n] ↔ n.isSpanned = true := by
  constructor
  · intro h
    exact h.spanned n List.mem_cons_self
  · intro h
    exact ⟨List.forall_mem_singleton.mpr h, List.IsChain.singleton n⟩

theorem lineage_cons_cons_iff {parent child : Node} {row : List Node} :
    Lineage (parent :: child :: row) ↔
      parent.isSpanned = true ∧ child ∈ parent.children ∧ Lineage (child :: row) := by
  constructor
  · rintro ⟨spanned, linked⟩
    obtain ⟨own, others⟩ := List.forall_mem_cons.mp spanned
    obtain ⟨link, linked⟩ := List.isChain_cons_cons.mp linked
    exact ⟨own, link, others, linked⟩
  · rintro ⟨own, link, others, linked⟩
    exact ⟨List.forall_mem_cons.mpr ⟨own, others⟩, List.isChain_cons_cons.mpr ⟨link, linked⟩⟩

/-- A node has more than `d` levels exactly if a row of more than `d` nodes begins with it. -/
theorem lt_levels_iff {n : Node} {d : Nat} :
    d < n.levels ↔ ∃ below, Lineage (n :: below) ∧ d ≤ below.length := by
  induction n using Node.inductionOn generalizing d with
  | detached tag nodes _ =>
    rw [levels_detached]
    constructor
    · intro h
      exact absurd h (Nat.not_lt_zero d)
    · rintro ⟨below, lineage, -⟩
      have spanned := lineage.spanned _ List.mem_cons_self
      exact absurd spanned (by simp [isSpanned])
  | spanned tag span nodes ih =>
    rw [levels_spanned]
    cases d with
    | zero => exact ⟨fun _ => ⟨[], lineage_singleton_iff.mpr rfl, Nat.le_refl 0⟩,
        fun _ => Nat.succ_pos _⟩
    | succ d =>
      -- The second node of the row is the child that has more than `d` levels.
      rw [Nat.succ_lt_succ_iff, lt_mostLevels_iff]
      constructor
      · rintro ⟨c, hc, hlevels⟩
        obtain ⟨below, lineage, hd⟩ := (ih c hc).mp hlevels
        exact ⟨c :: below, lineage_cons_cons_iff.mpr ⟨rfl, hc, lineage⟩, Nat.succ_le_succ hd⟩
      · rintro ⟨below, lineage, hd⟩
        cases below with
        | nil => exact absurd hd (Nat.not_succ_le_zero d)
        | cons c below =>
          obtain ⟨-, hc, lineage⟩ := lineage_cons_cons_iff.mp lineage
          exact ⟨c, hc, (ih c hc).mpr ⟨below, lineage, Nat.le_of_succ_le_succ hd⟩⟩

end Node

namespace Tree

/-- **Refusal.** Whatever has been asked for before, building a node fails exactly if a row of more
    spanned nodes than levels are allowed begins with it, each a child of the one in front.  It
    fails at the first node in the walk with as many nodes above it as levels are allowed, where
    fewer than no levels count as none. -/
theorem build_refused (n : Node) (depth : Int) (ds : Descriptors) :
    ((∃ e, ((build n depth).run.run ds).1 = .error e) ↔
      ∃ below, Node.Lineage (n :: below) ∧ depth < (n :: below).length) ∧
    ∀ e, ((build n depth).run.run ds).1 = .error e ↔
      ∃ v, n.visits.find? (fun v => v.depth = max depth 0) = some v ∧ e = ⟨v.tag⟩ := by
  constructor
  · have refused_iff : (∃ e, (n.demand depth.toNat).refused = some e) ↔ depth.toNat < n.levels := by
      rw [← Option.isSome_iff_exists, Option.isSome_iff_ne_none, Ne,
        Node.refused_demand_eq_none_iff, Nat.not_le]
    simp only [build_eq_error_iff, refused_iff, Node.lt_levels_iff]
    refine exists_congr fun below => and_congr_right fun _ => ?_
    rw [List.length_cons]
    omega
  · intro e
    have limit : ∀ v : Visit,
        (v.depth = ([] : List Int).length + depth.toNat) = ((v.depth : Int) = max depth 0) := by
      intro v
      rw [List.length_nil, eq_iff_iff]
      omega
    rw [build_eq_error_iff, Node.refused_demand n depth.toNat [], Option.map_eq_some_iff]
    simp only [limit]
    exact exists_congr fun v => and_congr_right fun _ => eq_comm

/-- Nodes of three levels below a topmost one, out of order, and a detached node that hides more. -/
def unevenNode : Node :=
  .spanned "Whole" ⟨0, 9⟩
    [.spanned "Late" ⟨5, 9⟩ [.spanned "Inner" ⟨6, 8⟩ [.spanned "Leaf" ⟨7, 8⟩ []]],
      .detached "Lost" [.spanned "Part" ⟨0, 1⟩ [.spanned "Part" ⟨0, 1⟩ [.spanned "Part" ⟨0, 1⟩ []]]],
      .spanned "Early" ⟨1, 4⟩ [.spanned "Word" ⟨2, 3⟩ []]]

/-- Where two levels are allowed, the node in front is refused, though the row behind it is the
    longer one; where fewer than none are, the topmost one is. -/
theorem build_refused_uneven :
    ((build unevenNode 2).run.run (.empty .lyql)).1 = .error ⟨"Word"⟩ ∧
      ((build unevenNode (-3)).run.run (.empty .lyql)).1 = .error ⟨"Whole"⟩ ∧
      ¬∃ e, ((build unevenNode 4).run.run (.empty .lyql)).1 = .error e := by
  refine ⟨?_, ?_, ?_⟩
  · apply ((build_refused unevenNode 2 _).2 _).mpr
    exact ⟨⟨"Word", ⟨2, 3⟩, [1, 0]⟩, by cbv, rfl⟩
  · apply ((build_refused unevenNode (-3) _).2 _).mpr
    exact ⟨⟨"Whole", ⟨0, 9⟩, []⟩, by cbv, rfl⟩
  · rintro ⟨e, h⟩
    obtain ⟨v, hv, -⟩ := ((build_refused unevenNode 4 _).2 e).mp h
    have none : unevenNode.visits.find? (fun v => (v.depth : Int) = max 4 0) = none := by cbv
    rw [none] at hv
    cases hv

end Tree

end LyqlHighlight
