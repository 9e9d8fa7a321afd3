import LyqlHighlight.Proofs.Building

namespace LyqlHighlight

/-!
# Children in another order

Building puts the children of each node in the stable order of their places before it looks at any
of them.  So the order in which they are reported shows only among children at the same place, and
children may change their order otherwise, at all nodes at once, without any effect.

* `Node.SameTies`, `Node.inOrder_eq_of_sameTies` — another order that keeps the order of the
  children at each place;
* `Node.Rearranged` — nodes with their children in such an order, at any number of nodes;
* `Tree.buildWithin_eq_of_rearranged` — building them is the same action;
* `Tree.build_rearranged` — so it makes the same tree, or fails in the same way, and leaves the same
  descriptors.
-/

namespace Node

/-- The same children in another order, in which those at the same place stand as they stood. -/
structure SameTies (nodes others : List Node) : Prop where
  /-- No child is lost or repeated. -/
  perm : nodes.Perm others
  /-- The children at each place keep their order. -/
  ties : ∀ place, nodes.filter (fun c => c.place = place) = others.filter fun c => c.place = place

/-- The stable order does not depend on the order in which the children stood. -/
theorem inOrder_eq_of_sameTies {nodes others : List Node} (h : SameTies nodes others) :
    inOrder nodes = inOrder others := by
  apply eq_of_ascending_of_filter_eq place (inOrder_ascending nodes) (inOrder_ascending others)
  intro k
  rw [inOrder_eq_sortBy, inOrder_eq_sortBy, filter_sortBy, filter_sortBy]
  exact h.ties k

/-- Children may be moved behind others that are at other places. -/
theorem sameTies_append_comm (front back : List Node)
    (h : ∀ a ∈ front, ∀ b ∈ back, a.place ≠ b.place) : SameTies (front ++ back) (back ++ front) where
  perm := List.perm_append_comm
  ties k := by
    -- Only one of the two rows has children at this place.
    rw [List.filter_append, List.filter_append]
    by_cases hk : ∃ a ∈ front, a.place = k
    · obtain ⟨a, ha, rfl⟩ := hk
      have none : back.filter (fun c => c.place = a.place) = [] := by
        rw [List.filter_eq_nil_iff]
        intro b hb
        rw [decide_eq_true_eq]
        exact (h a ha b hb).symm
      rw [none, List.append_nil, List.nil_append]
    · have none : front.filter (fun c => c.place = k) = [] := by
        rw [List.filter_eq_nil_iff]
        intro a ha
        rw [decide_eq_true_eq]
        exact fun hak => hk ⟨a, ha, hak⟩
      rw [none, List.append_nil, List.nil_append]

/-- A node out of another one by rearranging the children of any number of its nodes: the children
    are put in another order, `pairs` holds each of them in this order, in front of what becomes of
    it, and the order of children at the same place is kept. -/
inductive Rearranged : Node → Node → Prop where
  | spanned (tag : String) (span : Span) {nodes : List Node} (pairs : List (Node × Node))
      (order : SameTies nodes (pairs.map Prod.fst)) (below : ∀ p ∈ pairs, Rearranged p.1 p.2) :
      Rearranged (.spanned tag span nodes) (.spanned tag span (pairs.map Prod.snd))
  | detached (tag : String) {nodes : List Node} (pairs : List (Node × Node))
      (order : SameTies nodes (pairs.map Prod.fst)) (below : ∀ p ∈ pairs, Rearranged p.1 p.2) :
      Rearranged (.detached tag nodes) (.detached tag (pairs.map Prod.snd))

/-- Rearranging leaves a node at its place. -/
theorem Rearranged.place_eq {a b : Node} (h : Rearranged a b) : a.place = b.place := by
  cases h with
  | spanned => rfl
  | detached => rfl

/-- Pairs of nodes at the same place can be put in order by either node. -/
theorem exists_inOrder_pairs {pairs : List (Node × Node)}
    (h : ∀ p ∈ pairs, p.1.place = p.2.place) :
    ∃ sorted : List (Node × Node), (∀ p ∈ sorted, p ∈ pairs) ∧
      inOrder (pairs.map Prod.fst) = sorted.map Prod.fst ∧
      inOrder (pairs.map Prod.snd) = sorted.map Prod.snd := by
  refine ⟨sortBy (fun p => p.1.place) pairs, fun p hp => (mem_sortBy _).mp hp, ?_, ?_⟩
  · exact sortBy_map fun p _ => rfl
  · exact sortBy_map h

end Node

namespace Tree

/-- Actions for pairs whose sides make no difference. -/
private theorem mapM_fst_eq_mapM_snd {α β : Type} {f : α → BuildM β} {pairs : List (α × α)}
    (h : ∀ p ∈ pairs, f p.1 = f p.2) :
    (pairs.map Prod.fst).mapM f = (pairs.map Prod.snd).mapM f := by
  induction pairs with
  | nil => rfl
  | cons p pairs ih =>
    rw [List.map_cons, List.map_cons, List.mapM_cons, List.mapM_cons, h p List.mem_cons_self,
      ih fun q hq => h q (List.mem_cons_of_mem p hq)]

/-- **Rearranging.** Building a node with its children rearranged is the same action. -/
theorem buildWithin_eq_of_rearranged {a b : Node} (h : a.Rearranged b) (depth : Nat) :
    buildWithin depth a = buildWithin depth b := by
  induction h generalizing depth with
  | detached tag pairs order below ih => cases depth <;> rfl
  | spanned tag span pairs order below ih =>
    cases depth with
    | zero => rfl
    | succ depth =>
      -- Both rows of children are put in one order, where each child is built as before.
      have place_eq : ∀ p ∈ pairs, p.1.place = p.2.place := fun p hp => (below p hp).place_eq
      obtain ⟨sorted, hmem, hfst, hsnd⟩ := Node.exists_inOrder_pairs place_eq
      rw [buildWithin, buildWithin, Node.inOrder_eq_of_sameTies order, hfst, hsnd]
      congr 1
      apply mapM_fst_eq_mapM_snd
      intro p hp
      rw [ih p (hmem p hp) depth, place_eq p (hmem p hp)]

/-- **The order of children.** Building two nodes, one of which is the other one with its children
    rearranged, returns the same tree with the same descriptors, or fails at the same tag, and
    leaves the same descriptors behind, by itself and under the root, whatever has been asked for
    before and however many levels are allowed. -/
theorem build_rearranged {a b : Node} (h : a.Rearranged b) (depth : Int) (ds : Descriptors) :
    (build a depth).run.run ds = (build b depth).run.run ds ∧
      (buildRoot a depth).run.run ds = (buildRoot b depth).run.run ds := by
  have same : ∀ limit, build a limit = build b limit := by
    intro limit
    exact buildWithin_eq_of_rearranged h limit.toNat
  refine ⟨by rw [same], ?_⟩
  cases h with
  | detached => rfl
  | spanned tag span pairs order below =>
    rw [buildRoot, buildRoot, same]

/-- A node with a child that starts at the place of detached ones, and some out of order. -/
def mixedNode : Node :=
  .spanned "Whole" ⟨0, 9⟩
    [.spanned "Late" ⟨5, 9⟩ [.spanned "Second" ⟨7, 9⟩ [], .spanned "First" ⟨5, 6⟩ []],
      .detached "Lost" [], .spanned "Before" ⟨-1, 0⟩ [], .spanned "Early" ⟨1, 4⟩ []]

/-- The same node with its children in order. -/
def tidyNode : Node :=
  .spanned "Whole" ⟨0, 9⟩
    [.detached "Lost" [], .spanned "Before" ⟨-1, 0⟩ [], .spanned "Early" ⟨1, 4⟩ [],
      .spanned "Late" ⟨5, 9⟩ [.spanned "First" ⟨5, 6⟩ [], .spanned "Second" ⟨7, 9⟩ []]]

theorem rearranged_mixedNode : mixedNode.Rearranged tidyNode := by
  have leaf : ∀ tag span, (Node.spanned tag span []).Rearranged (.spanned tag span []) :=
    fun tag span => .spanned tag span [] ⟨.nil, fun _ => rfl⟩ (by simp)
  have lost : (Node.detached "Lost" []).Rearranged (.detached "Lost" []) :=
    .detached "Lost" [] ⟨.nil, fun _ => rfl⟩ (by simp)
  -- In both rows the child that stands first is moved behind the others.
  have late : (Node.spanned "Late" ⟨5, 9⟩
        [.spanned "Second" ⟨7, 9⟩ [], .spanned "First" ⟨5, 6⟩ []]).Rearranged
      (.spanned "Late" ⟨5, 9⟩ [.spanned "First" ⟨5, 6⟩ [], .spanned "Second" ⟨7, 9⟩ []]) := by
    refine .spanned "Late" ⟨5, 9⟩ [(_, _), (_, _)]
      (Node.sameTies_append_comm [_] [_] ?_) ?_
    · simp [Node.place]
    · simp [leaf]
  refine .spanned "Whole" ⟨0, 9⟩ [(_, _), (_, _), (_, _), (_, _)]
    (Node.sameTies_append_comm [_] [_, _, _] ?_) ?_
  · simp [Node.place]
  · simp [leaf, lost, late]

/-- Both make the same tree, and where one level is allowed both are refused at the child that starts
    before the document. -/
theorem build_rearranged_mixed :
    mixedNode.Rearranged tidyNode ∧ mixedNode ≠ tidyNode ∧
      (build mixedNode 3).run.run (.empty .lyql) = (build tidyNode 3).run.run (.empty .lyql) ∧
      (buildRoot mixedNode 3).run.run (.empty .lyql) =
        (buildRoot tidyNode 3).run.run (.empty .lyql) ∧
      ((build mixedNode 1).run.run (.empty .lyql)).1 = .error ⟨"Before"⟩ := by
  have rearranged := rearranged_mixedNode
  obtain ⟨made, rooted⟩ := build_rearranged rearranged 3 (.empty .lyql)
  refine ⟨rearranged, by simp [mixedNode, tidyNode], made, rooted, ?_⟩
  rw [(build_rearranged rearranged 1 (.empty .lyql)).1]
  exact build_eq_error_iff.mpr (by cbv)

end Tree

end LyqlHighlight
