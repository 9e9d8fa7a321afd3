import LyqlHighlight.Proofs.Descriptors
import LyqlHighlight.Proofs.Visits

namespace LyqlHighlight

/-!
# What building a tree does

Building a tree asks for tags in a fixed order and may come upon a node that nests too deeply.  Both
depend on the nodes and on the allowed depth alone, not on the descriptors at hand.

* `Demand`, `Node.demand` — the tags that building asks for, and what stops it;
* `Tree.ofNode` — the tree of a node under given descriptors, with no limit on its depth;
* `BuildM.Follows` — an action that asks for the tags of a demand, and what it returns;
* `Tree.buildWithin_follows`, `Tree.buildRoot_follows` — building follows the demand of the node and
  returns its tree under the descriptors at the end.
-/

/-- The tags that an action asks for one by one, and the error that ends it, if one does. -/
structure Demand where
  /-- The tags. -/
  tags : List String
  /-- The error. -/
  refused : Option TooDeep
deriving DecidableEq, Repr

namespace Demand

/-- Nothing. -/
def nothing : Demand := ⟨[], none⟩

/-- A demand, and another one after it unless it is refused. -/
def andThen (a b : Demand) : Demand :=
  match a.refused with
  | some _ => a
  | none => ⟨a.tags ++ b.tags, b.refused⟩

/-- Several demands, up to the first that is refused. -/
def all (demands : List Demand) : Demand :=
  demands.foldr andThen nothing

@[simp] theorem andThen_nothing (d : Demand) : d.andThen nothing = d := by
  obtain ⟨tags, refused⟩ := d
  cases refused with
  | some e => rfl
  | none => simp [andThen, nothing]

theorem refused_andThen {a b : Demand} :
    (a.andThen b).refused = none ↔ a.refused = none ∧ b.refused = none := by
  obtain ⟨tags, refused⟩ := a
  cases refused with
  | some e => simp [andThen]
  | none => simp [andThen]

theorem refused_andThen_tags (d : Demand) (tags : List String) :
    (d.andThen ⟨tags, none⟩).refused = d.refused := by
  obtain ⟨_, refused⟩ := d
  cases refused <;> rfl

theorem refused_tags_andThen (tags : List String) (d : Demand) :
    (andThen ⟨tags, none⟩ d).refused = d.refused :=
  rfl

/-- Of several demands the first that is refused decides. -/
theorem refused_all_eq_findSome? (demands : List Demand) :
    (all demands).refused = demands.findSome? refused := by
  induction demands with
  | nil => rfl
  | cons d demands ih =>
    show (d.andThen (all demands)).refused = _
    rw [List.findSome?_cons, ← ih]
    obtain ⟨tags, refused⟩ := d
    cases refused <;> rfl

/-- Several demands are not refused exactly if none of them is. -/
theorem refused_all {demands : List Demand} :
    (all demands).refused = none ↔ ∀ d ∈ demands, d.refused = none := by
  rw [refused_all_eq_findSome?, List.findSome?_eq_none_iff]

end Demand

/-- What building the tree of a node asks for: the tags of the children in order, then its own. -/
def Node.demand : Nat → Node → Demand
  | _, .detached _ _ => .nothing
  | 0, .spanned tag _ _ => ⟨[], some ⟨tag⟩⟩
  | depth + 1, .spanned tag _ nodes =>
    (Demand.all ((inOrder nodes).map fun child => demand depth child)).andThen ⟨[tag], none⟩

/-- What building the tree of a node under the root asks for. -/
def Node.rootDemand (depth : Int) : Node → Demand
  | .detached _ _ => .nothing
  | n@(.spanned _ _ _) => Demand.andThen ⟨[Tree.rootTag], none⟩ (n.demand (depth - 1).toNat)

/-- The tree of a node under given descriptors. -/
def Tree.ofNode (ds : Descriptors) : Node → Tree
  | .detached _ _ => .empty
  | .spanned tag span nodes =>
    .node (ds.describe tag).1
      ((Node.inOrder nodes).attach.map fun ⟨child, _⟩ =>
        (max (child.place - span.start) 0, ofNode ds child))
      span.length
termination_by n => sizeOf n
decreasing_by
  have := List.sizeOf_lt_of_mem (Node.mem_inOrder.mp ‹_›)
  simp only [Node.spanned.sizeOf_spec]
  omega

/-- The tree of a node under the root, under given descriptors. -/
def Tree.ofRoot (ds : Descriptors) : Node → Tree
  | .detached _ _ => .empty
  | n@(.spanned _ span _) =>
    .node (ds.describe rootTag).1 [(span.start, ofNode ds n)] span.stop

namespace Tree

@[simp] theorem ofNode_detached (ds : Descriptors) (tag : String) (nodes : List Node) :
    ofNode ds (.detached tag nodes) = empty := by
  rw [ofNode]

theorem ofNode_spanned (ds : Descriptors) (tag : String) (span : Span) (nodes : List Node) :
    ofNode ds (.spanned tag span nodes) =
      node (ds.describe tag).1
        ((Node.inOrder nodes).map fun child =>
          (max (child.place - span.start) 0, ofNode ds child))
        span.length := by
  rw [ofNode]
  congr 1
  exact List.attach_map_val
    (f := fun child : Node => (max (child.place - span.start) 0, ofNode ds child))

end Tree

/-! ### Actions that follow a demand -/

namespace BuildM

variable {α β : Type}

/-- The action asks for the tags of the demand, whatever the descriptors are.  It fails if the
    demand is refused; otherwise it returns the value under the descriptors at the end, which is the
    value under all later ones. -/
structure Follows (m : BuildM α) (d : Demand) (value : Descriptors → α) : Prop where
  /-- What a run returns and leaves. -/
  run_eq : ∀ ds : Descriptors, m.run.run ds =
    ((match d.refused with
      | some e => Except.error e
      | none => Except.ok (value (ds.describeAll d.tags))), ds.describeAll d.tags)
  /-- The value does not change any more. -/
  settled : d.refused = none → ∀ (ds : Descriptors) (more : List String),
    value ((ds.describeAll d.tags).describeAll more) = value (ds.describeAll d.tags)

theorem follows_pure (a : α) : Follows (pure a) .nothing fun _ => a where
  run_eq _ := rfl
  settled _ _ _ := rfl

theorem follows_throw (e : TooDeep) (value : Descriptors → α) :
    Follows (throw e) ⟨[], some e⟩ value where
  run_eq _ := rfl
  settled h := nomatch h

/-- Asking for a tag. -/
theorem follows_describe (tag : String) :
    Follows (describe tag) ⟨[tag], none⟩ fun ds => (ds.describe tag).1 where
  run_eq ds := by
    show (Except.ok (ds.describe tag).1, (ds.describe tag).2) = _
    have again := ds.describe_describeAll tag []
    exact Prod.ext (congrArg Except.ok again.symm) rfl
  settled _ ds more := by
    have stays := ds.describe_describeAll tag more
    have again := ds.describe_describeAll tag []
    exact stays.trans again.symm

theorem run_bind (m : BuildM α) (f : α → BuildM β) (ds : Descriptors) :
    (m >>= f).run.run ds =
      match m.run.run ds with
      | (.ok a, ds) => (f a).run.run ds
      | (.error e, ds) => (.error e, ds) := by
  have step : (m >>= f).run.run ds =
      (fun p : Except TooDeep α × Descriptors => (ExceptT.bindCont f p.1).run p.2)
        (m.run.run ds) := rfl
  rw [step]
  rcases m.run.run ds with ⟨result, after⟩
  cases result <;> rfl

/-- One action after another. -/
theorem Follows.bind {m : BuildM α} {f : α → BuildM β} {d e : Demand} {v : Descriptors → α}
    {w : α → Descriptors → β} (hm : Follows m d v) (hf : ∀ a, Follows (f a) e (w a)) :
    Follows (m >>= f) (d.andThen e) fun ds => w (v ds) ds := by
  obtain ⟨tags, refused⟩ := d
  cases refused with
  | some error =>
    -- The first action fails, so the second one is never run.
    refine ⟨fun ds => ?_, fun h => nomatch h⟩
    rw [run_bind, hm.run_eq]
    rfl
  | none =>
    -- The value of the first action is settled before the second one asks for more tags.
    refine ⟨fun ds => ?_, fun h ds more => ?_⟩
    · rw [run_bind, hm.run_eq]
      show (f (v (ds.describeAll tags))).run.run (ds.describeAll tags) = _
      rw [(hf _).run_eq]
      simp only [Demand.andThen, Descriptors.describeAll_append]
      rw [hm.settled rfl]
    · simp only [Demand.andThen, Descriptors.describeAll_append] at h ⊢
      rw [← Descriptors.describeAll_append _ e.tags more, hm.settled rfl, hm.settled rfl,
        Descriptors.describeAll_append, (hf _).settled h]

/-- An action for each member of a list, up to the first that fails. -/
theorem follows_mapM {f : β → BuildM α} {d : β → Demand} {v : β → Descriptors → α} (l : List β)
    (h : ∀ b ∈ l, Follows (f b) (d b) (v b)) :
    Follows (l.mapM f) (Demand.all (l.map d)) fun ds => l.map fun b => v b ds := by
  induction l with
  | nil => exact follows_pure []
  | cons b l ih =>
    rw [List.mapM_cons]
    have first := h b List.mem_cons_self
    have others := ih fun c hc => h c (List.mem_cons_of_mem _ hc)
    have rest := fun a => others.bind fun as => follows_pure (a :: as)
    have both := first.bind rest
    rw [Demand.andThen_nothing] at both
    exact both

end BuildM

/-! ### Building follows the demand -/

namespace Tree

open BuildM

/-- **Building a node.** Building asks for the tags of the demand, and returns the tree of the node
    unless the demand is refused. -/
theorem buildWithin_follows (depth : Nat) (n : Node) :
    (buildWithin depth n).Follows (n.demand depth) fun ds => ofNode ds n := by
  -- By the allowed depth: the children of a node have one level less, whatever their size.
  induction depth generalizing n with
  | zero =>
    cases n with
    | detached tag nodes =>
      simp only [ofNode_detached]
      exact follows_pure empty
    | spanned tag span nodes => exact follows_throw ⟨tag⟩ _
  | succ depth ih =>
    cases n with
    | detached tag nodes =>
      simp only [ofNode_detached]
      exact follows_pure empty
    | spanned tag span nodes =>
      have child := fun c : Node => (ih c).bind fun tree =>
        follows_pure (max (c.place - span.start) 0, tree)
      simp only [Demand.andThen_nothing] at child
      have children := follows_mapM (Node.inOrder nodes) fun c _ => child c
      -- The descriptor of the node itself comes after those of its children.
      have own := fun nodes => (follows_describe tag).bind fun type =>
        follows_pure (node type nodes span.length)
      simp only [Demand.andThen_nothing] at own
      have whole := children.bind own
      simp only [ofNode_spanned]
      exact whole

/-- **Building under the root.** -/
theorem buildRoot_follows (n : Node) (depth : Int) :
    (buildRoot n depth).Follows (n.rootDemand depth) fun ds => ofRoot ds n := by
  cases n with
  | detached tag nodes => exact follows_pure empty
  | spanned tag span nodes =>
    have top := (buildWithin_follows (depth - 1).toNat (.spanned tag span nodes))
    have below := fun type => top.bind fun tree =>
      follows_pure (node type [(span.start, tree)] span.stop)
    simp only [Demand.andThen_nothing] at below
    exact (follows_describe rootTag).bind below

/-- Building fails with what is refused of the node. -/
theorem build_eq_error_iff {n : Node} {depth : Int} {ds : Descriptors} {e : TooDeep} :
    ((build n depth).run.run ds).1 = .error e ↔ (n.demand depth.toNat).refused = some e := by
  rw [build, (buildWithin_follows depth.toNat n).run_eq ds]
  cases (n.demand depth.toNat).refused with
  | none => simp
  | some refused => simp

/-- A demand that is not refused makes a tree. -/
theorem run_build (n : Node) (depth : Int) (h : (n.demand depth.toNat).refused = none)
    (ds : Descriptors) :
    (build n depth).run.run ds =
      (.ok (ofNode (ds.describeAll (n.demand depth.toNat).tags) n),
        ds.describeAll (n.demand depth.toNat).tags) := by
  rw [build, (buildWithin_follows depth.toNat n).run_eq ds, h]

/-- So does one under the root. -/
theorem run_buildRoot {n : Node} {depth : Int} (h : (n.rootDemand depth).refused = none)
    (ds : Descriptors) :
    (buildRoot n depth).run.run ds =
      (.ok (ofRoot (ds.describeAll (n.rootDemand depth).tags) n),
        ds.describeAll (n.rootDemand depth).tags) := by
  rw [(buildRoot_follows n depth).run_eq ds, h]

/-- A tree that was built is the tree of the node under the descriptors at the end, which are those
    after the tags of the demand. -/
theorem eq_ofRoot_of_buildRoot {n : Node} {depth : Int} {ds ds' : Descriptors} {tree : Tree}
    (h : (buildRoot n depth).run.run ds = (.ok tree, ds')) :
    tree = ofRoot ds' n ∧ ds' = ds.describeAll (n.rootDemand depth).tags := by
  rw [(buildRoot_follows n depth).run_eq ds, Prod.mk.injEq] at h
  obtain ⟨result, rfl⟩ := h
  split at result
  · exact absurd result (by simp)
  · exact ⟨(Except.ok.inj result).symm, rfl⟩

end Tree

end LyqlHighlight
