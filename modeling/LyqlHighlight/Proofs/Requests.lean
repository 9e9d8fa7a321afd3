import LyqlHighlight.Proofs.Lists
import LyqlHighlight.Proofs.Turns

namespace LyqlHighlight

/-!
# Requests for descriptors

Descriptors are shared: tags are asked for one by one, and by building trees, which may break off in
the middle.  Whatever has been asked for in whatever order, the descriptors are those of the tags in
the order of their first requests, numbered from one.

* `Descriptors.numbered`, `Descriptors.known_describeAll_empty` — the descriptors after a row of
  tags;
* `Tree.types`, `Tree.types_ofNode` — the descriptors in a tree;
* `Request`, `Request.serve`, `serveAll` — what can be asked for, and answering it;
* `Request.asked` — the tags that a request asks for, in their order;
* `serveAll_numbered` — the descriptors and the answers after any requests.
-/

/-! ### Numbers -/

namespace Descriptors

/-- The descriptors of distinct tags, numbered from one. -/
def numbered (r : Registry) (tags : List String) : List Descriptor :=
  tags.mapIdx fun i tag => ⟨tag, i + 1, r.rule? tag⟩

theorem names_numbered (r : Registry) (tags : List String) :
    (numbered r tags).map Descriptor.name = tags := by
  apply List.ext_getElem
  · simp [numbered]
  · intro i h₁ h₂
    simp [numbered]

theorem ids_numbered (r : Registry) (tags : List String) :
    (numbered r tags).map Descriptor.id = List.range' 1 tags.length := by
  apply List.ext_getElem
  · simp [numbered]
  · intro i h₁ h₂
    simp [numbered, Nat.add_comm]

theorem style_of_mem_numbered {r : Registry} {tags : List String} {d : Descriptor}
    (h : d ∈ numbered r tags) : d.style = r.rule? d.name := by
  obtain ⟨i, hi, rfl⟩ := List.mem_mapIdx.mp h
  rfl

theorem numbered_concat (r : Registry) (tags : List String) (tag : String) :
    numbered r (tags ++ [tag]) =
      numbered r tags ++ [⟨tag, tags.length + 1, r.rule? tag⟩] := by
  rw [numbered, List.mapIdx_concat]
  rfl

theorem get?_isSome_iff {ds : Descriptors} {tag : String} :
    (ds.get? tag).isSome ↔ tag ∈ ds.known.map Descriptor.name := by
  rw [get?, List.find?_isSome, List.mem_map]
  simp only [decide_eq_true_eq]

/-- Each tag that occurs in a row is among the first occurrences once. -/
theorem nodup_eraseDups (tags : List String) : tags.eraseDups.Nodup :=
  (firstOccurrences_eraseDups tags).nodup

/-- **First requests.** The descriptors after a row of tags are those of the tags in the order in
    which they first occur. -/
theorem known_describeAll_empty (r : Registry) (tags : List String) :
    ((empty r).describeAll tags).known = numbered r tags.eraseDups := by
  -- From the front on, so that the last tag is the one that is new or not.
  induction tags using List.reverseRecOn with
  | nil => rfl
  | append_singleton tags tag ih =>
    have names : ((empty r).describeAll tags).known.map Descriptor.name = tags.eraseDups := by
      rw [ih, names_numbered]
    rw [describeAll_append, List.eraseDups_append]
    show (((empty r).describeAll tags).describe tag).2.known = _
    unfold describe
    by_cases known : tag ∈ tags
    · have old : (((empty r).describeAll tags).get? tag).isSome := by
        rw [get?_isSome_iff, names, List.mem_eraseDups]
        exact known
      obtain ⟨d, hd⟩ := Option.isSome_iff_exists.mp old
      have nothing : [tag].removeAll tags = [] := by simp [List.removeAll, known]
      rw [hd, nothing]
      simpa using ih
    · have new : ((empty r).describeAll tags).get? tag = none := by
        rw [← Option.not_isSome_iff_eq_none, get?_isSome_iff, names, List.mem_eraseDups]
        exact known
      have itself : [tag].removeAll tags = [tag] := by simp [List.removeAll, known]
      have size : ((empty r).describeAll tags).size = tags.eraseDups.length := by
        rw [Descriptors.size, ← names, List.length_map]
      rw [new, itself]
      show ((empty r).describeAll tags).known ++ [_] = numbered r (tags.eraseDups ++ [tag])
      rw [numbered_concat, ih, size, registry_describeAll]
      rfl

/-- Descriptors are added behind those that there are. -/
theorem known_prefix_describeAll (ds : Descriptors) (tags : List String) :
    ds.known <+: (ds.describeAll tags).known := by
  induction tags generalizing ds with
  | nil => exact List.prefix_refl _
  | cons tag tags ih =>
    refine List.IsPrefix.trans ?_ (ih (ds.describe tag).2)
    unfold describe
    split
    · exact List.prefix_refl _
    · exact List.prefix_append _ _

/-- A tag that has been asked for has a descriptor, which is the one it would be given again. -/
theorem get?_describeAll_of_mem {ds : Descriptors} {tags : List String} {tag : String}
    (h : tag ∈ tags) :
    (ds.describeAll tags).get? tag = some ((ds.describeAll tags).describe tag).1 := by
  obtain ⟨front, back, rfl⟩ := List.append_of_mem h
  have given := get?_describe_self (ds.describeAll front) tag
  have stays := get?_describeAll_of_get? given back
  rw [← describeAll_cons, ← describeAll_append] at stays
  rw [stays, describe_fst_of_get? stays]

end Descriptors

/-! ### Descriptors in trees -/

namespace Tree

mutual

/-- The descriptors of the nodes of a tree, parents before their children. -/
def types : Tree → List Descriptor
  | empty => []
  | node type children _ => type :: childTypes children

/-- The descriptors of the nodes of several trees. -/
def childTypes : List (Int × Tree) → List Descriptor
  | [] => []
  | (_, child) :: others => types child ++ childTypes others

end

theorem childTypes_eq_flatMap (children : List (Int × Tree)) :
    childTypes children = children.flatMap fun c => types c.2 := by
  induction children with
  | nil => rfl
  | cons c children ih => rw [childTypes, ih, List.flatMap_cons]

/-- The tree of a node holds the descriptors of the tags that a walk meets. -/
theorem types_ofNode (ds : Descriptors) (n : Node) (above : List Int) :
    (ofNode ds n).types = (n.visitsBelow above).map fun v => (ds.describe v.tag).1 := by
  induction n using Node.inductionOn generalizing above with
  | detached tag nodes _ =>
    rw [ofNode_detached, Node.visitsBelow_detached]
    rfl
  | spanned tag span nodes ih =>
    rw [ofNode_spanned, types, childTypes_eq_flatMap, List.flatMap_map, Node.visitsBelow_spanned,
      Node.flatMap_visitsBelow_inOrder, List.map_cons, List.map_flatMap]
    congr 1
    apply List.flatMap_congr
    intro c hc
    exact ih c (Node.mem_inOrder.mp hc) (span.start :: above)

end Tree

/-! ### Requests -/

/-- What can be asked of descriptors that are shared. -/
inductive Request where
  /-- The descriptor of a tag. -/
  | describe (tag : String)
  /-- The tree of a node, with an allowance of levels. -/
  | build (n : Node) (depth : Int)
  /-- The tree of a node under the root, with an allowance of levels. -/
  | buildRoot (n : Node) (depth : Int)

/-- What comes of a request. -/
inductive Answer where
  /-- A descriptor. -/
  | descriptor (d : Descriptor)
  /-- A tree, or the node that is nested too deeply for one. -/
  | tree (result : Except TooDeep Tree)

namespace Request

/-- Answers a request. -/
def serve (ds : Descriptors) : Request → Answer × Descriptors
  | describe tag =>
    let (d, ds) := ds.describe tag
    (.descriptor d, ds)
  | build n depth =>
    let (result, ds) := (Tree.build n depth).run.run ds
    (.tree result, ds)
  | buildRoot n depth =>
    let (result, ds) := (Tree.buildRoot n depth).run.run ds
    (.tree result, ds)

/-- The tags that a request asks for, in their order.  Building asks for the tags of the nodes that
    the walk has left until it enters one with too many nodes above it; under the root, which takes
    a level, for the tag of the root before all of them. -/
def asked : Request → List String
  | describe tag => [tag]
  | build n depth => (n.leftWithin depth.toNat).map Visit.tag
  | buildRoot (.detached _ _) _ => []
  | buildRoot n depth => Tree.rootTag :: (n.leftWithin (depth - 1).toNat).map Visit.tag

end Request

/-- Answers several requests, one after the other. -/
def serveAll (ds : Descriptors) : List Request → List Answer × Descriptors
  | [] => ([], ds)
  | request :: others =>
    let (answer, ds) := request.serve ds
    let (answers, ds) := serveAll ds others
    (answer :: answers, ds)

/-- What building a tree for a node yields, if `limit` levels are allowed and the tree is to hold
    the descriptors of `tags`.  A tree holds the descriptors that the tags have under `ds`, and then
    the walk has left all nodes, each after all that is below it.  An error names the first node
    that the walk enters with too many nodes above it. -/
def Node.Yields (ds : Descriptors) (limit : Nat) (tags : List String) (n : Node) :
    Except TooDeep Tree → Prop
  | .ok tree => tree.types.map some = tags.map ds.get? ∧ n.leftWithin limit = n.returns
  | .error e => ∃ v, n.visits.find? (fun v => v.depth = limit) = some v ∧ e = ⟨v.tag⟩

/-- What a request is answered with, as far as the descriptors `ds` go. -/
def Request.Answered (ds : Descriptors) : Request → Answer → Prop
  | .describe tag, .descriptor d => ds.get? tag = some d
  | .build n depth, .tree result => n.Yields ds depth.toNat (n.visits.map Visit.tag) result
  | .buildRoot (.detached _ _) _, .tree result => result = .ok .empty
  | .buildRoot n depth, .tree result =>
    n.Yields ds (depth - 1).toNat (Tree.rootTag :: n.visits.map Visit.tag) result
  | _, _ => False

namespace Node

/-- A walk leaves the nodes that it visits. -/
theorem mem_returnsBelow {n : Node} {above : List Int} {v : Visit} :
    v ∈ n.returnsBelow above ↔ v ∈ n.visitsBelow above := by
  induction n using inductionOn generalizing above with
  | detached tag nodes _ => simp
  | spanned tag span nodes ih =>
    have children : v ∈ (inOrder (nodes.filter isSpanned)).flatMap
          (returnsBelow (span.start :: above)) ↔
        v ∈ (inOrder (nodes.filter isSpanned)).flatMap (visitsBelow (span.start :: above)) := by
      rw [List.mem_flatMap, List.mem_flatMap]
      refine exists_congr fun c => and_congr_right fun hc => ?_
      exact ih c (List.mem_of_mem_filter (mem_inOrder.mp hc))
    rw [returnsBelow_spanned, visitsBelow_spanned, List.mem_append, children, List.mem_singleton,
      or_comm, List.mem_cons]

/-- What building yields, under all later descriptors. -/
theorem yields_of_follows {n : Node} {limit : Nat} {tags : List String}
    {m : BuildM Tree} {d : Demand} {value : Descriptors → Tree} (hm : m.Follows d value)
    (refused : d.refused = (n.visits.find? fun v => v.depth = limit).map fun v => ⟨v.tag⟩)
    (types : ∀ ds, (value ds).types = tags.map fun tag => (ds.describe tag).1)
    (known : n.leftWithin limit = n.returns → ∀ tag ∈ tags, tag ∈ d.tags)
    (ds : Descriptors) (more : List String) :
    n.Yields ((ds.describeAll d.tags).describeAll more) limit tags (m.run.run ds).1 := by
  rw [hm.run_eq ds]
  -- Building is refused exactly at the first visit with too many nodes above it.
  cases hfind : n.visits.find? fun v => v.depth = limit with
  | some v =>
    rw [hfind] at refused
    rw [refused]
    exact ⟨v, hfind, rfl⟩
  | none =>
    rw [hfind] at refused
    rw [refused]
    have all : n.leftWithin limit = n.returns := by
      refine leftWithin_eq_returns fun v hv => ?_
      simpa using List.find?_eq_none.mp hfind v hv
    refine ⟨?_, all⟩
    rw [types, List.map_map]
    refine List.map_congr_left fun tag htag => ?_
    exact (Descriptors.get?_describeAll_of_get?
      (Descriptors.get?_describeAll_of_mem (known all tag htag)) more).symm

end Node

/-- Where all nodes are left, the tags of the visits are those of the nodes that are left. -/
theorem Node.mem_tags_leftWithin {n : Node} {limit : Nat} (all : n.leftWithin limit = n.returns)
    {tag : String} (h : tag ∈ n.visits.map Visit.tag) :
    tag ∈ (n.leftWithin limit).map Visit.tag := by
  obtain ⟨v, hv, rfl⟩ := List.mem_map.mp h
  rw [all]
  exact List.mem_map_of_mem (mem_returnsBelow.mpr hv)

namespace Request

/-- What serving a request does: it asks for the tags, and the answer holds under all later
    descriptors. -/
structure Served (request : Request) (ds : Descriptors) : Prop where
  /-- The descriptors afterwards. -/
  descriptors : (request.serve ds).2 = ds.describeAll request.asked
  /-- The answer. -/
  answered : ∀ more,
    request.Answered ((ds.describeAll request.asked).describeAll more) (request.serve ds).1

theorem served_describe (tag : String) (ds : Descriptors) : (describe tag).Served ds where
  descriptors := rfl
  answered more :=
    Descriptors.get?_describeAll_of_get? (Descriptors.get?_describe_self ds tag) more

theorem served_build (n : Node) (depth : Int) (ds : Descriptors) : (build n depth).Served ds := by
  -- What building asks for is known from its demand, and that from the turns of the walk.
  have follows := Tree.buildWithin_follows depth.toNat n
  have asked := n.tags_demand depth.toNat
  refine ⟨?_, fun more => ?_⟩
  · show ((Tree.buildWithin depth.toNat n).run.run ds).2 = _
    rw [follows.run_eq, asked]
    rfl
  · have refused : (n.demand depth.toNat).refused =
        (n.visits.find? fun v => v.depth = depth.toNat).map fun v => ⟨v.tag⟩ := by
      simpa [Node.visits] using n.refused_demand depth.toNat []
    show n.Yields ((ds.describeAll ((n.leftWithin depth.toNat).map Visit.tag)).describeAll more) _ _
      ((Tree.buildWithin depth.toNat n).run.run ds).1
    rw [← asked]
    refine Node.yields_of_follows follows refused (fun ds => ?_) (fun all tag htag => ?_) ds more
    · rw [Tree.types_ofNode ds n [], List.map_map]
      rfl
    · rw [asked]
      exact Node.mem_tags_leftWithin all htag

theorem served_buildRoot (n : Node) (depth : Int) (ds : Descriptors) :
    (buildRoot n depth).Served ds := by
  cases n with
  | detached tag nodes => exact ⟨rfl, fun _ => rfl⟩
  | spanned tag span nodes =>
    have follows := Tree.buildRoot_follows (.spanned tag span nodes) depth
    have asked : ((Node.spanned tag span nodes).rootDemand depth).tags =
        (buildRoot (.spanned tag span nodes) depth).asked := by
      show _ = Tree.rootTag :: _
      rw [← Node.tags_demand]
      rfl
    refine ⟨?_, fun more => ?_⟩
    · show ((Tree.buildRoot (.spanned tag span nodes) depth).run.run ds).2 = _
      rw [follows.run_eq, asked]
    · show (Node.spanned tag span nodes).Yields (Descriptors.describeAll _ more) _ _
        ((Tree.buildRoot (.spanned tag span nodes) depth).run.run ds).1
      rw [← asked]
      refine Node.yields_of_follows follows (Node.refused_rootDemand _ depth) (fun ds => ?_)
        (fun all tag' htag => ?_) ds more
      · rw [Tree.ofRoot, Tree.types, Tree.childTypes, Tree.childTypes, List.append_nil,
          Tree.types_ofNode ds _ [], List.map_cons, List.map_map]
        rfl
      · rw [asked]
        show tag' ∈ Tree.rootTag :: _
        rcases List.mem_cons.mp htag with rfl | htag
        · exact List.mem_cons_self
        · exact List.mem_cons_of_mem _ (Node.mem_tags_leftWithin all htag)

theorem served (request : Request) (ds : Descriptors) : request.Served ds := by
  cases request with
  | describe tag => exact served_describe tag ds
  | build n depth => exact served_build n depth ds
  | buildRoot n depth => exact served_buildRoot n depth ds

end Request

/-- The descriptors after some requests are those after the tags that they ask for. -/
theorem serveAll_snd (ds : Descriptors) (requests : List Request) :
    (serveAll ds requests).2 = ds.describeAll (requests.flatMap Request.asked) := by
  induction requests generalizing ds with
  | nil => rfl
  | cons request others ih =>
    show (serveAll (request.serve ds).2 others).2 = _
    rw [ih, (request.served ds).descriptors, List.flatMap_cons, Descriptors.describeAll_append]

/-- The answers to some requests hold under all later descriptors. -/
theorem serveAll_answered (ds : Descriptors) (requests : List Request) (more : List String) :
    List.Forall₂ (Request.Answered ((serveAll ds requests).2.describeAll more)) requests
      (serveAll ds requests).1 := by
  induction requests generalizing ds with
  | nil => exact .nil
  | cons request others ih =>
    refine .cons ?_ (ih (request.serve ds).2)
    -- What the others ask for comes later, as well as what is asked for after all of them.
    have later := (request.served ds).answered (others.flatMap Request.asked ++ more)
    rw [Descriptors.describeAll_append, ← (request.served ds).descriptors, ← serveAll_snd] at later
    exact later

/-- **Descriptors in use.** After any requests, some of which may have been broken off:

    * the descriptors are those of the tags that were asked for, in the order of their first
      requests;
    * their tags are distinct, their numbers run from one on, and each holds the rule of the
      registry for its tag;
    * later requests add descriptors behind these, which stay as they are;
    * each answer is what was asked for, and the descriptors in it are those that the tags have
      then and ever after. -/
theorem serveAll_numbered (r : Registry) (requests more : List Request) :
    let ds := (serveAll (.empty r) requests).2
    let later := (serveAll (.empty r) (requests ++ more)).2
    ds.known = Descriptors.numbered r (requests.flatMap Request.asked).eraseDups ∧
      (ds.known.map Descriptor.name).Nodup ∧
      ds.known.map Descriptor.id = List.range' 1 ds.size ∧
      (∀ d ∈ ds.known, d.style = r.rule? d.name) ∧
      ds.known <+: later.known ∧
      List.Forall₂ (Request.Answered later) requests (serveAll (.empty r) requests).1 := by
  intro ds later
  have known : ds.known =
      Descriptors.numbered r (requests.flatMap Request.asked).eraseDups := by
    rw [← Descriptors.known_describeAll_empty, ← serveAll_snd]
  have behind : later = ds.describeAll (more.flatMap Request.asked) := by
    show (serveAll _ (requests ++ more)).2 = (serveAll _ requests).2.describeAll _
    rw [serveAll_snd, serveAll_snd, List.flatMap_append, Descriptors.describeAll_append]
  refine ⟨known, ?_, ?_, ?_, ?_, ?_⟩
  · rw [known, Descriptors.names_numbered]
    exact Descriptors.nodup_eraseDups _
  · rw [Descriptors.size, known, Descriptors.ids_numbered, Descriptors.numbered,
      List.length_mapIdx]
  · intro d hd
    rw [known] at hd
    exact Descriptors.style_of_mem_numbered hd
  · rw [behind]
    exact Descriptors.known_prefix_describeAll ds _
  · rw [behind]
    exact serveAll_answered _ requests _

end LyqlHighlight
