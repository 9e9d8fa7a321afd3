import LyqlHighlight.Proofs.Reading
import LyqlHighlight.Proofs.Sessions

namespace LyqlHighlight

/-!
# The limits of depth

Three functions count levels: reading a value, converting a concrete syntax tree, and building a
tree.  The first two admit as many levels as are allowed.  Building under the root admits one level
less, since the root takes one of its own, so an adapter refuses what nests exactly as deep as its
setting says.

* `Node.Admitted` — a node that is read or converted within an allowance of levels;
* `Adapter.made_of_read`, `Adapter.result_of_read` — what becomes of a value that is read;
* `Node.tower` — nodes of any number of levels, in both ways of writing;
* `Adapter.depth_limits` — the limits of an adapter, at each allowance of levels.
-/

/-- A value stands for a node within an allowance of levels: it is written without typed nodes and
    read as this node, or it is this node, converted from a concrete syntax tree. -/
inductive Node.Admitted (depth : Int) : Value → Node → Prop where
  | written {v : Value} {n : Node} (untyped : v.Untyped) (read : ofValue v depth = .ok n) :
      Admitted depth v n
  | converted {tree : SyntaxTree} {text : String} {namedOnly : Bool} {n : Node}
      (toNode : tree.toNode text namedOnly depth = .ok n) : Admitted depth (.node n) n

namespace Node.Admitted

variable {depth : Int} {v : Value} {n : Node}

/-- An admitted node has no more levels than allowed. -/
theorem levels_le (h : Admitted depth v n) : n.levels ≤ depth.toNat := by
  cases h with
  | written untyped read => exact levels_le_of_read untyped read
  | converted toNode => exact SyntaxTree.levels_le_of_convert toNode

/-- It is read with each greater allowance, too. -/
theorem ofValue_eq (h : Admitted depth v n) {more : Int} (hle : depth ≤ more) :
    ofValue v more = .ok n := by
  cases h with
  | written untyped read => exact read_mono (by omega) read
  | converted toNode =>
    unfold ofValue
    rw [read]

end Node.Admitted

namespace Adapter

variable {a : Adapter} {text : String} {v : Value} {n : Node}

/-- A node of which building refuses nothing makes a tree. -/
theorem made_of_read (ready : a.ready = true) (reply : a.parser.run text = .value v)
    (read : Node.ofValue v a.depth = .ok n) (accepted : (n.rootDemand a.depth).refused = none)
    (ds : Descriptors) : (a.attempt ds text).made?.isSome = true := by
  have converts := Reply.Converts.intro read (Tree.run_buildRoot accepted ds)
  rw [attempt_of_ready ready, reply, receive_of_converts converts]
  rfl

/-- The pass fails with what building refuses of a node. -/
theorem result_of_read (ready : a.ready = true) (reply : a.parser.run text = .value v)
    (read : Node.ofValue v a.depth = .ok n) {e : TooDeep}
    (refused : (n.rootDemand a.depth).refused = some e) (ds : Descriptors) :
    (a.attempt ds text).result = .ok (a.failure (.build e)) := by
  have built := (Tree.buildRoot_follows n a.depth).run_eq ds
  rw [refused] at built
  rw [attempt_of_ready ready, reply, receive_of_fails (.building read built)]

/-- A pass that failed has made no tree. -/
theorem made_of_failure {ds : Descriptors} {e : Failure}
    (h : (a.attempt ds text).result = .ok (a.failure e)) : (a.attempt ds text).made? = none := by
  unfold Pass.made?
  rw [h]
  rfl

/-- An admitted node makes a tree exactly if it has fewer levels than the adapter allows. -/
theorem made_iff_of_admitted (positive : 0 < a.depth) (ready : a.ready = true)
    (reply : a.parser.run text = .value v) (read : Node.ofValue v a.depth = .ok n)
    (ds : Descriptors) :
    (a.attempt ds text).made?.isSome = true ↔ (n.levels : Int) < a.depth := by
  have accepted_iff : (n.rootDemand a.depth).refused = none ↔
      n.levels = 0 ∨ (n.levels : Int) < a.depth := Node.refused_rootDemand_eq_none_iff
  constructor
  · intro hmade
    cases hrefused : (n.rootDemand a.depth).refused with
    | none =>
      have := accepted_iff.mp hrefused
      omega
    | some e =>
      rw [made_of_failure (result_of_read ready reply read hrefused ds)] at hmade
      cases hmade
  · intro hlt
    exact made_of_read ready reply read (accepted_iff.mpr (.inr hlt)) ds

/-- A node of as many levels as the adapter allows is refused at the first of its deepest nodes. -/
theorem result_of_levels_eq (positive : 0 < a.depth) (ready : a.ready = true)
    (reply : a.parser.run text = .value v) (read : Node.ofValue v a.depth = .ok n)
    (hlevels : (n.levels : Int) = a.depth) (ds : Descriptors) :
    ∃ w, n.visits.find? (fun w => w.depth + 1 = n.levels) = some w ∧
      (a.attempt ds text).result = .ok (a.failure (.build ⟨w.tag⟩)) := by
  -- Under the root one level less is allowed, and so many nodes are above the deepest ones.
  have deepest : ∀ w : Visit, (w.depth = (a.depth - 1).toNat) = (w.depth + 1 = n.levels) := by
    intro w
    rw [eq_iff_iff]
    omega
  have refused := Node.refused_rootDemand n a.depth
  simp only [deepest] at refused
  cases hfind : n.visits.find? fun w => w.depth + 1 = n.levels with
  | none =>
    rw [hfind] at refused
    have := Node.refused_rootDemand_eq_none_iff.mp refused
    omega
  | some w =>
    rw [hfind] at refused
    exact ⟨w, rfl, result_of_read ready reply read refused ds⟩

end Adapter

/-! ### Nodes of any number of levels -/

namespace Node

/-- A tower of nodes, each the only child of the one above it, with `below` of them below the
    topmost one. -/
def tower : Nat → Node
  | 0 => spanned "String" ⟨0, 1⟩ []
  | below + 1 => spanned "String" ⟨0, 1⟩ [tower below]

theorem levels_tower (below : Nat) : (tower below).levels = below + 1 := by
  induction below with
  | zero => rfl
  | succ below ih =>
    rw [tower, levels_spanned, mostLevels, mostLevels, ih]
    rfl

end Node

/-- The tower of nodes, written with mappings. -/
def Value.tower : Nat → Value
  | 0 => Node.written "String" ⟨0, 1⟩ []
  | below + 1 => Node.written "String" ⟨0, 1⟩ [tower below]

/-- The tower of nodes as a concrete syntax tree. -/
def SyntaxTree.tower : Nat → SyntaxTree
  | 0 => node "String" 0 1 true []
  | below + 1 => node "String" 0 1 true [tower below]

theorem Value.untyped_tower (below : Nat) : (tower below).Untyped := by
  induction below with
  | zero => exact Node.untyped_written (by simp)
  | succ below ih => exact Node.untyped_written (by simp [ih])

theorem Node.read_tower (below : Nat) : read (below + 1) (.tower below) = .ok (tower below) := by
  induction below with
  | zero => exact read_written (by decide) .nil
  | succ below ih => exact read_written (by decide) (.cons ih .nil)

theorem SyntaxTree.convert_tower (below : Nat) :
    convert "x".toList false (below + 1) (tower below) = .ok (.tower below) := by
  induction below with
  | zero => rfl
  | succ below ih =>
    rw [tower, convert]
    simp only [Bool.false_eq_true, if_false, List.mapM_cons, List.mapM_nil, ih]
    rfl

/-! ### The limits -/

namespace Adapter

/-- **The limits of depth.** For each allowance of levels above zero: what reading or converting
    admits has no more levels than allowed; an adapter with the same allowance makes a tree of it if
    it has fewer, refuses it at the first of its deepest nodes if it has as many, and would make a
    tree of it if one level more were allowed.  Both ways of writing reach the limit. -/
theorem depth_limits (depth : Int) (positive : 0 < depth) :
    (∀ (a : Adapter) (ds : Descriptors) (text : String) (v : Value) (n : Node),
      a.ready = true → a.parser.run text = .value v → Node.Admitted depth v n →
      n.levels ≤ depth ∧
      (n.levels < depth → ({ a with depth }.attempt ds text).made?.isSome = true) ∧
      (n.levels = depth →
        ∃ w, n.visits.find? (fun w => w.depth + 1 = n.levels) = some w ∧
          ({ a with depth }.attempt ds text).result = .ok (a.failure (.build ⟨w.tag⟩))) ∧
      ({ a with depth := depth + 1 }.attempt ds text).made?.isSome = true) ∧
    (∃ v n, Value.Untyped v ∧ Node.ofValue v depth = .ok n ∧ n.levels = depth) ∧
    (∃ tree text n, SyntaxTree.toNode tree text false depth = .ok n ∧ n.levels = depth) := by
  refine ⟨fun a ds text v n ready reply admitted => ?_, ?_, ?_⟩
  · have levels_le : (n.levels : Int) ≤ depth := by
      have := admitted.levels_le
      omega
    have read : Node.ofValue v depth = .ok n := admitted.ofValue_eq (le_refl _)
    have read_more : Node.ofValue v (depth + 1) = .ok n := admitted.ofValue_eq (by omega)
    refine ⟨levels_le, fun hlt => ?_, fun heq => ?_, ?_⟩
    · exact (made_iff_of_admitted (a := { a with depth }) positive ready reply read ds).mpr hlt
    · exact result_of_levels_eq (a := { a with depth }) positive ready reply read heq ds
    · have more : 0 < depth + 1 := by omega
      apply (made_iff_of_admitted (a := { a with depth := depth + 1 }) more ready reply read_more
        ds).mpr
      show (n.levels : Int) < depth + 1
      omega
  · obtain ⟨below, rfl⟩ : ∃ below : Nat, depth = (below + 1 : Nat) :=
      ⟨(depth - 1).toNat, by omega⟩
    exact ⟨.tower below, .tower below, Value.untyped_tower below, Node.read_tower below,
      by rw [Node.levels_tower]⟩
  · obtain ⟨below, rfl⟩ : ∃ below : Nat, depth = (below + 1 : Nat) :=
      ⟨(depth - 1).toNat, by omega⟩
    exact ⟨.tower below, "x", .tower below, SyntaxTree.convert_tower below,
      by rw [Node.levels_tower]⟩

/-- An adapter whose parser writes a tower of nodes for each text. -/
def towerAdapter (below : Nat) (depth : Int) : Adapter where
  parser := ⟨"tower", fun _ => .value (.tower below)⟩
  depth := depth

/-- A single node is refused where one level is allowed, and makes a tree where two are. -/
theorem depth_limits_one :
    (0 : Int) < 1 ∧ Node.Admitted 1 (.tower 0) (.tower 0) ∧
    ((towerAdapter 0 1).attempt (.empty .lyql) "x").result =
        .ok ⟨.empty, some (.build ⟨"String"⟩)⟩ ∧
      ((towerAdapter 0 2).attempt (.empty .lyql) "x").made?.isSome = true := by
  have admitted : Node.Admitted 1 (.tower 0) (.tower 0) :=
    .written (Value.untyped_tower 0) (Node.read_tower 0)
  obtain ⟨-, -, full, more⟩ := (depth_limits 1 (by decide)).1 (towerAdapter 0 1) (.empty .lyql) "x"
    (.tower 0) (.tower 0) rfl rfl admitted
  obtain ⟨w, hw, hresult⟩ := full rfl
  have visits : (Node.tower 0).visits = [⟨"String", ⟨0, 1⟩, []⟩] := by
    simp [Node.visits, Node.tower, Node.visitsBelow_spanned]
  rw [visits] at hw
  cases hw
  exact ⟨by decide, admitted, hresult, more⟩

/-- So what is admitted with some allowance need not make a tree with the same allowance. -/
theorem not_made_at_limit :
    ¬∀ (a : Adapter) (ds : Descriptors) (text : String) (v : Value) (n : Node),
      0 < a.depth → a.ready = true → a.parser.run text = .value v →
      Node.Admitted a.depth v n → (a.attempt ds text).made?.isSome = true := by
  intro h
  have made := h (towerAdapter 0 1) (.empty .lyql) "x" (.tower 0) (.tower 0) (by decide) rfl rfl
    (.written (Value.untyped_tower 0) (Node.read_tower 0))
  have refused : ((towerAdapter 0 1).attempt (.empty .lyql) "x").made? = none := rfl
  rw [refused] at made
  cases made

end Adapter

end LyqlHighlight
