import LyqlHighlight.SyntaxTree
import LyqlHighlight.Proofs.Bytes
import LyqlHighlight.Proofs.Lists

namespace LyqlHighlight

/-!
# Converting concrete syntax trees

Conversion walks over the tree, without the parts that are left out.  It enters a node, which fails
below too many other nodes, converts its children, and looks up its two bounds, which fails off the
characters of the text.  The first of these checks that fails ends it; if none does, the result has
the shape of the tree, and each span is encoded by the bytes of its node.

* `SyntaxTree.kept`, `SyntaxTree.levels` — the tree as far as it is converted, and its levels;
* `SyntaxTree.Check`, `SyntaxTree.checks` — the checks in the order of the walk;
* `SyntaxTree.error?_convert` — the first check that fails ends the conversion;
* `SyntaxTree.Corresponds` — a node with the shape of a tree, over the characters of its bytes;
* `SyntaxTree.toNode_converts` — the main result.
-/

namespace SyntaxTree

/-! ### Trees -/

/-- Induction over concrete syntax trees, with the hypothesis for each child. -/
@[elab_as_elim]
theorem inductionOn {motive : SyntaxTree → Prop} (tree : SyntaxTree)
    (node : ∀ type start stop named children, (∀ c ∈ children, motive c) →
      motive (.node type start stop named children)) : motive tree := by
  match tree with
  | .node type start stop named children =>
    exact node type start stop named children fun c _ => inductionOn c node
termination_by sizeOf tree

mutual

/-- The tree as far as it is converted: with `namedOnly`, a child that is not named is left out with
    all that is below it. -/
def kept (namedOnly : Bool) : SyntaxTree → SyntaxTree
  | node type start stop named children => node type start stop named (allKept namedOnly children)

/-- The children of a node as far as they are converted. -/
def allKept (namedOnly : Bool) : List SyntaxTree → List SyntaxTree
  | [] => []
  | child :: others =>
    if namedOnly && !child.named then allKept namedOnly others
    else child.kept namedOnly :: allKept namedOnly others

end

mutual

/-- The number of levels of a tree. -/
def levels : SyntaxTree → Nat
  | node _ _ _ _ children => mostLevels children + 1

/-- The greatest number of levels of several trees. -/
def mostLevels : List SyntaxTree → Nat
  | [] => 0
  | child :: others => max child.levels (mostLevels others)

end

theorem allKept_eq_map (namedOnly : Bool) (children : List SyntaxTree) :
    allKept namedOnly children =
      (if namedOnly then children.filter named else children).map (kept namedOnly) := by
  induction children with
  | nil => cases namedOnly <;> rfl
  | cons child others ih =>
    rw [allKept, ih]
    cases namedOnly with
    | false => rfl
    | true =>
      cases h : child.named with
      | false => simp [h]
      | true => simp [h]

theorem lt_mostLevels_iff {d : Nat} {trees : List SyntaxTree} :
    d < mostLevels trees ↔ ∃ c ∈ trees, d < c.levels := by
  induction trees with
  | nil => simp [mostLevels]
  | cons tree trees ih =>
    rw [mostLevels, List.exists_mem_cons_iff, ← ih]
    omega

/-! ### Checks -/

/-- A check on the way of a conversion. -/
inductive Check where
  /-- A node of this type is entered, with so many nodes above it. -/
  | enter (type : String) (above : Nat)
  /-- A bound of a node is looked up. -/
  | bound (byte : Int)
deriving DecidableEq, Repr

mutual

/-- The checks for a tree below so many nodes: the node is entered, then come the checks for its
    children, then its bounds. -/
def checksBelow (above : Nat) : SyntaxTree → List Check
  | node type start stop _ children =>
    .enter type above :: (childChecks (above + 1) children ++ [.bound start, .bound stop])

/-- The checks for several trees. -/
def childChecks (above : Nat) : List SyntaxTree → List Check
  | [] => []
  | child :: others => child.checksBelow above ++ childChecks above others

end

/-- The checks for a tree. -/
def checks (tree : SyntaxTree) : List Check :=
  tree.checksBelow 0

theorem childChecks_eq_flatMap (above : Nat) (children : List SyntaxTree) :
    childChecks above children = children.flatMap (checksBelow above) := by
  induction children with
  | nil => rfl
  | cons child others ih => rw [childChecks, ih, List.flatMap_cons]

namespace Check

/-- The check fails: as many nodes are above as levels are allowed, or no character starts at the
    byte. -/
def Fails (text : List Char) (depth : Int) : Check → Prop
  | enter _ above => depth ≤ above
  | bound byte => ¬Text.IsBoundary text byte

/-- The error that reports the check. -/
def error : Check → ConversionError
  | enter type _ => .tooDeep type
  | bound byte => .offset (.insideCharacter byte)

/-- What the conversion ends with at this check, if `limit` levels are allowed. -/
def fault? (text : List Char) (limit : Nat) : Check → Option ConversionError
  | enter type above => if limit ≤ above then some (.tooDeep type) else none
  | bound byte => error? ((Text.charOffset text byte).mapError .offset)

/-- The check can be relied on: in a text of ASCII characters, where no offset is refused, it is not
    for a byte off the characters. -/
def Reliable (text : List Char) (check : Check) : Prop :=
  (Text.encode text).length = text.length → ∀ byte, check = bound byte → Text.IsBoundary text byte

variable {text : List Char} {depth : Int} {check : Check}

/-- A check ends the conversion exactly if it fails. -/
theorem fault?_eq_some_iff {e : ConversionError} (reliable : check.Reliable text) :
    check.fault? text depth.toNat = some e ↔ check.Fails text depth ∧ e = check.error := by
  cases check with
  | enter type above =>
    have limit : depth.toNat ≤ above ↔ depth ≤ above := by omega
    show (if depth.toNat ≤ above then some (.tooDeep type) else none) = some e ↔
      depth ≤ above ∧ e = .tooDeep type
    rw [Option.ite_none_right_eq_some, limit, Option.some.injEq, eq_comm (b := e)]
  | bound byte =>
    by_cases boundary : Text.IsBoundary text byte
    · obtain ⟨i, hi⟩ := boundary
      have found := Text.charOffset_of_startsAt hi
      simp only [fault?, found, Except.mapError, error?, reduceCtorEq, false_iff]
      rintro ⟨fails, -⟩
      exact fails ⟨i, hi⟩
    · have wide : (Text.encode text).length ≠ text.length :=
        fun same => boundary (reliable same byte rfl)
      have refused := Text.charOffset_of_not_isBoundary wide boundary
      simp only [fault?, refused, Except.mapError, error?, Option.some.injEq]
      exact ⟨fun h => ⟨boundary, h.symm⟩, fun h => h.2.symm⟩

/-- A check does not end the conversion exactly if it does not fail. -/
theorem fault?_eq_none_iff (reliable : check.Reliable text) :
    check.fault? text depth.toNat = none ↔ ¬check.Fails text depth := by
  rw [Option.eq_none_iff_forall_ne_some]
  constructor
  · intro none fails
    exact none check.error ((fault?_eq_some_iff reliable).mpr ⟨fails, rfl⟩)
  · intro passes e found
    exact passes ((fault?_eq_some_iff reliable).mp found).1

/-- The check is the first one in the list that fails. -/
def FailsFirst (text : List Char) (depth : Int) (checks : List Check) (check : Check) : Prop :=
  ∃ front back, checks = front ++ check :: back ∧ check.Fails text depth ∧
    ∀ earlier ∈ front, ¬earlier.Fails text depth

/-- The first one that fails is one of the list, and it fails. -/
theorem FailsFirst.mem_and_fails {checks : List Check} (h : FailsFirst text depth checks check) :
    check ∈ checks ∧ check.Fails text depth := by
  obtain ⟨front, back, rfl, fails, -⟩ := h
  exact ⟨List.mem_append_right _ List.mem_cons_self, fails⟩

end Check

/-- **The first failure.** The first check that ends the conversion is the one that it fails with. -/
theorem error?_convert (text : List Char) (namedOnly : Bool) (depth : Nat) (tree : SyntaxTree)
    (above : Nat) :
    error? (convert text namedOnly depth tree) =
      (((tree.kept namedOnly).checksBelow above).filterMap
        (Check.fault? text (above + depth))).head? := by
  -- On the way to a child one level is used up, and one node more is above.
  induction depth generalizing tree above with
  | zero =>
    obtain ⟨type, start, stop, named, children⟩ := tree
    rw [kept, checksBelow, List.filterMap_cons]
    simp [Check.fault?, convert, error?]
  | succ depth ih =>
    obtain ⟨type, start, stop, named, children⟩ := tree
    have entered : Check.fault? text (above + (depth + 1)) (.enter type above) = none := by
      simp [Check.fault?]
    have child : ∀ c : SyntaxTree, error? (convert text namedOnly depth c) =
        (((c.kept namedOnly).checksBelow (above + 1)).filterMap
          (Check.fault? text (above + (depth + 1)))).head? := by
      intro c
      rw [ih c (above + 1), Nat.add_right_comm, Nat.add_assoc]
    rw [kept, checksBelow, List.filterMap_cons, entered, List.filterMap_append,
      childChecks_eq_flatMap, allKept_eq_map, List.flatMap_map, List.filterMap_flatMap,
      List.head?_append, List.head?_flatMap]
    simp only [← child, ← error?_mapM]
    rw [convert, List.head?_filterMap]
    simp only [List.findSome?_cons, Check.fault?]
    cases (if namedOnly then children.filter SyntaxTree.named else children).mapM
        (convert text namedOnly depth) with
    | error e => rfl
    | ok nodes =>
      cases (Text.charOffset text start).mapError ConversionError.offset with
      | error e => rfl
      | ok first => cases (Text.charOffset text stop).mapError ConversionError.offset <;> rfl

section Outcome

variable {tree : SyntaxTree} {text : String} {namedOnly : Bool} {depth : Int}

theorem error?_toNode (tree : SyntaxTree) (text : String) (namedOnly : Bool) (depth : Int) :
    error? (tree.toNode text namedOnly depth) =
      (tree.kept namedOnly).checks.findSome? (Check.fault? text.toList depth.toNat) := by
  rw [toNode, error?_convert text.toList namedOnly depth.toNat tree 0, Nat.zero_add,
    List.head?_filterMap, checks]

/-- **Success.** A tree is converted exactly if none of its checks fails. -/
theorem exists_toNode_eq_ok_iff
    (reliable : ∀ check ∈ (tree.kept namedOnly).checks, check.Reliable text.toList) :
    (∃ n, tree.toNode text namedOnly depth = .ok n) ↔
      ∀ check ∈ (tree.kept namedOnly).checks, ¬check.Fails text.toList depth := by
  rw [← error?_eq_none_iff, error?_toNode, List.findSome?_eq_none_iff]
  exact forall₂_congr fun check hcheck => Check.fault?_eq_none_iff (reliable check hcheck)

/-- **Failure.** The conversion of a tree fails with the error of the first check that fails. -/
theorem toNode_eq_error_iff {e : ConversionError}
    (reliable : ∀ check ∈ (tree.kept namedOnly).checks, check.Reliable text.toList) :
    tree.toNode text namedOnly depth = .error e ↔
      ∃ check, Check.FailsFirst text.toList depth (tree.kept namedOnly).checks check ∧
        e = Check.error check := by
  have parts : ∀ {front back : List Check} {check : Check},
      (tree.kept namedOnly).checks = front ++ check :: back →
      check.Reliable text.toList ∧ ∀ earlier ∈ front, earlier.Reliable text.toList := by
    intro front back check split
    rw [split, List.forall_mem_append, List.forall_mem_cons] at reliable
    exact ⟨reliable.2.1, reliable.1⟩
  rw [← error?_eq_some_iff, error?_toNode, List.findSome?_eq_some_iff]
  constructor
  · rintro ⟨front, check, back, split, found, earlier⟩
    obtain ⟨own, before⟩ := parts split
    obtain ⟨fails, he⟩ := (Check.fault?_eq_some_iff own).mp found
    exact ⟨check, ⟨front, back, split, fails, fun c hc =>
      (Check.fault?_eq_none_iff (before c hc)).mp (earlier c hc)⟩, he⟩
  · rintro ⟨check, ⟨front, back, split, fails, earlier⟩, he⟩
    obtain ⟨own, before⟩ := parts split
    exact ⟨front, check, back, split, (Check.fault?_eq_some_iff own).mpr ⟨fails, he⟩, fun c hc =>
      (Check.fault?_eq_none_iff (before c hc)).mpr (earlier c hc)⟩

end Outcome

/-! ### Levels -/

/-- A node with so many others above it is entered exactly if the tree has more levels. -/
theorem exists_enter_mem_checksBelow_iff {tree : SyntaxTree} {above d : Nat} :
    (∃ type a, .enter type a ∈ tree.checksBelow above ∧ above + d ≤ a) ↔ d < tree.levels := by
  induction tree using inductionOn generalizing above d with
  | node type start stop named children ih =>
    rw [checksBelow, levels, childChecks_eq_flatMap]
    cases d with
    | zero => exact ⟨fun _ => Nat.succ_pos _,
        fun _ => ⟨type, above, List.mem_cons_self, Nat.le_refl above⟩⟩
    | succ d =>
      -- Such a node is not the topmost one, so it is entered on the way through some child.
      rw [Nat.succ_lt_succ_iff, lt_mostLevels_iff]
      constructor
      · rintro ⟨entered, a, hmem, ha⟩
        simp only [List.mem_cons, List.mem_append, List.mem_flatMap, Check.enter.injEq,
          reduceCtorEq, List.not_mem_nil, or_self, or_false] at hmem
        rcases hmem with ⟨-, rfl⟩ | ⟨c, hc, hmem⟩
        · omega
        · exact ⟨c, hc, (ih c hc).mp ⟨entered, a, hmem, by omega⟩⟩
      · rintro ⟨c, hc, hlevels⟩
        obtain ⟨entered, a, hmem, ha⟩ : ∃ type a, .enter type a ∈ c.checksBelow (above + 1) ∧
            above + 1 + d ≤ a := (ih c hc).mpr hlevels
        refine ⟨entered, a, List.mem_cons_of_mem _ ?_, by omega⟩
        exact List.mem_append_left _ (List.mem_flatMap.mpr ⟨c, hc, hmem⟩)

/-- Some node is nested too deeply exactly if the tree has more levels than are allowed. -/
theorem exists_enter_mem_checks_iff {depth : Int} {tree : SyntaxTree} :
    (∃ (type : String) (above : Nat), .enter type above ∈ tree.checks ∧ depth ≤ above) ↔
      depth < tree.levels := by
  have entered : (∃ type above, .enter type above ∈ tree.checks ∧ 0 + depth.toNat ≤ above) ↔
      depth.toNat < tree.levels := exists_enter_mem_checksBelow_iff
  have limit : ∀ above : Nat, (0 + depth.toNat ≤ above) = (depth ≤ above) := by
    intro above
    rw [eq_iff_iff]
    omega
  have allowed : depth.toNat < tree.levels ↔ depth < tree.levels := by
    have some : 0 < tree.levels := by
      obtain ⟨type, start, stop, named, children⟩ := tree
      rw [levels]
      exact Nat.succ_pos _
    omega
  simp only [limit, allowed] at entered
  exact entered

section Bounds

variable {tree : SyntaxTree} {text : String} {namedOnly : Bool} {depth : Int}

theorem reliable_of_bounds {text : List Char} {tree : SyntaxTree}
    (bounds : ∀ byte, .bound byte ∈ tree.checks → Text.IsBoundary text byte) :
    ∀ check ∈ tree.checks, check.Reliable text := by
  rintro check hcheck - byte rfl
  exact bounds byte hcheck

/-- Where all bounds are at characters, a tree is converted exactly if it has no more levels than
    are allowed. -/
theorem exists_toNode_eq_ok_iff_levels_le
    (bounds : ∀ byte, .bound byte ∈ (tree.kept namedOnly).checks →
      Text.IsBoundary text.toList byte) :
    (∃ n, tree.toNode text namedOnly depth = .ok n) ↔ (tree.kept namedOnly).levels ≤ depth := by
  rw [exists_toNode_eq_ok_iff (reliable_of_bounds bounds)]
  constructor
  · intro passes
    by_contra deep
    obtain ⟨type, above, hmem, ha⟩ := exists_enter_mem_checks_iff.mpr (not_le.mp deep)
    exact passes _ hmem ha
  · intro shallow check hcheck fails
    cases check with
    | enter type above =>
      have deep := exists_enter_mem_checks_iff.mp ⟨type, above, hcheck, fails⟩
      exact absurd shallow (not_le.mpr deep)
    | bound byte => exact fails (bounds byte hcheck)

/-- Where all bounds are at characters, a tree is found nested too deeply exactly if it has more
    levels than are allowed. -/
theorem exists_toNode_eq_tooDeep_iff
    (bounds : ∀ byte, .bound byte ∈ (tree.kept namedOnly).checks →
      Text.IsBoundary text.toList byte) :
    (∃ type, tree.toNode text namedOnly depth = .error (.tooDeep type)) ↔
      depth < (tree.kept namedOnly).levels := by
  rw [← not_le, ← exists_toNode_eq_ok_iff_levels_le bounds]
  constructor
  · rintro ⟨type, refused⟩ ⟨n, made⟩
    rw [refused] at made
    cases made
  · intro refused
    cases h : tree.toNode text namedOnly depth with
    | ok n => exact absurd ⟨n, h⟩ refused
    | error e =>
      obtain ⟨check, first, rfl⟩ := (toNode_eq_error_iff (reliable_of_bounds bounds)).mp h
      obtain ⟨hmem, fails⟩ := first.mem_and_fails
      cases check with
      | enter type above => exact ⟨type, rfl⟩
      | bound byte => exact absurd (bounds byte hmem) fails

/-- In a text that is not made of ASCII characters only, a bound off the characters lets the
    conversion fail, with the error of the first check that does. -/
theorem exists_failsFirst_of_wide
    (wide : (Text.encode text.toList).length ≠ text.toList.length) {byte : Int}
    (hbyte : .bound byte ∈ (tree.kept namedOnly).checks)
    (off : ¬Text.IsBoundary text.toList byte) :
    ∃ check, Check.FailsFirst text.toList depth (tree.kept namedOnly).checks check ∧
      tree.toNode text namedOnly depth = .error check.error := by
  have reliable : ∀ check ∈ (tree.kept namedOnly).checks, check.Reliable text.toList :=
    fun _ _ narrow => absurd narrow wide
  cases h : tree.toNode text namedOnly depth with
  | ok n => exact absurd off ((exists_toNode_eq_ok_iff reliable).mp ⟨n, h⟩ _ hbyte)
  | error e =>
    obtain ⟨check, first, rfl⟩ := (toNode_eq_error_iff reliable).mp h
    exact ⟨check, first, rfl⟩

end Bounds

/-! ### Shape -/

/-- A node corresponds to a tree over the text: it has the types and the shape of the tree, and the
    bytes of each node of the tree are those of the characters of its counterpart. -/
inductive Corresponds (text : List Char) : SyntaxTree → Node → Prop
  | node {type : String} {start stop : Int} {named : Bool} {children : List SyntaxTree} {span : Span}
      {nodes : List Node} (encodes : span.Encodes text ⟨start, stop⟩)
      (below : List.Forall₂ (Corresponds text) children nodes) :
      Corresponds text (.node type start stop named children) (.spanned type span nodes)

/-- **Shape.** Where all bounds are at characters, what a tree is converted to corresponds to the
    tree as far as it is converted. -/
theorem corresponds_of_convert {text : List Char} {namedOnly : Bool} {depth above : Nat}
    {tree : SyntaxTree} {n : Node} (h : convert text namedOnly depth tree = .ok n)
    (bounds : ∀ byte, .bound byte ∈ (tree.kept namedOnly).checksBelow above →
      Text.IsBoundary text byte) : Corresponds text (tree.kept namedOnly) n := by
  induction depth generalizing tree above n with
  | zero =>
    obtain ⟨type, start, stop, named, children⟩ := tree
    simp [convert] at h
  | succ depth ih =>
    obtain ⟨type, start, stop, named, children⟩ := tree
    rw [kept, checksBelow, childChecks_eq_flatMap] at bounds
    obtain ⟨i, hi⟩ := bounds start (by simp)
    obtain ⟨j, hj⟩ := bounds stop (by simp)
    have first := Text.charOffset_of_startsAt hi
    have last := Text.charOffset_of_startsAt hj
    rw [convert, first, last] at h
    obtain ⟨nodes, hnodes, hn⟩ := bind_eq_ok_iff.mp h
    obtain rfl : Node.spanned type ⟨i, j⟩ nodes = n := Except.ok.inj hn
    rw [kept]
    refine .node (.of_startsAt hi hj) ?_
    rw [allKept_eq_map] at bounds ⊢
    rw [List.forall₂_map_left_iff]
    generalize (if namedOnly then children.filter SyntaxTree.named else children) = converted at *
    -- The bounds of a child are among those of the tree.
    have below : ∀ c ∈ converted, ∀ byte,
        .bound byte ∈ (c.kept namedOnly).checksBelow (above + 1) → Text.IsBoundary text byte := by
      intro c hc byte hbyte
      refine bounds byte (List.mem_cons_of_mem _ (List.mem_append_left _ ?_))
      exact List.mem_flatMap.mpr ⟨_, List.mem_map_of_mem hc, hbyte⟩
    exact ((List.forall₂_and_left _ _).mpr ⟨below, mapM_eq_ok_iff.mp hnodes⟩).imp
      fun c m h => ih h.2 h.1

/-- **Conversion.** Let all bounds of a tree, as far as it is converted, be at characters of the
    text: then conversion finds it nested too deeply exactly if it has more levels than are allowed,
    and otherwise gives a node that corresponds to it.  Spans of characters lie inside one another,
    one in front of the other, or apart as the bytes do that encode them.  If the text is not made
    of ASCII characters only and some bound is off its characters, conversion ends with the error of
    the first check that fails. -/
theorem toNode_converts (tree : SyntaxTree) (text : String) (namedOnly : Bool) (depth : Int) :
    ((∀ byte, .bound byte ∈ (tree.kept namedOnly).checks → Text.IsBoundary text.toList byte) →
      ((∃ type, tree.toNode text namedOnly depth = .error (.tooDeep type)) ↔
        depth < (tree.kept namedOnly).levels) ∧
      ((tree.kept namedOnly).levels ≤ depth →
        ∃ n, tree.toNode text namedOnly depth = .ok n ∧
          Corresponds text.toList (tree.kept namedOnly) n)) ∧
    (∀ s t r q : Span, s.Encodes text.toList r → t.Encodes text.toList q →
      (s.Inside t ↔ r.Inside q) ∧ (s.start ≤ t.start ↔ r.start ≤ q.start) ∧
        (s.stop ≤ t.start ↔ r.stop ≤ q.start) ∧ (s.Apart t ↔ r.Apart q)) ∧
    ∀ c ∈ text.toList, 128 ≤ c.toNat →
      ∀ byte, .bound byte ∈ (tree.kept namedOnly).checks → ¬Text.IsBoundary text.toList byte →
        ∃ check, Check.FailsFirst text.toList depth (tree.kept namedOnly).checks check ∧
          tree.toNode text namedOnly depth = .error check.error := by
  refine ⟨fun bounds => ⟨exists_toNode_eq_tooDeep_iff bounds, fun shallow => ?_⟩,
    fun s t r q hs ht => ?_, fun c hc wide byte hbyte off => ?_⟩
  · obtain ⟨n, made⟩ := (exists_toNode_eq_ok_iff_levels_le bounds).mpr shallow
    exact ⟨n, made, corresponds_of_convert made bounds⟩
  · exact ⟨hs.inside_iff ht, (hs.start.le_iff ht.start).symm, hs.behind_iff ht, hs.apart_iff ht⟩
  · refine exists_failsFirst_of_wide (fun narrow => ?_) hbyte off
    have ascii := Text.length_encode_eq_iff.mp narrow c hc
    omega

/-- A node over "aé😀", with a literal part for its first character and a named one for the others,
    which stops at the given byte. -/
def mixedTree (stop : Int) : SyntaxTree :=
  .node "whole" 0 7 true [.node "first" 0 1 false [], .node "others" 1 stop true []]

theorem checks_mixedTree (stop : Int) : ((mixedTree stop).kept true).checks =
    [.enter "whole" 0, .enter "others" 1, .bound 1, .bound stop, .bound 0, .bound 7] := rfl

/-- Without the literal part two levels are converted, and one level is not enough; the named part
    lies inside the whole node as its bytes do; and a byte inside the last character is refused. -/
theorem toNode_converts_mixed :
    (∃ n, (mixedTree 7).toNode "aé😀" true 2 = .ok n ∧
      Corresponds "aé😀".toList ((mixedTree 7).kept true) n) ∧
    (∃ type, (mixedTree 7).toNode "aé😀" true 1 = .error (.tooDeep type)) ∧
    Span.Inside ⟨1, 3⟩ ⟨0, 3⟩ ∧
    ∃ check, Check.FailsFirst "aé😀".toList 2 ((mixedTree 5).kept true).checks check ∧
      (mixedTree 5).toNode "aé😀" true 2 = .error check.error := by
  have start : Text.StartsAt "aé😀".toList 0 0 := ⟨by decide, by decide, by decide⟩
  have first : Text.StartsAt "aé😀".toList 1 1 := ⟨by decide, by decide, by decide⟩
  have stop : Text.StartsAt "aé😀".toList 7 3 := ⟨by decide, by decide, by decide⟩
  have bounds : ∀ byte, .bound byte ∈ ((mixedTree 7).kept true).checks →
      Text.IsBoundary "aé😀".toList byte := by
    intro byte hbyte
    simp only [checks_mixedTree, List.mem_cons, reduceCtorEq, Check.bound.injEq, List.not_mem_nil,
      false_or, or_false] at hbyte
    rcases hbyte with rfl | rfl | rfl | rfl
    · exact ⟨1, first⟩
    · exact ⟨3, stop⟩
    · exact ⟨0, start⟩
    · exact ⟨3, stop⟩
  have off : ¬Text.IsBoundary "aé😀".toList 5 := by
    rintro ⟨i, nonneg, le_length, bytes_eq⟩
    have length : "aé😀".toList.length = 3 := by decide
    obtain rfl | rfl | rfl | rfl : i = 0 ∨ i = 1 ∨ i = 2 ∨ i = 3 := by omega
    all_goals exact absurd bytes_eq (by decide)
  refine ⟨?_, ?_, ?_, ?_⟩
  · exact ((toNode_converts (mixedTree 7) "aé😀" true 2).1 bounds).2 (by decide)
  · exact ((toNode_converts (mixedTree 7) "aé😀" true 1).1 bounds).1.mpr (by decide)
  · have related := (toNode_converts (mixedTree 7) "aé😀" true 2).2.1 ⟨1, 3⟩ ⟨0, 3⟩ ⟨1, 7⟩ ⟨0, 7⟩
      (.of_startsAt first stop) (.of_startsAt start stop)
    exact related.1.mpr ⟨by decide, by decide⟩
  · exact (toNode_converts (mixedTree 5) "aé😀" true 2).2.2 'é' (by decide) (by decide) 5
      (by decide) off

end SyntaxTree

end LyqlHighlight
