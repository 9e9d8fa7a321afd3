import LyqlHighlight.Node.Reading
import LyqlHighlight.SyntaxTree
import LyqlHighlight.Proofs.Levels
import LyqlHighlight.Proofs.Lists

namespace LyqlHighlight

/-!
# What is read

A value that is written with mappings only is read level by level: each mapping takes one of the
allowed levels and makes one node.  A concrete syntax tree is converted in the same way.

* `Value.Throughout` — a property of a value and of all that it is made of;
* `Value.Untyped` — a value without typed nodes;
* `Node.read_succ_mapping`, `Node.read_succ_mapping_eq_ok_iff` — the steps in which a mapping is
  read;
* `Node.read_mono` — a greater allowance of levels changes nothing of what is read;
* `Node.written`, `Node.read_written` — the mapping for a node, and that it is read as the node;
* `Node.read_induction` — induction over what is read from values without typed nodes;
* `Node.levels_le_of_read`, `SyntaxTree.levels_le_of_convert` — the levels of what is read are those
  that were allowed, at most.
-/

namespace Value

/-- The values that a value is made of. -/
def parts : Value → List Value
  | list items => items
  | tuple items => items
  | mapping fields => fields.map Prod.snd
  | _ => []

/-- A property of a value, of the values it is made of, of those they are made of, and so on. -/
inductive Throughout (P : Value → Prop) : Value → Prop where
  | intro {v : Value} (own : P v) (parts : ∀ w ∈ v.parts, Throughout P w) : Throughout P v

/-- No typed node is part of the value. -/
def Untyped (v : Value) : Prop :=
  v.Throughout fun w => ∀ n, w ≠ node n

variable {P : Value → Prop} {v : Value}

theorem Throughout.own (h : v.Throughout P) : P v := by
  cases h
  assumption

theorem Throughout.of_mem_parts (h : v.Throughout P) {w : Value} (hw : w ∈ v.parts) :
    w.Throughout P := by
  cases h with
  | intro _ parts => exact parts w hw

/-- A value that is made of no others. -/
theorem Throughout.of_parts_eq_nil (own : P v) (h : v.parts = []) : v.Throughout P := by
  refine .intro own fun w hw => ?_
  rw [h] at hw
  exact absurd hw List.not_mem_nil

/-- The value under a key of a mapping is part of it. -/
theorem mem_parts_of_lookup {fields : List (String × Value)} {key : String} {w : Value}
    (h : fields.lookup key = some w) : w ∈ (mapping fields).parts := by
  obtain ⟨front, back, rfl, -⟩ := List.lookup_eq_some_iff.mp h
  simp [parts]

/-- The value under a key of a mapping, or none, keeps what holds throughout the mapping. -/
theorem Throughout.getD_lookup {fields : List (String × Value)} (h : (mapping fields).Throughout P)
    (own : P .none) (key : String) : ((fields.lookup key).getD .none).Throughout P := by
  cases hkey : fields.lookup key with
  | none => exact .of_parts_eq_nil own rfl
  | some w => exact h.of_mem_parts (mem_parts_of_lookup hkey)

/-- The members of a value are parts of it, or texts and numbers. -/
theorem Throughout.items (h : v.Throughout P) (str : ∀ s, P (.str s)) (int : ∀ n, P (.int n))
    {items : List Value} (hitems : v.items = .ok items) : ∀ w ∈ items, w.Throughout P := by
  unfold Value.items at hitems
  obtain ⟨full, -, hitems⟩ := bind_eq_ok_iff.mp hitems
  have empty : Except.ok ([] : List Value) = (.ok items : Except ReadError _) →
      ∀ w ∈ items, w.Throughout P := by
    intro hnil w hw
    rw [← Except.ok.inj hnil] at hw
    exact absurd hw List.not_mem_nil
  cases full with
  | false => exact empty hitems
  | true =>
    cases v with
    | list members =>
      cases hitems
      exact fun w hw => h.of_mem_parts hw
    | tuple members =>
      cases hitems
      exact fun w hw => h.of_mem_parts hw
    | str s =>
      cases hitems
      intro w hw
      obtain ⟨c, -, rfl⟩ := List.mem_map.mp hw
      exact .of_parts_eq_nil (str _) rfl
    | bytes bs =>
      cases hitems
      intro w hw
      obtain ⟨b, -, rfl⟩ := List.mem_map.mp hw
      exact .of_parts_eq_nil (int _) rfl
    | mapping fields =>
      cases hitems
      intro w hw
      obtain ⟨field, -, rfl⟩ := List.mem_map.mp hw
      exact .of_parts_eq_nil (str _) rfl
    | _ => cases hitems

end Value

/-- A written span has two bounds that stand for integers in order. -/
theorem Span.ofValue_mapping_eq_ok_iff {fields : List (String × Value)} {s : Span} :
    Span.ofValue (.mapping fields) = .ok s ↔
      Span.boundOfValue (.mapping fields) "start" = .ok s.start ∧
      Span.boundOfValue (.mapping fields) "end" = .ok s.stop ∧ s.start ≤ s.stop := by
  rw [ofValue]
  simp only [bind_eq_ok_iff]
  constructor
  · rintro ⟨start, hstart, stop, hstop, h⟩
    split at h
    · cases h
    · next hordered =>
      cases h
      exact ⟨hstart, hstop, Int.not_lt.mp hordered⟩
  · rintro ⟨hstart, hstop, hle⟩
    refine ⟨s.start, hstart, s.stop, hstop, ?_⟩
    rw [if_neg (by omega)]
    rfl

namespace Node

/-! ### The steps of reading -/

/-- The node that the fields of a mapping make with its tag and the nodes of its children. -/
def ofFields (fields : List (String × Value)) (tag : String) (children : List Node) :
    Except ReadError Node :=
  match (fields.lookup "span").getD .none with
  | .none => .ok (detached tag children)
  | raw => (Span.ofValue raw).map fun span => spanned tag span children

theorem children_of_ofFields {fields : List (String × Value)} {tag : String}
    {children : List Node} {n : Node} (h : ofFields fields tag children = .ok n) :
    n.children = children := by
  unfold ofFields at h
  split at h
  · rw [← Except.ok.inj h]
    rfl
  · next raw _ =>
    cases hspan : Span.ofValue ((fields.lookup "span").getD .none) with
    | error e => simp [hspan, Except.map] at h
    | ok span =>
      rw [hspan] at h
      rw [← Except.ok.inj h]
      rfl

theorem read_zero_mapping_ne_ok (fields : List (String × Value)) (n : Node) :
    read 0 (.mapping fields) ≠ .ok n := by
  intro h
  rw [read] at h
  obtain ⟨tag, -, h⟩ := bind_eq_ok_iff.mp h
  cases h

/-- **The steps of reading.** The tag of a mapping comes first, then its members are read in order
    with one level less, and last its fields make a node of them. -/
theorem read_succ_mapping (depth : Nat) (fields : List (String × Value)) :
    read (depth + 1) (.mapping fields) = (do
      let tag ← tagOfFields fields
      let items ← ((fields.lookup "children").getD .none).items
      let children ← items.mapM (read depth)
      ofFields fields tag children) := by
  rw [read]
  rfl

/-- A mapping is read as a node exactly if none of the steps fails. -/
theorem read_succ_mapping_eq_ok_iff {depth : Nat} {fields : List (String × Value)} {n : Node} :
    read (depth + 1) (.mapping fields) = .ok n ↔
      ∃ tag items children, tagOfFields fields = .ok tag ∧
        ((fields.lookup "children").getD .none).items = .ok items ∧
        List.Forall₂ (fun v c => read depth v = .ok c) items children ∧
        ofFields fields tag children = .ok n := by
  rw [read_succ_mapping]
  simp only [bind_eq_ok_iff, mapM_eq_ok_iff]
  constructor
  · rintro ⟨tag, htag, items, hitems, children, hchildren, h⟩
    exact ⟨tag, items, children, htag, hitems, hchildren, h⟩
  · rintro ⟨tag, items, children, htag, hitems, hchildren, h⟩
    exact ⟨tag, htag, items, hitems, children, hchildren, h⟩

/-- The span of the node that the fields of a mapping make is the one under its key. -/
theorem ofFields_eq_spanned {fields : List (String × Value)} {tag : String} {span : Span}
    {children : List Node} (h : Span.ofValue ((fields.lookup "span").getD .none) = .ok span) :
    ofFields fields tag children = .ok (spanned tag span children) := by
  unfold ofFields
  split
  · next hnone =>
    rw [hnone] at h
    cases h
  · rw [h]
    rfl

/-- Only mappings and typed nodes are read as nodes. -/
theorem mapping_or_node_of_read {depth : Nat} {v : Value} {n : Node} (h : read depth v = .ok n) :
    v = .node n ∨ ∃ fields, v = .mapping fields := by
  cases v with
  | node m =>
    rw [read] at h
    rw [Except.ok.inj h]
    exact .inl rfl
  | mapping fields => exact .inr ⟨fields, rfl⟩
  | _ =>
    rw [read] at h
    · cases h
    · simp
    · simp

/-- **Monotonicity.** What is read with some allowance of levels is read with each greater one. -/
theorem read_mono {depth more : Nat} (hle : depth ≤ more) {v : Value} {n : Node}
    (h : read depth v = .ok n) : read more v = .ok n := by
  induction depth generalizing more v n with
  | zero =>
    rcases mapping_or_node_of_read h with rfl | ⟨fields, rfl⟩
    · rw [read]
    · exact absurd h (read_zero_mapping_ne_ok fields n)
  | succ depth ih =>
    obtain ⟨more, rfl⟩ := Nat.exists_eq_add_of_le' (Nat.le_trans (Nat.succ_pos depth) hle)
    rcases mapping_or_node_of_read h with rfl | ⟨fields, rfl⟩
    · rw [read]
    · obtain ⟨tag, items, children, htag, hitems, hchildren, hn⟩ :=
        read_succ_mapping_eq_ok_iff.mp h
      refine read_succ_mapping_eq_ok_iff.mpr ⟨tag, items, children, htag, hitems, ?_, hn⟩
      exact hchildren.imp fun v c hvc => ih (Nat.le_of_succ_le_succ hle) hvc

/-! ### Written nodes -/

/-- A mapping for a node with some span, over the values for its children. -/
def written (tag : String) (span : Span) (items : List Value) : Value :=
  .mapping [("name", .str tag),
    ("span", .mapping [("start", .int span.start), ("end", .int span.stop)]),
    ("children", .list items)]

/-- A written node is read as the node, if its span is in order and its children are read with one
    level less. -/
theorem read_written {depth : Nat} {tag : String} {span : Span} {items : List Value}
    {children : List Node} (ordered : span.start ≤ span.stop)
    (h : List.Forall₂ (fun v c => read depth v = .ok c) items children) :
    read (depth + 1) (written tag span items) = .ok (spanned tag span children) := by
  refine read_succ_mapping_eq_ok_iff.mpr ⟨tag, items, children, rfl, ?_, h, ?_⟩
  · cases items <;> rfl
  · exact ofFields_eq_spanned (Span.ofValue_mapping_eq_ok_iff.mpr ⟨rfl, rfl, ordered⟩)

/-- What holds of mappings, lists, texts and numbers holds throughout a written node, if it holds
    throughout the values for its children. -/
theorem throughout_written {P : Value → Prop} (mapping : ∀ fields, P (.mapping fields))
    (list : ∀ items, P (.list items)) (str : ∀ s, P (.str s)) (int : ∀ i, P (.int i))
    {tag : String} {span : Span} {items : List Value} (h : ∀ v ∈ items, v.Throughout P) :
    (written tag span items).Throughout P := by
  have number : ∀ i, (Value.int i).Throughout P := fun i => .of_parts_eq_nil (int i) rfl
  have name : (Value.str tag).Throughout P := .of_parts_eq_nil (str tag) rfl
  have bounds : (Value.mapping [("start", .int span.start), ("end", .int span.stop)]).Throughout P :=
    .intro (mapping _) (by simp [Value.parts, number])
  have members : (Value.list items).Throughout P := .intro (list items) h
  exact .intro (mapping _) (by simp [written, Value.parts, name, bounds, members])

/-- A written node holds a typed one only among its children. -/
theorem untyped_written {tag : String} {span : Span} {items : List Value}
    (h : ∀ v ∈ items, v.Untyped) : (written tag span items).Untyped :=
  throughout_written (by simp) (by simp) (by simp) (by simp) h

/-! ### Levels -/

/-- A node has one level more than its children, at most. -/
theorem levels_le_of_children {n : Node} {d : Nat} (h : ∀ c ∈ n.children, c.levels ≤ d) :
    n.levels ≤ d + 1 := by
  cases n with
  | detached tag nodes =>
    rw [levels_detached]
    exact Nat.zero_le _
  | spanned tag span nodes =>
    rw [levels_spanned]
    exact Nat.succ_le_succ (mostLevels_le_iff.mpr h)

/-- **Induction over what is read.** Something holds of each node that is read from a value, if each
    mapping makes a node of which it holds out of nodes of which it holds with one level less.  The
    value is made of such values only that none of them is a typed node. -/
theorem read_induction {P : Value → Prop} {Q : Nat → Node → Prop} (typed : ∀ n, ¬P (.node n))
    (none : P .none) (str : ∀ s, P (.str s)) (int : ∀ i, P (.int i))
    (step : ∀ {depth fields tag children n}, (Value.mapping fields).Throughout P →
      (∀ c ∈ children, Q depth c) → ofFields fields tag children = .ok n → Q (depth + 1) n)
    {depth : Nat} {v : Value} {n : Node} (h : v.Throughout P) (read : read depth v = .ok n) :
    Q depth n := by
  induction depth generalizing v n with
  | zero =>
    rcases mapping_or_node_of_read read with rfl | ⟨fields, rfl⟩
    · exact absurd h.own (typed n)
    · exact absurd read (read_zero_mapping_ne_ok fields n)
  | succ depth ih =>
    rcases mapping_or_node_of_read read with rfl | ⟨fields, rfl⟩
    · exact absurd h.own (typed n)
    · obtain ⟨tag, items, children, -, hitems, hchildren, hn⟩ :=
        read_succ_mapping_eq_ok_iff.mp read
      have members := (h.getD_lookup none "children").items str int hitems
      refine step h (fun c hc => ?_) hn
      obtain ⟨w, hw, hread⟩ := exists_of_mapM_eq_ok (mapM_eq_ok_iff.mpr hchildren) hc
      exact ih (members w hw) hread

/-- The levels of a node that is read from a value without typed nodes are allowed ones. -/
theorem levels_le_of_read {depth : Nat} {v : Value} {n : Node} (untyped : v.Untyped)
    (h : read depth v = .ok n) : n.levels ≤ depth := by
  refine read_induction (Q := fun depth n => n.levels ≤ depth) (by simp) (by simp) (by simp)
    (by simp) ?_ untyped h
  intro depth fields tag children n _ below hn
  apply levels_le_of_children
  rwa [children_of_ofFields hn]

end Node

namespace SyntaxTree

/-- The levels of a converted tree are allowed ones. -/
theorem levels_le_of_convert {text : List Char} {namedOnly : Bool} {depth : Nat}
    {tree : SyntaxTree} {n : Node} (h : convert text namedOnly depth tree = .ok n) :
    n.levels ≤ depth := by
  induction depth generalizing tree n with
  | zero =>
    cases tree
    rw [convert] at h
    cases h
  | succ depth ih =>
    obtain ⟨type, start, stop, named, kids⟩ := tree
    rw [convert] at h
    simp only [bind_eq_ok_iff] at h
    obtain ⟨nodes, hnodes, first, -, last, -, h⟩ := h
    rw [← Except.ok.inj h]
    apply Node.levels_le_of_children
    intro c hc
    obtain ⟨kid, -, hkid⟩ := exists_of_mapM_eq_ok hnodes hc
    exact ih hkid

end SyntaxTree

end LyqlHighlight
