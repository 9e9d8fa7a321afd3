import LyqlHighlight.Proofs.Reading

namespace LyqlHighlight

/-!
# Ways of writing a node

A node may be written in many ways: down to any depth with mappings, and typed below; the tag under
either key; the span with more fields than its bounds, or typed; the children in a list or a tuple.
All of them are read as the node.  What is read from mappings only has its spans in order and nests
no deeper than allowed, and each such node can be written with mappings only.

* `Node.Throughout`, `Node.Ordered`, `Node.NestsWithin` — nodes with their spans in order, and of
  limited depth;
* `Value.Plain` — a value without typed nodes and typed spans;
* `WritesTag`, `WritesSpan`, `WritesChildren`, `Writes` — the ways of writing a node;
* `Node.read_of_writes` — each of them is read as the node;
* `Node.ofValue_writes` — the main result.
-/

/-! ### Nodes -/

namespace Node

/-- A property of a node, of its children, of theirs, and so on. -/
inductive Throughout (P : Node → Prop) : Node → Prop where
  | intro {n : Node} (own : P n) (below : ∀ c ∈ n.children, Throughout P c) : Throughout P n

/-- The spans in a node stop where they start, or later. -/
def Ordered (n : Node) : Prop :=
  n.Throughout fun m => ∀ span ∈ m.span?, span.start ≤ span.stop

@[simp] theorem ordered_spanned_iff {tag : String} {span : Span} {nodes : List Node} :
    (spanned tag span nodes).Ordered ↔ span.start ≤ span.stop ∧ ∀ c ∈ nodes, c.Ordered := by
  constructor
  · rintro ⟨own, below⟩
    exact ⟨own span rfl, below⟩
  · rintro ⟨own, below⟩
    refine .intro (fun s hs => ?_) below
    rwa [← Option.some.inj hs]

@[simp] theorem ordered_detached_iff {tag : String} {nodes : List Node} :
    (detached tag nodes).Ordered ↔ ∀ c ∈ nodes, c.Ordered := by
  constructor
  · rintro ⟨-, below⟩
    exact below
  · intro below
    exact .intro (by simp [span?]) below

/-- A node nests at most so many levels of nodes, with or without a place in the source. -/
inductive NestsWithin : Nat → Node → Prop where
  | intro {depth : Nat} {n : Node} (below : ∀ c ∈ n.children, NestsWithin depth c) :
      NestsWithin (depth + 1) n

theorem not_nestsWithin_zero (n : Node) : ¬n.NestsWithin 0 := by
  rintro ⟨⟩

theorem nestsWithin_succ_iff {depth : Nat} {n : Node} :
    n.NestsWithin (depth + 1) ↔ ∀ c ∈ n.children, c.NestsWithin depth := by
  constructor
  · rintro ⟨below⟩
    exact below
  · exact .intro

end Node

/-- No typed node and no typed span is part of the value. -/
def Value.Plain (v : Value) : Prop :=
  v.Throughout fun w => (∀ n, w ≠ .node n) ∧ ∀ s, w ≠ .span s

/-! ### The ways of writing -/

/-- The fields of a mapping hold a tag: under `tag`, or under `name` alone. -/
inductive WritesTag (fields : List (String × Value)) (tag : String) : Prop where
  | tag (h : fields.lookup "tag" = some (.str tag)) : WritesTag fields tag
  | name (missing : fields.lookup "tag" = none) (h : fields.lookup "name" = some (.str tag)) :
      WritesTag fields tag

/-- A value stands for a span: it is typed, or a mapping of the bounds and perhaps more. -/
inductive WritesSpan : Value → Span → Prop where
  | typed (s : Span) : WritesSpan (.span s) s
  | mapping {fields : List (String × Value)} {s : Span}
      (start : fields.lookup "start" = some (.int s.start))
      (stop : fields.lookup "end" = some (.int s.stop)) : WritesSpan (.mapping fields) s

/-- What may stand in the field for children: a sequence of them, or if there are none, nothing or
    something that counts as false. -/
inductive WritesChildren : Option Value → List Value → Prop where
  | list (items : List Value) : WritesChildren (some (.list items)) items
  | tuple (items : List Value) : WritesChildren (some (.tuple items)) items
  | missing : WritesChildren none []
  | empty {v : Value} (h : v.isTrue = .ok false) : WritesChildren (some v) []

/-- The ways of writing a node with at most so many levels of mappings: `kids` are the children, each
    behind the value that stands for it. -/
inductive Writes : Nat → Value → Node → Prop where
  /-- A typed node stands for itself. -/
  | typed (depth : Nat) (n : Node) : Writes depth (.node n) n
  /-- A mapping with a span. -/
  | spanned {depth : Nat} {fields : List (String × Value)} {tag : String} {raw : Value}
      {span : Span} {kids : List (Value × Node)} (named : WritesTag fields tag)
      (placed : fields.lookup "span" = some raw) (bounds : WritesSpan raw span)
      (members : WritesChildren (fields.lookup "children") (kids.map Prod.fst))
      (below : ∀ kid ∈ kids, Writes depth kid.1 kid.2) :
      Writes (depth + 1) (.mapping fields) (.spanned tag span (kids.map Prod.snd))
  /-- A mapping without a span. -/
  | detached {depth : Nat} {fields : List (String × Value)} {tag : String}
      {kids : List (Value × Node)} (named : WritesTag fields tag)
      (unplaced : fields.lookup "span" = none ∨ fields.lookup "span" = some .none)
      (members : WritesChildren (fields.lookup "children") (kids.map Prod.fst))
      (below : ∀ kid ∈ kids, Writes depth kid.1 kid.2) :
      Writes (depth + 1) (.mapping fields) (.detached tag (kids.map Prod.snd))

/-! ### What is written is read -/

theorem WritesTag.tagOfFields_eq {fields : List (String × Value)} {tag : String}
    (h : WritesTag fields tag) : Node.tagOfFields fields = .ok tag := by
  cases h with
  | tag h => simp [Node.tagOfFields, h]
  | name missing h => simp [Node.tagOfFields, missing, h]

theorem WritesSpan.ofValue_eq {raw : Value} {span : Span} (h : WritesSpan raw span)
    (ordered : span.start ≤ span.stop) : Span.ofValue raw = .ok span := by
  cases h with
  | typed => rfl
  | mapping start stop =>
    refine Span.ofValue_mapping_eq_ok_iff.mpr ⟨?_, ?_, ordered⟩
    · simp [Span.boundOfValue, Value.field?, start, Value.integer]
    · simp [Span.boundOfValue, Value.field?, stop, Value.integer]

theorem WritesChildren.items_eq {raw : Option Value} {items : List Value}
    (h : WritesChildren raw items) : (raw.getD .none).items = .ok items := by
  cases h with
  | list => cases items <;> rfl
  | tuple => cases items <;> rfl
  | missing => rfl
  | empty h =>
    unfold Value.items
    rw [Option.getD_some, h]
    rfl

namespace Node

/-- What the fields of a mapping without a span make. -/
theorem ofFields_eq_detached {fields : List (String × Value)} {tag : String} {children : List Node}
    (h : (fields.lookup "span").getD .none = .none) :
    ofFields fields tag children = .ok (detached tag children) := by
  simp [ofFields, h]

/-- The values for the children of a node are read as the children, if each one is as its own. -/
theorem forall₂_read_kids {depth : Nat} {kids : List (Value × Node)}
    (h : ∀ kid ∈ kids, read depth kid.1 = .ok kid.2) :
    List.Forall₂ (fun v c => read depth v = .ok c) (kids.map Prod.fst) (kids.map Prod.snd) := by
  rw [List.forall₂_map_left_iff, List.forall₂_map_right_iff, List.forall₂_same]
  exact h

/-- Each way of writing a node with its spans in order is read as the node. -/
theorem read_of_writes {depth : Nat} {v : Value} {n : Node} (h : Writes depth v n)
    (ordered : n.Ordered) : read depth v = .ok n := by
  -- The ways of writing: a mapping takes one level, and its kids are read with one level less.
  induction h with
  | typed depth n => rw [read]
  | @spanned depth fields tag raw span kids named placed bounds members below ih =>
    obtain ⟨own, children⟩ := ordered
    have kept : ∀ kid ∈ kids, read depth kid.1 = .ok kid.2 :=
      fun kid hkid => ih kid hkid (children kid.2 (List.mem_map_of_mem hkid))
    have placed' : Span.ofValue ((fields.lookup "span").getD .none) = .ok span := by
      rw [placed]
      exact bounds.ofValue_eq (own span rfl)
    exact read_succ_mapping_eq_ok_iff.mpr ⟨tag, _, _, named.tagOfFields_eq, members.items_eq,
      forall₂_read_kids kept, ofFields_eq_spanned placed'⟩
  | @detached depth fields tag kids named unplaced members below ih =>
    obtain ⟨-, children⟩ := ordered
    have kept : ∀ kid ∈ kids, read depth kid.1 = .ok kid.2 :=
      fun kid hkid => ih kid hkid (children kid.2 (List.mem_map_of_mem hkid))
    have unplaced' : (fields.lookup "span").getD .none = .none := by
      rcases unplaced with missing | missing <;> simp [missing]
    exact read_succ_mapping_eq_ok_iff.mpr ⟨tag, _, _, named.tagOfFields_eq, members.items_eq,
      forall₂_read_kids kept, ofFields_eq_detached unplaced'⟩

/-! ### What is read from mappings only -/

/-- A span that is read from a mapping is in order. -/
theorem ordered_of_ofFields {fields : List (String × Value)} {tag : String} {children : List Node}
    {n : Node} (plain : (Value.mapping fields).Plain) (h : ofFields fields tag children = .ok n) :
    ∀ span ∈ n.span?, span.start ≤ span.stop := by
  have raw := (plain.getD_lookup (by simp) "span").own
  unfold ofFields at h
  split at h
  · rw [← Except.ok.inj h]
    simp [span?]
  · generalize (fields.lookup "span").getD .none = v at h raw
    cases v with
    | mapping bounds =>
      cases hspan : Span.ofValue (.mapping bounds) with
      | error e => simp [hspan, Except.map] at h
      | ok s =>
        rw [hspan] at h
        rw [← Except.ok.inj h]
        intro span hspan'
        obtain rfl := Option.some.inj hspan'
        exact (Span.ofValue_mapping_eq_ok_iff.mp hspan).2.2
    | span s => exact absurd rfl (raw.2 s)
    | _ => cases h

/-- What is read from mappings only has its spans in order and nests no deeper than allowed. -/
theorem ordered_of_read {depth : Nat} {v : Value} {n : Node} (plain : v.Plain)
    (h : read depth v = .ok n) : n.Ordered ∧ n.NestsWithin depth := by
  refine read_induction (Q := fun depth n => n.Ordered ∧ n.NestsWithin depth) (by simp) (by simp)
    (by simp) (by simp) ?_ plain h
  intro depth fields tag children n plain below hn
  have same := children_of_ofFields hn
  refine ⟨.intro (ordered_of_ofFields plain hn) fun c hc => ?_, .intro fun c hc => ?_⟩
  · rw [same] at hc
    exact (below c hc).1
  · rw [same] at hc
    exact (below c hc).2

/-! ### Mappings are enough -/

/-- A mapping for a node without a span, over the values for its children. -/
def writtenDetached (tag : String) (items : List Value) : Value :=
  .mapping [("name", .str tag), ("children", .list items)]

theorem plain_writtenDetached {tag : String} {items : List Value} (h : ∀ v ∈ items, v.Plain) :
    (writtenDetached tag items).Plain := by
  refine .intro (by simp [writtenDetached]) ?_
  have name : (Value.str tag).Plain := .of_parts_eq_nil (by simp) rfl
  have members : (Value.list items).Plain := .intro (by simp) h
  show ∀ w ∈ [Value.str tag, Value.list items], w.Plain
  simp [name, members]

/-- A node of limited depth is written with mappings only, and no more levels of them. -/
theorem exists_plain_writes {depth : Nat} {n : Node} (h : n.NestsWithin depth) :
    ∃ v : Value, v.Plain ∧ Writes depth v n := by
  induction h with
  | @intro depth n below ih =>
    obtain ⟨kids, hkids, written⟩ := exists_pairs ih
    have plain : ∀ v ∈ kids.map Prod.fst, v.Plain := by
      intro v hv
      obtain ⟨kid, hkid, rfl⟩ := List.mem_map.mp hv
      exact (written kid hkid).1
    have writes : ∀ kid ∈ kids, Writes depth kid.1 kid.2 := fun kid hkid => (written kid hkid).2
    cases n with
    | spanned tag span children =>
      obtain rfl : kids.map Prod.snd = children := hkids
      refine ⟨_, throughout_written (by simp) (by simp) (by simp) (by simp) plain,
        .spanned (.name rfl rfl) rfl (.mapping rfl rfl) (.list _) writes⟩
    | detached tag children =>
      obtain rfl : kids.map Prod.snd = children := hkids
      exact ⟨_, plain_writtenDetached plain, .detached (.name rfl rfl) (.inl rfl) (.list _) writes⟩

/-- **Writing and reading.** With each allowance of levels:

    * a node with its spans in order is read from every value that is a way of writing it with no
      more levels of mappings than allowed;
    * exactly the nodes with their spans in order that nest no deeper than allowed are read from
      values without typed nodes and typed spans. -/
theorem ofValue_writes (depth : Int) :
    (∀ v n, Writes depth.toNat v n → n.Ordered → ofValue v depth = .ok n) ∧
    ∀ n, (∃ v : Value, v.Plain ∧ ofValue v depth = .ok n) ↔
      n.Ordered ∧ n.NestsWithin depth.toNat := by
  refine ⟨fun v n => read_of_writes, fun n => ⟨?_, ?_⟩⟩
  · rintro ⟨v, plain, h⟩
    exact ordered_of_read plain h
  · rintro ⟨ordered, nests⟩
    obtain ⟨v, plain, written⟩ := exists_plain_writes nests
    exact ⟨v, plain, read_of_writes written ordered⟩

/-- A node with a detached child, one with a typed span, and a typed one that nests deeper than the
    mappings. -/
def mixedNode : Node :=
  spanned "A" ⟨0, 9⟩
    [detached "B" [], spanned "C" ⟨2, 3⟩ [],
      spanned "D" ⟨4, 9⟩ [detached "E" [spanned "F" ⟨5, 5⟩ []]]]

/-- A way of writing it with two levels of mappings. -/
def mixedValue : Value :=
  .mapping
    [("name", .int 7), ("tag", .str "A"),
      ("span", .mapping [("line", .int 1), ("end", .int 9), ("start", .int 0)]),
      ("children", .tuple
        [.mapping [("name", .str "B"), ("span", .none), ("children", .none)],
          .mapping [("tag", .str "C"), ("span", .span ⟨2, 3⟩), ("children", .list [])],
          .node (spanned "D" ⟨4, 9⟩ [detached "E" [spanned "F" ⟨5, 5⟩ []]])])]

theorem writes_mixed : Writes 2 mixedValue mixedNode := by
  have first : Writes 1 (.mapping [("name", .str "B"), ("span", .none), ("children", .none)])
      (detached "B" []) :=
    @Writes.detached _ _ _ [] (.name rfl rfl) (.inr rfl) (.empty rfl) (by simp)
  have second : Writes 1
      (.mapping [("tag", .str "C"), ("span", .span ⟨2, 3⟩), ("children", .list [])])
      (spanned "C" ⟨2, 3⟩ []) :=
    @Writes.spanned _ _ _ _ _ [] (.tag rfl) rfl (.typed _) (.list _) (by simp)
  refine @Writes.spanned _ _ _ _ _ [(_, _), (_, _), (_, _)] (.tag rfl) rfl (.mapping rfl rfl)
    (.tuple _) ?_
  simp [first, second, Writes.typed]

/-- It is read as the node where two levels are allowed, though the node nests deeper.  A node that
    nests two levels deep is not read from mappings only where one level is allowed. -/
theorem ofValue_writes_mixed :
    Writes 2 mixedValue mixedNode ∧ mixedNode.Ordered ∧ ofValue mixedValue 2 = .ok mixedNode ∧
      ¬∃ v : Value, v.Plain ∧ ofValue v 1 = .ok (detached "A" [detached "B" []]) := by
  have ordered : mixedNode.Ordered := by simp [mixedNode]
  refine ⟨writes_mixed, ordered, (ofValue_writes 2).1 _ _ writes_mixed ordered, ?_⟩
  rw [(ofValue_writes 1).2]
  rintro ⟨-, nests⟩
  exact not_nestsWithin_zero _ (nestsWithin_succ_iff.mp nests _ List.mem_cons_self)

end Node

end LyqlHighlight
