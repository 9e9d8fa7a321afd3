import LyqlHighlight.Proofs.Visits

namespace LyqlHighlight

/-!
# Nested nodes

Where each node lies inside its parent and siblings share no characters, the visited nodes form a
family of spans any two of which are nested or apart, and a walk meets them in the order of the
document.

* `Span.Inside`, `Span.Apart` — the two relations of spans;
* `Node.Nested` — nodes that lie inside their parents, apart from their siblings;
* `Visit.Follows`, `Node.Nested.visits_follow` — of two visited nodes the later one lies below the
  earlier one or behind it.
-/

namespace Span

/-- Whether a span holds the character at position `i`. -/
def covers (i : Int) (s : Span) : Bool :=
  s.start ≤ i && i < s.stop

/-- Both bounds of a span lie within those of another one. -/
structure Inside (s t : Span) : Prop where
  /-- It starts inside. -/
  start_le : t.start ≤ s.start
  /-- It stops inside. -/
  stop_le : s.stop ≤ t.stop

/-- No character belongs to both spans. -/
def Apart (s t : Span) : Prop :=
  ∀ i, ¬(s.covers i ∧ t.covers i)

theorem covers_iff {i : Int} {s : Span} : s.covers i = true ↔ s.start ≤ i ∧ i < s.stop := by
  unfold covers
  rw [Bool.and_eq_true, decide_eq_true_eq, decide_eq_true_eq]

theorem inside_iff {s t : Span} : s.Inside t ↔ t.start ≤ s.start ∧ s.stop ≤ t.stop :=
  ⟨fun h => ⟨h.start_le, h.stop_le⟩, fun h => ⟨h.1, h.2⟩⟩

/-- Two spans are apart exactly if one of them is empty or stops before the other starts. -/
theorem apart_iff {s t : Span} :
    s.Apart t ↔ s.stop ≤ s.start ∨ t.stop ≤ t.start ∨ s.stop ≤ t.start ∨ t.stop ≤ s.start := by
  unfold Apart
  simp only [covers_iff]
  constructor
  · intro h
    have := h (max s.start t.start)
    omega
  · intro h i
    omega

theorem Inside.refl (s : Span) : s.Inside s := ⟨le_refl _, le_refl _⟩

theorem Inside.trans {s t u : Span} (h : s.Inside t) (h' : t.Inside u) : s.Inside u :=
  ⟨le_trans h'.start_le h.start_le, le_trans h.stop_le h'.stop_le⟩

theorem Apart.symm {s t : Span} (h : s.Apart t) : t.Apart s :=
  fun i hi => h i ⟨hi.2, hi.1⟩

/-- Of two spans apart that are not empty, the one that starts first stops before the other
    starts. -/
theorem Apart.stop_le_start {s t : Span} (h : s.Apart t) (hs : s.start ≤ t.start)
    (ht : t.start < t.stop) : s.stop ≤ t.start := by
  have := apart_iff.mp h
  omega

end Span

/-- Each spanned node lies inside the node above it, and spanned siblings share no characters.
    Nothing is asked of what is below a detached node. -/
inductive Node.Nested : Node → Prop
  /-- A detached node. -/
  | detached (tag : String) (nodes : List Node) : Nested (.detached tag nodes)
  /-- A spanned node. -/
  | spanned (tag : String) (span : Span) (nodes : List Node)
      (inside : ∀ c ∈ nodes, ∀ s ∈ c.span?, s.Inside span)
      (apart : nodes.Pairwise fun a b => ∀ s ∈ a.span?, ∀ t ∈ b.span?, s.Apart t)
      (below : ∀ c ∈ nodes, Nested c) : Nested (.spanned tag span nodes)

namespace Visit

/-- The later of two visited nodes lies below the earlier one or behind it. -/
def Follows (v w : Visit) : Prop :=
  (w.span.Inside v.span ∧ v.depth < w.depth) ∨
    (v.span.start < v.span.stop → w.span.start < w.span.stop → v.span.stop ≤ w.span.start)

/-- Of two visited nodes over one character the later one is deeper. -/
theorem Follows.depth_lt {v w : Visit} (h : v.Follows w) {i : Int} (hv : v.span.covers i)
    (hw : w.span.covers i) : v.depth < w.depth := by
  rw [Span.covers_iff] at hv hw
  rcases h with ⟨_, deeper⟩ | behind
  · exact deeper
  · have := behind (by omega) (by omega)
    omega

end Visit

namespace Node.Nested

/-- A node without children. -/
theorem leaf (tag : String) (span : Span) : Nested (.spanned tag span []) :=
  .spanned tag span [] (by simp) .nil (by simp)

theorem children_inside {tag : String} {span : Span} {nodes : List Node}
    (h : Nested (.spanned tag span nodes)) : ∀ c ∈ nodes, ∀ s ∈ c.span?, s.Inside span := by
  cases h with
  | spanned _ _ _ inside _ _ => exact inside

theorem children_apart {tag : String} {span : Span} {nodes : List Node}
    (h : Nested (.spanned tag span nodes)) :
    nodes.Pairwise fun a b => ∀ s ∈ a.span?, ∀ t ∈ b.span?, s.Apart t := by
  cases h with
  | spanned _ _ _ _ apart _ => exact apart

theorem children_nested {tag : String} {span : Span} {nodes : List Node}
    (h : Nested (.spanned tag span nodes)) : ∀ c ∈ nodes, c.Nested := by
  cases h with
  | spanned _ _ _ _ _ below => exact below

/-- A visited node lies inside the node where the walk starts, and is at least as deep. -/
theorem visit_inside {n : Node} (h : n.Nested) {above : List Int} {v : Visit}
    (hv : v ∈ n.visitsBelow above) :
    (∀ s ∈ n.span?, v.span.Inside s) ∧ above.length ≤ v.depth := by
  induction n using Node.inductionOn generalizing above with
  | detached tag nodes _ => exact absurd hv (by simp)
  | spanned tag span nodes ih =>
    rw [visitsBelow_spanned] at hv
    rcases List.mem_cons.mp hv with rfl | hv
    · refine ⟨?_, le_refl _⟩
      rintro s ⟨⟩
      exact Span.Inside.refl span
    · obtain ⟨c, hc, hv⟩ := List.mem_flatMap.mp hv
      obtain ⟨hmem, hspanned⟩ := List.mem_filter.mp (mem_inOrder.mp hc)
      obtain ⟨inside, deep⟩ := ih c hmem (h.children_nested c hmem) hv
      rw [List.length_cons] at deep
      refine ⟨?_, by omega⟩
      rintro s ⟨⟩
      cases c with
      | detached _ _ => exact absurd hspanned (by simp [isSpanned])
      | spanned _ childSpan _ =>
        exact (inside childSpan rfl).trans (h.children_inside _ hmem childSpan rfl)

/-- The spanned children in order do not overlap: each starts after the earlier ones stop, unless
    one of them is empty. -/
theorem inOrder_apart {tag : String} {span : Span} {nodes : List Node}
    (h : Nested (.spanned tag span nodes)) :
    (inOrder nodes).Pairwise fun a b => ∀ s ∈ a.span?, ∀ t ∈ b.span?,
      t.start < t.stop → s.stop ≤ t.start := by
  -- Being apart does not depend on the order, so it survives the sort.
  have symmetric : ∀ a b : Node, (∀ s ∈ a.span?, ∀ t ∈ b.span?, s.Apart t) →
      ∀ s ∈ b.span?, ∀ t ∈ a.span?, s.Apart t :=
    fun a b hab s hs t ht => (hab t ht s hs).symm
  have apart := (inOrder_perm nodes).symm.pairwise h.children_apart fun {a b} => symmetric a b
  refine (apart.and (inOrder_ascending nodes)).imp ?_
  rintro a b ⟨hab, hplace⟩ s hs t ht hnonempty
  cases a with
  | detached _ _ => exact absurd hs (by simp [span?])
  | spanned _ sa _ =>
    cases b with
    | detached _ _ => exact absurd ht (by simp [span?])
    | spanned _ sb _ =>
      obtain rfl : sa = s := Option.some.inj hs
      obtain rfl : sb = t := Option.some.inj ht
      exact (hab sa rfl sb rfl).stop_le_start hplace hnonempty

/-- **A walk in document order.** Of two visited nodes the later one lies below the earlier one or
    behind it. -/
theorem visits_follow {n : Node} (h : n.Nested) (above : List Int) :
    (n.visitsBelow above).Pairwise Visit.Follows := by
  induction n using Node.inductionOn generalizing above with
  | detached tag nodes _ => simp
  | spanned tag span nodes ih =>
    rw [visitsBelow_spanned, flatMap_visitsBelow_inOrder, List.pairwise_cons]
    constructor
    · -- The node itself against a visit below it.
      intro w hw
      obtain ⟨c, hc, hw⟩ := List.mem_flatMap.mp hw
      have hmem := mem_inOrder.mp hc
      obtain ⟨inside, deep⟩ := (h.children_nested c hmem).visit_inside hw
      rw [List.length_cons] at deep
      refine Or.inl ⟨?_, by simp only [Visit.depth] at deep ⊢; omega⟩
      cases c with
      | detached _ _ => exact absurd hw (by simp)
      | spanned _ childSpan _ =>
        exact (inside childSpan rfl).trans (h.children_inside _ hmem childSpan rfl)
    · rw [List.pairwise_flatMap]
      constructor
      · intro c hc
        have hmem := mem_inOrder.mp hc
        exact ih c hmem (h.children_nested c hmem) _
      · -- Two visits below different children.
        refine h.inOrder_apart.imp_of_mem ?_
        intro a b ha hb hab v hv w hw
        have insideA := ((h.children_nested a (mem_inOrder.mp ha)).visit_inside hv).1
        have insideB := ((h.children_nested b (mem_inOrder.mp hb)).visit_inside hw).1
        cases a with
        | detached _ _ => exact absurd hv (by simp)
        | spanned _ s _ =>
          cases b with
          | detached _ _ => exact absurd hw (by simp)
          | spanned _ t _ =>
            have inS := insideA s rfl
            have inT := insideB t rfl
            -- A visit that is not empty makes the child around it not empty.
            refine Or.inr fun hvne hwne => ?_
            have tne : t.start < t.stop := by
              have := inT.start_le
              have := inT.stop_le
              omega
            have := hab s rfl t rfl tne
            have := inS.stop_le
            have := inT.start_le
            omega

/-- No visited node starts before its parent. -/
theorem startsInParent {n : Node} (h : n.Nested) {above : List Int}
    (htop : ∀ s ∈ n.span?, ∀ parent ∈ above.head?, parent ≤ s.start) :
    ∀ v ∈ n.visitsBelow above, v.StartsInParent := by
  induction n using Node.inductionOn generalizing above with
  | detached tag nodes _ => simp
  | spanned tag span nodes ih =>
    rw [visitsBelow_spanned, flatMap_visitsBelow_inOrder]
    intro v hv
    rcases List.mem_cons.mp hv with rfl | hv
    · exact htop span rfl
    · obtain ⟨c, hc, hv⟩ := List.mem_flatMap.mp hv
      have hmem := mem_inOrder.mp hc
      refine ih c hmem (h.children_nested c hmem) ?_ v hv
      rintro s hs parent ⟨⟩
      exact (h.children_inside c hmem s hs).start_le

end Node.Nested

end LyqlHighlight
