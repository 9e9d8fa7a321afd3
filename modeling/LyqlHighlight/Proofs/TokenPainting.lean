import Mathlib
import LyqlHighlight.Lexical.Program
import LyqlHighlight.Proofs.Blocks
import LyqlHighlight.Proofs.Innermost
import LyqlHighlight.Proofs.TokenRow

namespace LyqlHighlight.Lexical

/-!
# Painting LyQL text

A text that scans is painted token by token: the way leads from the tokens over a flat node, its
tree and the ranges of the tree to the calls for the blocks of the text.

* `tokenize_eq_ok_iff`, `nested_program`, `visits_program`, `rootDemand_program` — the flat node of
  a row of tokens;
* `exists_style_tag` — each class of tokens is registered and has a format of its own;
* `stylesAt_program` — the styles of a unit are those of the tokens over its character;
* `stylesAt_tokenize` — a character of a token gets the style of the token and no other, and a
  character of a space or a comment gets none.
-/

theorem tokenize_eq_ok_iff {text : String} {n : Node} :
    tokenize text = .ok n ↔ (scan text).error = none ∧
      n = .spanned programTag ⟨0, text.length⟩ ((scan text).tokens.map Token.node) := by
  simp only [tokenize]
  cases (scan text).error with
  | some e => simp
  | none =>
    show Except.ok _ = Except.ok n ↔ _
    rw [Except.ok.injEq]
    exact ⟨fun h => ⟨rfl, h.symm⟩, fun h => h.2.symm⟩

/-! ### The flat node -/

section Program

variable {tokens : List Token} {tag : String} {size : Nat}

/-- Tokens in a row are nested below a node over all of them. -/
theorem nested_program (ascending : tokens.Pairwise fun t u => t.stop ≤ u.start)
    (inside : ∀ t ∈ tokens, t.stop ≤ size) :
    (Node.spanned tag ⟨0, size⟩ (tokens.map Token.node)).Nested := by
  refine .spanned _ _ _ ?_ ?_ ?_
  · intro c hc s hs
    obtain ⟨t, ht, rfl⟩ := List.mem_map.mp hc
    obtain rfl : t.span = s := Option.some.inj hs
    exact ⟨Int.natCast_nonneg _, Int.ofNat_le.mpr (inside t ht)⟩
  · rw [List.pairwise_map]
    refine ascending.imp fun {t u} htu s hs s' hs' => ?_
    obtain rfl : t.span = s := Option.some.inj hs
    obtain rfl : u.span = s' := Option.some.inj hs'
    exact Span.apart_iff.mpr (.inr (.inr (.inl (Int.ofNat_le.mpr htu))))
  · intro c hc
    obtain ⟨t, -, rfl⟩ := List.mem_map.mp hc
    exact .spanned _ _ _ (by simp) .nil (by simp)

/-- Tokens in a row are in order. -/
theorem inOrder_program (ascending : tokens.Pairwise fun t u => t.stop ≤ u.start) :
    Node.inOrder (tokens.map Token.node) = tokens.map Token.node := by
  rw [Node.inOrder_eq_sortBy]
  apply sortBy_of_ascending
  rw [List.pairwise_map]
  refine ascending.imp fun {t u} htu => ?_
  show (t.start : Int) ≤ u.start
  unfold Token.stop at htu
  omega

/-- The visit of the node of a token. -/
def Token.visit (t : Token) : Visit :=
  ⟨t.tag.name, t.span, [0]⟩

/-- A walk visits the node over all tokens and then token by token. -/
theorem visits_program (ascending : tokens.Pairwise fun t u => t.stop ≤ u.start) :
    (Node.spanned tag ⟨0, size⟩ (tokens.map Token.node)).visits =
      ⟨tag, ⟨0, size⟩, []⟩ :: tokens.map Token.visit := by
  unfold Node.visits
  rw [Node.visitsBelow_spanned, Node.flatMap_visitsBelow_inOrder, inOrder_program ascending]
  congr 1
  -- The node of a token has no children, so its walk is one visit.
  induction tokens with
  | nil => rfl
  | cons t tokens ih =>
    have leaf : t.node.visitsBelow [0] = [t.visit] := by
      unfold Token.node
      rw [Node.visitsBelow_spanned, List.filter_nil, Node.inOrder_nil]
      rfl
    rw [List.map_cons, List.flatMap_cons, leaf, ih (List.pairwise_cons.mp ascending).2]
    rfl

/-- Two levels below the root are few enough. -/
theorem rootDemand_program :
    ((Node.spanned tag ⟨0, size⟩ (tokens.map Token.node)).rootDemand Node.defaultDepth).refused =
      none := by
  -- One level for the root and one for the program leave plenty for the tokens.
  have leaf : ∀ t : Token, (t.node.demand 510).refused = none := by
    intro t
    unfold Token.node
    rw [Node.demand, Node.inOrder_nil]
    rfl
  show (Demand.andThen ⟨[Tree.rootTag], none⟩ (Node.demand 511 _)).refused = none
  rw [Node.demand, Demand.refused_andThen, Demand.refused_andThen, Demand.refused_all]
  refine ⟨rfl, ?_, rfl⟩
  intro d hd
  obtain ⟨c, hc, rfl⟩ := List.mem_map.mp hd
  obtain ⟨t, -, rfl⟩ := List.mem_map.mp (Node.mem_inOrder.mp hc)
  exact leaf t

end Program

/-! ### The styles of tokens -/

/-- The class of a token has a rule, and the style class of the rule has a spec. -/
theorem exists_style_tag (tag : TokenTag) : ∃ rule spec,
    Registry.lyql.rule? tag.name = some rule ∧ lyqlSpecs.field? rule.className = some spec := by
  cases tag <;> exact ⟨_, _, rfl, rfl⟩

/-- A highlighter for the rules and the specs of LyQL has a format for the class of a token. -/
theorem exists_style_visit {h : Highlighter}
    (hformats : h.formats = (Highlighter.ofSpecs Registry.lyql.rules lyqlSpecs).formats)
    (t : Token) : ∃ rule spec, Registry.lyql.rule? t.tag.name = some rule ∧
      lyqlSpecs.field? rule.className = some spec ∧
        t.visit.style? .lyql h = some (rule.className, Format.ofSpec spec) := by
  obtain ⟨rule, spec, hrule, hspec⟩ := exists_style_tag t.tag
  refine ⟨rule, spec, hrule, hspec, ?_⟩
  have found : (Registry.lyql.rules.find? (·.className = rule.className)).isSome := by
    rw [List.find?_isSome]
    exact ⟨rule, List.mem_of_find?_eq_some hrule, decide_eq_true rfl⟩
  obtain ⟨first, hfirst⟩ := Option.isSome_iff_exists.mp found
  show ((Registry.lyql.rule? t.tag.name).bind fun rule => h.style? rule.className) = _
  unfold Highlighter.style?
  rw [hrule, Option.bind_some, hformats, Highlighter.get?_formats_ofSpecs, hfirst, hspec]
  rfl

/-- The root and the node over all tokens have no say, and a token has one about its characters. -/
theorem filter_marks_program (tokens : List Token) (size : Int) (i : Nat) :
    (Visit.atRoot size :: ⟨programTag, ⟨0, size⟩, []⟩ :: tokens.map Token.visit).filter
        (Visit.marks .lyql i) =
      (tokens.filter fun t => t.span.covers i).map Token.visit := by
  have unregistered : ∀ v : Visit, Registry.lyql.contains v.tag = false →
      ¬ v.marks .lyql i = true := by
    intro v hv
    unfold Visit.marks
    rw [hv, Bool.and_false]
    exact Bool.false_ne_true
  -- Neither the tag of the root nor that of the program has a rule.
  rw [List.filter_cons, if_neg (unregistered _ rfl), List.filter_cons, if_neg (unregistered _ rfl),
    List.filter_map]
  congr 1
  apply List.filter_congr
  intro t _
  obtain ⟨rule, spec, hrule, -⟩ := exists_style_tag t.tag
  show (t.span.covers i && (Registry.lyql.rule? t.tag.name).isSome) = t.span.covers i
  rw [hrule, Option.isSome_some, Bool.and_true]

/-- **The styles of a unit.** After the tree of a text that scans, a unit of a block gets the styles
    of the tokens over its character. -/
theorem stylesAt_program (h : Highlighter) {text : String} {asked : List String} {depth : Int}
    {tree : Tree} {ds : Descriptors} (scanned : (scan text).error = none)
    (built : (Tree.buildRoot (.spanned programTag ⟨0, text.length⟩
      ((scan text).tokens.map Token.node)) depth).run.run
        ((Descriptors.empty .lyql).describeAll asked) = (.ok tree, ds))
    {b : Block} {i : Nat} {unit : Int} (hu : Text.WithinChar text.toList i unit)
    (hlow : b.position ≤ unit) (hhigh : unit < b.stop) :
    (h.setTree tree text).1.stylesAt b unit =
      ((scan text).tokens.filter fun t => t.span.covers i).filterMap
        fun t => t.visit.style? .lyql h := by
  obtain ⟨ascending, inside⟩ := scan_tokens scanned
  have whole : Span.Inside ⟨0, text.length⟩ ⟨0, text.length⟩ := Span.Inside.refl _
  rw [Highlighter.stylesAt_of_nested h (nested_program ascending inside) whole built hu hlow hhigh,
    visits_program ascending, filter_marks_program, List.filterMap_map]
  rfl

/-- **Painting LyQL text.** The tree of a text that scans can be built whatever tags had been asked
    for, and is taken in whatever trees had been taken in.  Then each unit of the text belongs to
    one block of the text, and to a character of a token, a space or a comment.  If a token holds
    the character, exactly one call for the block formats the unit, with the format of the class of
    the token; if it belongs to a space or a comment, no call does. -/
theorem stylesAt_tokenize (text : String) (n : Node) (asked : List String)
    (passes : List (Tree × String)) (accepted : tokenize text = .ok n) :
    ∃ tree ds,
      (Tree.buildRoot n).run.run ((Descriptors.empty .lyql).describeAll asked) = (.ok tree, ds) ∧
      ∀ h, h = ((Highlighter.ofSpecs Registry.lyql.rules lyqlSpecs).setTrees passes).setTree tree
          text →
        h.2 = none ∧ ∀ unit : Int, 0 ≤ unit → unit < Text.units text.toList →
          (∃! b, b ∈ Block.ofText text.toList ∧ b.position ≤ unit ∧ unit < b.stop) ∧
          (∃ i, Text.WithinChar text.toList i unit ∧
            (Blank text.toList i ∨ ∃ t ∈ (scan text).tokens, t.span.covers i = true)) ∧
          ∀ b ∈ Block.ofText text.toList, b.position ≤ unit → unit < b.stop →
            ∀ i, Text.WithinChar text.toList i unit →
              (∀ t ∈ (scan text).tokens, t.span.covers i = true →
                ∃ rule spec, Registry.lyql.rule? t.tag.name = some rule ∧
                  lyqlSpecs.field? rule.className = some spec ∧
                  h.1.stylesAt b unit = [(rule.className, Format.ofSpec spec)]) ∧
              (Blank text.toList i → h.1.stylesAt b unit = []) := by
  obtain ⟨scanned, rfl⟩ := tokenize_eq_ok_iff.mp accepted
  obtain ⟨ascending, inside⟩ := scan_tokens scanned
  have allowed : (Node.rootDemand Node.defaultDepth (.spanned programTag ⟨0, text.length⟩
      ((scan text).tokens.map Token.node))).refused = none := rootDemand_program
  have built := Tree.run_buildRoot allowed ((Descriptors.empty .lyql).describeAll asked)
  refine ⟨_, _, built, ?_⟩
  rintro h rfl
  refine ⟨Highlighter.setTree_of_nested _ (nested_program ascending inside) (Span.Inside.refl _)
    built, fun unit h₀ h₁ => ⟨?_, ?_, ?_⟩⟩
  · obtain ⟨b, hb, holds⟩ := Block.exists_ofText h₀ h₁
    exact ⟨b, ⟨hb, holds⟩, fun c hc => Block.eq_of_mem_ofText hb hc.1 holds hc.2⟩
  · obtain ⟨i, hu⟩ := Text.exists_withinChar h₀ h₁
    exact ⟨i, hu, blank_or_covers scanned hu.lt_length⟩
  · intro b _ hlow hhigh i hu
    rw [stylesAt_program _ scanned built hu hlow hhigh]
    constructor
    · intro t ht hi
      obtain ⟨rule, spec, hrule, hspec, hstyle⟩ :=
        exists_style_visit (Highlighter.formats_setTrees _ passes) t
      refine ⟨rule, spec, hrule, hspec, ?_⟩
      rw [filter_covers_eq_singleton ascending ht hi, List.filterMap_cons, hstyle]
      rfl
    · intro blank
      have none_covers : (scan text).tokens.filter (fun t => t.span.covers i) = [] :=
        List.filter_eq_nil_iff.mpr fun t ht => blank.not_covers ht
      rw [none_covers, List.filterMap_nil]

/-- A text with a string over two lines, in which a character takes two units. -/
def brokenString : String := "x '𝒳\n'//"

/-- The string is painted in both blocks, and the space in front of it in none. -/
theorem stylesAt_tokenize_brokenString :
    ∃ n tree ds, tokenize brokenString = .ok n ∧
      (Tree.buildRoot n).run.run ((Descriptors.empty .lyql).describeAll ["Symbol"]) =
        (.ok tree, ds) ∧
      ∀ h, h = ((Highlighter.ofSpecs Registry.lyql.rules lyqlSpecs).setTrees []).setTree tree
          brokenString →
        h.2 = none ∧
          h.1.stylesAt ⟨0, 6⟩ 1 = [] ∧
          h.1.stylesAt ⟨0, 6⟩ 4 = [("cm-string", Format.ofSpec (colorSpec "#A31515"))] ∧
          h.1.stylesAt ⟨6, 4⟩ 6 = [("cm-string", Format.ofSpec (colorSpec "#A31515"))] := by
  have chars : brokenString.toList = ['x', ' ', '\x27', '𝒳', '\n', '\x27', '/', '/'] := by cbv
  have blocks : Block.ofText brokenString.toList = [⟨0, 6⟩, ⟨6, 4⟩] := by
    rw [chars]
    rfl
  have size : (Text.units brokenString.toList : Int) = 9 := by
    rw [chars]
    rfl
  have scanned : scan brokenString =
      ⟨[⟨.identifier, ['x'], 0⟩, ⟨.string, ['\x27', '𝒳', '\n', '\x27'], 2⟩], none⟩ := by cbv
  have token : ⟨.string, ['\x27', '𝒳', '\n', '\x27'], 2⟩ ∈ (scan brokenString).tokens := by
    rw [scanned]
    exact List.mem_cons_of_mem _ List.mem_cons_self
  have blank : Blank brokenString.toList 1 := by
    rw [chars]
    obtain ⟨parts, behind⟩ := exists_decomposition
      (show (scanFrom false 2 ['\x27', '𝒳', '\n', '\x27', '/', '/']).error = none by cbv)
    have space : firstPiece ' ' ['\x27', '𝒳', '\n', '\x27', '/', '/'] =
        .ok ⟨.space, [' '], ['\x27', '𝒳', '\n', '\x27', '/', '/']⟩ := rfl
    have word : firstPiece 'x' [' ', '\x27', '𝒳', '\n', '\x27', '/', '/'] =
        .ok ⟨.word, ['x'], [' ', '\x27', '𝒳', '\n', '\x27', '/', '/']⟩ := by cbv
    have row := Decomposition.of_firstPiece word (.of_firstPiece space behind)
    exact ⟨[⟨.word, ['x']⟩], _, parts, row, .inl rfl, by decide, by decide⟩
  have accepted := tokenize_eq_ok_iff.mpr ⟨congrArg Scan.error scanned, rfl⟩
  obtain ⟨tree, ds, built, all⟩ := stylesAt_tokenize _ _ ["Symbol"] [] accepted
  refine ⟨_, tree, ds, accepted, built, ?_⟩
  rintro h rfl
  obtain ⟨taken, units⟩ := all _ rfl
  rw [blocks, size] at units
  -- What the theorem says of a unit of the string, in either block.
  have inString : ∀ b ∈ [(⟨0, 6⟩ : Block), ⟨6, 4⟩], ∀ (unit : Int) (i : Nat), 0 ≤ unit → unit < 9 →
      b.position ≤ unit → unit < b.stop → Text.WithinChar brokenString.toList i unit →
        2 ≤ i → i < 6 → (((Highlighter.ofSpecs Registry.lyql.rules lyqlSpecs).setTrees []).setTree
          tree brokenString).1.stylesAt b unit =
            [("cm-string", Format.ofSpec (colorSpec "#A31515"))] := by
    intro b hb unit i h₀ h₁ hlow hhigh hu low high
    obtain ⟨rule, spec, hrule, hspec, h⟩ := ((units unit h₀ h₁).2.2 b hb hlow hhigh i hu).1 _ token
      (Token.covers_iff.mpr ⟨low, high⟩)
    obtain rfl : (⟨"String", .string, "cm-string"⟩ : Rule) = rule := Option.some.inj hrule
    obtain rfl : colorSpec "#A31515" = spec := Option.some.inj hspec
    exact h
  rw [chars] at units blank inString
  have here : (⟨0, 6⟩ : Block) ∈ [(⟨0, 6⟩ : Block), ⟨6, 4⟩] := List.mem_cons_self
  have there : (⟨6, 4⟩ : Block) ∈ [(⟨0, 6⟩ : Block), ⟨6, 4⟩] :=
    List.mem_cons_of_mem _ List.mem_cons_self
  refine ⟨taken, ?_, ?_, ?_⟩
  · exact ((units 1 (by decide) (by decide)).2.2 ⟨0, 6⟩ here (by decide) (by decide) 1
      ⟨by decide, by decide, by decide⟩).2 blank
  · exact inString _ here 4 3 (by decide) (by decide) (by decide) (by decide)
      ⟨by decide, by decide, by decide⟩ (by decide) (by decide)
  · exact inString _ there 6 5 (by decide) (by decide) (by decide) (by decide)
      ⟨by decide, by decide, by decide⟩ (by decide) (by decide)

end LyqlHighlight.Lexical
