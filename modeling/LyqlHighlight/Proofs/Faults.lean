import LyqlHighlight.Proofs.Reading

namespace LyqlHighlight

/-!
# Faults of values

Reading a value as a node meets its faults in order and reports the first one: the tag of a mapping,
then its depth, the members of its children, and its span.  Malformed values and such as are nested
too deeply are what a reader has to expect.  Three slips are reported as something else: children
that have no members, children that are a span without a size, and an infinite bound of a span.

* `ReadError.expected` — the errors to expect;
* `Value.items_eq_error_iff`, `Span.ofValue_unexpected_iff` — where the members of a value and its
  span are refused otherwise;
* `Node.Slip`, `Node.Reads` — the slips of a mapping, and the mappings that reading may come to;
* `Node.faults`, `Node.error?_read` — the faults of a value in order, and that reading reports the
  first one;
* `Node.mem_faults_iff` — the faults that are not to be expected are the slips;
* `Node.ofValue_expected` — the main result.
-/

/-- Whether an error is one to expect: the value is malformed, or nested too deeply. -/
def ReadError.expected : ReadError → Bool
  | notMapping _ => true
  | noTag _ => true
  | tooDeep _ => true
  | noItems _ => false
  | size _ => false
  | spanNotMapping _ => true
  | spanUnusable _ => true
  | spanInfinite => false
  | spanReversed _ _ => true

/-! ### Slips -/

namespace Value

/-- Whether a value of this kind has members, none at the least. -/
def hasItems : Value → Bool
  | str _ => true
  | bytes _ => true
  | list _ => true
  | tuple _ => true
  | mapping _ => true
  | _ => false

/-- Only spans cannot be judged. -/
theorem isTrue_eq_error_iff {v : Value} {e : SizeError} :
    v.isTrue = .error e ↔ ∃ s, v = .span s ∧ s.size = .error e := by
  cases v with
  | span s =>
    rw [isTrue]
    cases h : s.size with
    | ok n =>
      show Except.ok (n != 0) = _ ↔ _
      simp [h]
    | error r =>
      show Except.error r = _ ↔ _
      simp [h]
  | _ => simp [isTrue]

/-- A value that counts as true has members if it is of a kind with members. -/
theorem items_eq_error_iff_of_isTrue {v : Value} {e : ReadError} (h : v.isTrue = .ok true) :
    v.items = .error e ↔ v.hasItems = false ∧ e = .noItems v := by
  unfold items
  rw [h]
  have members : ∀ items, (Except.ok items : Except ReadError (List Value)) = .error e ↔
      true = false ∧ e = .noItems v := by simp
  have refused : Except.error (.noItems v) = (Except.error e : Except ReadError (List Value)) ↔
      false = false ∧ e = .noItems v := by simp [eq_comm]
  cases v with
  | str s => exact members _
  | bytes bs => exact members _
  | list items => exact members items
  | tuple items => exact members items
  | mapping fields => exact members _
  | _ => exact refused

/-- Getting at the members of a value fails if it is a span without a size, or if it counts as true
    and is of a kind without members. -/
theorem items_eq_error_iff {v : Value} {e : ReadError} :
    v.items = .error e ↔
      (∃ s r, v = .span s ∧ s.size = .error r ∧ e = .size r) ∨
      (v.isTrue = .ok true ∧ v.hasItems = false ∧ e = .noItems v) := by
  cases hv : v.isTrue with
  | error r =>
    obtain ⟨s, rfl, hs⟩ := isTrue_eq_error_iff.mp hv
    have unsized : (span s).items = .error (.size r) := by
      unfold items
      rw [hv]
      rfl
    rw [unsized]
    constructor
    · intro h
      exact .inl ⟨s, r, rfl, hs, (Except.error.inj h).symm⟩
    · rintro (⟨t, r', ht, hr', rfl⟩ | ⟨htrue, -⟩)
      · cases ht
        rw [hs] at hr'
        rw [Except.error.inj hr']
      · cases htrue
  | ok full =>
    have sized : ¬∃ s r, v = .span s ∧ s.size = .error r ∧ e = .size r := by
      rintro ⟨s, r, hs, hr, -⟩
      rw [isTrue_eq_error_iff.mpr ⟨s, hs, hr⟩] at hv
      cases hv
    rw [or_iff_right sized]
    cases full with
    | false =>
      have empty : v.items = .ok [] := by
        unfold items
        rw [hv]
        rfl
      simp [empty]
    | true => simp [items_eq_error_iff_of_isTrue hv]

/-- Only infinite numbers stand for no integer although they are numbers. -/
theorem integer_eq_infinite_iff {v : Value} :
    v.integer = .error .infinite ↔ ∃ negative, v = .float (.infinite negative) := by
  cases v with
  | float x => cases x <;> simp [integer, Binary64.truncate?]
  | str s => cases h : Text.integer? s.toList <;> simp [integer, h]
  | bytes bs => cases h : Text.integerOfBytes? bs <;> simp [integer, h]
  | _ => simp [integer]

end Value

namespace Span

/-- The first bound of a written span that stands for no integer is infinite. -/
inductive Infinite (bounds : List (String × Value)) : Prop where
  | start {negative : Bool} (h : bounds.lookup "start" = some (.float (.infinite negative))) :
      Infinite bounds
  | stop {negative : Bool} {n : Int} (start : boundOfValue (.mapping bounds) "start" = .ok n)
      (h : bounds.lookup "end" = some (.float (.infinite negative))) : Infinite bounds

variable {e : ReadError}

/-- Reading a bound fails because it is infinite, or because it is unusable. -/
theorem boundOfValue_eq_error_iff {bounds : List (String × Value)} {key : String} :
    boundOfValue (.mapping bounds) key = .error e ↔
      (e = .spanInfinite ∧ ∃ negative, bounds.lookup key = some (.float (.infinite negative))) ∨
      (e = .spanUnusable (.mapping bounds) ∧
        ∀ v, bounds.lookup key = some v → v.integer = .error .unusable) := by
  rw [boundOfValue, Value.field?]
  cases bounds.lookup key with
  | none => simp [eq_comm]
  | some v =>
    simp only [Option.some.injEq, ← Value.integer_eq_infinite_iff]
    cases hv : v.integer with
    | ok n => simp [hv]
    | error i => cases i <;> simp [hv, eq_comm]

/-- **Spans.** Of the errors in reading a span only infinity is not to be expected. -/
theorem ofValue_unexpected_iff {raw : Value} :
    ofValue raw = .error e ∧ e.expected = false ↔
      e = .spanInfinite ∧ ∃ bounds, raw = .mapping bounds ∧ Infinite bounds := by
  constructor
  · rintro ⟨h, unexpected⟩
    cases raw with
    | mapping bounds =>
      rw [ofValue] at h
      simp only [bind_eq_error_iff, boundOfValue_eq_error_iff] at h
      obtain (⟨rfl, negative, hstart⟩ | ⟨rfl, -⟩) |
        ⟨start, hstart, (⟨rfl, negative, hstop⟩ | ⟨rfl, -⟩) | ⟨stop, -, h⟩⟩ := h
      · exact ⟨rfl, bounds, rfl, .start hstart⟩
      · cases unexpected
      · exact ⟨rfl, bounds, rfl, .stop hstart hstop⟩
      · cases unexpected
      · split at h <;> cases h
        cases unexpected
    | span s => cases h
    | _ =>
      cases h
      cases unexpected
  · rintro ⟨rfl, bounds, rfl, infinite⟩
    refine ⟨?_, rfl⟩
    rw [ofValue, bind_eq_error_iff]
    cases infinite with
    | start h => exact .inl (boundOfValue_eq_error_iff.mpr (.inl ⟨rfl, _, h⟩))
    | stop start h =>
      have hstop := boundOfValue_eq_error_iff.mpr (.inl ⟨rfl, _, h⟩)
      exact .inr ⟨_, start, bind_eq_error_iff.mpr (.inl hstop)⟩

end Span

namespace Node

variable {fields : List (String × Value)} {e : ReadError}

/-- What reading the fields of a mapping reports although it is not to be expected. -/
inductive Slip (fields : List (String × Value)) : ReadError → Prop where
  /-- The children count as true and are of a kind without members. -/
  | noItems {v : Value} (children : fields.lookup "children" = some v) (full : v.isTrue = .ok true)
      (single : v.hasItems = false) : Slip fields (.noItems v)
  /-- The children are a span without a size. -/
  | size {s : Span} {e : SizeError} (children : fields.lookup "children" = some (.span s))
      (h : s.size = .error e) : Slip fields (.size e)
  /-- The span has an infinite bound. -/
  | infinite {bounds : List (String × Value)} (span : fields.lookup "span" = some (.mapping bounds))
      (h : Span.Infinite bounds) : Slip fields .spanInfinite

/-- The tag is missing, if reading it fails. -/
theorem expected_of_tagOfFields (h : tagOfFields fields = .error e) : e.expected = true := by
  unfold tagOfFields at h
  split at h <;> cases h
  rfl

/-- The fields of a mapping make no node if its span cannot be read. -/
theorem ofFields_eq_error_iff {tag : String} {children : List Node} :
    ofFields fields tag children = .error e ↔
      ∃ raw, fields.lookup "span" = some raw ∧ raw ≠ .none ∧ Span.ofValue raw = .error e := by
  unfold ofFields
  cases fields.lookup "span" with
  | none => simp
  | some raw =>
    simp only [Option.getD_some, Option.some.injEq, exists_eq_left']
    split
    · simp
    · next hraw =>
      rw [and_iff_right hraw]
      cases Span.ofValue raw with
      | ok span =>
        show Except.ok (spanned tag span children) = _ ↔ _
        simp
      | error r =>
        show Except.error r = _ ↔ _
        simp

/-- Whether the fields of a mapping make a node does not depend on its children. -/
theorem error?_ofFields (fields : List (String × Value)) (tag : String) (children : List Node) :
    error? (ofFields fields tag children) = error? (ofFields fields tag []) := by
  apply Option.ext
  intro e
  simp only [error?_eq_some_iff, ofFields_eq_error_iff]

/-- The slips of a mapping are those in its children and its span. -/
theorem slip_iff {tag : String} :
    Slip fields e ↔ e.expected = false ∧
      (((fields.lookup "children").getD .none).items = .error e ∨
        ofFields fields tag [] = .error e) := by
  constructor
  · intro h
    cases h with
    | noItems children full single =>
      rw [children]
      exact ⟨rfl, .inl (Value.items_eq_error_iff.mpr (.inr ⟨full, single, rfl⟩))⟩
    | size children h =>
      rw [children]
      exact ⟨rfl, .inl (Value.items_eq_error_iff.mpr (.inl ⟨_, _, rfl, h, rfl⟩))⟩
    | infinite span h =>
      have hspan := Span.ofValue_unexpected_iff.mpr ⟨rfl, _, rfl, h⟩
      exact ⟨rfl, .inr (ofFields_eq_error_iff.mpr ⟨_, span, by simp, hspan.1⟩)⟩
  · rintro ⟨unexpected, h | h⟩
    · cases children : fields.lookup "children" with
      | none =>
        rw [children] at h
        cases h
      | some v =>
        rw [children] at h
        obtain ⟨s, r, rfl, hr, rfl⟩ | ⟨full, single, rfl⟩ := Value.items_eq_error_iff.mp h
        · exact .size children hr
        · exact .noItems children full single
    · obtain ⟨raw, span, -, hraw⟩ := ofFields_eq_error_iff.mp h
      obtain ⟨rfl, bounds, rfl, infinite⟩ := Span.ofValue_unexpected_iff.mp ⟨hraw, unexpected⟩
      exact .infinite span infinite

/-! ### Faults in order -/

/-- The faults of a value in the order in which reading meets them, as far as it would come if none
    of them ended it. -/
def faults : Nat → Value → List ReadError
  | _, .node _ => []
  | depth, .mapping fields =>
    match tagOfFields fields with
    | .error e => [e]
    | .ok tag =>
      match depth with
      | 0 => [.tooDeep tag]
      | depth + 1 =>
        (match ((fields.lookup "children").getD .none).items with
          | .error e => [e]
          | .ok items => items.flatMap (faults depth)) ++
        (error? (ofFields fields tag [])).toList
  | _, v => [.notMapping v]

/-- **The first fault.** Reading a value fails with the first one of its faults. -/
theorem error?_read (depth : Nat) (v : Value) : error? (read depth v) = (faults depth v).head? := by
  induction depth generalizing v with
  | zero =>
    cases v with
    | mapping fields =>
      rw [read, faults]
      cases tagOfFields fields <;> rfl
    | _ => rfl
  | succ depth ih =>
    cases v with
    | mapping fields =>
      rw [read_succ_mapping, faults]
      cases tagOfFields fields with
      | error e => rfl
      | ok tag =>
        cases ((fields.lookup "children").getD .none).items with
        | error e => rfl
        | ok items =>
          show error? (items.mapM (read depth) >>= ofFields fields tag) =
            (items.flatMap (faults depth) ++ (error? (ofFields fields tag [])).toList).head?
          have members :
              (items.flatMap (faults depth)).head? = error? (items.mapM (read depth)) := by
            rw [List.head?_flatMap, error?_mapM]
            simp only [ih]
          rw [List.head?_append, members]
          -- The span is looked at last, and what the members are read as does not matter for it.
          cases items.mapM (read depth) with
          | error e => rfl
          | ok children =>
            show error? (ofFields fields tag children) = _
            rw [← error?_ofFields fields tag children]
            cases ofFields fields tag children <;> rfl
    | _ => rfl

/-- The mappings that reading a value may come to, each with a tag and a level of its own. -/
inductive Reads : Nat → Value → List (String × Value) → Prop where
  | here {depth : Nat} {fields : List (String × Value)} {tag : String}
      (htag : tagOfFields fields = .ok tag) : Reads (depth + 1) (.mapping fields) fields
  | member {depth : Nat} {fields inner : List (String × Value)} {tag : String} {items : List Value}
      {v : Value} (htag : tagOfFields fields = .ok tag)
      (hitems : ((fields.lookup "children").getD .none).items = .ok items) (hv : v ∈ items)
      (reads : Reads depth v inner) : Reads (depth + 1) (.mapping fields) inner

/-- The faults of a mapping with a tag and a level of its own: what its children or its span report,
    and the faults of its members. -/
theorem mem_faults_mapping_iff {depth : Nat} {tag : String} (htag : tagOfFields fields = .ok tag) :
    e ∈ faults (depth + 1) (.mapping fields) ↔
      (((fields.lookup "children").getD .none).items = .error e ∨
        ofFields fields tag [] = .error e) ∨
      ∃ items, ((fields.lookup "children").getD .none).items = .ok items ∧
        ∃ v ∈ items, e ∈ faults depth v := by
  rw [faults, htag]
  simp only [List.mem_append, Option.mem_toList, error?_eq_some_iff]
  cases ((fields.lookup "children").getD .none).items with
  | error e' => simp [eq_comm]
  | ok items => simp [or_comm]

/-- Each fault that is not to be expected is one of a mapping with a tag and a level of its own. -/
theorem exists_mapping_of_mem_faults {depth : Nat} {v : Value} (he : e ∈ faults depth v)
    (unexpected : e.expected = false) :
    ∃ fields tag below, v = .mapping fields ∧ depth = below + 1 ∧
      tagOfFields fields = .ok tag := by
  have other : ∀ e', e'.expected = true → e ∉ [e'] := by
    intro e' expected he
    rw [List.mem_singleton.mp he, expected] at unexpected
    cases unexpected
  fun_induction faults depth v with
  | case1 depth n => cases he
  | case2 depth fields e' htag => exact absurd he (other e' (expected_of_tagOfFields htag))
  | case3 fields tag htag => exact absurd he (other _ rfl)
  | case4 fields tag htag below => exact ⟨fields, tag, below, rfl, rfl, htag⟩
  | case5 => exact absurd he (other _ rfl)

/-- **Slips.** Of the faults of a value those are not to be expected that are slips of the mappings
    that reading may come to. -/
theorem mem_faults_iff {depth : Nat} {v : Value} :
    e ∈ faults depth v ∧ e.expected = false ↔ ∃ fields, Reads depth v fields ∧ Slip fields e := by
  constructor
  · rintro ⟨he, unexpected⟩
    induction depth generalizing v with
    | zero =>
      obtain ⟨-, -, below, -, hdepth, -⟩ := exists_mapping_of_mem_faults he unexpected
      cases hdepth
    | succ depth ih =>
      obtain ⟨fields, tag, below, rfl, -, htag⟩ := exists_mapping_of_mem_faults he unexpected
      obtain own | ⟨items, hitems, v, hv, he⟩ := (mem_faults_mapping_iff htag).mp he
      · exact ⟨fields, .here htag, slip_iff.mpr ⟨unexpected, own⟩⟩
      · obtain ⟨inner, reads, slip⟩ := ih he
        exact ⟨inner, .member htag hitems hv reads, slip⟩
  · rintro ⟨inner, reads, slip⟩
    induction reads with
    | here htag =>
      obtain ⟨unexpected, own⟩ := slip_iff.mp slip
      exact ⟨(mem_faults_mapping_iff htag).mpr (.inl own), unexpected⟩
    | member htag hitems hv reads ih =>
      obtain ⟨he, unexpected⟩ := ih slip
      exact ⟨(mem_faults_mapping_iff htag).mpr (.inr ⟨_, hitems, _, hv, he⟩), unexpected⟩

/-- **Errors to expect.** For every value and every allowance of levels: if none of the mappings
    that reading may come to has a slip, the value is read as a node or refused with an error to
    expect.  In any case the first fault is the one that is reported, and the faults that are not to
    be expected are the slips. -/
theorem ofValue_expected (v : Value) (depth : Int) :
    ((∀ fields e, Reads depth.toNat v fields → ¬Slip fields e) →
      (∃ n, ofValue v depth = .ok n) ∨ ∃ e, ofValue v depth = .error e ∧ e.expected = true) ∧
    (∀ e, ofValue v depth = .error e ↔ (faults depth.toNat v).head? = some e) ∧
    (∀ e, e ∈ faults depth.toNat v ∧ e.expected = false ↔
      ∃ fields, Reads depth.toNat v fields ∧ Slip fields e) := by
  have first : ∀ e, ofValue v depth = .error e ↔ (faults depth.toNat v).head? = some e := by
    intro e
    rw [← error?_read, error?_eq_some_iff]
    rfl
  refine ⟨fun careful => ?_, first, fun e => mem_faults_iff⟩
  cases h : ofValue v depth with
  | ok n => exact .inl ⟨n, rfl⟩
  | error e =>
    refine .inr ⟨e, rfl, ?_⟩
    by_contra unexpected
    have he := List.mem_of_mem_head? ((first e).mp h)
    obtain ⟨fields, reads, slip⟩ := mem_faults_iff.mp ⟨he, Bool.eq_false_of_not_eq_true unexpected⟩
    exact careful fields e reads slip

/-- A mapping with a member that has no tag and a span that is reversed. -/
def faultyMapping : Value :=
  .mapping [("name", .str "And"), ("span", .mapping [("start", .int 5), ("end", .str "3")]),
    ("children", .tuple [.node (.detached "Word" []), .mapping []])]

/-- The member is reported, since it is met before the span, and both faults are to be expected. -/
theorem ofValue_expected_faultyMapping :
    (∀ fields e, Reads 512 faultyMapping fields → ¬Slip fields e) ∧
    ((∃ n, ofValue faultyMapping 512 = .ok n) ∨
      ∃ e, ofValue faultyMapping 512 = .error e ∧ e.expected = true) ∧
    ofValue faultyMapping 512 = .error (.noTag (.mapping [])) := by
  have met : faults (Int.toNat 512) faultyMapping = [.noTag (.mapping []), .spanReversed 5 3] := rfl
  obtain ⟨expected, first, slips⟩ := ofValue_expected faultyMapping 512
  have careful : ∀ fields e, Reads 512 faultyMapping fields → ¬Slip fields e := by
    intro fields e reads slip
    obtain ⟨he, unexpected⟩ := (slips e).mpr ⟨fields, reads, slip⟩
    rw [met] at he
    rcases List.mem_pair.mp he with rfl | rfl <;> cases unexpected
  refine ⟨careful, expected careful, (first _).mpr ?_⟩
  rw [met]
  rfl

/-- A mapping with a span that starts at infinity. -/
def boundlessMapping : Value :=
  .mapping [("tag", .str "A"),
    ("span", .mapping [("start", .float (.infinite false)), ("end", .int 1)])]

/-- Not every value is read as a node or refused with an error to expect: an infinite bound of a
    span is reported as a number that cannot be converted. -/
theorem not_expected_of_boundless :
    ¬∀ (v : Value) (depth : Int),
      (∃ n, ofValue v depth = .ok n) ∨ ∃ e, ofValue v depth = .error e ∧ e.expected = true := by
  intro h
  have slip : ofValue boundlessMapping 512 = .error .spanInfinite := rfl
  rcases h boundlessMapping 512 with ⟨n, hn⟩ | ⟨e, he, expected⟩
  · rw [slip] at hn
    cases hn
  · rw [slip] at he
    cases he
    cases expected

end Node

end LyqlHighlight
