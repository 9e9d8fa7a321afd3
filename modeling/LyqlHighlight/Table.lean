namespace LyqlHighlight

/-!
# Tables

Values under text keys, in the order in which the keys came in.  A new value under a known key
takes the place of the old one.

* `Table` — tables with distinct keys;
* `Table.get?`, `Table.keys` — the two views of a table;
* `Table.insert`, `Table.erase`, `Table.merge`, `Table.map` — changes, each with its effect on the
  views.
-/

/-- Values under distinct keys, in the order in which the keys came in. -/
structure Table (α : Type) where
  /-- The keys with their values. -/
  entries : List (String × α)
  /-- No key occurs twice. -/
  keys_nodup : (entries.map Prod.fst).Nodup

namespace Table

variable {α β : Type}

/-- The table without entries. -/
def empty : Table α := ⟨[], List.nodup_nil⟩

instance : Inhabited (Table α) := ⟨empty⟩

/-- The keys, in the order in which they came in. -/
def keys (t : Table α) : List String :=
  t.entries.map Prod.fst

/-- The value under a key. -/
def get? (t : Table α) (key : String) : Option α :=
  t.entries.lookup key

/-- Whether there is a value under a key. -/
def contains (t : Table α) (key : String) : Bool :=
  (t.get? key).isSome

/-- Puts a value under a key of a list of entries: in the place of the old one, or at the end. -/
def put (key : String) (a : α) : List (String × α) → List (String × α)
  | [] => [(key, a)]
  | (k, b) :: entries => if k = key then (key, a) :: entries else (k, b) :: put key a entries

theorem map_fst_put (key : String) (a : α) (entries : List (String × α)) :
    (put key a entries).map Prod.fst =
      if key ∈ entries.map Prod.fst then entries.map Prod.fst
      else entries.map Prod.fst ++ [key] := by
  induction entries with
  | nil => rfl
  | cons e entries ih =>
    by_cases h : e.1 = key
    · simp [put, h]
    · have h' : key ≠ e.1 := fun hk => h hk.symm
      simp only [put, h, if_false, List.map_cons, ih, List.mem_cons, h', false_or]
      split <;> rfl

theorem lookup_put (key k : String) (a : α) (entries : List (String × α)) :
    (put key a entries).lookup k = if k = key then some a else entries.lookup k := by
  induction entries with
  | nil => by_cases h : k = key <;> grind [put]
  | cons e entries ih =>
    by_cases he : e.1 = key <;> by_cases hk : k = e.1 <;> grind [put]

theorem put_of_notMem {key : String} {entries : List (String × α)}
    (new : key ∉ entries.map Prod.fst) (a : α) : put key a entries = entries ++ [(key, a)] := by
  induction entries with
  | nil => rfl
  | cons e entries ih =>
    obtain ⟨other, new⟩ := not_or.mp (mt List.mem_cons.mpr new)
    rw [put, if_neg (Ne.symm other), ih new, List.cons_append]

/-- The table with a value under a key. -/
def insert (t : Table α) (key : String) (a : α) : Table α where
  entries := put key a t.entries
  keys_nodup := by
    rw [map_fst_put]
    split
    · exact t.keys_nodup
    · next h => exact List.nodup_append.mpr ⟨t.keys_nodup, by simp, by grind⟩

/-- The table without a key. -/
def erase (t : Table α) (key : String) : Table α where
  entries := t.entries.filter (·.1 ≠ key)
  keys_nodup := t.keys_nodup.sublist (List.filter_sublist.map _)

/-- The table with all entries of another one put in. -/
def merge (t u : Table α) : Table α :=
  u.entries.foldl (fun t e => t.insert e.1 e.2) t

/-- The table with the given entries; of two under one key the later one counts. -/
def ofList (entries : List (String × α)) : Table α :=
  entries.foldl (fun t e => t.insert e.1 e.2) empty

/-- Changes each value. -/
def map (f : α → β) (t : Table α) : Table β where
  entries := t.entries.map fun e => (e.1, f e.2)
  keys_nodup := by simpa [Function.comp_def] using t.keys_nodup

@[simp] theorem keys_empty : (empty : Table α).keys = [] := rfl

@[simp] theorem get?_empty (key : String) : (empty : Table α).get? key = none := rfl

theorem keys_insert (t : Table α) (key : String) (a : α) :
    (t.insert key a).keys = if key ∈ t.keys then t.keys else t.keys ++ [key] :=
  map_fst_put key a t.entries

/-- A value under a new key comes behind the others. -/
theorem entries_insert_of_notMem {t : Table α} {key : String} (new : key ∉ t.keys) (a : α) :
    (t.insert key a).entries = t.entries ++ [(key, a)] :=
  put_of_notMem new a

@[simp] theorem get?_insert (t : Table α) (key k : String) (a : α) :
    (t.insert key a).get? k = if k = key then some a else t.get? k :=
  lookup_put key k a t.entries

@[simp] theorem get?_erase (t : Table α) (key k : String) :
    (t.erase key).get? k = if k = key then none else t.get? k := by
  simp only [get?, erase]
  induction t.entries with
  | nil => simp
  | cons e entries ih =>
    by_cases he : e.1 = key <;> by_cases hk : k = e.1 <;> grind

@[simp] theorem get?_map (f : α → β) (t : Table α) (key : String) :
    (t.map f).get? key = (t.get? key).map f := by
  simp only [get?, map]
  induction t.entries with
  | nil => rfl
  | cons e entries ih => by_cases h : key = e.1 <;> grind

/-- A key has a value exactly if it is one of the keys. -/
theorem contains_iff_mem_keys (t : Table α) (key : String) : t.contains key ↔ key ∈ t.keys := by
  simp only [contains, get?, keys]
  induction t.entries with
  | nil => simp
  | cons e entries ih => by_cases h : key = e.1 <;> grind

end Table

end LyqlHighlight
