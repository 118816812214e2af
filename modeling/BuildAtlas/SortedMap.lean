/-!
# BuildAtlas.SortedMap

Finite maps that list their entries by increasing key.

A map is the list of its entries, and the order of the keys is part of the type, so a key has at
most one value. `find?_insert_self` and `find?_insert_of_ne` say what a write does to look-ups.
-/

namespace BuildAtlas

/-- Entries with strictly increasing keys. -/
structure SortedMap (κ α : Type) [Ord κ] where
  /-- The entries, least key first. -/
  toList : List (κ × α)
  sorted : toList.Pairwise fun a b => compare a.1 b.1 = .lt

namespace SortedMap

variable {κ α β : Type} [Ord κ]

/-- The map without entries. -/
def empty : SortedMap κ α where
  toList := []
  sorted := .nil

instance : EmptyCollection (SortedMap κ α) := ⟨empty⟩

instance : Inhabited (SortedMap κ α) := ⟨empty⟩

@[ext] theorem ext {m n : SortedMap κ α} (h : m.toList = n.toList) : m = n := by
  cases m; cases n; simp_all

instance [DecidableEq κ] [DecidableEq α] : DecidableEq (SortedMap κ α) := fun m n =>
  if h : m.toList = n.toList then isTrue (ext h) else isFalse fun e => h (e ▸ rfl)

/-! ### Looking up -/

/-- The value of the entry with key `k` in a list of entries. -/
def findIn? (k : κ) : List (κ × α) → Option α
  | [] => none
  | (key, value) :: rest => if compare k key = .eq then some value else findIn? k rest

/-- The value stored at `k`. -/
def find? (m : SortedMap κ α) (k : κ) : Option α :=
  findIn? k m.toList

/-- The keys, least first. -/
def keys (m : SortedMap κ α) : List κ :=
  m.toList.map (·.1)

/-- The values, in the order of their keys. -/
def values (m : SortedMap κ α) : List α :=
  m.toList.map (·.2)

/-! ### Writing -/

/-- Puts an entry at its place, instead of one with the same key. -/
def insertInto (k : κ) (value : α) : List (κ × α) → List (κ × α)
  | [] => [(k, value)]
  | entry :: rest =>
    match compare k entry.1 with
    | .lt => (k, value) :: entry :: rest
    | .eq => (k, value) :: rest
    | .gt => entry :: insertInto k value rest

theorem mem_insertInto {k : κ} {value : α} {e : κ × α} {entries : List (κ × α)}
    (h : e ∈ insertInto k value entries) : e = (k, value) ∨ e ∈ entries := by
  induction entries with
  | nil => exact .inl (by simpa [insertInto] using h)
  | cons entry rest ih =>
    simp only [insertInto] at h
    split at h <;> simp only [List.mem_cons] at h ⊢
    · exact h
    · rcases h with h | h
      · exact .inl h
      · exact .inr (.inr h)
    · rcases h with h | h
      · exact .inr (.inl h)
      · rcases ih h with h | h
        · exact .inl h
        · exact .inr (.inr h)

theorem sorted_insertInto [Std.TransOrd κ] (k : κ) (value : α) {entries : List (κ × α)}
    (h : entries.Pairwise fun a b => compare a.1 b.1 = .lt) :
    (insertInto k value entries).Pairwise fun a b => compare a.1 b.1 = .lt := by
  induction entries with
  | nil => simp [insertInto]
  | cons entry rest ih =>
    obtain ⟨hentry, hrest⟩ := List.pairwise_cons.1 h
    simp only [insertInto]
    split <;> rename_i hk
    · refine .cons (fun e he => ?_) h
      rcases List.mem_cons.1 he with rfl | he
      · exact hk
      · exact Std.TransCmp.lt_trans hk (hentry e he)
    · exact .cons (fun e he => Std.TransCmp.lt_of_eq_of_lt hk (hentry e he)) hrest
    · refine .cons (fun e he => ?_) (ih hrest)
      rcases mem_insertInto he with rfl | he
      · exact Std.OrientedCmp.lt_of_gt hk
      · exact hentry e he

/-- The map with `value` at `k`. -/
def insert [Std.TransOrd κ] (m : SortedMap κ α) (k : κ) (value : α) : SortedMap κ α where
  toList := insertInto k value m.toList
  sorted := sorted_insertInto k value m.sorted

/-- The map without an entry at `k`. -/
def erase (m : SortedMap κ α) (k : κ) : SortedMap κ α where
  toList := m.toList.filter fun entry => compare k entry.1 != .eq
  sorted := m.sorted.filter _

/-- The map of the listed entries; of entries with one key the last counts. -/
def ofList [Std.TransOrd κ] (entries : List (κ × α)) : SortedMap κ α :=
  entries.foldl (fun m entry => m.insert entry.1 entry.2) ∅

/-- The same keys, with each value computed from the old one. -/
def mapValues (f : α → β) (m : SortedMap κ α) : SortedMap κ β where
  toList := m.toList.map fun entry => (entry.1, f entry.2)
  sorted := List.pairwise_map.2 m.sorted

/-! ### Laws -/

theorem findIn?_insertInto_self [Std.TransOrd κ] (k : κ) (value : α) (entries : List (κ × α)) :
    findIn? k (insertInto k value entries) = some value := by
  induction entries with
  | nil => simp [insertInto, findIn?]
  | cons entry rest ih =>
    simp only [insertInto]
    split <;> rename_i hk
    · simp [findIn?]
    · simp [findIn?]
    · obtain ⟨key, old⟩ := entry
      simp only at hk
      simp [findIn?, hk, ih]

@[simp] theorem find?_insert_self [Std.TransOrd κ] (m : SortedMap κ α) (k : κ) (value : α) :
    (m.insert k value).find? k = some value :=
  findIn?_insertInto_self k value m.toList

theorem findIn?_insertInto_of_ne [Std.TransOrd κ] {k k' : κ} (h : compare k' k ≠ .eq)
    (value : α) (entries : List (κ × α)) :
    findIn? k' (insertInto k value entries) = findIn? k' entries := by
  induction entries with
  | nil => simp [insertInto, findIn?, h]
  | cons entry rest ih =>
    obtain ⟨key, old⟩ := entry
    simp only [insertInto]
    split <;> rename_i hk
    · simp [findIn?, h]
    · have hne : compare k' key ≠ .eq := fun e =>
        h (Std.TransCmp.eq_trans e (Std.OrientedCmp.eq_symm hk))
      simp [findIn?, h, hne]
    · simp only [findIn?, ih]

theorem find?_insert_of_ne [Std.TransOrd κ] (m : SortedMap κ α) {k k' : κ}
    (h : compare k' k ≠ .eq) (value : α) : (m.insert k value).find? k' = m.find? k' :=
  findIn?_insertInto_of_ne h value m.toList

@[simp] theorem keys_mapValues (f : α → β) (m : SortedMap κ α) : (m.mapValues f).keys = m.keys := by
  simp [keys, mapValues]

theorem findIn?_map (f : α → β) (k : κ) (entries : List (κ × α)) :
    findIn? k (entries.map fun entry => (entry.1, f entry.2)) = (findIn? k entries).map f := by
  induction entries with
  | nil => rfl
  | cons entry rest ih =>
    simp only [List.map_cons, findIn?, ih]
    split <;> rfl

@[simp] theorem find?_mapValues (f : α → β) (m : SortedMap κ α) (k : κ) :
    (m.mapValues f).find? k = (m.find? k).map f :=
  findIn?_map f k m.toList

end SortedMap

end BuildAtlas
