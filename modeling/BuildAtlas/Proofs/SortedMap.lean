import BuildAtlas.SortedMap
import Mathlib.Data.List.Perm.Basic

/-!
# BuildAtlas.Proofs.SortedMap

What look-ups see of a sorted map.

`find?_insert` and `find?_erase` say what a write does to every look-up, `mem_keys_iff` that the
keys are those at which a look-up finds something, and `ofList_toList` that a map is rebuilt from
its own entries. The last group is about maps that are filled from a list of names, one value for
each.
-/

namespace BuildAtlas.SortedMap

variable {κ α β : Type} [Ord κ]

/-! ### Entries and look-ups -/

theorem findIn?_eq_none_of_forall_ne [Std.LawfulEqOrd κ] {k : κ} {entries : List (κ × α)}
    (h : ∀ e ∈ entries, e.1 ≠ k) : findIn? k entries = none := by
  induction entries with
  | nil => rfl
  | cons entry rest ih =>
      obtain ⟨key, value⟩ := entry
      have hne : compare k key ≠ .eq := by
        rw [Ne, Std.compare_eq_iff_eq]
        exact fun e => h _ (List.mem_cons_self ..) e.symm
      rw [findIn?, if_neg hne]
      exact ih fun e he => h e (List.mem_cons_of_mem _ he)

theorem mem_of_findIn?_eq_some [Std.LawfulEqOrd κ] {k : κ} {a : α} {entries : List (κ × α)}
    (h : findIn? k entries = some a) : (k, a) ∈ entries := by
  induction entries with
  | nil => simp [findIn?] at h
  | cons entry rest ih =>
      obtain ⟨key, value⟩ := entry
      rw [findIn?] at h
      by_cases hk : compare k key = .eq
      · rw [if_pos hk] at h
        obtain rfl := Std.compare_eq_iff_eq.1 hk
        obtain rfl := Option.some.inj h
        exact List.mem_cons_self ..
      · rw [if_neg hk] at h
        exact List.mem_cons_of_mem _ (ih h)

/-- The keys before an entry are less than its key, so a look-up reaches it. -/
theorem findIn?_eq_some_of_mem [Std.TransOrd κ] [Std.LawfulEqOrd κ] {k : κ} {a : α}
    {entries : List (κ × α)} (hsorted : entries.Pairwise fun a b => compare a.1 b.1 = .lt)
    (h : (k, a) ∈ entries) : findIn? k entries = some a := by
  induction entries with
  | nil => simp at h
  | cons entry rest ih =>
      obtain ⟨hentry, hrest⟩ := List.pairwise_cons.1 hsorted
      rcases List.mem_cons.1 h with rfl | hmem
      · rw [findIn?, if_pos (Std.compare_eq_iff_eq.2 rfl)]
      · have hgt : compare k entry.1 = .gt := Std.OrientedCmp.gt_of_lt (hentry _ hmem)
        obtain ⟨key, value⟩ := entry
        rw [findIn?, if_neg (by rw [hgt]; decide)]
        exact ih hrest hmem

theorem mem_toList_iff [Std.TransOrd κ] [Std.LawfulEqOrd κ] {m : SortedMap κ α} {k : κ} {a : α} :
    (k, a) ∈ m.toList ↔ m.find? k = some a :=
  ⟨findIn?_eq_some_of_mem m.sorted, mem_of_findIn?_eq_some⟩

theorem mem_keys_iff [Std.TransOrd κ] [Std.LawfulEqOrd κ] {m : SortedMap κ α} {k : κ} :
    k ∈ m.keys ↔ (m.find? k).isSome := by
  rw [keys, List.mem_map, Option.isSome_iff_exists]
  constructor
  · rintro ⟨⟨key, a⟩, he, rfl⟩
    exact ⟨a, mem_toList_iff.1 he⟩
  · rintro ⟨a, ha⟩
    exact ⟨(k, a), mem_toList_iff.2 ha, rfl⟩

theorem pairwise_keys (m : SortedMap κ α) : m.keys.Pairwise fun a b => compare a b = .lt :=
  List.pairwise_map.2 m.sorted

theorem nodup_of_pairwise_lt [Std.LawfulEqOrd κ] {ks : List κ}
    (h : ks.Pairwise fun a b => compare a b = .lt) : ks.Nodup := by
  refine h.imp ?_
  rintro a b hlt rfl
  rw [Std.compare_eq_iff_eq.2 rfl] at hlt
  exact absurd hlt (by decide)

/-- Keys in strictly increasing order are known by their members. -/
theorem eq_of_pairwise_lt [Std.TransOrd κ] [Std.LawfulEqOrd κ] {ks ks' : List κ}
    (h : ks.Pairwise fun a b => compare a b = .lt) (h' : ks'.Pairwise fun a b => compare a b = .lt)
    (hmem : ∀ k, k ∈ ks ↔ k ∈ ks') : ks = ks' := by
  refine List.Perm.eq_of_pairwise (fun a b _ _ hab hba => ?_) h h'
    ((List.perm_ext_iff_of_nodup (nodup_of_pairwise_lt h) (nodup_of_pairwise_lt h')).2 hmem)
  rw [Std.OrientedCmp.gt_of_lt hab] at hba
  exact absurd hba (by decide)

theorem keys_eq_of_mem_iff [Std.TransOrd κ] [Std.LawfulEqOrd κ] {m : SortedMap κ α}
    {n : SortedMap κ β} (h : ∀ k, k ∈ m.keys ↔ k ∈ n.keys) : m.keys = n.keys :=
  eq_of_pairwise_lt (pairwise_keys m) (pairwise_keys n) h

/-- Maps in which all look-ups find the same are equal. -/
theorem ext_find? [Std.TransOrd κ] [Std.LawfulEqOrd κ] {m n : SortedMap κ α}
    (h : ∀ k, m.find? k = n.find? k) : m = n := by
  have hmem (e : κ × α) : e ∈ m.toList ↔ e ∈ n.toList := by
    rw [mem_toList_iff (k := e.1) (a := e.2), mem_toList_iff (k := e.1) (a := e.2), h]
  have hnodup (m : SortedMap κ α) : m.toList.Nodup := by
    refine m.sorted.imp ?_
    rintro e _ hlt rfl
    rw [Std.compare_eq_iff_eq.2 rfl] at hlt
    exact absurd hlt (by decide)
  refine ext (List.Perm.eq_of_pairwise (fun a b _ _ hab hba => ?_) m.sorted n.sorted
    ((List.perm_ext_iff_of_nodup (hnodup m) (hnodup n)).2 hmem))
  rw [Std.OrientedCmp.gt_of_lt hab] at hba
  exact absurd hba (by decide)

@[simp] theorem find?_empty (k : κ) : (∅ : SortedMap κ α).find? k = none := rfl

/-! ### Writes -/

theorem find?_insert [Std.TransOrd κ] [Std.LawfulEqOrd κ] [DecidableEq κ] (m : SortedMap κ α)
    (k k' : κ) (a : α) : (m.insert k a).find? k' = if k' = k then some a else m.find? k' := by
  by_cases h : k' = k
  · rw [if_pos h, h, find?_insert_self]
  · rw [if_neg h, find?_insert_of_ne m (by rwa [Ne, Std.compare_eq_iff_eq])]

theorem findIn?_filter_ne [Std.LawfulEqOrd κ] {k k' : κ} (h : k' ≠ k) (entries : List (κ × α)) :
    findIn? k' (entries.filter fun entry => compare k entry.1 != .eq) = findIn? k' entries := by
  induction entries with
  | nil => rfl
  | cons entry rest ih =>
      obtain ⟨key, value⟩ := entry
      by_cases hk : compare k key = .eq
      · have hne : compare k' key ≠ .eq := by
          rw [Ne, Std.compare_eq_iff_eq, ← Std.compare_eq_iff_eq.1 hk]
          exact h
        rw [List.filter_cons_of_neg (by simp [hk]), ih, findIn?, if_neg hne]
      · rw [List.filter_cons_of_pos (by simp [hk]), findIn?, findIn?, ih]

theorem find?_erase [Std.LawfulEqOrd κ] [DecidableEq κ] (m : SortedMap κ α) (k k' : κ) :
    (m.erase k).find? k' = if k' = k then none else m.find? k' := by
  by_cases h : k' = k
  · rw [if_pos h, h]
    refine findIn?_eq_none_of_forall_ne fun e he => ?_
    have hne := (List.mem_filter.1 he).2
    rintro rfl
    simp at hne
  · rw [if_neg h]
    exact findIn?_filter_ne h m.toList

theorem mem_keys_insert [Std.TransOrd κ] [Std.LawfulEqOrd κ] [DecidableEq κ] {m : SortedMap κ α}
    {k k' : κ} {a : α} : k' ∈ (m.insert k a).keys ↔ k' = k ∨ k' ∈ m.keys := by
  rw [mem_keys_iff, mem_keys_iff, find?_insert]
  by_cases h : k' = k
  · simp [h]
  · simp [h]

/-! ### Maps from lists -/

theorem mem_keys_foldl_insert [Std.TransOrd κ] [Std.LawfulEqOrd κ] [DecidableEq κ]
    {entries : List (κ × α)} {m : SortedMap κ α} {k : κ} :
    k ∈ (entries.foldl (fun m entry => m.insert entry.1 entry.2) m).keys
      ↔ k ∈ m.keys ∨ ∃ a, (k, a) ∈ entries := by
  induction entries generalizing m with
  | nil => simp
  | cons entry rest ih =>
      obtain ⟨key, value⟩ := entry
      rw [List.foldl_cons, ih, mem_keys_insert]
      simp only [List.mem_cons, Prod.mk.injEq, exists_or, exists_and_left, exists_eq, and_true]
      tauto

/-- A map has the keys of the entries that it is made of. -/
theorem mem_keys_ofList [Std.TransOrd κ] [Std.LawfulEqOrd κ] [DecidableEq κ]
    {entries : List (κ × α)} {k : κ} : k ∈ (ofList entries).keys ↔ ∃ a, (k, a) ∈ entries := by
  rw [ofList, mem_keys_foldl_insert, mem_keys_iff, find?_empty]
  simp

theorem insertInto_of_forall_lt [Std.TransOrd κ] {k : κ} {a : α} {entries : List (κ × α)}
    (h : ∀ e ∈ entries, compare e.1 k = .lt) : insertInto k a entries = entries ++ [(k, a)] := by
  induction entries with
  | nil => rfl
  | cons entry rest ih =>
      have hgt : compare k entry.1 = .gt :=
        Std.OrientedCmp.gt_of_lt (h entry (List.mem_cons_self ..))
      simp only [insertInto, hgt, List.cons_append]
      rw [ih fun e he => h e (List.mem_cons_of_mem _ he)]

/-- Entries in order, written after smaller ones, are put at the end one by one. -/
theorem toList_foldl_insert [Std.TransOrd κ] {entries : List (κ × α)} {m : SortedMap κ α}
    (hsorted : (m.toList ++ entries).Pairwise fun a b => compare a.1 b.1 = .lt) :
    (entries.foldl (fun m entry => m.insert entry.1 entry.2) m).toList = m.toList ++ entries := by
  induction entries generalizing m with
  | nil => simp
  | cons entry rest ih =>
      have hlast : ∀ e ∈ m.toList, compare e.1 entry.1 = .lt := fun e he =>
        (List.pairwise_append.1 hsorted).2.2 e he entry (List.mem_cons_self ..)
      have hinsert : (m.insert entry.1 entry.2).toList = m.toList ++ [entry] :=
        insertInto_of_forall_lt hlast
      have hrest : (m.toList ++ [entry] ++ rest).Pairwise fun a b => compare a.1 b.1 = .lt := by
        rw [List.append_assoc]
        exact hsorted
      rw [List.foldl_cons, ih (by rw [hinsert]; exact hrest), hinsert, List.append_assoc]
      rfl

/-- A map is rebuilt from its own entries. -/
theorem ofList_toList [Std.TransOrd κ] (m : SortedMap κ α) : ofList m.toList = m := by
  have h : (ofList m.toList).toList = [] ++ m.toList := toList_foldl_insert (m := ∅) m.sorted
  exact ext h

/-! ### One value for each name -/

theorem find?_foldl_insert_names [Std.TransOrd κ] [Std.LawfulEqOrd κ] [DecidableEq κ] (f : κ → α)
    (names : List κ) (m : SortedMap κ α) (k : κ) :
    ((names.map fun name => (name, f name)).foldl
        (fun m entry => m.insert entry.1 entry.2) m).find? k
      = if k ∈ names then some (f k) else m.find? k := by
  induction names generalizing m with
  | nil => simp
  | cons name rest ih =>
      -- a later write of the same name writes the same value
      rw [List.map_cons, List.foldl_cons, ih, find?_insert]
      by_cases hrest : k ∈ rest
      · rw [if_pos hrest, if_pos (List.mem_cons_of_mem _ hrest)]
      · by_cases hname : k = name
        · rw [if_neg hrest, if_pos hname, if_pos (hname ▸ List.mem_cons_self ..), hname]
        · rw [if_neg hrest, if_neg hname, if_neg (by simp [hrest, hname])]

/-- A map with one value for each name finds the value of a name, wherever the name is listed. -/
theorem find?_ofList_names [Std.TransOrd κ] [Std.LawfulEqOrd κ] [DecidableEq κ] (f : κ → α)
    (names : List κ) (k : κ) :
    (ofList (names.map fun name => (name, f name))).find? k
      = if k ∈ names then some (f k) else none := by
  rw [ofList, find?_foldl_insert_names, find?_empty]

theorem mem_keys_ofList_names [Std.TransOrd κ] [Std.LawfulEqOrd κ] [DecidableEq κ] (f : κ → α)
    (names : List κ) (k : κ) :
    k ∈ (ofList (names.map fun name => (name, f name))).keys ↔ k ∈ names := by
  rw [mem_keys_iff, find?_ofList_names]
  by_cases h : k ∈ names
  · simp [h]
  · simp [h]

end BuildAtlas.SortedMap
