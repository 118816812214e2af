/-!
# BuildAtlas.Proofs.FirstOccurrences

What is left of a list when repeats are dropped.

`FirstOccurrences` says that a list has the elements of another one, each once, in the order in
which they first occur there. Dropping repeats leaves such a list (`firstOccurrences_eraseDups`).
-/

namespace BuildAtlas

/-- The elements of a list, each once, in the order in which they first occur. -/
structure FirstOccurrences {α : Type} [BEq α] (as merged : List α) : Prop where
  mem_iff : ∀ a, a ∈ merged ↔ a ∈ as
  nodup : merged.Nodup
  ordered : merged.Pairwise fun a b => as.idxOf a < as.idxOf b

theorem idxOf_lt_of_filter {α : Type} [BEq α] [LawfulBEq α] {p : α → Bool} {a b : α}
    (ha : p a = true) (hb : p b = true) {as : List α}
    (h : (as.filter p).idxOf a < (as.filter p).idxOf b) : as.idxOf a < as.idxOf b := by
  induction as with
  | nil => exact h
  | cons x rest ih =>
      by_cases hx : p x = true
      · rw [List.filter_cons_of_pos hx] at h
        simp only [List.idxOf_cons] at h ⊢
        grind
      · have hxa : (x == a) = false := by
          simpa using fun e : x = a => hx (e ▸ ha)
        have hxb : (x == b) = false := by
          simpa using fun e : x = b => hx (e ▸ hb)
        rw [List.filter_cons_of_neg hx] at h
        rw [List.idxOf_cons, List.idxOf_cons, hxa, hxb]
        exact Nat.succ_lt_succ (ih h)

/-- Dropping repeats keeps first occurrences. The induction is on the length, as the rest is
filtered first. -/
theorem pairwise_idxOf_eraseDups {α : Type} [BEq α] [LawfulBEq α] (as : List α) :
    as.eraseDups.Pairwise fun a b => as.idxOf a < as.idxOf b := by
  induction hlength : as.length using Nat.strongRecOn generalizing as with
  | ind n ih =>
      cases as with
      | nil => exact .nil
      | cons a rest =>
          have hshorter : (rest.filter fun b => !b == a).length < n :=
            hlength ▸ Nat.lt_succ_of_le (List.length_filter_le _ rest)
          have hne {b : α} (hb : b ∈ (rest.filter fun b => !b == a).eraseDups) :
              (!b == a) = true :=
            (List.mem_filter.1 (List.mem_eraseDups.1 hb)).2
          have hsucc {b : α} (hb : (!b == a) = true) :
              (a :: rest).idxOf b = rest.idxOf b + 1 := by
            have hab : (a == b) = false := by
              rw [BEq.comm]
              simpa using hb
            rw [List.idxOf_cons, hab]
            rfl
          rw [List.eraseDups_cons]
          refine .cons (fun b hb => ?_) ((ih _ hshorter _ rfl).imp_of_mem fun hb hc hlt => ?_)
          · rw [List.idxOf_cons_self, hsucc (hne hb)]
            exact Nat.succ_pos _
          · rw [hsucc (hne hb), hsucc (hne hc)]
            exact Nat.succ_lt_succ (idxOf_lt_of_filter (p := (!· == a)) (hne hb) (hne hc) hlt)

theorem nodup_eraseDups {α : Type} [BEq α] [LawfulBEq α] (as : List α) : as.eraseDups.Nodup := by
  refine (pairwise_idxOf_eraseDups as).imp ?_
  rintro a b hlt rfl
  exact Nat.lt_irrefl _ hlt

theorem eraseDups_of_nodup {α : Type} [BEq α] [LawfulBEq α] {as : List α} (h : as.Nodup) :
    as.eraseDups = as := by
  induction as with
  | nil => rfl
  | cons a rest ih =>
      obtain ⟨ha, hrest⟩ := List.nodup_cons.1 h
      have hkept : rest.filter (fun b => !b == a) = rest := by
        refine List.filter_eq_self.2 fun b hb => ?_
        have hne : b ≠ a := fun e => ha (e ▸ hb)
        simpa using hne
      rw [List.eraseDups_cons, hkept, ih hrest]

/-- What is new and has no repeats is kept at the end. -/
theorem eraseDups_append_of_new {α : Type} [BEq α] [LawfulBEq α] {as bs : List α}
    (hnodup : bs.Nodup) (hnew : ∀ b ∈ bs, b ∉ as) :
    (as ++ bs).eraseDups = as.eraseDups ++ bs := by
  have hkept : bs.removeAll as = bs :=
    List.filter_eq_self.2 fun b hb => by simpa using hnew b hb
  rw [List.eraseDups_append, hkept, eraseDups_of_nodup hnodup]

theorem firstOccurrences_eraseDups {α : Type} [BEq α] [LawfulBEq α] (as : List α) :
    FirstOccurrences as as.eraseDups where
  mem_iff _ := List.mem_eraseDups
  nodup := nodup_eraseDups as
  ordered := pairwise_idxOf_eraseDups as

end BuildAtlas
