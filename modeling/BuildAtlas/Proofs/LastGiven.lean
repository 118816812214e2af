import Mathlib.Data.List.Basic

/-!
# BuildAtlas.Proofs.LastGiven

The last value that the things of a list give.

Where things of a list may give a value, the one that is given last often counts. `LastGives` says
which one this is by its place in the list, and `getLast?_filterMap_eq_some_iff` that the last of
the given values is meant.
-/

namespace BuildAtlas

section LastGiven

variable {α β : Type} {gives : α → β → Prop} {items : List α} {value? : α → Option β}

/-- Of the things that give a value, the last one gives this value. -/
def LastGives (gives : α → β → Prop) (items : List α) (value : β) : Prop :=
  ∃ before item after, items = before ++ item :: after ∧ gives item value ∧
    ∀ other ∈ after, ∀ value, ¬ gives other value

/-- None of the things gives a value. -/
def NoneGives (gives : α → β → Prop) (items : List α) : Prop :=
  ∀ item ∈ items, ∀ value, ¬ gives item value

theorem eq_none_iff_forall_not (h : ∀ item value, value? item = some value ↔ gives item value)
    (item : α) : value? item = none ↔ ∀ value, ¬ gives item value := by
  rw [Option.eq_none_iff_forall_ne_some]
  exact forall_congr' fun value => not_congr (h item value)

theorem getLast?_filterMap_eq_none_iff
    (h : ∀ item value, value? item = some value ↔ gives item value) :
    (items.filterMap value?).getLast? = none ↔ NoneGives gives items := by
  rw [List.getLast?_eq_none_iff, List.filterMap_eq_nil_iff]
  exact forall₂_congr fun item _ => eq_none_iff_forall_not h item

theorem getLast?_filterMap_eq_some_iff
    (h : ∀ item value, value? item = some value ↔ gives item value) {value : β} :
    (items.filterMap value?).getLast? = some value ↔ LastGives gives items value := by
  rw [List.getLast?_filterMap, List.findSome?_eq_some_iff]
  -- the search runs from the end, so what comes before a thing there stands behind it here
  constructor
  · rintro ⟨after, item, before, hitems, hitem, hafter⟩
    refine ⟨before.reverse, item, after.reverse, ?_, (h item value).1 hitem, ?_⟩
    · rw [← List.reverse_reverse items, hitems]
      simp
    · intro other hother
      exact (eq_none_iff_forall_not h other).1 (hafter other (List.mem_reverse.1 hother))
  · rintro ⟨before, item, after, rfl, hitem, hafter⟩
    refine ⟨after.reverse, item, before.reverse, by simp, (h item value).2 hitem, ?_⟩
    intro other hother
    exact (eq_none_iff_forall_not h other).2 (hafter other (List.mem_reverse.1 hother))

end LastGiven

end BuildAtlas
