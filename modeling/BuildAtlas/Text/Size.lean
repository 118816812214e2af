/-!
# BuildAtlas.Text.Size

Places in a text that are counted in the bytes of UTF-8.

A character takes one to four bytes, so not every count is a place between two characters.
`cutAt?_eq_some_iff` says that a cut finds exactly the places that are.
-/

namespace BuildAtlas.Text

/-- The number of bytes that characters take. -/
def size : List Char → Nat
  | [] => 0
  | c :: cs => c.utf8Size + size cs

/-- What stands before and after the place that so many bytes lead to. -/
def cutAt? : Nat → List Char → Option (List Char × List Char)
  | 0, cs => some ([], cs)
  | _ + 1, [] => none
  | n + 1, c :: cs =>
    if c.utf8Size ≤ n + 1 then
      (cutAt? (n + 1 - c.utf8Size) cs).map fun (before, rest) => (c :: before, rest)
    else none

/-- What stands after a place. -/
def restAt? (start : Nat) (cs : List Char) : Option (List Char) :=
  (cutAt? start cs).map (·.2)

/-- What stands between two places. -/
def between? (start stop : Nat) (cs : List Char) : Option (List Char) := do
  let rest ← restAt? start cs
  (cutAt? (stop - start) rest).map (·.1)

theorem cutAt?_eq_some_iff {n : Nat} {cs before rest : List Char} :
    cutAt? n cs = some (before, rest) ↔ cs = before ++ rest ∧ size before = n := by
  induction cs generalizing n before with
  | nil => cases n <;> cases before <;> simp [cutAt?, size, eq_comm]
  | cons c cs ih =>
    have hpos := c.utf8Size_pos
    cases n with
    | zero =>
      cases before with
      | nil => simp [cutAt?, size, eq_comm]
      | cons d before =>
        have := d.utf8Size_pos
        have hsize : size (d :: before) ≠ 0 := by simp only [size]; omega
        simp [cutAt?, hsize]
    | succ n =>
      cases before with
      | nil => simp [cutAt?, size]
      | cons d before =>
        by_cases hle : c.utf8Size ≤ n + 1
        · simp only [cutAt?, hle, if_true, Option.map_eq_some_iff, Prod.exists, Prod.mk.injEq,
            List.cons.injEq, List.cons_append, size]
          constructor
          · rintro ⟨front, back, hcut, ⟨rfl, rfl⟩, rfl⟩
            obtain ⟨rfl, hsize⟩ := ih.1 hcut
            exact ⟨⟨rfl, rfl⟩, by omega⟩
          · rintro ⟨⟨rfl, rfl⟩, hsize⟩
            exact ⟨before, rest, ih.2 ⟨rfl, by omega⟩, ⟨rfl, rfl⟩, rfl⟩
        · simp only [cutAt?, hle, if_false, size, List.cons_append, List.cons.injEq]
          constructor
          · intro h
            cases h
          · rintro ⟨⟨rfl, _⟩, hsize⟩
            omega

end BuildAtlas.Text
