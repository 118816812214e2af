/-!
# BuildAtlas.Text.Range

Classes of characters that are given by ranges of code points.
-/

namespace BuildAtlas.Text

/-- Does the character lie in one of the ranges? Both ends of a range belong to it. -/
def isWithin (ranges : List (Nat × Nat)) (c : Char) : Bool :=
  ranges.any fun range => range.1 ≤ c.toNat && c.toNat ≤ range.2

theorem isWithin_of_mem {ranges : List (Nat × Nat)} {range : Nat × Nat} {c : Char}
    (hrange : range ∈ ranges) (hlo : range.1 ≤ c.toNat) (hhi : c.toNat ≤ range.2) :
    isWithin ranges c = true :=
  List.any_eq_true.2 ⟨range, hrange, by simp [hlo, hhi]⟩

end BuildAtlas.Text
