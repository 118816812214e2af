/-!
# BuildAtlas.Text.Split

Cutting a text at a character or at the first place where a pattern stands, and replacing there.

Everything is defined on lists; the versions on `String` are wrappers that add nothing.
`eq_of_breakOn?` says that a cut loses nothing but the pattern.
-/

namespace BuildAtlas.Text

/-! ### Lists -/

section Lists

variable {α : Type} [DecidableEq α]

/-- What follows `start` in a list that begins with it. -/
def after? : List α → List α → Option (List α)
  | [], xs => some xs
  | _ :: _, [] => none
  | a :: start, x :: xs => if a = x then after? start xs else none

theorem after?_eq_some_iff {start xs rest : List α} :
    after? start xs = some rest ↔ xs = start ++ rest := by
  induction start generalizing xs with
  | nil => simp [after?, eq_comm]
  | cons a start ih =>
    cases xs with
    | nil => simp [after?]
    | cons x xs => by_cases h : a = x <;> simp [after?, h, ih, eq_comm]

/-- What stands before and after the first occurrence of `pattern`. -/
def breakOn? (pattern : List α) : List α → Option (List α × List α)
  | [] => if pattern.isEmpty then some ([], []) else none
  | x :: xs =>
    match after? pattern (x :: xs) with
    | some rest => some ([], rest)
    | none => (breakOn? pattern xs).map fun (before, rest) => (x :: before, rest)

/-- What stands before and after the last `x`. -/
def breakOnLast? (x : α) (xs : List α) : Option (List α × List α) :=
  (breakOn? [x] xs.reverse).map fun (rest, before) => (before.reverse, rest.reverse)

theorem eq_of_breakOn? {pattern xs before rest : List α}
    (h : breakOn? pattern xs = some (before, rest)) : xs = before ++ pattern ++ rest := by
  induction xs generalizing before with
  | nil =>
    simp only [breakOn?] at h
    split at h
    · simp_all [List.isEmpty_iff]
    · simp at h
  | cons x xs ih =>
    simp only [breakOn?] at h
    split at h
    · rename_i found hfound
      simp only [Option.some.injEq, Prod.mk.injEq] at h
      obtain ⟨rfl, rfl⟩ := h
      exact after?_eq_some_iff.1 hfound
    · obtain ⟨⟨front, back⟩, hcut, heq⟩ := Option.map_eq_some_iff.1 h
      simp only [Prod.mk.injEq] at heq
      obtain ⟨rfl, rfl⟩ := heq
      rw [ih hcut]
      rfl

end Lists

/-! ### Texts -/

/-- What stands before and after the first occurrence of `pattern`. -/
def splitOnce? (pattern : String) (s : String) : Option (String × String) :=
  (breakOn? pattern.toList s.toList).map fun (before, after) => (.ofList before, .ofList after)

/-- The pieces between the occurrences of `c`, the empty ones included. -/
def splitOn (c : Char) (s : String) : List String :=
  (s.toList.splitOn c).map .ofList

/-- What follows `start`, when the text begins with it. -/
def dropStart? (start : String) (s : String) : Option String :=
  (after? start.toList s.toList).map .ofList

/-- What precedes `stop`, when the text ends with it. -/
def dropEnd? (stop : String) (s : String) : Option String :=
  (after? stop.toList.reverse s.toList.reverse).map fun rest => .ofList rest.reverse

/-- The text without the byte order marks in front. -/
def withoutMarks (s : String) : String :=
  .ofList (s.toList.dropWhile (· == '\uFEFF'))

/-- Puts `replacement` where `pattern` stands first; a text without it is unchanged. -/
def replaceFirst (pattern replacement : String) (s : String) : String :=
  match splitOnce? pattern s with
  | some (before, after) => before ++ replacement ++ after
  | none => s

end BuildAtlas.Text
