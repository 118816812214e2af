import BuildAtlas.Error

/-!
# BuildAtlas.Selection

The configuration names that can be chosen, and the active one.
-/

namespace BuildAtlas

/-- The active configuration among those available. -/
structure Selection where
  active : String
  available : List String
  deriving Repr, DecidableEq

namespace Selection

/-- The first of the names is active; where there is none, the empty name is. -/
def ofNames (names : List String) : Selection where
  active := names.head?.getD ""
  available := names

/-- The only available name is active. -/
def fixed (name : String) : Selection where
  active := name
  available := [name]

/-- Makes another available name active. Whether it is available is tested before anything is
written, so where this fails the selection stays as it is. -/
def select (selection : Selection) (name : String) : Except Error Selection :=
  if name ∈ selection.available then .ok { selection with active := name }
  else .error (.unknownConfiguration name)

end Selection

end BuildAtlas
