/-!
# BuildAtlas.Environment

The environment variables that a run can see.
-/

namespace BuildAtlas

/-- The value of each variable that is set. -/
abbrev Environment := String → Option String

/-- The environment with exactly the listed variables. -/
def Environment.ofList (assigned : List (String × String)) : Environment := fun name =>
  assigned.lookup name

end BuildAtlas
