import BuildAtlas.Environment

/-!
# BuildAtlas.ImportSettings

Settings that all importers share.
-/

namespace BuildAtlas

/-- What the importers need to know about the host. -/
structure ImportSettings where
  /-- The program that builds Visual Studio projects. -/
  msbuild : String := "msbuild"
  /-- Does the host have the whole toolchain? Only then can Visual Studio projects be changed. -/
  hasToolchain : Bool := false
  /-- Do GN targets take the include directories of their toolchain? -/
  systemIncludes : Bool := false
  deriving Repr, DecidableEq

namespace ImportSettings

/-- The settings that the environment gives; an empty variable says nothing. -/
def ofEnvironment (environment : Environment) : ImportSettings :=
  match environment "MSBUILD_PATH" with
  | none | some "" => {}
  | some msbuild => { msbuild }

/-- The settings with another build program, if one is given. -/
def withMsbuild (settings : ImportSettings) (msbuild : Option String) : ImportSettings :=
  { settings with msbuild := msbuild.getD settings.msbuild }

end ImportSettings

end BuildAtlas
