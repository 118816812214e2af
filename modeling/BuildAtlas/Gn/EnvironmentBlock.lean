import BuildAtlas.Path.Lexical
import BuildAtlas.Text.Blank
import BuildAtlas.Text.Lossy
import BuildAtlas.Text.Split

/-!
# BuildAtlas.Gn.EnvironmentBlock

The include directories in a block of environment variables, as a toolchain stores it: entries of
the form `NAME=value` with a zero byte after each.
-/

namespace BuildAtlas.Gn

/-- The bytes that stand before the include directories. -/
def includeMarker : List UInt8 :=
  "INCLUDE=".toUTF8.toList

/-- The bytes after the last occurrence of a marker. -/
def afterLast? (marker : List UInt8) : List UInt8 → Option (List UInt8)
  | [] => none
  | byte :: bytes => (afterLast? marker bytes).or (Text.after? marker (byte :: bytes))

/-- The include directories of a block: what stands between the last marker and the next zero byte,
parted by semicolons. Directories get slashes, and lose the blanks around them. -/
def includeDirs (block : List UInt8) : List String :=
  match afterLast? includeMarker block with
  | none => []
  | some rest =>
    let value := Text.ofBytesLossy (rest.takeWhile (· != 0))
    ((Text.splitOn ';' value).map fun dir => Text.trim (Path.withSlashes dir)).filter (· != "")

end BuildAtlas.Gn
