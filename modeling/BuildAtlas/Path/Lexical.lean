import BuildAtlas.Path

/-!
# BuildAtlas.Path.Lexical

One spelling for each path, found without looking at any file.

`normalize` drops the pieces that lead nowhere and lets each `..` take back the name before it. A
`..` never leads above the top or above a drive such as `C:`, and at the beginning of a relative
path it stays. Build metadata mixes spellings of several systems, so a path that begins with a drive
counts as absolute.
-/

namespace BuildAtlas.Path

/-- Does the path begin with a slash, or with an ASCII character and a colon? -/
def isAbsolute (path : String) : Bool :=
  match path.toList with
  | '/' :: _ => true
  | letter :: ':' :: _ => letter.toNat < 128
  | _ => false

/-- Is the piece a drive: an ASCII character and a colon? -/
def isDrive (piece : String) : Bool :=
  match piece.toList with
  | [letter, ':'] => letter.toNat < 128
  | _ => false

/-- The path with slashes for backslashes. -/
def withSlashes (path : String) : String :=
  .ofList (path.toList.map fun c => if c = '\\' then '/' else c)

/-- Walks on by one piece. The names walked so far are listed innermost first. -/
def walk (anchored : Bool) (walked : List String) (piece : String) : List String :=
  if isIdle piece then walked
  else if piece == ".." then
    match walked with
    | [] => if anchored then [] else [".."]
    | last :: outer =>
      if last == ".." then ".." :: walked
      else if isDrive last then walked
      else outer
  else piece :: walked

/-- The path without pieces that lead nowhere and without a `..` that takes back a name. -/
def normalize (path : String) : String :=
  let anchored := isAnchored path
  let walked := (pieces path).foldl (walk anchored) []
  if anchored then "/" ++ ofPieces walked.reverse
  else if walked.isEmpty then "."
  else ofPieces walked.reverse

/-- The one spelling of `path` as seen from `base`; an absolute path keeps its own. -/
def resolve (base path : String) : String :=
  if isAbsolute path then path else normalize (join base path)

end BuildAtlas.Path
