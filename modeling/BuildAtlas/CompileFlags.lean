import BuildAtlas.Text.Split

/-!
# BuildAtlas.CompileFlags

What the flags of a compiler command line say about include directories, macros and language
standards.

A flag list is read into settings from left to right, and the settings are then collected: include
directories and macros in their order, and the last standard of each language. A flag with a
separate value takes the next word whatever it looks like; a flag list that ends before the value
says nothing with it.
-/

namespace BuildAtlas

/-- What a flag list says. -/
structure CompileFlags where
  includeDirs : List String := []
  defines : List String := []
  /-- The version of the C language. -/
  cStandard : String := "99"
  /-- The version of the C++ language. -/
  cppStandard : String := "11"
  deriving Repr, DecidableEq

namespace CompileFlags

/-- The standards of a flag list that selects none. -/
def default : CompileFlags := {}

/-- One thing that a flag list says. -/
inductive Setting
  | includeDir (dir : String)
  | define (macroText : String)
  | cStandard (version : String)
  | cppStandard (version : String)
  deriving Repr, DecidableEq

/-- A flag whose value may stand in the next word. -/
inductive Switch
  | includeDir
  | define
  deriving Repr, DecidableEq

/-- The setting that a switch with a value makes. -/
def Switch.apply : Switch → String → Setting
  | .includeDir, value => .includeDir value
  | .define, value => .define value

/-- What one word of a flag list means. -/
inductive Word
  | setting (setting : Setting)
  /-- A switch whose value is the next word. -/
  | awaiting (switch : Switch)
  | ignored
  deriving Repr, DecidableEq

/-- Reads a switch, a dash or a slash and one letter, with what is glued to it. -/
def switch? (word : String) : Option (Switch × String) :=
  match word.toList with
  | sign :: letter :: value =>
    if sign = '-' ∨ sign = '/' then
      if letter = 'I' then some (.includeDir, .ofList value)
      else if letter = 'D' then some (.define, .ofList value)
      else none
    else none
  | _ => none

/-- What follows the first of the markers that begins the word, unless that is nothing. -/
def version? (markers : List String) (word : String) : Option String :=
  (markers.findSome? (Text.dropStart? · word)).filter (· != "")

/-- What begins a flag that selects the C++ standard. -/
def cppMarkers : List String := ["-std=c++", "-std=gnu++"]

/-- What begins a flag that selects the C standard, if it does not select the C++ standard. -/
def cMarkers : List String := ["-std=c", "-std=gnu"]

/-- The meaning of a word. -/
def Word.ofText (word : String) : Word :=
  if word = "-isystem" then .awaiting .includeDir
  else
    match switch? word with
    | some (switch, "") => .awaiting switch
    | some (switch, value) => .setting (switch.apply value)
    | none =>
      match version? cppMarkers word with
      | some version => .setting (.cppStandard version)
      | none =>
        match version? cMarkers word with
        | some version => .setting (.cStandard version)
        | none => .ignored

/-- The settings that a flag list makes, in order. -/
def settings : List String → List Setting
  | [] => []
  | word :: words =>
    match Word.ofText word with
    | .setting setting => setting :: settings words
    | .ignored => settings words
    | .awaiting switch =>
      match words with
      | [] => []
      | value :: words => switch.apply value :: settings words

/-- The flags with one more setting. -/
def add (flags : CompileFlags) : Setting → CompileFlags
  | .includeDir dir => { flags with includeDirs := flags.includeDirs ++ [dir] }
  | .define macroText => { flags with defines := flags.defines ++ [macroText] }
  | .cStandard version => { flags with cStandard := version }
  | .cppStandard version => { flags with cppStandard := version }

/-- What a flag list says. -/
def parse (words : List String) : CompileFlags :=
  (settings words).foldl add default

end CompileFlags

end BuildAtlas
