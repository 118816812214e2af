import BuildAtlas.Text.Blank
import BuildAtlas.Text.Digit
import BuildAtlas.Text.Letter
import BuildAtlas.Text.Split

/-!
# BuildAtlas.Log.Pattern

Whether a text is a pattern for the value of a field.

A pattern is a regular expression that a finite automaton can decide, so there are no references
back and no looking around, and whether a place bounds a word can only be asked of ASCII. It matches
text: where the flag `u` is off it matches bytes, and then nothing may match a part of a character.
Patterns stand inside braces here, so the forms with braces do not occur in them; an opening brace
that is not escaped has no closing one.

`isPattern` reads a pattern once from left to right and keeps of each part only how deep it nests.
-/

namespace BuildAtlas.LogPattern

/-- How the next part of a pattern is read. -/
structure Mode where
  /-- Do blanks and comments not count? -/
  isSpaced : Bool := false
  /-- Does the pattern match characters, and not bytes? -/
  isUnicode : Bool := true
  deriving Repr, DecidableEq

/-! ### Blanks -/

/-- What follows the blanks and the comments, from inside a comment or outside. A comment ends with
its line. -/
def skipFrom : Bool → List Char → List Char
  | _, [] => []
  | true, c :: cs => skipFrom (c != '\n') cs
  | false, c :: cs =>
    if c == '#' then skipFrom true cs
    else if Text.isBlank c then skipFrom false cs
    else c :: cs

/-- What follows the blanks that do not count. -/
def Mode.skip (mode : Mode) (cs : List Char) : List Char :=
  if mode.isSpaced then skipFrom false cs else cs

/-- The character ahead, where blanks do not count. Of a comment only the sign is passed over, and
where nothing but blanks follows, the first of them is ahead. -/
def Mode.ahead? (mode : Mode) (cs : List Char) : Option Char :=
  if mode.isSpaced then
    let found := match cs.dropWhile Text.isBlank with
      | '#' :: rest => (rest.dropWhile Text.isBlank).head?
      | rest => rest.head?
    found.or cs.head?
  else cs.head?

/-! ### Atoms -/

/-- A part of a pattern that has no parts. -/
inductive Atom
  /-- One character; is it written as a byte, with two digits? -/
  | char (c : Char) (isByte : Bool)
  /-- A class with a letter as its name, such as `\d` or its opposite `\D`. -/
  | named (isOpposite : Bool)
  /-- A general category. -/
  | category
  /-- Any character. -/
  | any
  /-- A condition on a place; is it about the bounds of words? -/
  | place (isWord : Bool)
  deriving Repr, DecidableEq

namespace Atom

/-- May the atom stand in a pattern? -/
def isAllowed (mode : Mode) : Atom → Bool
  | char c isByte => mode.isUnicode || !isByte || c.toNat ≤ 0x7F
  | named isOpposite => mode.isUnicode || !isOpposite
  | category | any => mode.isUnicode
  | place isWord => !(mode.isUnicode && isWord)

/-- May the atom stand in a set of characters? -/
def isAllowedInSet (mode : Mode) : Atom → Bool
  | char c _ => mode.isUnicode || c.toNat ≤ 0x7F
  | named isOpposite => mode.isUnicode || !isOpposite
  | category | any => mode.isUnicode
  | place _ => false

end Atom

/-- The number that `count` hexadecimal digits write after `n`. -/
def hexDigits? (mode : Mode) : Nat → Nat → List Char → Option (Nat × List Char)
  | 0, n, cs => some (n, cs)
  | _ + 1, _, [] => none
  | count + 1, n, c :: cs => do
    hexDigits? mode count (n * 16 + (← Text.hexValue? c)) (mode.skip cs)

/-- The character whose code point is written with `count` digits. -/
def hexChar? (mode : Mode) (count : Nat) (cs : List Char) : Option (Atom × List Char) := do
  let (n, rest) ← hexDigits? mode count 0 (mode.skip cs)
  if n.isValidChar then some (.char (.ofNat n) (count == 2), rest) else none

/-- The letters of the general categories. -/
def categoryLetters : List Char :=
  ['C', 'L', 'M', 'N', 'P', 'S', 'Z']

/-- The category whose letter comes next. -/
def category? (mode : Mode) (cs : List Char) : Option (Atom × List Char) :=
  match mode.skip cs with
  | c :: rest =>
    if categoryLetters.contains c.toUpper then some (.category, mode.skip rest) else none
  | [] => none

/-- The atom that a letter after a backslash stands for. -/
def letterAtom? : Char → Option Atom
  | 'a' => some (.char '\x07' false)
  | 'f' => some (.char '\x0c' false)
  | 't' => some (.char '\t' false)
  | 'n' => some (.char '\n' false)
  | 'r' => some (.char '\r' false)
  | 'v' => some (.char '\x0b' false)
  | 'd' | 's' | 'w' => some (.named false)
  | 'D' | 'S' | 'W' => some (.named true)
  | 'A' | 'z' => some (.place false)
  | 'b' | 'B' | '<' | '>' => some (.place true)
  | _ => none

/-- The atom that follows a backslash. Every other ASCII sign stands for itself. -/
def escaped? (mode : Mode) : List Char → Option (Atom × List Char)
  | [] => none
  | 'x' :: rest => hexChar? mode 2 rest
  | 'u' :: rest => hexChar? mode 4 rest
  | 'U' :: rest => hexChar? mode 8 rest
  | 'p' :: rest | 'P' :: rest => category? mode rest
  | c :: rest =>
    match letterAtom? c with
    | some atom => some (atom, rest)
    | none => if c.toNat ≤ 0x7F && !c.isAlphanum then some (.char c false, rest) else none

/-! ### Depth -/

/-- The depth of parts that stand beside one another: a single part needs no level of its own. -/
def joined : List Nat → Nat
  | [] => 0
  | [depth] => depth
  | depths => depths.foldl max 0 + 1

/-- The depth of a set after an operator, with what stands before the operator. -/
def operated : Option Nat → Nat → Nat
  | none, depth => depth
  | some before, depth => max before depth + 1

/-! ### Sets -/

/-- The names of the classes of ASCII characters. -/
def asciiClasses : List String :=
  ["alnum", "alpha", "ascii", "blank", "cntrl", "digit", "graph", "lower", "print", "punct",
   "space", "upper", "word", "xdigit"]

/-- The class of ASCII characters that an opening bracket begins, such as `[:alpha:]` or its
opposite `[:^alpha:]`; tells whether it is the opposite. -/
def asciiClass? : List Char → Option (Bool × List Char)
  | ':' :: rest =>
    let isOpposite := rest.head? == some '^'
    let rest := if isOpposite then rest.drop 1 else rest
    let name := rest.takeWhile (· != ':')
    match rest.drop name.length with
    | ':' :: ']' :: rest =>
      if asciiClasses.contains (.ofList name) then some (isOpposite, rest) else none
    | _ => none
  | _ => none

/-- The next member of a set. -/
def member? (mode : Mode) : List Char → Option (Atom × List Char)
  | [] => none
  | '\\' :: rest => escaped? mode rest
  | c :: rest => some (.char c false, rest)

/-- The members of a set in one place: one member, or all between two characters. -/
def members? (mode : Mode) (cs : List Char) : Option (List Char) := do
  let (first, rest) ← member? mode cs
  match mode.skip rest with
  | [] => none
  | c :: rest =>
    if c != '-' || mode.ahead? rest == some ']' || mode.ahead? rest == some '-' then
      if first.isAllowedInSet mode then some (c :: rest) else none
    else
      let (last, rest) ← member? mode (mode.skip rest)
      match first, last with
      | .char lo _, .char hi _ =>
        if lo ≤ hi && first.isAllowedInSet mode && last.isAllowedInSet mode then some rest else none
      | _, _ => none

/-- Does an operator between sets begin with the character? It consists of two of them. -/
def isOperator (c : Char) : Bool :=
  c == '&' || c == '-' || c == '~'

/-- The rest of a set in brackets, with the depth of the set. Signs that mean something elsewhere in
a set stand for themselves at its start. -/
def set? (mode : Mode) :
    Nat → Bool → List Nat → Option Nat → List Char → Option (Nat × List Char)
  | 0, _, _, _, _ => none
  | fuel + 1, isStart, depths, before, cs =>
    match mode.skip cs with
    | [] => none
    | c :: rest =>
      if isStart && c == '-' then set? mode fuel true (0 :: depths) before rest
      else if isStart && c == ']' && depths.isEmpty then set? mode fuel false [0] before rest
      else if c == ']' then some (operated before (joined depths) + 1, rest)
      else if c == '[' then
        match asciiClass? rest with
        | some (isOpposite, rest) =>
          if mode.isUnicode || !isOpposite then set? mode fuel false (0 :: depths) before rest
          else none
        | none => do
          let (depth, rest) ← opened? fuel rest
          set? mode fuel false (depth :: depths) before rest
      else if isOperator c && rest.head? == some c then
        set? mode fuel false [] (some (operated before (joined depths))) (rest.drop 1)
      else do
        set? mode fuel false (0 :: depths) before (← members? mode (c :: rest))
where
  /-- A set after its opening bracket, which may be the opposite of what is listed. -/
  opened? (fuel : Nat) (cs : List Char) : Option (Nat × List Char) :=
    match mode.skip cs with
    | '^' :: rest => if mode.isUnicode then set? mode fuel true [] none rest else none
    | rest => set? mode fuel true [] none rest

/-! ### Groups -/

/-- The mode that flags lead to; those after the minus sign are switched off. -/
def withFlags? (mode : Mode) (flags : List Char) : Option Mode :=
  if flags.all ("imsUuRx-".toList.contains ·) && flags.Nodup && flags.getLast? != some '-' then
    let on := flags.takeWhile (· != '-')
    let off := flags.drop on.length
    some {
      isSpaced := on.contains 'x' || (mode.isSpaced && !off.contains 'x')
      isUnicode := on.contains 'u' || (mode.isUnicode && !off.contains 'u') }
  else none

/-- Is this the name of a group? -/
def isName : List Char → Bool
  | [] => false
  | c :: cs =>
    (c == '_' || Text.isLetter c)
      && cs.all fun c => c == '_' || c == '.' || c == '[' || c == ']' || Text.isLetterOrDigit c

/-- What an opening parenthesis begins. -/
inductive Opening
  /-- A group that is read in a mode, with its name if it has one. -/
  | group (mode : Mode) (name : Option String)
  /-- No group, but another mode from here on. -/
  | flags (mode : Mode)

/-- What follows an opening parenthesis. -/
def opening? (mode : Mode) (cs : List Char) : Option (Opening × List Char) :=
  let cs := mode.skip cs
  match (Text.after? ['?', 'P', '<'] cs).or (Text.after? ['?', '<'] cs), cs with
  | some rest, _ =>
    let name := rest.takeWhile (· != '>')
    match rest.drop name.length with
    | _ :: rest => if isName name then some (.group mode (some (.ofList name)), rest) else none
    | [] => none
  | none, '?' :: rest => do
    let flags := rest.takeWhile fun c => c != ':' && c != ')'
    let changed ← withFlags? mode flags
    match rest.drop flags.length with
    | ':' :: rest => some (.group changed none, rest)
    | ')' :: rest => if flags.isEmpty then none else some (.flags changed, rest)
    | _ => none
  | none, rest => some (.group mode none, rest)

/-! ### Patterns -/

/-- One of the parts of a pattern that follow one another. -/
structure Part where
  depth : Nat
  /-- May the part be repeated? Flags may not. -/
  isRepeatable : Bool := true
  deriving Repr, DecidableEq

/-- Where the reading of a pattern or of a group stands. -/
structure Place where
  mode : Mode := {}
  /-- The parts since the last bar, the last one first. -/
  parts : List Part := []
  /-- The depths of what stands between the bars before. -/
  branches : List Nat := []
  deriving Repr, DecidableEq

namespace Place

/-- The place after one more part. -/
def add (place : Place) (depth : Nat) : Place :=
  { place with parts := { depth } :: place.parts }

/-- The depth of what stands before the place. -/
def depth (place : Place) : Nat :=
  joined (joined (place.parts.map (·.depth)) :: place.branches)

end Place

/-- The place after an atom, if the atom is allowed there. -/
def atAtom? (place : Place) (found : Option (Atom × List Char)) : Option (Place × List Char) := do
  let (atom, rest) ← found
  if atom.isAllowed place.mode then some (place.add 0, rest) else none

/-- The depth of the pattern that begins with what is read. The groups that are open are listed
innermost first, and the names of groups are collected. -/
def depth? : Nat → Place → List Place → List String → List Char → Option Nat
  | 0, _, _, _, _ => none
  | fuel + 1, place, outer, names, cs =>
    match place.mode.skip cs with
    | [] => if outer.isEmpty then some place.depth else none
    | '(' :: rest => do
      let (opening, rest) ← opening? place.mode rest
      match opening with
      | .flags mode =>
        let parts := { depth := 0, isRepeatable := false } :: place.parts
        depth? fuel { place with mode, parts } outer names rest
      | .group mode none => depth? fuel { mode } (place :: outer) names rest
      | .group mode (some name) =>
        if names.contains name then none
        else depth? fuel { mode } (place :: outer) (name :: names) rest
    | ')' :: rest =>
      match outer with
      | [] => none
      | around :: outer => depth? fuel (around.add (place.depth + 1)) outer names rest
    | '|' :: rest =>
      let branches := joined (place.parts.map (·.depth)) :: place.branches
      depth? fuel { place with parts := [], branches } outer names rest
    | '[' :: rest => do
      let (depth, rest) ← set?.opened? place.mode (rest.length + 1) rest
      depth? fuel (place.add depth) outer names rest
    | '{' :: _ => none
    | c :: rest =>
      if c == '?' || c == '*' || c == '+' then
        match place.parts with
        | part :: parts =>
          let place := { place with parts := { depth := part.depth + 1 } :: parts }
          let rest := if rest.head? == some '?' then rest.drop 1 else rest
          if part.isRepeatable then depth? fuel place outer names rest else none
        | [] => none
      else do
        let found :=
          if c == '\\' then escaped? place.mode rest
          else if c == '.' then some (.any, rest)
          else if c == '^' || c == '$' then some (.place false, rest)
          else some (.char c false, rest)
        let (place, rest) ← atAtom? place found
        depth? fuel place outer names rest

/-- How deep a pattern may nest. -/
def maxDepth : Nat := 250

/-- Is the text a pattern? -/
def isPattern (text : List Char) : Bool :=
  (depth? (text.length + 1) {} [] [] text).any (· ≤ maxDepth)

/-! ### Numbers -/

/-- Is this a decimal numeral without a sign? One digit at least has to stand around the point. -/
def isNumeral (text : List Char) : Bool :=
  let whole := text.takeWhile Char.isDigit
  let rest := text.drop whole.length
  let (fraction, rest) := match rest with
    | '.' :: rest => (rest.takeWhile Char.isDigit, rest.dropWhile Char.isDigit)
    | _ => ([], rest)
  let isExponent (digits : List Char) := !digits.isEmpty && digits.all Char.isDigit
  !(whole.isEmpty && fraction.isEmpty) &&
    match rest with
    | [] => true
    | e :: rest =>
      (e == 'e' || e == 'E') &&
        match rest with
        | '+' :: digits | '-' :: digits => isExponent digits
        | digits => isExponent digits

/-- Is this a number, or one of the words for values that are no numbers? -/
def isNumber (text : List Char) : Bool :=
  let size := match text with
    | '+' :: rest | '-' :: rest => rest
    | _ => text
  ["inf", "infinity", "nan"].contains (.ofList (size.map Char.toLower)) || isNumeral size

/-- Can the value of a field be compared with the text? -/
def isValue (text : List Char) : Bool :=
  isNumber text || isPattern text

end BuildAtlas.LogPattern
