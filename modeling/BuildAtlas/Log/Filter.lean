import BuildAtlas.Log.Pattern
import BuildAtlas.Log.Record
import BuildAtlas.Text.Size

/-!
# BuildAtlas.Log.Filter

Which records a log keeps.

A filter is a list of rules, parted by commas. A rule is a level, the beginning of the names of some
sources, or both as in `source=level`. Brackets before the level name a span, or a field as in
`source[{field}]=level`, or a field and a pattern for its value as in `source[{field=value}]=level`.
The most specific rule that applies to a record decides, and a record to which no rule applies is
not kept. A text that is no filter counts as `info`, and one without rules as `error`.

Blanks around a rule do not count when its parts are looked for, but they are not cut off: each part
is taken from as far into the whole text as it was found in the text without blanks. So a blank in
front shifts every part, and a blank at the end belongs to the last one.
-/

namespace BuildAtlas

/-- One rule of a filter. -/
structure LogRule where
  /-- What the name of the source begins with. -/
  source : Option String := none
  /-- A field that a record has to have. -/
  field : Option String := none
  /-- Does the rule only hold inside spans? The program opens none. -/
  isBound : Bool := false
  /-- The verbosity of the least grave records that are kept. -/
  threshold : Nat
  deriving Repr, DecidableEq

namespace LogRule

/-! ### Levels -/

/-- The words for the thresholds, the one that keeps nothing first. -/
def words : List String :=
  ["off", "error", "warn", "info", "debug", "trace"]

/-- The threshold that keeps everything. -/
def everything : Nat := 5

/-- The number that digits write, after a plus sign that may stand in front. -/
def number? (text : List Char) : Option Nat :=
  let digits := match text with
    | '+' :: rest => rest
    | _ => text
  if digits.isEmpty || !digits.all Char.isDigit then none else some (Text.digitsValue digits)

/-- The threshold that a word or a number gives. -/
def threshold? (text : List Char) : Option Nat :=
  match number? text with
  | some n => if n ≤ everything then some n else none
  | none => words.idxOf? (.ofList (text.map Char.toLower))

/-- The threshold behind the equals sign, where nothing stands for everything. -/
def level? : List Char → Option Nat
  | [] => some everything
  | text => threshold? text

/-- The threshold behind the brackets, which end at a place of the whole text; `rest` is what was
found there. -/
def levelAfter? (whole : List Char) (place : Nat) (rest : List Char) : Option Nat :=
  match rest with
  | [] => some everything
  | '=' :: _ => do level? (← Text.restAt? (place + 1) whole)
  | _ => none

/-! ### Fields -/

/-- The name of a field, and whether a value is asked for, which has to be one that values can be
compared with. -/
def field? (text : List Char) : Option (String × Bool) :=
  match text.splitOn '=' with
  | [] => none
  | [name] => some (.ofList name, false)
  | name :: value :: _ => if LogPattern.isValue value then some (.ofList name, true) else none

/-- What follows the opening bracket: a span, or a span with a field in braces. The bracket ends at
a place of the whole text, and `inside` is what was found there. -/
def bracketed? (whole : List Char) (source : Option String) (place : Nat) (inside : List Char) :
    Option LogRule :=
  let span := inside.takeWhile fun c => c != ']' && c != '\x7b'
  let stop := place + Text.size span
  match inside.drop span.length with
  | ']' :: rest => do
    pure { source, isBound := true, threshold := ← levelAfter? whole (stop + 1) rest }
  | '\x7b' :: rest =>
    let found := rest.takeWhile (· != '\x7d')
    let close := stop + 1 + Text.size found
    match found, rest.drop found.length with
    | _ :: _, '\x7d' :: ']' :: rest => do
      let (name, hasValue) ← field? (← Text.between? (stop + 1) close whole)
      pure {
        source
        field := some name
        isBound := !span.isEmpty || hasValue
        threshold := ← levelAfter? whole (close + 2) rest }
    | _, _ => none
  | _ => none

/-! ### Rules -/

/-- May a rule begin with the character? -/
def isStart (c : Char) : Bool :=
  c == '[' || c == '-' || c == ':' || c == '_' || Text.isLetterOrDigit c

/-- The rule that a text without equals sign and brackets gives. -/
def ofWord (text : String) : LogRule :=
  match threshold? text.toList with
  | some threshold => { threshold }
  | none => { source := some text, threshold := everything }

/-- The rule that a text gives. -/
def ofText? (text : String) : Option LogRule :=
  let whole := text.toList
  let trimmed := Text.trimWhere Text.isBlank whole
  let name := trimmed.takeWhile fun c => c != '=' && c != '['
  let stop := Text.size name
  if trimmed.head?.any isStart then
    match trimmed.drop name.length with
    | [] => some (ofWord text)
    | '=' :: _ => do
      let source ← Text.between? 0 stop whole
      pure {
        source := some (.ofList source)
        threshold := ← level? (← Text.restAt? (stop + 1) whole) }
    | _ :: inside =>
      if name.isEmpty then bracketed? whole none (stop + 1) inside
      else do
        let source ← Text.between? 0 stop whole
        bracketed? whole (some (.ofList source)) (stop + 1) inside
  else none

/-! ### Applying -/

/-- Does the rule apply to the record? -/
def appliesTo (rule : LogRule) (record : LogRecord) : Bool :=
  !rule.isBound
    && (rule.source.all fun start =>
      (Text.after? start.toList record.source.name.toList).isSome)
    && rule.field.all record.fieldNames.contains

/-- Is the first rule at least as specific as the second one? A longer name is more specific, then a
rule with a field, and then one with a field later in the order of texts. -/
def isAsSpecificAs (rule other : LogRule) : Bool :=
  let length := fun (rule : LogRule) => (rule.source.map (·.length + 1)).getD 0
  length other < length rule || (length other == length rule &&
    match other.field, rule.field with
    | none, _ => true
    | some _, none => false
    | some field, some later => !(later < field))

end LogRule

/-- The rules by which a log keeps records. -/
structure LogFilter where
  rules : List LogRule
  deriving Repr, DecidableEq

namespace LogFilter

/-- The filter that keeps everything up to a level. -/
def upTo (level : LogLevel) : LogFilter where
  rules := [{ threshold := level.verbosity }]

/-- The filter that a text gives. -/
def ofText (text : String) : LogFilter :=
  match ((Text.splitOn ',' text).filter (· != "")).mapM LogRule.ofText? with
  | none => upTo .info
  | some [] => upTo .error
  | some rules => { rules }

/-- The rule that decides about a record; of equally specific ones the last. -/
def ruleFor? (filter : LogFilter) (record : LogRecord) : Option LogRule :=
  (filter.rules.filter (·.appliesTo record)).foldl (fun best rule =>
    match best with
    | none => some rule
    | some other => if rule.isAsSpecificAs other then some rule else some other) none

/-- Does the log keep the record? -/
def keeps (filter : LogFilter) (record : LogRecord) : Bool :=
  (filter.ruleFor? record).any fun rule => record.level.verbosity ≤ rule.threshold

end LogFilter

end BuildAtlas
