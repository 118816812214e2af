import BuildAtlas.Json.Value
import BuildAtlas.Text.Report
import BuildAtlas.Time

/-!
# BuildAtlas.Log.Record

What a run notes about itself.

A record is written as a text or as one JSON object, each time with the time at which it is made. A
message keeps its line ends in the text, so a record may take several lines. Where a log is one of
the documents that a run reads, all of this is read, the time and the line number too.
-/

namespace BuildAtlas

/-- How grave a record is, the gravest first. -/
inductive LogLevel
  | error
  | warn
  | info
  | debug
  | trace
  deriving Repr, DecidableEq

namespace LogLevel

/-- How much has to be asked for before records of the level are written. -/
def verbosity : LogLevel → Nat
  | error => 1
  | warn => 2
  | info => 3
  | debug => 4
  | trace => 5

/-- The word for a level. -/
def name : LogLevel → String
  | error => "ERROR"
  | warn => "WARN"
  | info => "INFO"
  | debug => "DEBUG"
  | trace => "TRACE"

/-- The word for a level as it stands in a text, as wide as the longest of them. -/
def shown : LogLevel → String
  | warn => " WARN"
  | info => " INFO"
  | level => level.name

end LogLevel

/-- The part of the program that makes a record. -/
inductive LogSource
  | program
  | listing
  | scan
  | solution
  | visualStudio
  | projectDocument
  | codeBlocks
  deriving Repr, DecidableEq

/-- The name of a source, as records show it and as a filter gives it. -/
def LogSource.name : LogSource → String
  | .program => "cpp_solution_explorer"
  | .listing => "cpp_solution_explorer::project::paths"
  | .scan => "cpp_solution_explorer::project::scanner"
  | .solution => "cpp_solution_explorer::project::vs::solution"
  | .visualStudio => "cpp_solution_explorer::project::vs"
  | .projectDocument => "cpp_solution_explorer::project::vs::vcxproj"
  | .codeBlocks => "cpp_solution_explorer::project::codeblocks_provider"

/-- What is noted beside a message. -/
inductive LogDetail
  | name (text : String)
  | path (text : String)
  | count (n : Nat)
  deriving Repr, DecidableEq

namespace LogDetail

/-- A detail as it stands in a text. -/
def shown : LogDetail → String
  | name text => Text.reportQuoted text
  | path text => text
  | count n => .ofList (Text.decimal n)

/-- A detail as it stands in an object. -/
def value : LogDetail → Json.Value
  | name text | path text => .string text
  | count n => .ofNat n

end LogDetail

/-- One thing that a run notes. -/
structure LogRecord where
  level : LogLevel
  source : LogSource
  /-- The number of the line of the program that makes the record. -/
  lineNumber : Nat
  message : String
  /-- What is noted beside the message, by name. -/
  details : List (String × LogDetail) := []
  deriving Repr, DecidableEq

namespace LogRecord

/-- The names of all that a record notes. -/
def fieldNames (record : LogRecord) : List String :=
  "message" :: record.details.map (·.1)

/-- A character of a message as it stands in a text. What a terminal would take for a command is
written out. -/
def shownChar (c : Char) : List Char :=
  match c with
  | '\x07' => "\\x07".toList
  | '\x08' => "\\x08".toList
  | '\x0c' => "\\x0c".toList
  | '\x1b' => "\\x1b".toList
  | '\x7f' => "\\x7f".toList
  | _ =>
    if 0x80 ≤ c.toNat && c.toNat ≤ 0x9F then
      ['\\', 'u', '\x7b'] ++ Nat.toDigits 16 c.toNat ++ ['\x7d']
    else [c]

/-- A record as a text. -/
def line (record : LogRecord) (time : Time) : String :=
  time.text ++ " " ++ record.level.shown ++ " " ++ record.source.name ++ ": "
    ++ .ofList (Text.decimal record.lineNumber) ++ ": "
    ++ .ofList (record.message.toList.flatMap shownChar)
    ++ String.join (record.details.map fun (name, detail) => " " ++ name ++ "=" ++ detail.shown)

/-- A record as an object, which does not show the line. -/
def object (record : LogRecord) (time : Time) : Json.Value :=
  .object [
    ("timestamp", .string time.text),
    ("level", .string record.level.name),
    ("fields", .object (("message", .string record.message)
      :: record.details.map fun (name, detail) => (name, detail.value))),
    ("target", .string record.source.name)]

/-- What a log holds for a record that is made at a time. -/
def text (record : LogRecord) (time : Time) (isJson : Bool) : String :=
  (if isJson then (record.object time).render .compact else record.line time) ++ "\n"

end LogRecord

end BuildAtlas
