import AgentLoop.Json.Printer
import AgentLoop.Time.Rfc3339

/-!
# Log records

* `LogRecord` is one record: a level, a message, fields, and the part of the program it is from.
* `LogRecord.jsonLine` and `LogRecord.textLine` write a record as one line.
-/

namespace AgentLoop

/-- How grave a record is. -/
inductive LogLevel where
  | warn
  | info
  | debug
  deriving DecidableEq, Repr

namespace LogLevel

/-- The name of a level. -/
def name : LogLevel → String
  | warn => "WARN"
  | info => "INFO"
  | debug => "DEBUG"

/-- The least verbosity at which records of a level are kept. -/
def verbosity : LogLevel → Nat
  | warn => 2
  | info => 3
  | debug => 4

end LogLevel

/-- One record. -/
structure LogRecord where
  time : Timestamp
  level : LogLevel
  message : String
  fields : List (String × Json)
  /-- The part of the program that the record is from. -/
  target : String
  deriving DecidableEq, Repr

namespace LogRecord

/-- The record as one line of JSON. -/
def jsonLine (r : LogRecord) : String :=
  (Json.obj <|
    [("timestamp", .str r.time.write), ("level", .str r.level.name), ("message", .str r.message)] ++
      r.fields ++ [("target", .str r.target)]).compact ++ "\n"

/-- The value of a field in a line of text. -/
def plain : Json → String
  | .str s => s
  | value => value.compact

/-- The record as one line of text. -/
def textLine (r : LogRecord) : String :=
  " ".intercalate
    ([r.time.write, r.level.name, r.message] ++
      r.fields.map fun (name, value) => s!"{name}={plain value}") ++ "\n"

end LogRecord

end AgentLoop
