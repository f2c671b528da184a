import AgentLoop.Log.Record

/-!
# Reports

* `Report` is what comes of a command: what it prints, what it logs, and why it failed.
* `Report.failureText` words a failure with its causes.
-/

namespace AgentLoop

/-- What comes of a command. -/
structure Report where
  /-- What is printed as the result. -/
  output : String
  log : List LogRecord
  /-- What is printed beside the result. -/
  notes : String
  /-- Why the command failed: what went wrong, and its causes in turn. -/
  failure : Option (List String)
  /-- The time that the command took, in milliseconds. -/
  took : Nat
  deriving DecidableEq, Repr

namespace Report

/-- The report of a command that printed something. -/
def printed (output : String) : Report := ⟨output, [], "", none, 0⟩

/-- The report of a command that failed. -/
def failed (causes : List String) : Report := ⟨"", [], "", some causes, 0⟩

/-- A report with earlier records in front of its log. -/
def after (log : List LogRecord) (r : Report) : Report := { r with log := log ++ r.log }

/-- A cause over one or several lines, after its number if it has one. -/
def causeText (number : Option Nat) (cause : String) : String :=
  let (first, next) :=
    match number with
    | some n => ("".pushn ' ' (5 - (toString n).length) ++ s!"{n}: ", "       ")
    | none => ("    ", "    ")
  "\n" ++ first ++ ("\n" ++ next).intercalate (cause.splitOn "\n")

/-- The wording of a failure. -/
def failureText : List String → String
  | [] => ""
  | [error] => s!"Error: {error}\n"
  | [error, cause] => s!"Error: {error}\n\nCaused by:{causeText none cause}\n"
  | error :: causes =>
    let texts := causes.zipIdx.map fun (cause, n) => causeText (some n) cause
    s!"Error: {error}\n\nCaused by:" ++ String.join texts ++ "\n"

end Report

end AgentLoop
