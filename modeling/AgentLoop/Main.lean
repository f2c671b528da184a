import AgentLoop.Command.Help
import AgentLoop.Command.Run
import Std.Time.DateTime.Timestamp

/-!
# The program

The program reads the command line, the environment, the clock and some random bytes, carries out
the command on the files of the machine, and prints what came of it.
-/

namespace AgentLoop

/-- The variables of the environment that the program looks at. -/
def variableNames : List String :=
  ["HOME", "RUST_LOG", "TOOLLOOP_CONFIG", "TOOLLOOP_MAX_ITERATIONS", "TOOLLOOP_AUTONOMY",
    "TOOLLOOP_MODEL"]

/-- The environment. -/
def readEnvironment : IO Environment := do
  let values ← variableNames.mapM fun name => do return (name, ← IO.getEnv name)
  return fun name => (values.lookup name).join

/-- The number and the description of an error of the system. -/
def systemError? : IO.Error → Option (UInt32 × String)
  | .noFileOrDirectory _ code details | .alreadyExists _ code details
  | .inappropriateType _ code details | .permissionDenied _ code details
  | .resourceExhausted _ code details | .invalidArgument _ code details
  | .noSuchThing _ code details => some (code, details)
  | .resourceBusy code details | .hardwareFault code details
  | .unsatisfiedConstraints code details | .illegalOperation code details
  | .otherError code details => some (code, details)
  | _ => none

/-- The number of an error of the system, which may have come with its sign reversed. -/
def errorNumber (code : UInt32) : Nat := (min code (0 - code)).toNat

/-- The descriptions of the errors that files often give. -/
def descriptions : List (Nat × String) :=
  [(1, "Operation not permitted"), (2, "No such file or directory"), (5, "Input/output error"),
    (13, "Permission denied"), (17, "File exists"), (20, "Not a directory"),
    (21, "Is a directory"), (26, "Text file busy"), (28, "No space left on device"),
    (30, "Read-only file system"), (36, "File name too long"),
    (40, "Too many levels of symbolic links")]

/-- The wording of an error of the system. -/
def reasonOf (e : IO.Error) : String :=
  match systemError? e with
  | some (code, details) =>
    let number := errorNumber code
    let description := (descriptions.lookup number).getD details
    s!"{description} (os error {number})"
  | none => toString e

/-- The reasons that say that there is nothing at a path. -/
def absences : List String :=
  [FileContent.noEntry, FileContent.noDirectory, FileContent.nameTooLong]

/-- What is found at a path. -/
def readContent (path : String) : IO FileContent := do
  if let some reason := Path.fault? path then return .absent reason
  try
    return .ofBytes (← IO.FS.readBinFile path)
  catch e =>
    let reason := reasonOf e
    return if reason ∈ absences then .absent reason else .unreadable reason

/-- The reason why something could not be done, if it could not. -/
def failureOf (action : IO Unit) : IO (Option String) := do
  try
    action
    return none
  catch e => return some (reasonOf e)

/-- Makes a directory with all that it lies in.  The first attempt tells what is wrong, unless it
is only that a directory on the way is missing. -/
def makeDirectory (path : String) : IO (Option String) := do
  if let some reason := Path.fault? path then return some reason
  if path = "" then return none
  match ← failureOf (IO.FS.createDir path) with
  | none => return none
  | some reason =>
    let failure ← failureOf (IO.FS.createDirAll path)
    return failure.map fun deeper => if reason = FileContent.noEntry then deeper else reason

/-- Writes a file. -/
def writeText (path text : String) : IO (Option String) := do
  if let some reason := Path.fault? path then return some reason
  failureOf (IO.FS.writeFile path text)

/-- The files of the machine. -/
def machineFiles : Files IO where
  content := readContent
  makeDirectory := makeDirectory
  write := writeText

/-- The point in time. -/
def readClock : IO Timestamp := do
  let now ← Std.Time.Timestamp.now
  let nanos := now.toNanosecondsSinceUnixEpoch.val
  return ⟨nanos / 1000000000, (nanos % 1000000000).toNat⟩

/-- A random number of 128 bits. -/
def readSeed : IO Nat := do
  let bytes ← IO.getRandomBytes 16
  return bytes.toList.foldl (fun n byte => n * 256 + byte.toNat) 0

/-- Prints a result, and what is printed beside it. -/
def printBoth (output side : String) : IO Unit := do
  IO.print output
  IO.eprint side

end AgentLoop

open AgentLoop in
/-- Carries out the command that the command line gives. -/
def main (args : List String) : IO UInt32 := do
  let env ← readEnvironment
  match CommandLine.read env args with
  | .error stop =>
    printBoth stop.texts.1 stop.texts.2
    return stop.exitCode.toUInt32
  | .ok line =>
    let report ← line.run machineFiles env (← readClock) (.ofSeed (← readSeed))
    IO.sleep report.took.toUInt32
    printBoth report.output (line.sideText env report)
    return (CommandLine.exitCode report).toUInt32
