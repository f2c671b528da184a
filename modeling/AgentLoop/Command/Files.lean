import AgentLoop.Config.File

/-!
# Files and paths

* `Files` is what a command may do with files.
* `Path.join` and `Path.parent?` put paths together and take them apart.
* `Path.fault?` says why a path leads nowhere, whatever there is.
* `usualConfigPath` is where the configuration file usually is.
-/

namespace AgentLoop

/-- What a command may do with files, in a setting `m`. -/
structure Files (m : Type → Type) where
  content : (path : String) → m FileContent
  /-- Makes a directory with all that it lies in; the answer is the reason if it cannot be made. -/
  makeDirectory : (path : String) → m (Option String)
  /-- Writes a file; the answer is the reason if it cannot be written. -/
  write : (path : String) → (text : String) → m (Option String)

/-! ## Paths -/

namespace Path

/-- A name below a path. -/
def join (path name : String) : String :=
  if path = "" ∨ path.endsWith "/" then path ++ name else path ++ "/" ++ name

/-- The characters of a path, reversed, without the separators and single dots at its end. -/
def trimEnd : List Char → List Char
  | '/' :: cs => if cs.isEmpty then ['/'] else trimEnd cs
  | '.' :: '/' :: cs => if cs.isEmpty then ['/'] else trimEnd cs
  | cs => cs

/-- The path in which a path lies; the root lies in none, and neither does the empty path. -/
def parent? (path : String) : Option String :=
  match trimEnd path.toList.reverse with
  | [] | ['/'] => none
  | cs => some (String.ofList (trimEnd (cs.dropWhile (· ≠ '/'))).reverse)

/-- The bytes that a path may not reach. -/
def byteLimit : Nat := 4096

/-- The bytes that a name in a path may have. -/
def maxNameBytes : Nat := 255

/-- Why a path leads nowhere, whatever there is. -/
def fault? (path : String) : Option String :=
  if path.contains '\x00' then some FileContent.nulInName
  else if byteLimit ≤ path.utf8ByteSize then some FileContent.nameTooLong
  else none

end Path

/-- The usual place of the configuration file. -/
def usualConfigPath (env : Environment) : String :=
  Path.join (Path.join ((env "HOME").getD "/tmp") ".toolloop") "config.toml"

end AgentLoop
