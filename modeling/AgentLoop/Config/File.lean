import AgentLoop.Config.Form
import AgentLoop.Toml.Document
import AgentLoop.Toml.Printer

/-!
# The configuration file

* `FileContent` is what is found at a path.
* `AppConfig.ofFile` reads a configuration file, and `AppConfig.load` also applies what the
  environment says.
* `AppConfig.write` writes a configuration file, `AppConfig.defaultText` is the text of the
  configuration of a program that was not configured.
-/

namespace AgentLoop

/-- What is found at a path. -/
inductive FileContent where
  /-- There is nothing, and the reason says so. -/
  | absent (reason : String)
  /-- There is something, but no text can be had from it. -/
  | unreadable (reason : String)
  | text (text : String)
  deriving DecidableEq, Repr, Inhabited

namespace FileContent

/-- The reason given when there is nothing of a name in a directory. -/
def noEntry : String := "No such file or directory (os error 2)"

/-- The reason given when a path leads on from something that is no directory. -/
def noDirectory : String := "Not a directory (os error 20)"

/-- The reason given when there is something already. -/
def entryExists : String := "File exists (os error 17)"

/-- The reason given when there is a directory where a file is wanted. -/
def isDirectory : String := "Is a directory (os error 21)"

/-- The reason given when a path, or a name in it, has too many bytes. -/
def nameTooLong : String := "File name too long (os error 36)"

/-- The reason given when a path holds the character that ends paths. -/
def nulInName : String := "file name contained an unexpected NUL byte"

/-- The reason given when bytes are no text. -/
def notUtf8 : String := "stream did not contain valid UTF-8"

/-- The text that bytes encode. -/
def ofBytes (bytes : ByteArray) : FileContent :=
  match String.fromUTF8? bytes with
  | some s => .text s
  | none => .unreadable notUtf8

end FileContent

namespace AppConfig

/-- Why a text is no configuration. -/
def malformedReason : String := "not a configuration in TOML"

/-- The configuration in a file.  Where there is no file, nothing is configured. -/
def ofFile (path : String) : FileContent → Except ConfigError AppConfig
  | .absent _ => .ok .default
  | .unreadable reason => .error (.unreadable path reason)
  | .text text =>
    match (Toml.read text).bind ofToml with
    | none => .error (.malformed path malformedReason)
    | some c => c.checked

/-- The configuration after all that the environment says, if it breaks no rule. -/
def overridden (env : Environment) (c : AppConfig) : Except ConfigError AppConfig :=
  match c.override env with
  | (_, some unfit) => .error (.invalid unfit.message)
  | (c, none) => c.checked

/-- The configuration to use: what the file says, and then what the environment says. -/
def load (env : Environment) (path : String) (file : FileContent) :
    Except ConfigError AppConfig := do
  let c ← ofFile path file
  c.overridden env

/-- The text of a configuration file, if TOML can hold all its integers. -/
def write (c : AppConfig) : Option String := Toml.write c.toToml

/-- The text of a configuration file that configures nothing. -/
def defaultText : String := (write .default).getD ""

end AppConfig

end AgentLoop
