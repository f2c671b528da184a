import AgentLoop.Script.Replay

/-!
# The command line

A command line is a command with its options.  Three options belong to every command and may stand
before or after its name; no option may be given twice at one place, and what is given later
counts.  A command line is read from left to right, up to the first thing that is wrong.

* `CommandLine` is what a command line says, `CommandLine.read` reads its words.
* `LineStop` is what else can come of it.
* `Portion.scan` reads the options and words of one level: of the program, of a group of commands,
  or of a command.
-/

namespace AgentLoop

/-- What is to be done. -/
inductive Command where
  | replay (session : String) (options : ReplayOptions)
  | showConfig
  | validateConfig
  | configPath
  | initConfig
  deriving DecidableEq, Repr

/-- The forms of the log. -/
inductive LogFormat where
  | text
  | json
  deriving DecidableEq, Repr

/-- What a command line says. -/
structure CommandLine where
  command : Command
  verbose : Bool
  logFormat : LogFormat
  /-- The path of the configuration file, if it is not at its usual place. -/
  config : Option String
  deriving DecidableEq, Repr

/-- Why a command line is not carried out. -/
inductive LineStop where
  | help
  | version
  /-- Something in it is wrong or missing. -/
  | refused
  deriving DecidableEq, Repr

/-! ## Options and words -/

/-- What an option is for. -/
inductive OptionKind where
  | switch
  /-- It has a value, which must be acceptable. -/
  | value (accepts : String → Bool)
  /-- It asks for something else than a command. -/
  | stop (stop : LineStop)

/-- An option: its name and the letter that stands for it. -/
structure OptionSpec where
  name : String
  letter : Option Char
  kind : OptionKind

/-- A word of a command line by its form. -/
inductive Argument where
  | word
  /-- The sign after which no more options follow. -/
  | ending
  | long (name : String) (value : Option String)
  | letters (letters : List Char)

/-- The form of a word. -/
def Argument.of (text : String) : Argument :=
  match text.toList with
  | ['-', '-'] => .ending
  | '-' :: '-' :: cs =>
    let name := cs.takeWhile (· ≠ '=')
    let value := cs.dropWhile (· ≠ '=')
    .long (String.ofList name) (if value.isEmpty then none else some (String.ofList (value.drop 1)))
  | '-' :: c :: cs => .letters (c :: cs)
  | _ => .word

/-- The options given at one level, with their values, and the words that are no options. -/
structure Portion where
  given : List (String × String)
  words : List String
  deriving Repr

namespace Portion

/-- The portion with one more option. -/
def add (name value : String) (p : Portion) : Except LineStop Portion :=
  if (p.given.lookup name).isSome then .error .refused
  else .ok { p with given := p.given ++ [(name, value)] }

/-- The portion with the switches that some letters stand for. -/
def addLetters (specs : List OptionSpec) : List Char → Portion → Except LineStop Portion
  | [], p => .ok p
  | c :: cs, p => do
    match specs.find? fun spec => spec.letter = some c with
    | some ⟨name, _, .switch⟩ => addLetters specs cs (← p.add name "")
    | some ⟨_, _, .stop stop⟩ => .error stop
    | _ => .error .refused

/-- Reads options and words.  With a limit, only so many words are allowed; without one, the first
word ends the level, and it and all that follows it are the words. -/
def scan (specs : List OptionSpec) (limit : Option Nat) :
    Portion → List String → Except LineStop Portion
  | p, [] => .ok p
  | p, arg :: rest =>
    match Argument.of arg with
    | .word =>
      match limit with
      | none => .ok { p with words := arg :: rest }
      | some n =>
        if arg = "" ∨ n ≤ p.words.length then .error .refused
        else scan specs limit { p with words := p.words ++ [arg] } rest
    | .ending =>
      match limit with
      | none => .error .refused
      | some n =>
        let words := p.words ++ rest
        if "" ∈ rest ∨ n < words.length then .error .refused else .ok { p with words }
    | .letters cs => do scan specs limit (← p.addLetters specs cs) rest
    | .long name value =>
      match specs.find? fun spec => spec.name = name with
      | none => .error .refused
      | some spec =>
        match spec.kind, value with
        | .switch, none => do scan specs limit (← p.add name "") rest
        | .stop stop, none => .error stop
        | .value accepts, some v => do
          if accepts v then scan specs limit (← p.add name v) rest else .error .refused
        | .value accepts, none =>
          match rest with
          | [] => .error .refused
          | v :: rest =>
            match Argument.of v with
            | .word => do
              if accepts v then scan specs limit (← p.add name v) rest else .error .refused
            | _ => .error .refused
        | _, some _ => .error .refused

/-- Nothing given yet. -/
def empty : Portion := ⟨[], []⟩

end Portion

/-! ## Commands -/

namespace CommandLine

/-- The number of turns that a value gives: a number of 32 bits, which may have a sign. -/
def readTurns? (value : String) : Option Nat :=
  match readSigned? value with
  | some (.ofNat n) => if n < 0x100000000 then some n else none
  | _ => none

/-- The options of every command. -/
def common : List OptionSpec :=
  [⟨"verbose", some 'v', .switch⟩,
    ⟨"log-format", none, .value fun v => v = "text" || v = "json"⟩,
    ⟨"config", none, .value fun v => v ≠ ""⟩,
    ⟨"help", some 'h', .stop .help⟩]

/-- The options of the program. -/
def ofProgram : List OptionSpec := common ++ [⟨"version", some 'V', .stop .version⟩]

/-- The options of a replay. -/
def ofReplay : List OptionSpec :=
  common ++
    [⟨"no-confirm", none, .switch⟩,
      ⟨"max-iterations", none, .value fun v => (readTurns? v).isSome⟩]

/-- The commands about the configuration by name. -/
def configCommands : List (String × Command) :=
  [("show", .showConfig), ("validate", .validateConfig), ("path", .configPath),
    ("init", .initConfig)]

/-- The command line of a command whose options were given at some levels, the outermost first.  A
level that names no configuration file takes it from the environment, which must then name one
properly. -/
def ofPortions (env : Environment) (portions : List Portion) (command : Command) :
    Except LineStop CommandLine :=
  let given := portions.reverse.flatMap Portion.given
  let namedThroughout := portions.all fun p => (p.given.lookup "config").isSome
  let fallback := env "TOOLLOOP_CONFIG"
  if fallback = some "" ∧ !namedThroughout then .error .refused
  else
    .ok
      { command
        verbose := (given.lookup "verbose").isSome
        logFormat := if given.lookup "log-format" = some "json" then .json else .text
        config := given.lookup "config" <|> fallback }

/-- The names after the word that asks for help name commands. -/
def namesCommands : List String → Bool
  | [] | ["replay"] | ["help"] | ["config"] => true
  | ["config", name] => name = "help" || (configCommands.lookup name).isSome
  | _ => false

/-- Help on some names. -/
def helpOn (names : List String) : LineStop :=
  if namesCommands names then .help else .refused

/-- Reads what follows the name of the replay command. -/
def readReplay (env : Environment) (outer : List Portion) (args : List String) :
    Except LineStop CommandLine := do
  let p ← Portion.empty.scan ofReplay (some 1) args
  match p.words with
  | [session] =>
    ofPortions env (outer ++ [p])
      (.replay session
        { noConfirm := (p.given.lookup "no-confirm").isSome
          maxIterations := (p.given.lookup "max-iterations").bind readTurns? })
  | _ => .error .refused

/-- Reads what follows the name of the commands about the configuration. -/
def readConfig (env : Environment) (outer : List Portion) (args : List String) :
    Except LineStop CommandLine := do
  let p ← Portion.empty.scan common none args
  match p.words with
  | "help" :: names => .error (helpOn ("config" :: names))
  | name :: args =>
    match configCommands.lookup name with
    | none => .error .refused
    | some command => do
      let q ← Portion.empty.scan common (some 0) args
      ofPortions env (outer ++ [p, q]) command
  | [] => .error .refused

/-- Reads the words of a command line. -/
def read (env : Environment) (args : List String) : Except LineStop CommandLine := do
  let p ← Portion.empty.scan ofProgram none args
  match p.words with
  | "replay" :: args => readReplay env [p] args
  | "config" :: args => readConfig env [p] args
  | "help" :: names => .error (helpOn names)
  | _ => .error .refused

end CommandLine

end AgentLoop
