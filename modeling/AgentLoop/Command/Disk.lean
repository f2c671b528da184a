import AgentLoop.Command.Files

/-!
# A disk in memory

A disk holds files and directories by the names that lead to them.  A path is followed name by name
from the current directory, or from the root if it begins with a separator: a dot stays where it
is, two dots go back, and every place but the last has to be a directory.

* `Disk` with `Disk.node?` is the disk, `Disk.follow` follows a path.
* `Disk.content`, `Disk.makeDirectory` and `Disk.write` are what a command may do with it, and
  `Disk.files` is all three.
-/

namespace AgentLoop

/-- A place on a disk: the names that lead to it, the last one first. -/
abbrev Place := List String

/-- A disk: its files with their texts, and its directories. -/
structure Disk where
  texts : List (Place × String)
  directories : List Place
  deriving DecidableEq, Repr, Inhabited

/-- What is at a place. -/
inductive DiskNode where
  | directory
  | file (text : String)
  deriving DecidableEq, Repr

namespace Disk

/-- The place of the root. -/
def root : Place := ["/"]

/-- Places that lie outside of the current directory, on the way to the root. -/
def isOutside (place : Place) : Bool := place.all (· = "..")

/-- What is at a place, if there is anything.  The current directory is the place without names. -/
def node? (d : Disk) (place : Place) : Option DiskNode :=
  match d.texts.lookup place with
  | some text => some (.file text)
  | none =>
    if place = root ∨ isOutside place ∨ place ∈ d.directories then some .directory else none

/-- The place that a name leads to. -/
def step (place : Place) (name : String) : Place :=
  if name = "" ∨ name = "." then place
  else if name = ".." then
    if place = root then root else if isOutside place then ".." :: place else place.tail
  else name :: place

/-- The place where a path begins, and the names in it. -/
def begin (path : String) : Place × List String :=
  match path.splitOn "/" with
  | "" :: name :: names => (root, name :: names)
  | names => ([], names)

/-- The place that a name in a directory leads to, if the name is not too long. -/
def stepFrom (place : Place) (name : String) : Except String Place :=
  if Path.maxNameBytes < name.utf8ByteSize then .error FileContent.nameTooLong
  else .ok (step place name)

/-- The place that some names lead to, or the reason why they lead nowhere. -/
def follow (d : Disk) : Place → List String → Except String Place
  | place, [] => .ok place
  | place, name :: names =>
    match d.node? place with
    | none => .error FileContent.noEntry
    | some (.file _) => .error FileContent.noDirectory
    | some .directory => do follow d (← stepFrom place name) names

/-- What is found at a path. -/
def content (d : Disk) (path : String) : FileContent :=
  let (place, names) := begin path
  match Path.fault? path with
  | some reason => .absent reason
  | none =>
    if path = "" then .absent FileContent.noEntry
    else
      match d.follow place names with
      | .error reason => .absent reason
      | .ok place =>
        match d.node? place with
        | none => .absent FileContent.noEntry
        | some .directory => .unreadable FileContent.isDirectory
        | some (.file text) => .text text

/-- Makes the directories that some names lead through, up to the first that cannot be made.  A file
on the way is no directory to go on from; where directories had to be made before it, it is rather
in the way of the next. -/
def makeThrough (d : Disk) (made : Bool) : Place → List String → Option String × Disk
  | _, [] => (none, d)
  | place, name :: names =>
    match stepFrom place name with
    | .error reason => (some reason, d)
    | .ok place =>
      match d.node? place with
      | none => makeThrough { d with directories := place :: d.directories } true place names
      | some .directory => makeThrough d made place names
      | some (.file _) =>
        (some (if made || names.isEmpty then FileContent.entryExists else FileContent.noDirectory),
          d)

/-- Makes a directory with all that it lies in. -/
def makeDirectory (d : Disk) (path : String) : Option String × Disk :=
  let (place, names) := begin path
  match Path.fault? path with
  | some reason => (some reason, d)
  | none => d.makeThrough false place names

/-- The names on the way to the last name of a path, and the last name, which may have separators
after it. -/
def parted (names : List String) : List String × String :=
  let named := (names.reverse.dropWhile (· = "")).reverse
  (named.dropLast, named.getLast?.getD "")

/-- The place at which a file is to be written, or the reason why none can be.  A last name that is
followed by a separator can only be that of a directory. -/
def placeToWrite (d : Disk) (path : String) : Except String Place := do
  let (place, names) := begin path
  let (way, name) := parted names
  let directory ← d.follow place way
  match d.node? directory with
  | none => .error FileContent.noEntry
  | some (.file _) => .error FileContent.noDirectory
  | some .directory =>
    if path = "" then .error FileContent.noEntry
    else if path.endsWith "/" then .error FileContent.isDirectory
    else
      let place ← stepFrom directory name
      if d.node? place = some .directory then .error FileContent.isDirectory else .ok place

/-- Writes a file into a directory that there is. -/
def write (d : Disk) (path text : String) : Option String × Disk :=
  match Path.fault? path with
  | some reason => (some reason, d)
  | none =>
    match d.placeToWrite path with
    | .error reason => (some reason, d)
    | .ok place => (none, { d with texts := (place, text) :: d.texts })

/-- What a command may do with a disk. -/
def files : Files (StateM Disk) where
  content path := fun d => (d.content path, d)
  makeDirectory path := fun d => d.makeDirectory path
  write path text := fun d => d.write path text

/-- The directories on the way to a place. -/
def above : Place → List Place
  | [] => []
  | _ :: place => place :: above place

/-- The place that a path leads to where all directories on the way are there. -/
def placeOf (path : String) : Place :=
  let (place, names) := begin path
  names.foldl step place

/-- A disk that holds some texts. -/
def ofTexts (texts : List (String × String)) : Disk :=
  let texts := texts.map fun (path, text) => (placeOf path, text)
  ⟨texts, texts.flatMap fun (place, _) => above place⟩

end Disk

end AgentLoop
