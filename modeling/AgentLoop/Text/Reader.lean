/-!
# Reading from the front of a text

A reader takes something from the front of a text and says what is left, or fails.  Readers are
put together by `do` blocks, by `<|>`, which tries the second where the first fails, and by
`Reader.many`, which goes on as long as there is something to take.

* `Reader` with its instances, `Reader.one`, `Reader.the`, `Reader.span` and `Reader.peek`.
* `Reader.many`, `Reader.some` and `Reader.separated` repeat a reader.
* `Reader.whole` reads a whole text.
-/

namespace AgentLoop

/-- Takes something from the front of a text: what it is, and what is left. -/
def Reader (α : Type) : Type := List Char → Option (α × List Char)

namespace Reader

instance : Monad Reader where
  pure a := fun cs => .some (a, cs)
  bind p f := fun cs =>
    match p cs with
    | none => none
    | .some (a, rest) => f a rest

instance : Alternative Reader where
  failure := fun _ => none
  orElse p q := fun cs =>
    match p cs with
    | none => q () cs
    | .some r => .some r

variable {α β : Type}

/-- What is there, or nothing to go on with. -/
def ofOption : Option α → Reader α
  | none => failure
  | .some a => pure a

/-- One character of a class. -/
def one (ok : Char → Bool) : Reader Char
  | [] => none
  | c :: cs => if ok c then .some (c, cs) else none

/-- A given character. -/
def the (c : Char) : Reader Unit
  | [] => none
  | d :: cs => if d = c then .some ((), cs) else none

/-- Given characters. -/
def word : List Char → Reader Unit
  | [] => pure ()
  | c :: cs => do
    the c
    word cs

/-- The longest run of characters of a class, which may be empty. -/
def span (ok : Char → Bool) : Reader (List Char) := fun cs =>
  .some (cs.takeWhile ok, cs.dropWhile ok)

/-- The longest run of characters of a class, of which there is at least one. -/
def run (ok : Char → Bool) : Reader (List Char) := do
  let c ← one ok
  let cs ← span ok
  return c :: cs

/-- The next character, which stays where it is. -/
def peek : Reader (Option Char) := fun cs => .some (cs.head?, cs)

/-- What a reader takes, if it takes anything. -/
def possible (p : Reader α) : Reader (Option α) :=
  (do
    let a ← p
    return .some a) <|> pure none

/-- What a reader takes, as it stands in the text. -/
def taken (p : Reader α) : Reader (List Char) := fun cs =>
  match p cs with
  | none => none
  | .some (_, rest) => .some (cs.take (cs.length - rest.length), rest)

/-- At most `limit` things in a row. -/
def upTo (p : Reader α) : Nat → Reader (List α)
  | 0 => pure []
  | limit + 1 => fun cs =>
    match p cs with
    | none => .some ([], cs)
    | .some (a, rest) =>
      if rest.length < cs.length then
        (upTo p limit rest).map fun (as, left) => (a :: as, left)
      else .some ([], cs)

/-- As many things in a row as there are. -/
def many (p : Reader α) : Reader (List α) := fun cs => upTo p cs.length cs

/-- As many things in a row as there are, at least one. -/
def some (p : Reader α) : Reader (List α) := do
  let a ← p
  let as ← many p
  return a :: as

/-- Things with a separator between them, at least one. -/
def separated (separator : Reader β) (p : Reader α) : Reader (List α) := do
  let a ← p
  let as ← many (do
    let _ ← separator
    p)
  return a :: as

/-- Exactly `count` characters of a class. -/
def exactly (ok : Char → Bool) : Nat → Reader (List Char)
  | 0 => pure []
  | count + 1 => do
    let c ← one ok
    let cs ← exactly ok count
    return c :: cs

/-- What a reader takes, if it takes the whole text. -/
def whole (p : Reader α) (text : List Char) : Option α :=
  match p text with
  | .some (a, []) => .some a
  | _ => none

end Reader

end AgentLoop
