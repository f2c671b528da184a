import AgentLoop.Json.Tree
import AgentLoop.Text.Blank
import AgentLoop.Text.Cut

/-!
# The final answer

The text of a confirmed reply becomes a mapping from keys to values.  A text that is a JSON object
is that mapping; else the first fenced block is tried, a run of lines between two marks of three
backticks of which the first may carry a language tag; and a text that holds neither becomes the
one value of the key `response`, unchanged.

* `Answer.read` is that rule, `Answer.fenced?` finds the block, `Answer.object?` reads an object.
-/

namespace AgentLoop.Answer

/-- The key of an answer that is plain text. -/
def defaultKey : String := "response"

/-- The mark that opens and closes a fenced block. -/
def fence : List Char := "```".toList

/-- The object that a text is, if it is one. -/
def object? (text : List Char) : Option JsonObject :=
  match Json.read (String.ofList text) with
  | .ok (.obj fields) => some fields
  | _ => none

/-- The body of the first fenced block: what stands between the line of the opening fence and
the next fence, without blanks around it. -/
def fenced? (text : List Char) : Option (List Char) := do
  let (_, opened) ← Text.cut? fence text
  let (_, body) ← Text.cut? ['\n'] opened
  let (block, _) ← Text.cut? fence body
  return Text.trimChars block

/-- The mapping that a final text stands for. -/
def read (text : String) : JsonObject :=
  match object? (Text.trimChars text.toList) with
  | some fields => fields
  | none =>
    match (fenced? text.toList).bind object? with
    | some fields => fields
    | none => [(defaultKey, .str text)]

end AgentLoop.Answer
