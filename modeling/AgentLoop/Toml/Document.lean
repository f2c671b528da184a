import AgentLoop.Toml.Statement

/-!
# TOML documents

* `Toml.ofStatements` puts the statements of a document together.
* `Toml.read` reads a document.
-/

namespace AgentLoop

/-- Where in a document the next entry belongs, and what has been put together so far. -/
structure DocumentDraft where
  place? : Option (List String × String)
  root : Draft

namespace DocumentDraft

/-- A document without statements. -/
def empty : DocumentDraft := ⟨none, .empty⟩

/-- Enters a value in the current section. -/
def enter (d : DocumentDraft) (path : List String) (key : String) (value : Toml) :
    Option DocumentDraft := do
  let place :=
    match d.place? with
    | none => []
    | some (path, key) => path ++ [key]
  let root ← Draft.within false (Draft.assign path key value) place d.root
  return { d with root }

/-- The document with one more statement. -/
def follow (d : DocumentDraft) : Statement → Option DocumentDraft
  | .header path key => (Draft.define path key d.root).map fun root => ⟨some (path, key), root⟩
  | .doubleHeader path key =>
    (Draft.append path key d.root).map fun root => ⟨some (path, key), root⟩
  | .entry path key value => d.enter path key value

end DocumentDraft

namespace Toml

/-- The table that the statements of a document describe, if nothing is defined twice. -/
def ofStatements (statements : List Statement) : Option TomlTable :=
  (statements.foldlM DocumentDraft.follow DocumentDraft.empty).map fun d => d.root.toTable

/-- Reads a document. -/
def read (text : String) : Option TomlTable := do
  ofStatements (← Statement.all text.toList)

end Toml

end AgentLoop
