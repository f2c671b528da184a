import AgentLoop.Toml.Basic

/-!
# Building tables

The entries of a table come from headers, from dotted keys and from plain keys, in any mixture
that defines nothing twice.  While a document is read, a table remembers how it came about:

* by a header of its own or as the document itself (`defined`); nothing can define it again;
* because a header names a table inside it (`implied`); a header of its own may still follow;
* because a dotted key goes through it (`dotted`); further dotted keys may go through it.

`Tables.define` and `Tables.append` follow a header, `Tables.assign` enters a key with its value,
and `Node.toToml` forgets how the tables came about.
-/

namespace AgentLoop

/-- How a table came about. -/
inductive Origin where
  | defined
  | implied
  | dotted
  deriving DecidableEq, Repr, Inhabited

/-- A value or a table under construction. -/
inductive Node where
  | value (value : Toml)
  | table (origin : Origin) (entries : List (String × Node))
  /-- Tables that a header with double brackets collects; the last one is open. -/
  | tables (items : List (List (String × Node)))
  deriving Inhabited

/-- The entries of a table under construction. -/
abbrev Nodes := List (String × Node)

/-- A table under construction, with how it came about. -/
abbrev Draft := Origin × Nodes

namespace Nodes

/-- The entries with one of them replaced. -/
def replace (key : String) (node : Node) (entries : Nodes) : Nodes :=
  entries.map fun (k, n) => if k = key then (k, node) else (k, n)

end Nodes

namespace Draft

/-- Changes the table at the end of a path.  Where the path leads through nothing, tables are made
that came about by the path.  A dotted path does not lead into a table with a header. -/
def within (dotted : Bool) (change : Draft → Option Draft) : List String → Draft → Option Draft
  | [], draft => change draft
  | key :: path, (origin, entries) =>
    match entries.lookup key with
    | none => do
      let (o, es) ← within dotted change path (if dotted then .dotted else .implied, [])
      return (origin, entries ++ [(key, .table o es)])
    | some (.value _) => none
    | some (.tables items) => do
      let last ← items.getLast?
      let (_, es) ← within dotted change path (.defined, last)
      return (origin, Nodes.replace key (.tables (items.dropLast ++ [es])) entries)
    | some (.table o es) =>
      if dotted && o == .defined then none
      else do
        let (o, es) ← within dotted change path (o, es)
        return (origin, Nodes.replace key (.table o es) entries)

/-- Enters a key that is not there yet. -/
def enter (key : String) (node : Node) (draft : Draft) : Option Draft :=
  match draft.2.lookup key with
  | none => some (draft.1, draft.2 ++ [(key, node)])
  | some _ => none

/-- Follows the header of a table. -/
def define (path : List String) (key : String) : Draft → Option Draft :=
  within false (fun (origin, entries) =>
    match entries.lookup key with
    | none => some (origin, entries ++ [(key, .table .defined [])])
    | some (.table .implied es) => some (origin, Nodes.replace key (.table .defined es) entries)
    | some _ => none) path

/-- Follows the header of one more of several tables. -/
def append (path : List String) (key : String) : Draft → Option Draft :=
  within false (fun (origin, entries) =>
    match entries.lookup key with
    | none => some (origin, entries ++ [(key, .tables [[]])])
    | some (.tables items) => some (origin, Nodes.replace key (.tables (items ++ [[]])) entries)
    | some _ => none) path

/-- Enters a value under a key, which may be dotted. -/
def assign (path : List String) (key : String) (value : Toml) : Draft → Option Draft :=
  within true (fun draft =>
    if (draft.1 == .dotted) == path.isEmpty then none else draft.enter key (.value value)) path

/-- The draft of an empty table. -/
def empty : Draft := (.defined, [])

end Draft

mutual

/-- The value that was constructed. -/
def Node.toToml : Node → Toml
  | .value v => v
  | .table _ entries => .table (Node.entriesToToml entries)
  | .tables items => .array (Node.itemsToToml items)

/-- `Node.toToml` for the entries of a table. -/
def Node.entriesToToml : List (String × Node) → TomlTable
  | [] => []
  | (key, node) :: entries => (key, node.toToml) :: Node.entriesToToml entries

/-- `Node.toToml` for collected tables. -/
def Node.itemsToToml : List (List (String × Node)) → List Toml
  | [] => []
  | entries :: items => .table (Node.entriesToToml entries) :: Node.itemsToToml items

end

/-- The table that was constructed. -/
def Draft.toTable (draft : Draft) : TomlTable := Node.entriesToToml draft.2

end AgentLoop
