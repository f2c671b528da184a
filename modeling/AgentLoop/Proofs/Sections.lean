import AgentLoop.Proofs.WrittenDocuments
import AgentLoop.Toml.Document
import Mathlib.Data.List.Nodup

/-!
# The sections of a document put its table together

The statements of a document change one table under construction, each at the place to which its
header leads.  A section adds its table as the last entry of the table around it, so what was put
together before stays as it is.

* `Draft.Place` says that a way leads to the place where a function puts a draft, and `Draft.Leads`
  that a change at the end of the way is a change there.  `Place.putLast` goes on to a table that is
  the last entry, `Leads.absent` to one that is not there yet.
* `DocumentDraft.follow_header` and `follow_entries` are the steps.
* `Toml.Adds` says what a run of statements adds.  `Toml.adds_sections` is the result for the
  sections of some entries, by induction on the tables; a table without a header comes about by the
  headers of the tables inside it.
* `Toml.ofStatements_statements` and `Toml.read_document` are the results for documents.
-/

namespace AgentLoop

variable {path : List String} {key : String} {origin : Origin} {nodes : Nodes}
  {root draft : Draft} {put : Draft → Draft} {value : Toml} {entries : TomlTable}

namespace Draft

/-! ## Changes inside a table -/

/-- A way in two parts is gone one part after the other. -/
theorem within_append (dotted : Bool) (change : Draft → Option Draft) (path path' : List String)
    (draft : Draft) :
    within dotted change (path ++ path') draft =
      within dotted (within dotted change path') path draft := by
  induction path generalizing draft with
  | nil => rfl
  | cons key path ih =>
    obtain ⟨origin, entries⟩ := draft
    simp only [List.cons_append, within, ih]

/-- The way leads from a table to the draft, and a change of the draft is a change of the table. -/
def Leads (path : List String) (root draft : Draft) (put : Draft → Draft) : Prop :=
  ∀ change, within false change path root = (change draft).map put

/-- The way leads to the place where `put` puts a draft. -/
def Place (path : List String) (put : Draft → Draft) : Prop :=
  ∀ draft, Leads path (put draft) draft put

theorem place_nil : Place [] id := by
  intro draft change
  rw [within, Option.map_id, id, id]

/-- Puts a draft as the last entry of a table, and the table in its place. -/
def putLast (put : Draft → Draft) (origin : Origin) (nodes : Nodes) (key : String)
    (draft : Draft) : Draft :=
  put (origin, nodes ++ [(key, .table draft.1 draft.2)])

theorem lookup_last {key : String} {node : Node} (h : nodes.lookup key = none) :
    List.lookup key (nodes ++ [(key, node)]) = some node := by
  simp [List.lookup_append, h]

theorem replace_last {key : String} {node node' : Node} (h : nodes.lookup key = none) :
    Nodes.replace key node' (nodes ++ [(key, node)]) = nodes ++ [(key, node')] := by
  have hothers : Nodes.replace key node' nodes = nodes := by
    refine (List.map_congr_left fun entry hentry => ?_).trans (List.map_id nodes)
    have hne := List.lookup_eq_none_iff.1 h entry hentry
    exact if_neg fun heq => by simp [heq] at hne
  rw [Nodes.replace, List.map_append, ← Nodes.replace, hothers]
  simp

theorem within_last (change : Draft → Option Draft) (h : nodes.lookup key = none) (draft : Draft) :
    within false change [key] (origin, nodes ++ [(key, .table draft.1 draft.2)]) =
      (change draft).map fun draft => (origin, nodes ++ [(key, .table draft.1 draft.2)]) := by
  rw [within]
  simp only [lookup_last h, replace_last h]
  cases hchange : change draft with
  | none => simp [within, hchange]
  | some draft' => simp [within, hchange]

theorem within_absent (change : Draft → Option Draft) (h : nodes.lookup key = none) :
    within false change [key] (origin, nodes) =
      (change (.implied, [])).map fun draft =>
        (origin, nodes ++ [(key, .table draft.1 draft.2)]) := by
  rw [within]
  simp only [h]
  cases hchange : change (.implied, []) with
  | none => simp [within, hchange]
  | some draft' => simp [within, hchange]

theorem Place.putLast (hplace : Place path put) (h : nodes.lookup key = none) :
    Place (path ++ [key]) (putLast put origin nodes key) := by
  intro draft change
  rw [within_append, Draft.putLast, hplace, within_last change h, Option.map_map]
  rfl

/-- A key that is not there counts as an empty table that is implied. -/
theorem Leads.absent (hleads : Leads path root (origin, nodes) put) (h : nodes.lookup key = none) :
    Leads (path ++ [key]) root (.implied, []) (Draft.putLast put origin nodes key) := by
  intro change
  rw [within_append, hleads, within_absent change h, Option.map_map]
  rfl

/-! ## Headers and entries -/

theorem define_absent (hleads : Leads path root (origin, nodes) put)
    (h : nodes.lookup key = none) :
    define path key root = some (Draft.putLast put origin nodes key (.defined, [])) := by
  rw [define, hleads]
  simp only [h, Option.map_some]
  rfl

theorem assign_absent (horigin : origin ≠ .dotted) (h : nodes.lookup key = none) :
    assign [] key value (origin, nodes) = some (origin, nodes ++ [(key, .value value)]) := by
  rw [assign, within]
  simp [horigin, enter, h]

/-- The entries have different keys, none of which is there yet. -/
structure Room (nodes : Nodes) (entries : TomlTable) : Prop where
  nodup : (entries.map Prod.fst).Nodup
  absent : ∀ entry ∈ entries, nodes.lookup entry.1 = none

theorem Room.head (h : Room nodes ((key, value) :: entries)) : nodes.lookup key = none :=
  h.absent _ List.mem_cons_self

theorem Room.tail (h : Room nodes ((key, value) :: entries)) (node : Node) :
    Room (nodes ++ [(key, node)]) entries := by
  have hnodup := List.nodup_cons.1 h.nodup
  refine ⟨hnodup.2, fun entry hentry => ?_⟩
  have hne : entry.1 ≠ key := fun heq =>
    hnodup.1 (List.mem_map.2 ⟨entry, hentry, heq⟩)
  rw [List.lookup_append, h.absent entry (List.mem_cons_of_mem _ hentry)]
  simp [hne]

end Draft

namespace DocumentDraft

open Draft

/-- The way to the section in which the next entry belongs. -/
def wayTo : Option (List String × String) → List String
  | none => []
  | some (path, key) => path ++ [key]

theorem follow_header {place? : Option (List String × String)}
    (hleads : Leads path root (origin, nodes) put) (h : nodes.lookup key = none) :
    follow ⟨place?, root⟩ (.header path key) =
      some ⟨some (path, key), Draft.putLast put origin nodes key (.defined, [])⟩ := by
  rw [follow, define_absent hleads h, Option.map_some]

theorem follow_entry {place? : Option (List String × String)}
    (hplace : Place (wayTo place?) put) (horigin : origin ≠ .dotted)
    (h : nodes.lookup key = none) :
    follow ⟨place?, put (origin, nodes)⟩ (.entry [] key value) =
      some ⟨place?, put (origin, nodes ++ [(key, .value value)])⟩ := by
  have hwithin : within false (assign [] key value) (wayTo place?) (put (origin, nodes)) =
      some (put (origin, nodes ++ [(key, .value value)])) := by
    rw [hplace, assign_absent horigin h, Option.map_some]
  rw [follow, enter]
  cases place? <;> simp only [wayTo] at hwithin <;> simp [hwithin]

/-- The entries of a section are entered one after the other. -/
theorem follow_entries {place? : Option (List String × String)}
    (hplace : Place (wayTo place?) put) (horigin : origin ≠ .dotted) (h : Room nodes entries) :
    (entries.map fun entry => Statement.entry [] entry.1 entry.2).foldlM follow
        ⟨place?, put (origin, nodes)⟩ =
      some ⟨place?, put (origin, nodes ++ entries.map fun entry => (entry.1, .value entry.2))⟩ := by
  induction entries generalizing nodes with
  | nil => simp
  | cons entry entries ih =>
    obtain ⟨key, value⟩ := entry
    rw [List.map_cons, List.foldlM_cons, follow_entry hplace horigin h.head]
    simpa using ih (h.tail (.value value))

end DocumentDraft

namespace Toml

open Draft DocumentDraft

/-! ## Tables under construction -/

/-- The entries of a table that are no tables, as they are entered. -/
def valueNodes (entries : TomlTable) : Nodes :=
  (entries.filter fun entry => !entry.2.isTable).map fun entry => (entry.1, .value entry.2)

/-- How a table comes about: by its header, or, if it has none, by that of a table inside it. -/
def originOf (entries : TomlTable) : Origin :=
  if (⟨[], entries⟩ : Section).isVisible then .defined else .implied

mutual

/-- The table under a key, as its sections put it together. -/
def tableNode (key : String) : Toml → Nodes
  | .table entries =>
    [(key, .table (originOf entries) (valueNodes entries ++ tableNodes entries))]
  | _ => []

/-- `Toml.tableNode` for all entries of a table. -/
def tableNodes : List (String × Toml) → Nodes
  | [] => []
  | (key, value) :: entries => value.tableNode key ++ tableNodes entries

end

/-- The statements of the sections that have a header. -/
def sectionStatements (ss : List Section) : List Statement :=
  (ss.filter Section.isVisible).flatMap Section.statements

theorem entriesToToml_append (nodes nodes' : Nodes) :
    Node.entriesToToml (nodes ++ nodes') =
      Node.entriesToToml nodes ++ Node.entriesToToml nodes' := by
  induction nodes with
  | nil => rfl
  | cons entry nodes ih => simp [Node.entriesToToml, ih]

theorem entriesToToml_valueNodes (entries : TomlTable) :
    Node.entriesToToml (valueNodes entries) = entries.filter fun entry => !entry.2.isTable := by
  rw [valueNodes]
  induction entries.filter fun entry => !entry.2.isTable with
  | nil => rfl
  | cons entry plain ih => simp [Node.entriesToToml, Node.toToml, ih]

mutual

theorem entriesToToml_tableNode : ∀ (key : String) (value : Toml) (depth : Nat),
    value.Regular depth → Node.entriesToToml (value.tableNode key) =
      [(key, value)].filter fun entry => entry.2.isTable
  | key, .table entries, _, h => by
    obtain ⟨-, -, hlast, hentries⟩ := h
    rw [tableNode, Node.entriesToToml, Node.toToml, entriesToToml_append,
      entriesToToml_valueNodes, entriesToToml_tableNodes entries _ hentries, hlast]
    rfl
  | _, .text _, _, _ | _, .integer _, _, _ | _, .float _, _, _ | _, .bool _, _, _
  | _, .dateTime _, _, _ | _, .array _, _, _ => rfl

/-- The tables that the sections put together are the tables. -/
theorem entriesToToml_tableNodes : ∀ (entries : List (String × Toml)) (depth : Nat),
    RegularEntries depth entries → Node.entriesToToml (tableNodes entries) =
      entries.filter fun entry => entry.2.isTable
  | [], _, _ => rfl
  | (key, value) :: entries, _, h => by
    rw [tableNodes, entriesToToml_append, entriesToToml_tableNode key value _ h.1,
      entriesToToml_tableNodes entries _ h.2, ← List.filter_append]
    rfl

end

/-! ## Sections -/

theorem room_filter (h : (entries.map Prod.fst).Nodup) (p : String × Toml → Bool) :
    Room [] (entries.filter p) :=
  ⟨h.sublist (List.filter_sublist.map Prod.fst), fun _ _ => rfl⟩

/-- Behind the entries that are no tables there is room for the tables. -/
theorem room_tables (h : (entries.map Prod.fst).Nodup) :
    Room (valueNodes entries) (entries.filter fun entry => entry.2.isTable) := by
  refine ⟨(room_filter h _).nodup, fun entry hentry => ?_⟩
  rw [List.lookup_eq_none_iff]
  intro node hnode
  obtain ⟨other, hother, rfl⟩ := List.mem_map.1 hnode
  rw [List.mem_filter] at hentry hother
  simp only [bne_iff_ne]
  intro heq
  have := List.inj_on_of_nodup_map h hentry.1 hother.1 heq
  simp [← this, hentry.2] at hother

theorem eq_nil_of_isTable_eq_false (h : value.isTable = false) (path : List String) (key : String) :
    value.sectionsAt path = [] ∧ value.tableNode key = [] := by
  cases value with
  | table entries => contradiction
  | _ => exact ⟨rfl, rfl⟩

theorem exists_tableNode (h : value.isTable = true) (key : String) :
    ∃ node, value.tableNode key = [(key, node)] := by
  cases value with
  | table entries => exact ⟨_, rfl⟩
  | _ => contradiction

theorem statements_of_isVisible {s : Section} (h : s.isVisible = true) (ss : List Section) :
    sectionStatements (s :: ss) = s.statements ++ sectionStatements ss := by
  rw [sectionStatements, List.filter_cons_of_pos h, List.flatMap_cons, ← sectionStatements]

theorem statements_of_not_isVisible {s : Section} (h : s.isVisible = false) (ss : List Section) :
    sectionStatements (s :: ss) = sectionStatements ss := by
  rw [sectionStatements, List.filter_cons_of_neg (by simp [h]), ← sectionStatements]

theorem tables_of_not_isVisible (h : (⟨path, entries⟩ : Section).isVisible = false) :
    entries ≠ [] ∧ ∀ entry ∈ entries, entry.2.isTable = true := by
  rw [Section.isVisible, Bool.or_eq_false_iff, List.isEmpty_eq_false_iff, List.any_eq_false] at h
  exact ⟨h.1, fun entry hentry => by simpa using h.2 entry hentry⟩

/-- A table that holds tables only holds some. -/
theorem tableNodes_ne_nil (h : (⟨path, entries⟩ : Section).isVisible = false)
    {depth : Nat}
    (hregular : RegularEntries depth entries) : tableNodes entries ≠ [] := by
  obtain ⟨hne, htables⟩ := tables_of_not_isVisible h
  intro hnone
  have hentries := entriesToToml_tableNodes entries depth hregular
  rw [hnone, List.filter_eq_self.2 htables] at hentries
  exact hne hentries.symm

/-- The statements add nodes to a table.  They change nothing where they add none. -/
def Adds (ss : List Statement) (root : Draft) (put : Draft → Draft) (origin : Origin)
    (nodes new : Nodes) : Prop :=
  ∀ place?, ∃ place?' root', ss.foldlM follow ⟨place?, root⟩ = some ⟨place?', root'⟩ ∧
    (new = [] ∧ root' = root ∨ root' = put (origin, nodes ++ new))

theorem adds_nil : Adds [] root put origin nodes [] := fun place? =>
  ⟨place?, root, rfl, .inl ⟨rfl, rfl⟩⟩

theorem Adds.append {ss ss' : List Statement} {new new' : Nodes}
    (hleads : Leads path root (origin, nodes) put) (hplace : Place path put)
    (h : Adds ss root put origin nodes new)
    (h' : ∀ root', Leads path root' (origin, nodes ++ new) put →
      Adds ss' root' put origin (nodes ++ new) new') :
    Adds (ss ++ ss') root put origin nodes (new ++ new') := by
  intro place?
  obtain ⟨place?', root', hss, hroot'⟩ := h place?
  have hleads' : Leads path root' (origin, nodes ++ new) put := by
    rcases hroot' with ⟨rfl, rfl⟩ | rfl
    · rwa [List.append_nil]
    · exact hplace _
  obtain ⟨place?'', root'', hss', hroot''⟩ := h' root' hleads' place?'
  refine ⟨place?'', root'', ?_, ?_⟩
  · rw [List.foldlM_append, hss]
    exact hss'
  · rcases hroot'' with ⟨rfl, rfl⟩ | rfl
    · simpa using hroot'
    · exact .inr (by rw [List.append_assoc])

/-- A section with a header: the header makes the table, and its own entries come first. -/
theorem adds_visible {ss : List Section}
    (hvisible : (⟨path ++ [key], entries⟩ : Section).isVisible = true)
    (hnodup : (entries.map Prod.fst).Nodup) (hleads : Leads path root (origin, nodes) put)
    (hplace : Place path put) (hkey : nodes.lookup key = none)
    (htables : Adds (sectionStatements ss)
      (Draft.putLast put origin nodes key (.defined, valueNodes entries))
      (Draft.putLast put origin nodes key) .defined (valueNodes entries) (tableNodes entries)) :
    Adds (sectionStatements (⟨path ++ [key], entries⟩ :: ss)) root put origin nodes
      ((Toml.table entries).tableNode key) := by
  intro place?
  have hplace' : Place (wayTo (some (path, key))) (Draft.putLast put origin nodes key) :=
    hplace.putLast hkey
  have horigin : Origin.defined ≠ .dotted := by decide
  have hown := follow_entries hplace' horigin
    (room_filter hnodup fun entry => !entry.2.isTable)
  obtain ⟨place?', root', hss, hroot'⟩ := htables (some (path, key))
  refine ⟨place?', root', ?_, .inr ?_⟩
  · -- First the header, then the entries of its own, then the sections of the tables inside.
    rw [statements_of_isVisible hvisible, Section.statements, List.cons_append, List.foldlM_cons,
      List.dropLast_concat, List.getLastD_concat, follow_header hleads hkey]
    show List.foldlM follow _ (entryStatements entries ++ sectionStatements ss) = _
    rw [List.foldlM_append, entryStatements, hown]
    exact hss
  · have hdefined : originOf entries = .defined := if_pos hvisible
    rw [tableNode, hdefined]
    rcases hroot' with ⟨hnone, rfl⟩ | rfl
    · rw [hnone, List.append_nil, Draft.putLast]
    · rfl

/-- A section without a header: those of the tables inside it make it. -/
theorem adds_invisible {ss : List Section}
    (hvisible : (⟨path ++ [key], entries⟩ : Section).isVisible = false)
    (htables : Adds (sectionStatements ss) root (Draft.putLast put origin nodes key) .implied []
      (tableNodes entries)) (hsome : tableNodes entries ≠ []) :
    Adds (sectionStatements (⟨path ++ [key], entries⟩ :: ss)) root put origin nodes
      ((Toml.table entries).tableNode key) := by
  intro place?
  obtain ⟨place?', root', hss, hroot'⟩ := htables place?
  refine ⟨place?', root', by rw [statements_of_not_isVisible hvisible, hss], .inr ?_⟩
  have himplied : originOf entries = .implied := if_neg (Bool.not_eq_true _ ▸ hvisible)
  have hvalues : valueNodes entries = [] := by
    rw [valueNodes, List.map_eq_nil_iff, List.filter_eq_nil_iff]
    intro entry hentry
    simp [(tables_of_not_isVisible hvisible).2 entry hentry]
  rw [tableNode, himplied, hvalues]
  rcases hroot' with ⟨hnone, -⟩ | rfl
  · exact absurd hnone hsome
  · rfl

mutual

theorem adds_sectionsAt : ∀ (path : List String) (key : String) (value : Toml) (root : Draft)
    (put : Draft → Draft) (origin : Origin) (nodes : Nodes) (depth : Nat), value.Regular depth →
    Leads path root (origin, nodes) put → Place path put → nodes.lookup key = none →
    Adds (sectionStatements (value.sectionsAt (path ++ [key]))) root put origin nodes
      (value.tableNode key)
  | path, key, .table entries, root, put, origin, nodes, _, hregular, hleads, hplace, hkey => by
    obtain ⟨-, hnodup, -, hentries⟩ := hregular
    have hplace' : Place (path ++ [key]) (Draft.putLast put origin nodes key) :=
      hplace.putLast hkey
    rw [sectionsAt]
    cases hvisible : (⟨path ++ [key], entries⟩ : Section).isVisible with
    | true =>
      exact adds_visible hvisible hnodup hleads hplace hkey
        (adds_sections _ entries _ _ _ _ _ hentries (hplace' _) hplace' (room_tables hnodup))
    | false =>
      exact adds_invisible hvisible (adds_sections _ entries _ _ _ _ _ hentries
        (hleads.absent hkey) hplace' (room_filter hnodup _)) (tableNodes_ne_nil hvisible hentries)
  | _, _, .text _, _, _, _, _, _, _, _, _, _ | _, _, .integer _, _, _, _, _, _, _, _, _, _
  | _, _, .float _, _, _, _, _, _, _, _, _, _ | _, _, .bool _, _, _, _, _, _, _, _, _, _
  | _, _, .dateTime _, _, _, _, _, _, _, _, _, _ | _, _, .array _, _, _, _, _, _, _, _, _, _ =>
    adds_nil

/-- The sections of some entries add their tables. -/
theorem adds_sections : ∀ (path : List String) (entries : List (String × Toml)) (root : Draft)
    (put : Draft → Draft) (origin : Origin) (nodes : Nodes) (depth : Nat),
    RegularEntries depth entries →
    Leads path root (origin, nodes) put → Place path put →
    Room nodes (entries.filter fun entry => entry.2.isTable) →
    Adds (sectionStatements (sections path entries)) root put origin nodes (tableNodes entries)
  | _, [], _, _, _, _, _, _, _, _, _ => adds_nil
  | path, (key, value) :: entries, root, put, origin, nodes, _, hregular, hleads, hplace,
    hroom => by
    rw [sections, tableNodes]
    cases htable : value.isTable with
    | false =>
      obtain ⟨hsections, hnode⟩ := eq_nil_of_isTable_eq_false htable (path ++ [key]) key
      rw [List.filter_cons_of_neg (by simp [htable])] at hroom
      rw [hsections, hnode]
      exact adds_sections path entries root put origin nodes _ hregular.2 hleads hplace hroom
    | true =>
      obtain ⟨node, hnode⟩ := exists_tableNode htable key
      rw [List.filter_cons_of_pos (by exact htable)] at hroom
      rw [sectionStatements, List.filter_append, List.flatMap_append]
      refine (adds_sectionsAt path key value root put origin nodes _ hregular.1 hleads hplace
        hroom.head).append hleads hplace fun root' hleads' => ?_
      exact adds_sections path entries root' put origin _ _ hregular.2 hleads' hplace
        (hnode ▸ hroom.tail node)

end

/-- The statements of a document put its table together. -/
theorem ofStatements_statements (h : (Toml.table entries).Regular 0) :
    ofStatements (statements entries) = some entries := by
  obtain ⟨-, hnodup, hlast, hentries⟩ := h
  have hplace : Place (wayTo none) id := place_nil
  have horigin : Origin.defined ≠ .dotted := by decide
  have hown := follow_entries hplace horigin
    (room_filter hnodup fun entry => !entry.2.isTable)
  obtain ⟨place?, root, hsections, hroot⟩ := adds_sections [] entries _ id .defined
    (valueNodes entries) 0 hentries (place_nil _) place_nil (room_tables hnodup) none
  have hall : (statements entries).foldlM follow empty = some ⟨place?, root⟩ := by
    rw [statements, List.foldlM_append, entryStatements]
    show (List.foldlM follow ⟨none, id (.defined, [])⟩ _ >>= _) = _
    rw [hown]
    exact hsections
  have hroot' : root.2 = valueNodes entries ++ tableNodes entries := by
    rcases hroot with ⟨hnone, rfl⟩ | rfl
    · rw [hnone, List.append_nil]
      rfl
    · rfl
  rw [ofStatements, hall, Option.map_some, Draft.toTable, hroot', entriesToToml_append,
    entriesToToml_valueNodes, entriesToToml_tableNodes entries 0 hentries, hlast]

/-- A document is read as the table that was written. -/
theorem read_document (h : (Toml.table entries).Regular 0) :
    read (String.ofList (document entries ++ ['\n'])) = some entries := by
  have hall := all_document h.2.2.2
  rw [read, String.toList_ofList, hall]
  exact ofStatements_statements h

end Toml

end AgentLoop
