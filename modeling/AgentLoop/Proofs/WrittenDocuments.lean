import AgentLoop.Proofs.WrittenValues

/-!
# Documents in TOML are read back line by line

* `Statement.line_entry` and `line_header` are about the two kinds of lines that say something.
* `Statement.Reads` says that a text consists of lines that say certain things.  It goes over from
  parts to the whole, with `Reads.append` and `reads_intersperse`.
* `Toml.statements` lists what a document says, and `Toml.reads_document` that its text says so.
* `Toml.Regular` is about a table with all tables inside it: the keys differ, the values are
  legible, and the tables come last.  `Toml.all_document` is the result for such a table.
-/

namespace AgentLoop

open Reader hiding some

variable {c : Char} {cs text text' rest : List Char} {ss ss' : List Statement}

namespace Statement

/-! ## Keys -/

theorem keyPart_keyChars (key : String) (hrest : Ends Quoted.isBare rest) :
    keyPart (Toml.keyChars key ++ rest) = some (key, rest.dropWhile Quoted.isSpace) := by
  obtain ⟨d, ds, hkey, hd⟩ := Quoted.exists_writeKey key.toList
  have hspace : Quoted.isSpace d = false := by
    have hblank : d ≠ ' ' ∧ d ≠ '\t' := ⟨hd.ne (by decide), hd.ne (by decide)⟩
    simp [Quoted.isSpace, hblank]
  have hspaces : spaces (Toml.keyChars key ++ rest) = some ((), Toml.keyChars key ++ rest) := by
    rw [Toml.keyChars, hkey]
    exact bind_of_eq_some (span_of_ends (ends_cons hspace))
  have hmore : spaces rest = some ((), rest.dropWhile Quoted.isSpace) := rfl
  rw [keyPart, bind_of_eq_some hspaces]
  refine (bind_of_eq_some (Quoted.short_or_run_writeKey key.toList hrest)).trans ?_
  rw [bind_of_eq_some hmore, pure_apply, String.ofList_toList]

/-- The key of an entry. -/
theorem key_entry (k : String) (rest : List Char) :
    key (Toml.keyChars k ++ ' ' :: '=' :: rest) = some (([], k), '=' :: rest) := by
  have hpart : keyPart (Toml.keyChars k ++ ' ' :: '=' :: rest) = some (k, '=' :: rest) :=
    keyPart_keyChars k (ends_cons rfl)
  have hmore : many (do the '.'; keyPart) ('=' :: rest) = some ([], '=' :: rest) :=
    many_of_eq_none (bind_of_eq_none (the_of_ne (by decide)))
  have hparts : separated (the '.') keyPart (Toml.keyChars k ++ ' ' :: '=' :: rest) =
      some ([k], '=' :: rest) := by
    rw [separated, bind_of_eq_some hpart]
    exact bind_of_eq_some hmore
  rw [key, bind_of_eq_some hparts]
  rfl

/-- The keys in a header, with points between them. -/
def pathChars (path : List String) : List Char :=
  (List.intersperse ['.'] (path.map Toml.keyChars)).flatten

theorem pathChars_cons (k : String) (ks : List String) :
    pathChars (k :: ks) = Toml.keyChars k ++ ks.flatMap fun k => '.' :: Toml.keyChars k := by
  induction ks generalizing k with
  | nil => simp [pathChars]
  | cons l ks ih =>
    have := ih l
    simp only [pathChars, List.map_cons] at this ⊢
    rw [List.intersperse_cons_cons, List.flatten_cons, List.flatten_cons, this]
    simp

theorem keyPart_header (k : String) (hc : c = '.' ∨ c = ']') (cs : List Char) :
    keyPart (Toml.keyChars k ++ c :: cs) = some (k, c :: cs) := by
  rcases hc with rfl | rfl
  all_goals exact keyPart_keyChars k (ends_cons rfl)

theorem many_keyPart (ks : List String) (rest : List Char) :
    ∃ c cs, (ks.flatMap fun k => '.' :: Toml.keyChars k) ++ ']' :: rest = c :: cs ∧
      (c = '.' ∨ c = ']') ∧ many (do the '.'; keyPart) (c :: cs) = some (ks, ']' :: rest) := by
  induction ks with
  | nil =>
    exact ⟨_, _, rfl, .inr rfl, many_of_eq_none (bind_of_eq_none (the_of_ne (by decide)))⟩
  | cons k ks ih =>
    obtain ⟨c, cs, htext, hc, hmany⟩ := ih
    refine ⟨'.', Toml.keyChars k ++ c :: cs, ?_, .inl rfl, ?_⟩
    · rw [← htext, List.flatMap_cons, List.append_assoc, List.cons_append]
    · refine many_of_eq_some ((bind_of_eq_some the_self).trans (keyPart_header k hc cs)) ?_ hmany
      simp only [List.length_cons, List.length_append]
      omega

/-- The keys of a header. -/
theorem key_header {path : List String} (hne : path ≠ []) (hdepth : path.length ≤ maxDepth)
    (rest : List Char) :
    key (pathChars path ++ ']' :: rest) =
      some ((path.dropLast, path.getLastD ""), ']' :: rest) := by
  obtain ⟨k, ks, rfl⟩ := List.exists_cons_of_ne_nil hne
  obtain ⟨c, cs, htext, hc, hmany⟩ := many_keyPart ks rest
  have hparts : separated (the '.') keyPart (Toml.keyChars k ++ c :: cs) =
      some (k :: ks, ']' :: rest) := by
    rw [separated, bind_of_eq_some (keyPart_header k hc cs)]
    exact bind_of_eq_some hmany
  rw [pathChars_cons, List.append_assoc, htext, key, bind_of_eq_some hparts, if_pos hdepth,
    pure_apply]

/-! ## Lines -/

theorem trailing_newline (rest : List Char) : trailing ('\n' :: rest) = some ((), rest) := rfl

theorem line_blank (rest : List Char) : line ('\n' :: rest) = some (none, rest) := rfl

theorem exists_keyChars (k : String) : ∃ d ds, Toml.keyChars k = d :: ds ∧ Quoted.BeginsKey d :=
  Quoted.exists_writeKey k.toList

theorem solid_of_beginsKey (h : Quoted.BeginsKey c) : Solid c := by
  have hblank : c ≠ ' ' ∧ c ≠ '\t' := ⟨h.ne (by decide), h.ne (by decide)⟩
  refine ⟨?_, h.ne (by decide), h.ne (by decide), h.ne (by decide)⟩
  simp [Quoted.isSpace, hblank]

/-- A line that says something. -/
theorem line_of_statement {s : Statement} (hc : Solid c)
    (h : (headerLine <|> entryLine) (c :: cs) = some (s, rest)) :
    line (c :: cs) = some (some s, rest) := by
  rw [line, bind_of_eq_some (spaces_of_solid hc cs)]
  exact orElse_of_eq_some (bind_of_eq_some h)

theorem line_header {path : List String} (hne : path ≠ []) (hdepth : path.length ≤ maxDepth)
    (rest : List Char) :
    line ('[' :: (pathChars path ++ ']' :: '\n' :: rest)) =
      some (some (.header path.dropLast (path.getLastD "")), rest) := by
  have hdouble : word ['[', '['] ('[' :: (pathChars path ++ ']' :: '\n' :: rest)) = none := by
    obtain ⟨k, ks, rfl⟩ := List.exists_cons_of_ne_nil hne
    obtain ⟨d, ds, hkey, hd⟩ := exists_keyChars k
    rw [pathChars_cons, hkey, word, bind_of_eq_some the_self]
    exact word_of_ne (hd.ne (by decide))
  refine line_of_statement (by decide) (orElse_of_eq_some ?_)
  refine (orElse_of_eq_none (bind_of_eq_none hdouble)).trans ?_
  rw [bind_of_eq_some the_self, bind_of_eq_some (key_header hne hdepth _)]
  exact (bind_of_eq_some the_self).trans (bind_of_eq_some (trailing_newline rest))

theorem line_entry (k : String) {v : Toml} (h : v.Legible maxDepth) (rest : List Char) :
    line (Toml.keyChars k ++ ' ' :: '=' :: ' ' :: (v.chars ++ '\n' :: rest)) =
      some (some (.entry [] k v), rest) := by
  have hspaces : spaces (' ' :: (v.chars ++ '\n' :: rest)) =
      some ((), v.chars ++ '\n' :: rest) := by
    obtain ⟨c, cs, hchars, hc⟩ := h.solid
    rw [hchars]
    have hblank : span Quoted.isSpace ([' '] ++ c :: (cs ++ '\n' :: rest)) =
        some ([' '], c :: (cs ++ '\n' :: rest)) :=
      span_append (by simp [Quoted.isSpace]) (ends_cons hc.1)
    exact bind_of_eq_some hblank
  have hvalue := h.read ('\n' :: rest) (by rintro _ ⟨⟩; exact .inl rfl)
  have hassignment : assignment (value maxDepth)
      (Toml.keyChars k ++ ' ' :: '=' :: ' ' :: (v.chars ++ '\n' :: rest)) =
        some (([], k, v), '\n' :: rest) := by
    rw [assignment, bind_of_eq_some (key_entry k _)]
    exact (bind_of_eq_some the_self).trans
      ((bind_of_eq_some hspaces).trans (bind_of_eq_some hvalue))
  have hentry : entryLine (Toml.keyChars k ++ ' ' :: '=' :: ' ' :: (v.chars ++ '\n' :: rest)) =
      some (.entry [] k v, rest) := by
    rw [entryLine, bind_of_eq_some hassignment]
    exact bind_of_eq_some (trailing_newline rest)
  obtain ⟨d, ds, hkey, hd⟩ := exists_keyChars k
  rw [hkey] at hentry ⊢
  refine line_of_statement (solid_of_beginsKey hd) ((orElse_of_eq_none ?_).trans hentry)
  exact (orElse_of_eq_none (bind_of_eq_none (word_of_ne (hd.ne (by decide))))).trans
    (bind_of_eq_none (the_of_ne (hd.ne (by decide))))

/-! ## Documents -/

/-- The text consists of lines that say these things, whatever lines follow. -/
def Reads (text : List Char) (ss : List Statement) : Prop :=
  ∀ rest lines left, many line rest = some (lines, left) →
    ∃ lines', many line (text ++ rest) = some (lines', left) ∧
      lines'.filterMap id = ss ++ lines.filterMap id

theorem reads_nil : Reads [] [] := fun _ lines _ h => ⟨lines, h, rfl⟩

theorem Reads.append (h : Reads text ss) (h' : Reads text' ss') :
    Reads (text ++ text') (ss ++ ss') := by
  intro rest lines left hrest
  obtain ⟨lines', hmany', hlines'⟩ := h' rest lines left hrest
  obtain ⟨lines'', hmany'', hlines''⟩ := h _ lines' left hmany'
  refine ⟨lines'', by rwa [List.append_assoc], ?_⟩
  rw [hlines'', hlines', List.append_assoc]

theorem reads_line (o : Option Statement) (hne : text ≠ [])
    (h : ∀ rest, line (text ++ rest) = some (o, rest)) : Reads text o.toList := by
  intro rest lines left hrest
  refine ⟨o :: lines, many_of_eq_some (h rest) ?_ hrest, ?_⟩
  · have := List.length_pos_iff.2 hne
    rw [List.length_append]
    omega
  · cases o <;> rfl

theorem reads_blank : Reads ['\n'] [] := reads_line none (List.cons_ne_nil _ _) line_blank

/-- Parts with an empty line between them. -/
theorem reads_intersperse {texts : List (List Char)} {sss : List (List Statement)}
    (h : List.Forall₂ Reads texts sss) :
    Reads (List.intersperse ['\n'] texts).flatten sss.flatten := by
  induction h with
  | nil => exact reads_nil
  | @cons text ss texts sss hfirst hmore ih =>
    cases hmore with
    | nil => simpa using hfirst
    | cons hsecond hmore =>
      rw [List.intersperse_cons_cons, List.flatten_cons, List.flatten_cons, List.flatten_cons]
      exact hfirst.append (reads_blank.append ih)

/-- A document is read when its lines are. -/
theorem all_of_reads (h : Reads text ss) (hmark : text.head? ≠ some '\uFEFF') :
    all text = some ss := by
  obtain ⟨lines, hmany, hlines⟩ := h [] [] [] rfl
  rw [List.append_nil] at hmany
  rw [List.filterMap_nil, List.append_nil] at hlines
  rw [all]
  · rw [whole, hmany, Option.map_some, hlines]
  · rintro cs rfl
    exact hmark rfl

end Statement

namespace Toml

open Statement

/-- The statements about the entries that are no tables. -/
def entryStatements (entries : TomlTable) : List Statement :=
  (entries.filter fun entry => !entry.2.isTable).map fun entry => .entry [] entry.1 entry.2

/-- The statements of a section. -/
def Section.statements (s : Section) : List Statement :=
  .header s.path.dropLast (s.path.getLastD "") :: entryStatements s.entries

/-- The statements of a document. -/
def statements (table : TomlTable) : List Statement :=
  entryStatements table ++
    ((sections [] table).filter Section.isVisible).flatMap Section.statements

/-- The entries that are no tables are read back. -/
def LegibleEntries (entries : TomlTable) : Prop :=
  ∀ entry ∈ entries, entry.2.isTable = false → entry.2.Legible maxDepth

/-- The section is read back. -/
structure Section.Legible (s : Section) : Prop where
  ne_nil : s.path ≠ []
  depth : s.path.length ≤ maxDepth
  entries : LegibleEntries s.entries

theorem entryLines_eq (entries : TomlTable) :
    entryLines entries = (entries.filter fun entry => !entry.2.isTable).flatMap fun entry =>
      keyChars entry.1 ++ ' ' :: '=' :: ' ' :: (entry.2.chars ++ ['\n']) := by
  rw [entryLines]
  congr 1
  funext entry
  simp

theorem reads_entryLines {entries : TomlTable} (h : LegibleEntries entries) :
    Reads (entryLines entries) (entryStatements entries) := by
  have hplain : ∀ entry ∈ entries.filter fun entry => !entry.2.isTable,
      entry.2.Legible maxDepth := by
    intro entry hentry
    rw [List.mem_filter, Bool.not_eq_true'] at hentry
    exact h entry hentry.1 hentry.2
  rw [entryLines_eq, entryStatements]
  generalize entries.filter (fun entry => !entry.2.isTable) = plain at hplain
  induction plain with
  | nil => exact reads_nil
  | cons entry plain ih =>
    rw [List.forall_mem_cons] at hplain
    refine (reads_line (some (.entry [] entry.1 entry.2)) ?_ fun rest => ?_).append (ih hplain.2)
    · simp
    · simpa using line_entry entry.1 hplain.1 rest

theorem Section.Legible.reads {s : Section} (h : s.Legible) : Reads s.chars s.statements := by
  refine (reads_line (some (.header s.path.dropLast (s.path.getLastD ""))) ?_
    fun rest => ?_).append (reads_entryLines h.entries)
  · simp [Section.header]
  · simpa [Section.header, pathChars] using line_header h.ne_nil h.depth rest

/-- The parts of a document: the entries that are in no section, if there are any, and the
sections. -/
def parts (table : TomlTable) : List (List Char) :=
  let rest := ((sections [] table).filter Section.isVisible).map Section.chars
  if (entryLines table).isEmpty then rest else entryLines table :: rest

theorem document_eq (table : TomlTable) :
    document table = (List.intersperse ['\n'] (parts table)).flatten := rfl

/-- The lines of the entries begin with a key, if there are any. -/
theorem exists_entryLines (entries : TomlTable) :
    entryLines entries = [] ∧ entryStatements entries = [] ∨
      ∃ c cs, entryLines entries = c :: cs ∧ Quoted.BeginsKey c := by
  rw [entryLines_eq, entryStatements]
  cases entries.filter fun entry => !entry.2.isTable with
  | nil => exact .inl ⟨rfl, rfl⟩
  | cons entry plain =>
    obtain ⟨d, ds, hkey, hd⟩ := exists_keyChars entry.1
    rw [List.flatMap_cons, hkey]
    exact .inr ⟨d, _, rfl, hd⟩

theorem reads_document {table : TomlTable} (h : LegibleEntries table)
    (hsections : ∀ s ∈ sections [] table, s.Legible) :
    Reads (document table) (statements table) := by
  have hrest : List.Forall₂ Reads (((sections [] table).filter Section.isVisible).map Section.chars)
      (((sections [] table).filter Section.isVisible).map Section.statements) := by
    rw [List.forall₂_map_left_iff, List.forall₂_map_right_iff, List.forall₂_same]
    exact fun s hs => (hsections s (List.mem_of_mem_filter hs)).reads
  have hown := reads_entryLines h
  rw [document_eq, parts, statements, List.flatMap_def]
  rcases exists_entryLines table with ⟨hlines, hstatements⟩ | ⟨c, cs, hlines, -⟩
  · rw [hlines, hstatements]
    exact reads_intersperse hrest
  · rw [hlines] at hown ⊢
    exact reads_intersperse (.cons hown hrest)

/-- A document does not begin with a byte order mark. -/
theorem head_document (table : TomlTable) : (document table).head? ≠ some '\uFEFF' := by
  have hparts : ∀ text ∈ parts table, ∃ c cs, text = c :: cs ∧ c ≠ '\uFEFF' := by
    have hrest : ∀ text ∈ ((sections [] table).filter Section.isVisible).map Section.chars,
        ∃ c cs, text = c :: cs ∧ c ≠ '\uFEFF' := by
      intro text htext
      obtain ⟨s, -, rfl⟩ := List.mem_map.1 htext
      exact ⟨_, _, rfl, by decide⟩
    rw [parts]
    rcases exists_entryLines table with ⟨hlines, -⟩ | ⟨c, cs, hlines, hc⟩
    · rw [hlines]
      exact hrest
    · rw [hlines]
      exact List.forall_mem_cons.2 ⟨⟨c, cs, rfl, hc.ne (by decide)⟩, hrest⟩
  rw [document_eq]
  generalize parts table = texts at hparts
  rcases texts with _ | ⟨text, _ | ⟨text', texts⟩⟩
  · simp
  all_goals
    obtain ⟨c, cs, rfl, hc⟩ := hparts text List.mem_cons_self
    simpa using hc

/-! ## Tables -/

mutual

/-- In each table the keys differ, the entries that are no tables are read back, and the tables
come behind them.  No way to a table has more than `Statement.maxDepth` keys; `depth` is the number
of keys on the way to the value. -/
def Regular : Nat → Toml → Prop
  | depth, .table entries =>
    depth ≤ maxDepth ∧ (entries.map Prod.fst).Nodup ∧
      (entries.filter fun entry => !entry.2.isTable) ++
        (entries.filter fun entry => entry.2.isTable) = entries ∧
      RegularEntries depth entries
  | _, value => value.Legible maxDepth

/-- `Toml.Regular` for the value of every entry of a table. -/
def RegularEntries : Nat → List (String × Toml) → Prop
  | _, [] => True
  | depth, (_, value) :: entries => value.Regular (depth + 1) ∧ RegularEntries depth entries

end

theorem regularEntries_iff {depth : Nat} {entries : TomlTable} :
    RegularEntries depth entries ↔ ∀ entry ∈ entries, entry.2.Regular (depth + 1) := by
  induction entries with
  | nil => simp [RegularEntries]
  | cons entry entries ih => rw [RegularEntries, ih, List.forall_mem_cons]

theorem legibleEntries_of_regular {depth : Nat} {entries : TomlTable}
    (h : RegularEntries depth entries) : LegibleEntries entries := by
  intro entry hentry htable
  have hregular := regularEntries_iff.1 h entry hentry
  obtain ⟨key, value⟩ := entry
  cases value with
  | table entries => contradiction
  | _ => exact hregular

mutual

theorem legible_sectionsAt : ∀ (path : List String) (value : Toml), path ≠ [] →
    value.Regular path.length → ∀ s ∈ value.sectionsAt path, s.Legible
  | path, .table entries, hne, h => by
    obtain ⟨hdepth, -, -, hentries⟩ := h
    rw [sectionsAt, List.forall_mem_cons]
    exact ⟨⟨hne, hdepth, legibleEntries_of_regular hentries⟩,
      legible_sections path entries hentries⟩
  | _, .text _, _, _ | _, .integer _, _, _ | _, .float _, _, _ | _, .bool _, _, _
  | _, .dateTime _, _, _ | _, .array _, _, _ => by simp [sectionsAt]

theorem legible_sections : ∀ (path : List String) (entries : List (String × Toml)),
    RegularEntries path.length entries → ∀ s ∈ sections path entries, s.Legible
  | _, [], _ => by simp [sections]
  | path, (key, value) :: entries, h => by
    rw [sections, List.forall_mem_append]
    exact ⟨legible_sectionsAt (path ++ [key]) value (by simp) (by simpa using h.1),
      legible_sections path entries h.2⟩

end

/-- A document is read back, statement by statement.  A line break may follow. -/
theorem all_document {table : TomlTable} (h : RegularEntries 0 table) :
    Statement.all (document table ++ ['\n']) = some (statements table) := by
  have hreads := (reads_document (legibleEntries_of_regular h) (legible_sections [] table h)).append
    reads_blank
  rw [List.append_nil] at hreads
  refine all_of_reads hreads ?_
  have hhead := head_document table
  cases hdocument : document table with
  | nil => simp
  | cons c cs => simpa [hdocument] using hhead

end Toml

end AgentLoop
