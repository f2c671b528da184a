import AgentLoop.Config.Form
import AgentLoop.Proofs.Sections
import AgentLoop.Proofs.Trees

/-!
# Typed values are read back from TOML

A record is written as a table.  Whoever reads the table as a record of the same type gets the same
record, if its fields are read back and their keys differ.

* `Toml.Restores` says that a value can be written and denotes something; `Toml.restores_nat32`,
  `restores_binary32`, `restores_texts`, `restores_counts`, … are about the values of fields.
* `Toml.Writes` is about some entries of a record.  It goes over from parts to the whole, with
  `Writes.append`, and `Toml.regular_record` is the result for the record.
* `Toml.get_eq`, `get?_eq` and `get_of_absent` read a field.
-/

namespace AgentLoop

/-- The keys of a mapping differ. -/
theorem Keyed.nodup_keys {α : Type} {m : Keyed α} (h : Sorted m) : (m.map Prod.fst).Nodup := by
  refine List.pairwise_map.2 (h.imp fun hlt heq => ?_)
  rw [heq] at hlt
  exact String.lt_irrefl _ hlt

namespace Toml

/-! ## Values of fields -/

variable {α : Type} {depth n : Nat} {read : Toml → Option α} {value : Toml} {x : α}

/-- The value can be written, its text is read back, and it denotes `x`. -/
structure Restores (depth : Nat) (read : Toml → Option α) (value : Toml) (x : α) : Prop where
  regular : value.Regular depth
  writable : value.writable = true
  read_eq : read value = some x

theorem restores_text (depth : Nat) (s : String) : Restores depth toText (.text s) s :=
  ⟨legible_text _ s, rfl, rfl⟩

theorem restores_bool (depth : Nat) (b : Bool) : Restores depth toBool (.bool b) b :=
  ⟨legible_bool _ b, rfl, rfl⟩

theorem restores_nat (depth : Nat) {limit : Nat} (hlimit : n < limit)
    (hn : n ≤ 0x7fffffffffffffff) : Restores depth (toNat limit) (.nat n) n := by
  have hsmall : (n : Int) ≤ maxInteger := by
    rw [maxInteger]
    omega
  have hlow : minInteger ≤ n := by
    rw [minInteger]
    omega
  refine ⟨legible_integer _ hsmall, ?_, if_pos hlimit⟩
  rw [nat, writable, inRange, decide_eq_true hlow, decide_eq_true hsmall, Bool.and_self]

theorem restores_nat32 (depth : Nat) (h : n < 0x100000000) : Restores depth toNat32 (.nat n) n :=
  restores_nat depth h (by omega)

theorem restores_nat64 (depth : Nat) (h : n ≤ 0x7fffffffffffffff) :
    Restores depth toNat64 (.nat n) n :=
  restores_nat depth (by omega) h

/-- A number of 32 bits is written with 64 bits. -/
theorem restores_binary32 (depth : Nat) {x : Binary} (h : binary32.Represents x)
    (hfinite : x.isFinite = true) :
    Restores depth toBinary32 (.float (binary64.narrow x)) x := by
  obtain ⟨hwide, hback⟩ := BinaryFormat.narrow_narrow h
  refine ⟨?_, rfl, congrArg some hback⟩
  cases hnarrow : binary64.narrow x with
  | finite negative m e => exact legible_float _ (hnarrow ▸ hwide)
  | infinite negative =>
    rw [hnarrow] at hback
    rw [← hback] at hfinite
    contradiction
  | nan =>
    rw [hnarrow] at hback
    rw [← hback] at hfinite
    contradiction

theorem writableItems_iff {items : List Toml} :
    writableItems items = true ↔ ∀ item ∈ items, item.writable = true := by
  induction items with
  | nil => simp [writableItems]
  | cons item items ih => rw [writableItems, Bool.and_eq_true, ih, List.forall_mem_cons]

theorem writableEntries_iff {entries : TomlTable} :
    writableEntries entries = true ↔ ∀ entry ∈ entries, entry.2.writable = true := by
  induction entries with
  | nil => simp [writableEntries]
  | cons entry entries ih => rw [writableEntries, Bool.and_eq_true, ih, List.forall_mem_cons]

theorem mapM_map {β γ : Type} (write : β → γ) (read : γ → Option β) {xs : List β}
    (h : ∀ x ∈ xs, read (write x) = some x) : (xs.map write).mapM read = some xs := by
  induction xs with
  | nil => rfl
  | cons x xs ih =>
    rw [List.forall_mem_cons] at h
    rw [List.map_cons, List.mapM_cons, h.1, ih h.2]
    rfl

theorem restores_texts (depth : Nat) (names : List String) :
    Restores depth (toList toText) (.texts names) names := by
  have htexts : ∀ v ∈ names.map Toml.text, ∃ s, v = .text s := by simp
  refine ⟨?_, ?_, ?_⟩
  · show (Toml.array (names.map .text)).Legible (78 + 1)
    refine legible_array fun v hv => ?_
    obtain ⟨s, rfl⟩ := htexts v hv
    exact legible_text _ s
  · refine writableItems_iff.2 fun v hv => ?_
    obtain ⟨s, rfl⟩ := htexts v hv
    rfl
  · exact mapM_map Toml.text toText fun _ _ => rfl

/-! ## Records -/

/-- The entries can be written, their keys are some of the names in their order, and the values are
all tables or all not. -/
structure Writes (depth : Nat) (tables : Bool) (names : List String) (entries : TomlTable) :
    Prop where
  keys : (entries.map Prod.fst).Sublist names
  isTable : ∀ entry ∈ entries, entry.2.isTable = tables
  regular : ∀ entry ∈ entries, entry.2.Regular (depth + 1)
  writable : ∀ entry ∈ entries, entry.2.writable = true

variable {tables : Bool} {names names' : List String} {name : String} {entries entries' : TomlTable}

theorem writes_nil (names : List String) : Writes depth tables names [] :=
  ⟨List.nil_sublist _, by simp, by simp, by simp⟩

theorem writes_entry (name : String) (h : Restores (depth + 1) read value x)
    (hvalue : value.isTable = tables) : Writes depth tables [name] (entry name value) := by
  refine ⟨.refl _, ?_, ?_, ?_⟩
  all_goals
    rw [entry, List.forall_mem_singleton]
  exacts [hvalue, h.regular, h.writable]

theorem Writes.append (h : Writes depth tables names entries)
    (h' : Writes depth tables names' entries') :
    Writes depth tables (names ++ names') (entries ++ entries') := by
  refine ⟨?_, ?_, ?_, ?_⟩
  · rw [List.map_append]
    exact h.keys.append h'.keys
  · exact List.forall_mem_append.2 ⟨h.isTable, h'.isTable⟩
  · exact List.forall_mem_append.2 ⟨h.regular, h'.regular⟩
  · exact List.forall_mem_append.2 ⟨h.writable, h'.writable⟩

theorem writes_entryIfAny (name : String) (write : α → Toml) {o : Option α}
    (h : ∀ x ∈ o, Restores (depth + 1) read (write x) x)
    (hvalue : ∀ x, (write x).isTable = tables) :
    Writes depth tables [name] (entryIfAny name write o) := by
  cases o with
  | none => exact writes_nil [name]
  | some x => exact writes_entry name (h x rfl) (hvalue x)

/-- A record can be written if its entries can, those that are no tables first. -/
theorem regular_record {table : TomlTable} (hdepth : depth ≤ Statement.maxDepth)
    (hnames : (names ++ names').Nodup) (hvalues : Writes depth false names entries)
    (htables : Writes depth true names' entries') (htable : entries ++ entries' = table) :
    (Toml.table table).Regular depth ∧ (Toml.table table).writable = true := by
  subst htable
  refine ⟨⟨hdepth, ?_, ?_, ?_⟩, ?_⟩
  · rw [List.map_append]
    exact hnames.sublist (hvalues.keys.append htables.keys)
  · have hvalue : ∀ entry ∈ entries, entry.2.isTable = false := hvalues.isTable
    have htable : ∀ entry ∈ entries', entry.2.isTable = true := htables.isTable
    rw [List.filter_append, List.filter_append,
      List.filter_eq_self.2 fun entry hentry => by simp [hvalue entry hentry],
      List.filter_eq_nil_iff.2 fun entry hentry => by simp [htable entry hentry],
      List.filter_eq_nil_iff.2 fun entry hentry => by simp [hvalue entry hentry],
      List.filter_eq_self.2 htable, List.append_nil, List.nil_append]
  · exact regularEntries_iff.2 (List.forall_mem_append.2 ⟨hvalues.regular, htables.regular⟩)
  · exact writableEntries_iff.2 (List.forall_mem_append.2 ⟨hvalues.writable, htables.writable⟩)

/-- A record is restored if it can be written and is read as the value. -/
theorem restores_record {table : TomlTable}
    (h : (Toml.table table).Regular depth ∧ (Toml.table table).writable = true)
    (hread : read (.table table) = some x) : Restores depth read (.table table) x :=
  ⟨h.1, h.2, hread⟩

theorem get_eq (hfind : entries.lookup name = some value) (h : Restores depth read value x)
    (default : α) : (Fields.named entries).get name read default = some x := by
  rw [Fields.get, Fields.find?, hfind]
  exact h.read_eq

theorem get_of_absent (hfind : entries.lookup name = none) (default : α) :
    (Fields.named entries).get name read default = some default := by
  rw [Fields.get, Fields.find?, hfind]

theorem get?_eq {write : α → Toml} {o : Option α} (hfind : entries.lookup name = o.map write)
    (h : ∀ x ∈ o, Restores depth read (write x) x) :
    (Fields.named entries).get? name read = some o := by
  rw [Fields.get?, Fields.get, Fields.find?, hfind]
  cases o with
  | none => rfl
  | some x => exact congrArg (Option.map some) (h x rfl).read_eq

theorem lookup_cons (name name' : String) (value : Toml) (entries : TomlTable) :
    List.lookup name' ((name, value) :: entries) =
      if name' = name then some value else entries.lookup name' := by
  by_cases h : name' = name
  · rw [if_pos h, h, List.lookup_cons_self]
  · rw [if_neg h, List.lookup_cons, beq_eq_false_iff_ne.2 h]

theorem lookup_entry (name name' : String) (value : Toml) :
    (entry name value).lookup name' = if name' = name then some value else none :=
  lookup_cons name name' value []

theorem lookup_entryIfAny (name name' : String) (write : α → Toml) (o : Option α) :
    (entryIfAny name write o).lookup name' = if name' = name then o.map write else none := by
  cases o with
  | none => exact (ite_self none).symm
  | some x => exact lookup_entry name name' (write x)

/-! ## Mappings -/

/-- An entry of a mapping to counts. -/
def countEntry (entry : String × Nat) : String × Toml := (entry.1, nat entry.2)

theorem counts_eq (m : Keyed Nat) : counts m = .table (m.map countEntry) := rfl

theorem restores_counts (depth : Nat) {m : Keyed Nat} (hdepth : depth ≤ Statement.maxDepth)
    (hsorted : Keyed.Sorted m) (hm : ∀ entry ∈ m, entry.2 < 0x100000000) :
    Restores depth (toKeyed toNat32) (.counts m) m := by
  have hcounts : ∀ entry ∈ m.map countEntry,
      entry.2.isTable = false ∧ ∃ n, Restores (depth + 1) toNat32 entry.2 n := by
    intro entry hentry
    obtain ⟨⟨key, n⟩, hmem, rfl⟩ := List.mem_map.1 hentry
    exact ⟨rfl, n, restores_nat32 _ (hm _ hmem)⟩
  have hkeys : (m.map countEntry).map Prod.fst = m.map Prod.fst := List.map_map
  have hvalues : Writes depth false (m.map Prod.fst) (m.map countEntry) := by
    refine ⟨hkeys ▸ .refl _, ?_, ?_, ?_⟩
    all_goals
      intro entry hentry
      obtain ⟨htable, n, hn⟩ := hcounts entry hentry
    exacts [htable, hn.regular, hn.writable]
  have hnames : (m.map Prod.fst ++ []).Nodup := by
    rw [List.append_nil]
    exact Keyed.nodup_keys hsorted
  have hentries := mapM_map countEntry
    (fun entry : String × Toml => (toNat32 entry.2).map fun v => (entry.1, v))
    fun entry hentry => by
      rw [countEntry, (restores_nat32 0 (hm entry hentry)).read_eq, Option.map_some]
  rw [counts_eq]
  refine restores_record
    (regular_record hdepth hnames hvalues (writes_nil []) (List.append_nil _)) ?_
  rw [toKeyed, hentries, Option.map_some, Keyed.ofList_of_sorted hsorted]

end Toml

end AgentLoop
