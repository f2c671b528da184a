import AgentLoop.Proofs.Timestamps
import AgentLoop.Proofs.Trees
import AgentLoop.Wire.Field

/-!
# Written fields are read back

A typed value is written as a JSON value and read from the tree of that value.  The two directions
agree for plain values and collections, and for records they do so field by field.

* `Restores read value x` says that reading gives `x` from what was written, and that this can be a
  text of whole numbers.  `readAs_compact` and `readAs_pretty` carry it to texts.
* `restores_text`, `restores_nat`, `restores_list`, … are plain values and collections.
* Records.  `Json.valuesOf` are the values that a list of fields has for a name, and
  `RecordView.Finds` says what is found for a field: `finds_required`, `finds_ifAny` and
  `finds_unlessEmpty` are the kinds of fields, `restores_record` puts them together.
-/

namespace AgentLoop

/-! ## Plain values -/

/-- The value can be written with whole numbers, and reading makes `x` of it. -/
structure Restores {α : Type} (read : Tree → Except ReadError α) (value : Json) (x : α) : Prop where
  whole : value.Whole
  read_eq : read (.ofJson value) = .ok x

section
variable {α : Type} {read : Tree → Except ReadError α} {value : Json} {x : α}

/-- What is restored from a value is read from its compact text. -/
theorem Restores.readAs_compact (h : Restores read value x)
    (hdepth : value.depth ≤ Build.depthLimit) :
    Json.readAs read value.compact = .ok x := by
  rw [Json.readAs, ofText_compact h.whole hdepth]
  simp only [h.read_eq]
  rfl

/-- It is also read from the text over lines. -/
theorem Restores.readAs_pretty (h : Restores read value x)
    (hdepth : value.depth ≤ Build.depthLimit) :
    Json.readAs read value.pretty = .ok x := by
  rw [Json.readAs, ofText_pretty h.whole hdepth]
  simp only [h.read_eq]
  rfl

end

namespace Json

theorem wholeItems_iff {items : List Json} : WholeItems items ↔ ∀ item ∈ items, item.Whole := by
  induction items with
  | nil => simp [WholeItems]
  | cons item items ih => simp [WholeItems, ih]

theorem wholeFields_iff {fields : List (String × Json)} :
    WholeFields fields ↔ ∀ entry ∈ fields, entry.2.Whole := by
  induction fields with
  | nil => simp [WholeFields]
  | cons entry fields ih => simp [WholeFields, ih]

end Json

namespace NameSet

/-- A name behind all others is put at the end. -/
theorem insert_of_lt {name : String} {set : NameSet} (h : ∀ other ∈ set, other < name) :
    insert name set = set ++ [name] := by
  induction set with
  | nil => rfl
  | cons other set ih =>
    have hother : other < name := h other List.mem_cons_self
    rw [insert, if_neg (String.lt_asymm hother), if_pos hother,
      ih fun n hn => h n (List.mem_cons_of_mem _ hn), List.cons_append]

/-- A set is made of its own members. -/
theorem ofList_of_sorted {set : NameSet} (h : Sorted set) : ofList set = set := by
  induction set using List.reverseRecOn with
  | nil => rfl
  | append_singleton set name ih =>
    obtain ⟨hset, -, hlast⟩ := List.pairwise_append.1 h
    rw [ofList_concat, ih hset]
    exact insert_of_lt fun other hother => hlast other hother name List.mem_cons_self

end NameSet

namespace Tree

theorem restores_text (s : String) : Restores toText (.str s) s := ⟨trivial, rfl⟩

theorem restores_nat {limit n : Nat} (hlimit : limit ≤ 0x10000000000000000) (hn : n < limit) :
    Restores (toNat limit) (.nat n) n := by
  refine ⟨⟨?_, ?_⟩, ?_⟩
  · omega
  · omega
  · exact if_pos hn

theorem restores_nat32 {n : Nat} (h : n < 0x100000000) : Restores toNat32 (.nat n) n :=
  restores_nat (by decide) h

theorem restores_nat64 {n : Nat} (h : n < 0x10000000000000000) : Restores toNat64 (.nat n) n :=
  restores_nat (Nat.le_refl _) h

theorem restores_timestamp {t : Timestamp} (h : t.FourDigit) :
    Restores toTimestamp (.timestamp t) t := by
  refine ⟨trivial, ?_⟩
  rw [Json.timestamp, ofJson, toTimestamp]
  simp only [toText, faulty, Except.mapError, bind, Except.bind, Timestamp.read?_write h]

variable {α : Type} {read : Tree → Except ReadError α}

/-! ## Collections -/

theorem readItems_eq {write : α → Json} {xs : List α}
    (h : ∀ x ∈ xs, Restores read (write x) x) :
    readItems read none (ofItems (xs.map write)) = .ok xs := by
  induction xs with
  | nil => rfl
  | cons x xs ih =>
    have hx := h x List.mem_cons_self
    have hxs := ih fun y hy => h y (List.mem_cons_of_mem _ hy)
    rw [List.map_cons, ofItems, readItems, hx.read_eq, hxs]
    rfl

theorem restores_list {write : α → Json} {xs : List α}
    (h : ∀ x ∈ xs, Restores read (write x) x) : Restores (toList read) (.list write xs) xs := by
  refine ⟨Json.wholeItems_iff.2 ?_, readItems_eq h⟩
  intro value hvalue
  obtain ⟨x, hx, rfl⟩ := List.mem_map.1 hvalue
  exact (h x hx).whole

theorem restores_strings (texts : List String) :
    Restores (toList toText) (.strings texts) texts :=
  restores_list fun s _ => restores_text s

theorem restores_nameSet {set : NameSet} (h : NameSet.Sorted set) :
    Restores toNameSet (.strings set) set := by
  have htexts := restores_strings set
  refine ⟨htexts.whole, ?_⟩
  rw [toNameSet, htexts.read_eq]
  exact congrArg Except.ok (NameSet.ofList_of_sorted h)

theorem readEntries_eq {fields : List (String × Json)} (h : Json.CanonicalFields fields) :
    readEntries toJson none (ofFields fields) = .ok fields := by
  induction fields with
  | nil => rfl
  | cons entry fields ih =>
    have hread : toJson (ofJson entry.2) = .ok entry.2 := by
      rw [toJson, use_ofJson entry.2 h.1]
      rfl
    rw [ofFields, readEntries, hread, ih h.2]
    rfl

/-- A free-form object with integers is restored. -/
theorem restores_object {fields : JsonObject} (hcanonical : (Json.obj fields).Canonical)
    (hint : (Json.obj fields).IntegersOnly) : Restores toJsonObject (.obj fields) fields := by
  refine ⟨Json.whole_of_canonical _ hcanonical hint, ?_⟩
  rw [toJsonObject, ofJson, toKeyed, readEntries_eq hcanonical.2]
  exact congrArg Except.ok (Keyed.ofList_of_sorted hcanonical.1)

/-! ## Optional values -/

/-- A value that is not `null` is read as one that may be. -/
theorem restores_some {value : Json} {x : α} (h : Restores read value x) (hnull : value ≠ .null) :
    Restores (toOption read) value (some x) := by
  refine ⟨h.whole, ?_⟩
  have hread := h.read_eq
  cases value with
  | null => exact absurd rfl hnull
  | _ =>
    rw [ofJson] at hread ⊢
    rw [toOption, hread]
    · rfl
    all_goals simp

theorem restores_ofOption {write : α → Json} {o : Option α}
    (h : ∀ x ∈ o, Restores read (write x) x) (hnull : ∀ x, write x ≠ .null) :
    Restores (toOption read) (.ofOption write o) o := by
  cases o with
  | none => exact ⟨trivial, rfl⟩
  | some x => exact restores_some (h x rfl) (hnull x)

end Tree

/-! ## The fields of a record -/

namespace Json

/-- The values that the fields have for a name. -/
def valuesOf (name : String) (fields : List (String × Json)) : List Json :=
  (fields.filter fun entry => entry.1 == name).map Prod.snd

@[simp] theorem valuesOf_nil (name : String) : valuesOf name [] = [] := rfl

@[simp] theorem valuesOf_cons (name key : String) (value : Json) (fields : List (String × Json)) :
    valuesOf name ((key, value) :: fields) =
      if key = name then value :: valuesOf name fields else valuesOf name fields := by
  by_cases h : key = name <;> simp [valuesOf, h]

@[simp] theorem valuesOf_append (name : String) (fields others : List (String × Json)) :
    valuesOf name (fields ++ others) = valuesOf name fields ++ valuesOf name others := by
  simp [valuesOf]

@[simp] theorem valuesOf_field (name key : String) (value : Json) :
    valuesOf name (field key value) = if key = name then [value] else [] := by
  simp [field]

@[simp] theorem valuesOf_fieldIfAny {α : Type} (name key : String) (write : α → Json)
    (o : Option α) :
    valuesOf name (fieldIfAny key write o) = if key = name then (o.map write).toList else [] := by
  cases o <;> simp [fieldIfAny]

@[simp] theorem valuesOf_fieldUnlessEmpty {α : Type} (name key : String) (write : List α → Json)
    (items : List α) :
    valuesOf name (fieldUnlessEmpty key write items) =
      if key = name ∧ items ≠ [] then [write items] else [] := by
  cases items <;> simp [fieldUnlessEmpty]

/-- The fields have names out of these, and values of whole numbers. -/
def Fits (names : List String) (fields : List (String × Json)) : Prop :=
  ∀ entry ∈ fields, entry.1 ∈ names ∧ entry.2.Whole

variable {names : List String}

@[simp] theorem fits_nil : Fits names [] := by
  simp [Fits]

@[simp] theorem fits_cons {key : String} {value : Json} {fields : List (String × Json)} :
    Fits names ((key, value) :: fields) ↔ (key ∈ names ∧ value.Whole) ∧ Fits names fields := by
  simp [Fits]

@[simp] theorem fits_append {fields others : List (String × Json)} :
    Fits names (fields ++ others) ↔ Fits names fields ∧ Fits names others :=
  List.forall_mem_append

@[simp] theorem fits_field {key : String} {value : Json} :
    Fits names (field key value) ↔ key ∈ names ∧ value.Whole := by
  simp [field]

@[simp] theorem fits_fieldIfAny {α : Type} {key : String} {write : α → Json} {o : Option α} :
    Fits names (fieldIfAny key write o) ↔ ∀ x ∈ o, key ∈ names ∧ (write x).Whole := by
  cases o <;> simp [fieldIfAny]

@[simp] theorem fits_fieldUnlessEmpty {α : Type} {key : String} {write : List α → Json}
    {items : List α} :
    Fits names (fieldUnlessEmpty key write items) ↔
      (items ≠ [] → key ∈ names ∧ (write items).Whole) := by
  cases items <;> simp [fieldUnlessEmpty]

@[simp] theorem whole_str (s : String) : (Json.str s).Whole := trivial

@[simp] theorem whole_timestamp (t : Timestamp) : (Json.timestamp t).Whole := trivial

end Json

namespace RecordView

/-- The fields as a reader of records sees them. -/
def ofFields (names : List String) (fields : List (String × Json)) : RecordView :=
  ⟨names, .members (Tree.ofFields fields) none⟩

/-- Nothing is wrong with what is found, and it is `x`. -/
def Finds {α : Type} (found : Survey α) (x : α) : Prop := found = ⟨.ok x⟩

variable {α β : Type} {names : List String} {fields : List (String × Json)} {name : String}
  {read : Tree → Except ReadError α} {x : α}

theorem Finds.map {found : Survey α} (f : α → β) (h : Finds found x) :
    Finds (f <$> found) (f x) := by
  rw [h]
  rfl

theorem Finds.seq {found : Survey (α → β)} {other : Survey α} {f : α → β} (h : Finds found f)
    (h' : Finds other x) : Finds (found <*> other) (f x) := by
  rw [h, h']
  rfl

theorem map_occurrences (name : String) (place : Nat) (fields : List (String × Json)) :
    (occurrences name place (Tree.ofFields fields)).map Prod.snd =
      (Json.valuesOf name fields).map Tree.ofJson := by
  induction fields generalizing place with
  | nil => rfl
  | cons entry fields ih =>
    obtain ⟨key, value⟩ := entry
    rw [Tree.ofFields, occurrences, Json.valuesOf_cons]
    split <;> simp [ih]

/-- A field with one value is read from it. -/
theorem finds_field {value : Json} (missing : Except ReadError α)
    (hvalues : Json.valuesOf name fields = [value]) (h : Restores read value x) :
    Finds ((ofFields names fields).field name read missing) x := by
  have hplaces := map_occurrences name 0 fields
  rw [hvalues] at hplaces
  obtain ⟨⟨place, tree⟩, hplace, htree⟩ := List.map_eq_singleton_iff.1 hplaces
  simp only at htree
  subst htree
  simp only [Finds, ofFields, field, hplace, h.read_eq]
  rfl

/-- A field without a value is what stands for it. -/
theorem finds_missing (hvalues : Json.valuesOf name fields = []) :
    Finds ((ofFields names fields).field name read (.ok x)) x := by
  have hplaces := map_occurrences name 0 fields
  rw [hvalues, List.map_nil, List.map_eq_nil_iff] at hplaces
  simp only [Finds, ofFields, field, hplaces]
  rfl

theorem finds_required {value : Json} (hvalues : Json.valuesOf name fields = [value])
    (h : Restores read value x) : Finds ((ofFields names fields).required name read) x :=
  finds_field _ hvalues h

theorem finds_defaulted {value : Json} (default : α) (hvalues : Json.valuesOf name fields = [value])
    (h : Restores read value x) : Finds ((ofFields names fields).defaulted name read default) x :=
  finds_field _ hvalues h

/-- A field that is `null` if it is absent. -/
theorem finds_optional {value : Json} {o : Option α} (hvalues : Json.valuesOf name fields = [value])
    (h : Restores (Tree.toOption read) value o) :
    Finds ((ofFields names fields).optional name read) o := by
  have hfield : Finds ((ofFields names fields).field name (Tree.toOption read) (.ok none)) o :=
    finds_field _ hvalues h
  exact hfield

/-- A field that is left out if it is absent. -/
theorem finds_ifAny {write : α → Json} {o : Option α}
    (hvalues : Json.valuesOf name fields = (o.map write).toList)
    (h : ∀ x ∈ o, Restores read (write x) x) (hnull : ∀ x, write x ≠ .null) :
    Finds ((ofFields names fields).defaulted name (Tree.toOption read) none) o := by
  cases o with
  | none => exact finds_missing hvalues
  | some x => exact finds_field _ hvalues (Tree.restores_some (h x rfl) (hnull x))

/-- A field that is left out if it is empty. -/
theorem finds_unlessEmpty {write : List α → Json} {items : List α}
    {read : Tree → Except ReadError (List α)}
    (hvalues : Json.valuesOf name fields = if items ≠ [] then [write items] else [])
    (h : Restores read (write items) items) :
    Finds ((ofFields names fields).defaulted name read []) items := by
  by_cases hitems : items = []
  · subst hitems
    exact finds_missing (by simpa using hvalues)
  · exact finds_field _ (by simpa [hitems] using hvalues) h

theorem finds_rest (h : Json.Fits names fields) : Finds (ofFields names fields).rest () := by
  have hrest : ∀ place, restOfMembers names place none (Tree.ofFields fields) = ⟨.ok ()⟩ := by
    induction fields with
    | nil => exact fun _ => rfl
    | cons entry fields ih =>
      intro place
      obtain ⟨⟨hkey, -⟩, hfields⟩ := Json.fits_cons.1 h
      rw [Tree.ofFields, restOfMembers, if_pos (List.contains_iff_mem.2 hkey)]
      exact ih hfields _
  exact hrest 0

end RecordView

/-- A record is restored if its fields fit it and something is found for each of its names. -/
theorem Tree.restores_record {α : Type} {names : List String} {build : RecordView → Survey α}
    {fields : List (String × Json)} {x : α} (hfits : Json.Fits names fields)
    (hbuild : RecordView.Finds (build (.ofFields names fields)) x) :
    Restores (Tree.record names build) (.obj fields) x := by
  refine ⟨Json.wholeFields_iff.2 fun entry hentry => (hfits entry hentry).2, ?_⟩
  have hall := (RecordView.finds_rest hfits).map (fun _ value => value) |>.seq hbuild
  have hview : (Tree.ofJson (.obj fields)).asRecord names = .ok (.ofFields names fields) := rfl
  simp only [Tree.record, hview, bind, Except.bind]
  rw [hall]
  rfl

end AgentLoop
