/-!
# Sets of names

A set of names is the list of its members in strictly increasing order, so equal sets are equal
lists and the members come in the order in which they are written.

* `NameSet.insert` adds a name, `NameSet.ofList` collects the names of a list,
  `NameSet.inter` keeps what two sets have in common.
* `mem_insert`, `mem_ofList` and `mem_inter` say what belongs to them.
-/

namespace AgentLoop

/-- A set of names as the list of its members. -/
abbrev NameSet := List String

namespace NameSet

/-- The set with one more name. -/
def insert (name : String) : NameSet → NameSet
  | [] => [name]
  | n :: names =>
    if name < n then name :: n :: names
    else if n < name then n :: insert name names
    else n :: names

/-- The set of the names of a list. -/
def ofList (names : List String) : NameSet :=
  names.foldl (fun set name => insert name set) []

/-- The members of the first set that belong to the second too. -/
def inter (a b : NameSet) : NameSet :=
  a.filter fun name => b.contains name

/-- The members increase strictly. -/
def Sorted (set : NameSet) : Prop :=
  set.Pairwise (· < ·)

@[simp] theorem mem_insert {name n : String} {set : NameSet} :
    n ∈ insert name set ↔ n = name ∨ n ∈ set := by
  induction set with
  | nil => simp [insert]
  | cons m set ih =>
    simp only [insert]
    split
    · simp
    · next h₁ =>
      split
      · simp only [List.mem_cons, ih]
        constructor
        · rintro (h | h | h) <;> simp [h]
        · rintro (h | h | h) <;> simp [h]
      · next h₂ =>
        have : name = m := String.le_antisymm (String.not_lt.mp h₂) (String.not_lt.mp h₁)
        simp [this]

theorem mem_ofList {names : List String} {n : String} : n ∈ ofList names ↔ n ∈ names := by
  have go : ∀ set : NameSet,
      n ∈ names.foldl (fun set name => insert name set) set ↔ n ∈ names ∨ n ∈ set := by
    induction names with
    | nil => simp
    | cons m names ih =>
      intro set
      simp only [List.foldl_cons, ih, mem_insert, List.mem_cons]
      constructor
      · rintro (h | h | h) <;> simp [h]
      · rintro ((h | h) | h) <;> simp [h]
  simpa [ofList] using go []

theorem ofList_concat (names : List String) (name : String) :
    ofList (names ++ [name]) = insert name (ofList names) := by
  simp [ofList]

theorem mem_inter {a b : NameSet} {n : String} : n ∈ inter a b ↔ n ∈ a ∧ n ∈ b := by
  simp [inter]

theorem sorted_insert {name : String} {set : NameSet} (h : Sorted set) :
    Sorted (insert name set) := by
  induction set with
  | nil => simp [insert, Sorted]
  | cons m set ih =>
    simp only [Sorted, List.pairwise_cons] at h
    simp only [insert]
    split
    · next hlt =>
      simp only [Sorted, List.pairwise_cons, List.mem_cons, forall_eq_or_imp]
      exact ⟨⟨hlt, fun e he => String.lt_trans hlt (h.1 e he)⟩, h⟩
    · split
      · next h₂ =>
        simp only [Sorted, List.pairwise_cons]
        refine ⟨fun e he => ?_, ih h.2⟩
        rcases mem_insert.1 he with he | he
        · simpa [he] using h₂
        · exact h.1 e he
      · exact List.pairwise_cons.2 h

theorem sorted_ofList (names : List String) : Sorted (ofList names) := by
  have go : ∀ set : NameSet, Sorted set →
      Sorted (names.foldl (fun set name => insert name set) set) := by
    induction names with
    | nil => exact fun set h => h
    | cons m names ih => exact fun set h => ih _ (sorted_insert h)
  exact go [] List.Pairwise.nil

end NameSet

end AgentLoop
