/-!
# Mappings from texts, sorted by key

A mapping is the list of its entries with strictly increasing keys, so two mappings with the same
entries are equal and the entries come in the order in which they are written.

* `Keyed.insert` sets the value of a key, `Keyed.get?` looks one up, `Keyed.ofList` enters one
  entry after the other, the last of each key counting.
* `get?_insert` is the law of look-up, `sorted_insert` says that the order is kept.
-/

namespace AgentLoop

/-- A mapping from texts as the list of its entries. -/
abbrev Keyed (α : Type) := List (String × α)

namespace Keyed

variable {α : Type}

/-- The mapping with a key set: at its place in the order, or instead of the earlier value. -/
def insert (key : String) (value : α) : Keyed α → Keyed α
  | [] => [(key, value)]
  | (k, v) :: entries =>
    if key < k then (key, value) :: (k, v) :: entries
    else if k < key then (k, v) :: insert key value entries
    else (key, value) :: entries

/-- The mapping with the entries of a list; of several with one key the last counts. -/
def ofList (entries : List (String × α)) : Keyed α :=
  entries.foldl (fun m entry => insert entry.1 entry.2 m) []

/-- The value of a key. -/
def get? (key : String) : Keyed α → Option α
  | [] => none
  | (k, v) :: entries => if k = key then some v else get? key entries

/-- The value of a key, or a value to stand for a key that is missing. -/
def getD (key : String) (default : α) (m : Keyed α) : α :=
  (get? key m).getD default

/-- The keys in order. -/
def keys (m : Keyed α) : List String := m.map Prod.fst

/-- The keys increase strictly. -/
def Sorted (m : Keyed α) : Prop :=
  m.Pairwise (fun a b => a.1 < b.1)

instance [DecidableEq α] (m : Keyed α) : Decidable (Sorted m) :=
  inferInstanceAs (Decidable (m.Pairwise _))

theorem eq_of_not_lt {a b : String} (h₁ : ¬ a < b) (h₂ : ¬ b < a) : a = b :=
  String.le_antisymm (String.not_lt.mp h₂) (String.not_lt.mp h₁)

@[simp] theorem get?_insert (key : String) (value : α) (m : Keyed α) (k : String) :
    get? k (insert key value m) = if key = k then some value else get? k m := by
  induction m with
  | nil => simp [insert, get?]
  | cons entry m ih =>
    obtain ⟨l, v⟩ := entry
    simp only [insert]
    split
    · simp [get?]
    · next h₁ =>
      split
      · next h₂ =>
        simp only [get?, ih]
        by_cases hk : key = k
        · subst hk
          have : l ≠ key := fun e => by subst e; exact String.lt_irrefl _ h₂
          simp [this]
        · simp [hk]
      · next h₂ =>
        have := eq_of_not_lt h₁ h₂
        subst this
        simp only [get?]
        split <;> rfl

@[simp] theorem getD_insert (key : String) (value default : α) (m : Keyed α) (k : String) :
    getD k default (insert key value m) = if key = k then value else getD k default m := by
  rw [getD, get?_insert]
  split <;> rfl

theorem mem_insert {key : String} {value : α} {m : Keyed α} {entry : String × α}
    (h : entry ∈ insert key value m) : entry = (key, value) ∨ entry ∈ m := by
  induction m with
  | nil => simpa [insert] using h
  | cons e m ih =>
    obtain ⟨l, v⟩ := e
    simp only [insert] at h
    split at h
    · simpa using h
    · split at h
      · rcases List.mem_cons.1 h with h | h
        · exact .inr (by simp [h])
        · rcases ih h with h | h
          · exact .inl h
          · exact .inr (List.mem_cons_of_mem _ h)
      · rcases List.mem_cons.1 h with h | h
        · exact .inl h
        · exact .inr (List.mem_cons_of_mem _ h)

theorem sorted_insert {key : String} {value : α} {m : Keyed α} (h : Sorted m) :
    Sorted (insert key value m) := by
  induction m with
  | nil => simp [insert, Sorted]
  | cons entry m ih =>
    obtain ⟨l, v⟩ := entry
    simp only [Sorted, List.pairwise_cons] at h
    simp only [insert]
    split
    · next hlt =>
      simp only [Sorted, List.pairwise_cons, List.mem_cons, forall_eq_or_imp]
      exact ⟨⟨hlt, fun e he => String.lt_trans hlt (h.1 e he)⟩, h⟩
    · next h₁ =>
      split
      · next h₂ =>
        simp only [Sorted, List.pairwise_cons]
        refine ⟨fun e he => ?_, ih h.2⟩
        rcases mem_insert he with he | he
        · simpa [he] using h₂
        · exact h.1 e he
      · next h₂ =>
        have := eq_of_not_lt h₁ h₂
        subst this
        exact List.pairwise_cons.2 h

end Keyed

end AgentLoop
