import AgentLoop.Text.Reader
import Mathlib.Data.List.TakeWhile

/-!
# What readers take

Each way to put readers together has its laws: what the whole takes follows from what the parts
take.  A reader that goes on as long as it can stops where the text goes on with something else.

* `bind_of_eq_some`, `orElse_of_eq_none`, … are the laws of `do` and `<|>`.
* `span_append` and `run_append` are about runs of characters; `Ends ok rest` says that `rest` ends
  a run of the class.
* `many_of_eq_none` and `many_of_eq_some` take a repetition apart.  `upTo_of_length_le` says that
  the limit of a repetition, the length of the text, never stops it.
-/

namespace AgentLoop

namespace Reader

variable {α β : Type} {p q : Reader α} {f : α → Reader β} {cs rest : List Char} {a : α}

/-! ## One thing after the other -/

@[simp] theorem pure_apply (a : α) (cs : List Char) : (pure a : Reader α) cs = .some (a, cs) := rfl

@[simp] theorem failure_apply (cs : List Char) : (failure : Reader α) cs = none := rfl

theorem bind_of_eq_some (h : p cs = .some (a, rest)) : (p >>= f) cs = f a rest := by
  dsimp only [bind]
  rw [h]

theorem bind_of_eq_none (h : p cs = none) : (p >>= f) cs = none := by
  dsimp only [bind]
  rw [h]

theorem orElse_of_eq_some {r : α × List Char} (h : p cs = .some r) : (p <|> q) cs = .some r := by
  dsimp only [HOrElse.hOrElse, OrElse.orElse, Alternative.orElse]
  rw [h]

theorem orElse_of_eq_none (h : p cs = none) : (p <|> q) cs = q cs := by
  dsimp only [HOrElse.hOrElse, OrElse.orElse, Alternative.orElse]
  rw [h]

theorem possible_of_eq_some (h : p cs = .some (a, rest)) :
    possible p cs = .some (.some a, rest) :=
  orElse_of_eq_some (bind_of_eq_some h)

theorem possible_of_eq_none (h : p cs = none) : possible p cs = .some (none, cs) :=
  orElse_of_eq_none (bind_of_eq_none h)

/-! ## Characters -/

variable {ok : Char → Bool} {c d : Char}

theorem one_of_eq_true (h : ok c = true) : one ok (c :: cs) = .some (c, cs) := by
  rw [one, if_pos h]

theorem one_of_eq_false (h : ok c = false) : one ok (c :: cs) = none := by
  rw [one, h]
  rfl

@[simp] theorem the_self : the c (c :: cs) = .some ((), cs) := if_pos rfl

theorem the_of_ne (h : d ≠ c) : the c (d :: cs) = none := if_neg h

@[simp] theorem word_append (cs rest : List Char) : word cs (cs ++ rest) = .some ((), rest) := by
  induction cs with
  | nil => rfl
  | cons c cs ih => rwa [List.cons_append, word, bind_of_eq_some the_self]

theorem word_of_ne (h : d ≠ c) : word (c :: cs) (d :: rest) = none :=
  bind_of_eq_none (the_of_ne h)

/-- A run of the class does not go on. -/
def Ends (ok : Char → Bool) (rest : List Char) : Prop := ∀ c ∈ rest.head?, ok c = false

theorem ends_cons (h : ok c = false) : Ends ok (c :: cs) := by
  simpa [Ends] using h

/-- A text that begins with a character of the class begins with a run. -/
theorem exists_run (ok : Char → Bool) (h : ok c = true) (cs : List Char) :
    ∃ as bs, c :: cs = as ++ bs ∧ as ≠ [] ∧ (∀ a ∈ as, ok a = true) ∧ Ends ok bs := by
  refine ⟨c :: cs.takeWhile ok, cs.dropWhile ok, ?_, List.cons_ne_nil _ _, ?_, ?_⟩
  · rw [List.cons_append, List.takeWhile_append_dropWhile]
  · rw [List.forall_mem_cons]
    exact ⟨h, fun a ha => List.mem_takeWhile_imp ha⟩
  · intro b hb
    have := List.head?_dropWhile_not ok cs
    rw [Option.mem_def.1 hb] at this
    simpa using this

theorem one_of_ends (h : Ends ok rest) : one ok rest = none := by
  cases rest with
  | nil => rfl
  | cons c cs => exact one_of_eq_false (h c rfl)

theorem the_of_ends (h : Ends (· = c) rest) : the c rest = none := by
  cases rest with
  | nil => rfl
  | cons d rest => exact the_of_ne (by simpa using h d rfl)

theorem word_of_ends (h : Ends (· = c) rest) : word (c :: cs) rest = none :=
  bind_of_eq_none (the_of_ends h)

theorem span_append (hcs : ∀ c ∈ cs, ok c = true) (hrest : Ends ok rest) :
    span ok (cs ++ rest) = .some (cs, rest) := by
  have hnext : rest.takeWhile ok = [] ∧ rest.dropWhile ok = rest := by
    cases rest with
    | nil => exact ⟨rfl, rfl⟩
    | cons c rest => simp [hrest c rfl]
  rw [span, List.takeWhile_append_of_pos hcs, List.dropWhile_append_of_pos hcs, hnext.1, hnext.2,
    List.append_nil]

theorem span_of_ends (h : Ends ok rest) : span ok rest = .some ([], rest) := by
  rw [← List.nil_append rest, span_append (by simp) h, List.nil_append]

theorem run_append (hne : cs ≠ []) (hcs : ∀ c ∈ cs, ok c = true) (hrest : Ends ok rest) :
    run ok (cs ++ rest) = .some (cs, rest) := by
  obtain ⟨c, cs, rfl⟩ := List.exists_cons_of_ne_nil hne
  rw [List.forall_mem_cons] at hcs
  rw [List.cons_append, run, bind_of_eq_some (one_of_eq_true hcs.1),
    bind_of_eq_some (span_append hcs.2 hrest), pure_apply]

theorem run_of_ends (h : Ends ok rest) : run ok rest = none :=
  bind_of_eq_none (one_of_ends h)

theorem exactly_append (hcs : ∀ c ∈ cs, ok c = true) :
    exactly ok cs.length (cs ++ rest) = .some (cs, rest) := by
  induction cs with
  | nil => rfl
  | cons c cs ih =>
    rw [List.forall_mem_cons] at hcs
    rw [List.length_cons, exactly, List.cons_append, bind_of_eq_some (one_of_eq_true hcs.1),
      bind_of_eq_some (ih hcs.2), pure_apply]

/-! ## Repetitions -/

theorem upTo_of_eq_none (limit : Nat) (h : p cs = none) : upTo p limit cs = .some ([], cs) := by
  cases limit with
  | zero => rfl
  | succ limit =>
    dsimp only [upTo]
    rw [h]

theorem upTo_of_eq_some (limit : Nat) (h : p cs = .some (a, rest)) :
    upTo p (limit + 1) cs =
      if rest.length < cs.length then (upTo p limit rest).map fun r => (a :: r.1, r.2)
      else .some ([], cs) := by
  dsimp only [upTo]
  rw [h]

/-- A limit as large as the text is none. -/
theorem upTo_of_length_le {limit : Nat} (h : cs.length ≤ limit) :
    upTo p limit cs = upTo p cs.length cs := by
  induction limit using Nat.strongRecOn generalizing cs with
  | ind limit ih =>
    cases hp : p cs with
    | none => rw [upTo_of_eq_none _ hp, upTo_of_eq_none _ hp]
    | some r =>
      obtain ⟨a, rest⟩ := r
      cases limit with
      | zero => rw [List.eq_nil_of_length_eq_zero (by omega : cs.length = 0), List.length_nil]
      | succ limit =>
        cases hlength : cs.length with
        | zero =>
          rw [upTo_of_eq_some _ hp, if_neg (by omega), List.eq_nil_of_length_eq_zero hlength]
          rfl
        | succ n =>
          -- Both limits go down by one, and what is left is shorter than either.
          rw [upTo_of_eq_some _ hp, upTo_of_eq_some _ hp]
          split
          · rw [ih limit (by omega) (by omega), ih n (by omega) (by omega)]
          · rfl

theorem many_of_eq_none (h : p cs = none) : many p cs = .some ([], cs) :=
  upTo_of_eq_none _ h

/-- A repetition takes one thing, and then it goes on. -/
theorem many_of_eq_some {as : List α} {left : List Char} (h : p cs = .some (a, rest))
    (hlt : rest.length < cs.length) (hmany : many p rest = .some (as, left)) :
    many p cs = .some (a :: as, left) := by
  rw [many, ← upTo_of_length_le (Nat.le_succ _), upTo_of_eq_some _ h, if_pos hlt,
    upTo_of_length_le (Nat.le_of_lt hlt), ← many, hmany]
  rfl

end Reader

end AgentLoop
