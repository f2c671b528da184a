import AgentLoop.Proofs.Replay
import Mathlib.Algebra.GroupWithZero.Nat

/-!
# The books of the enforcer

The enforcer counts what it grants and what it is told, and nothing else.  So its counts after a
run are found by counting in the journal, on top of what it had counted before.  Only a grant
raises a count that has a limit, and nothing is granted at the limit, so no count passes its limit.

There are four groups.

* `Spent.Turns` and `Spent.Calls` are the ways in which the enforcer answers a check, with what it
  counts.
* `Spent.Keeps` says that a journal tells the enforcer's side of the story, and `keeps_of_tells`
  that every journal of a run does.
* `Spent.Balances` says that two counts differ by what a journal grants and records, and
  `Keeps.balances` is the induction over the journal.
* `Spent.Within` says that no count has passed its limit, and `Keeps.within` that this is kept.
-/

namespace AgentLoop

/-- A limit is not reached as long as the count is below it. -/
theorem reached_eq_none_iff {limit : Option Nat} {count : Nat} :
    reached limit count = none ↔ ∀ max, limit = some max → count < max := by
  simp [reached, Option.filter_eq_none_iff]

namespace Journal

/-- The event is a turn that the budget allowed. -/
def turnGranted? : Event → Option Unit
  | .budgetChecked .iteration .allowed => some ()
  | _ => none

/-- The tool of a call that the budget allowed. -/
def callGranted? : Event → Option String
  | .budgetChecked (.tool name _) .allowed => some name
  | _ => none

/-- The tokens that the budget was told of. -/
def tokensRecorded? : Event → Option Nat
  | .usageRecorded usage => some usage.totalTokens
  | _ => none

/-- The number of turns that the budget allowed. -/
def turnsGranted (j : Journal) : Nat := (j.pick turnGranted?).length

/-- The tools of the calls that the budget allowed, in order. -/
def callsGranted (j : Journal) : List String := j.pick callGranted?

/-- The number of tokens that the budget was told of. -/
def tokensRecorded (j : Journal) : Nat := (j.pick tokensRecorded?).sum

@[simp] theorem turnsGranted_append (j k : Journal) :
    (j ++ k).turnsGranted = j.turnsGranted + k.turnsGranted := by
  simp [turnsGranted]

@[simp] theorem callsGranted_append (j k : Journal) :
    (j ++ k).callsGranted = j.callsGranted ++ k.callsGranted :=
  pick_append j k

@[simp] theorem tokensRecorded_append (j k : Journal) :
    (j ++ k).tokensRecorded = j.tokensRecorded + k.tokensRecorded := by
  simp [tokensRecorded]

end Journal

namespace Spent

variable (limits : BudgetConfig)

/-! ## How the enforcer answers -/

/-- The ways in which the enforcer answers when it is asked for a turn. -/
inductive Turns (spent : Spent) : BudgetDecision × Spent → Prop where
  | refused {reason : String}
      (h : (reached limits.maxTokens spent.tokens).isSome ∨
        (reached limits.maxModelCalls spent.modelCalls).isSome) :
      Turns spent (.blocked reason, spent)
  | granted (htokens : reached limits.maxTokens spent.tokens = none)
      (hcalls : reached limits.maxModelCalls spent.modelCalls = none) :
      Turns spent (.allowed, { spent with modelCalls := spent.modelCalls + 1 })

theorem turns_checkIteration (spent : Spent) :
    Turns limits spent (spent.checkIteration limits) := by
  rw [checkIteration]
  cases htokens : reached limits.maxTokens spent.tokens with
  | some max => exact .refused (.inl (by rw [htokens]; rfl))
  | none =>
    cases hcalls : reached limits.maxModelCalls spent.modelCalls with
    | some max => exact .refused (.inr (by rw [hcalls]; rfl))
    | none => exact .granted htokens hcalls

/-- The ways in which the enforcer answers when it is asked for a call. -/
inductive Calls (spent : Spent) (tool : String) : BudgetDecision × Spent → Prop where
  | refused {reason : String}
      (h : (reached limits.maxToolCalls spent.toolCalls).isSome ∨
        (reached (limits.perTool.get? tool) (spent.perTool.getD tool 0)).isSome) :
      Calls spent tool (.blocked reason, spent)
  | granted (hcalls : reached limits.maxToolCalls spent.toolCalls = none)
      (htool : reached (limits.perTool.get? tool) (spent.perTool.getD tool 0) = none) :
      Calls spent tool
        (.allowed,
          { spent with
            toolCalls := spent.toolCalls + 1
            perTool := spent.perTool.insert tool (spent.perTool.getD tool 0 + 1) })

theorem calls_checkTool (spent : Spent) (tool : String) :
    Calls limits spent tool (spent.checkTool limits tool) := by
  rw [checkTool]
  cases hcalls : reached limits.maxToolCalls spent.toolCalls with
  | some max => exact .refused (.inl (by rw [hcalls]; rfl))
  | none =>
    simp only
    cases htool : reached (limits.perTool.get? tool) (spent.perTool.getD tool 0) with
    | some max => exact .refused (.inr (by rw [htool]; rfl))
    | none => exact .granted hcalls htool

/-- The enforcer grants time as long as the limit is not reached. -/
theorem checkDuration_eq_allowed_iff (spent : Spent) (now : Nat) :
    spent.checkDuration limits now = .allowed ↔
      ∀ secs, limits.maxDurationSecs = some secs → now - spent.started < secs * 1000 := by
  rw [checkDuration]
  cases limits.maxDurationSecs with
  | none => simp
  | some secs =>
    by_cases hlate : secs * 1000 ≤ now - spent.started
    · simp only [hlate, if_true, Option.some.injEq, forall_eq', reduceCtorEq, false_iff]
      omega
    · simp only [hlate, if_false, Option.some.injEq, forall_eq', true_iff]
      omega

/-! ## The journal keeps the books -/

/-- What the enforcer has counted after an entry. -/
def replay (spent : Spent) (e : Entry) : Spent :=
  match e.event with
  | .budgetChecked .iteration _ => (spent.checkIteration limits).2
  | .budgetChecked (.tool tool _) _ => (spent.checkTool limits tool).2
  | .usageRecorded usage => spent.recordUsage usage
  | _ => spent

/-- The enforcer answers what an entry says. -/
def Answers (spent : Spent) (e : Entry) : Prop :=
  match e.event with
  | .budgetChecked .iteration decision => (spent.checkIteration limits).1 = decision
  | .budgetChecked (.tool tool _) decision => (spent.checkTool limits tool).1 = decision
  | .budgetChecked .duration decision => spent.checkDuration limits e.time = decision
  | _ => True

/-- A journal tells how the enforcer came from one count to another. -/
def Keeps : Spent → Journal → Spent → Prop
  | spent, [], spent' => spent' = spent
  | spent, e :: j, spent' => spent.Answers limits e ∧ Keeps (spent.replay limits e) j spent'

variable {limits} {spent spent' spent'' : Spent} {j k : Journal}

theorem keeps_append_iff :
    Keeps limits spent (j ++ k) spent'' ↔
      ∃ spent', Keeps limits spent j spent' ∧ Keeps limits spent' k spent'' := by
  induction j generalizing spent with
  | nil => simp [Keeps]
  | cons e j ih => simp [Keeps, ih, and_assoc]

/-- One entry, in the world and in the books. -/
theorem replay_of_tracker {M G X : Type} {c : Controller M G Spent X} (w : World M G Spent X)
    (hbudget : c.budget = limits.tracker) (e : Entry) :
    (c.replay w e).budget = w.budget.replay limits e ∧
      (c.Answers w e → w.budget.Answers limits e) := by
  obtain ⟨now, event⟩ := e
  unfold Controller.Answers Controller.replay
  rw [hbudget]
  cases event with
  | budgetChecked check decision => cases check <;> exact ⟨rfl, id⟩
  | _ => exact ⟨rfl, fun _ => trivial⟩

/-- What a journal tells of a world with the enforcer, it tells of the enforcer. -/
theorem keeps_of_tells {M G X : Type} {c : Controller M G Spent X} {w w' : World M G Spent X}
    (hbudget : c.budget = limits.tracker) (h : c.Tells w j w') :
    Keeps limits w.budget j w'.budget := by
  induction j generalizing w with
  | nil =>
    obtain ⟨now, rfl⟩ := h
    rfl
  | cons e j ih =>
    obtain ⟨hreplay, hanswers⟩ := replay_of_tracker w hbudget e
    exact ⟨hanswers h.1, hreplay ▸ ih h.2⟩

/-! ## The counts balance -/

/-- Two counts differ by what a journal grants and records. -/
structure Balances (spent : Spent) (j : Journal) (spent' : Spent) : Prop where
  modelCalls : spent'.modelCalls = spent.modelCalls + j.turnsGranted
  toolCalls : spent'.toolCalls = spent.toolCalls + j.callsGranted.length
  perTool : ∀ tool,
    spent'.perTool.getD tool 0 = spent.perTool.getD tool 0 + j.callsGranted.count tool
  tokens : spent'.tokens = spent.tokens + j.tokensRecorded
  started : spent'.started = spent.started

theorem Balances.refl (spent : Spent) : Balances spent [] spent :=
  ⟨rfl, rfl, fun _ => rfl, rfl, rfl⟩

theorem Balances.trans (h : Balances spent j spent') (h' : Balances spent' k spent'') :
    Balances spent (j ++ k) spent'' where
  modelCalls := by
    rw [h'.modelCalls, h.modelCalls, Journal.turnsGranted_append, Nat.add_assoc]
  toolCalls := by
    rw [h'.toolCalls, h.toolCalls, Journal.callsGranted_append, List.length_append, Nat.add_assoc]
  perTool tool := by
    rw [h'.perTool, h.perTool, Journal.callsGranted_append, List.count_append, Nat.add_assoc]
  tokens := by rw [h'.tokens, h.tokens, Journal.tokensRecorded_append, Nat.add_assoc]
  started := by rw [h'.started, h.started]

/-- A turn is counted when it is granted. -/
theorem balances_turn {decision : BudgetDecision} {now : Nat}
    (h : (spent.checkIteration limits).1 = decision) :
    Balances spent [⟨now, .budgetChecked .iteration decision⟩]
      (spent.checkIteration limits).2 := by
  subst h
  have hturns := turns_checkIteration limits spent
  generalize spent.checkIteration limits = answer at hturns ⊢
  cases hturns with
  | refused => exact ⟨rfl, rfl, fun _ => rfl, rfl, rfl⟩
  | granted => exact ⟨rfl, rfl, fun _ => rfl, rfl, rfl⟩

/-- A call is counted when it is granted, in all and for its tool. -/
theorem balances_call {decision : BudgetDecision} {now : Nat} {tool : String}
    {arguments : JsonObject} (h : (spent.checkTool limits tool).1 = decision) :
    Balances spent [⟨now, .budgetChecked (.tool tool arguments) decision⟩]
      (spent.checkTool limits tool).2 := by
  subst h
  have hcalls := calls_checkTool limits spent tool
  generalize spent.checkTool limits tool = answer at hcalls ⊢
  cases hcalls with
  | refused => exact ⟨rfl, rfl, fun _ => rfl, rfl, rfl⟩
  | granted =>
    refine ⟨rfl, rfl, fun other => ?_, rfl, rfl⟩
    have hcount : Journal.callsGranted
        [⟨now, .budgetChecked (.tool tool arguments) .allowed⟩] = [tool] := rfl
    rw [hcount, Keyed.getD_insert, List.count_singleton]
    by_cases hother : tool = other <;> simp [hother]

theorem balances_entry {e : Entry} (h : spent.Answers limits e) :
    Balances spent [e] (spent.replay limits e) := by
  obtain ⟨now, event⟩ := e
  cases event with
  | budgetChecked check decision =>
    cases check with
    | iteration => exact balances_turn h
    | tool name arguments => exact balances_call h
    | duration => exact ⟨rfl, rfl, fun _ => rfl, rfl, rfl⟩
  | usageRecorded usage => exact ⟨rfl, rfl, fun _ => rfl, rfl, rfl⟩
  | _ => exact ⟨rfl, rfl, fun _ => rfl, rfl, rfl⟩

/-- The enforcer counts what it grants and what it is told. -/
theorem Keeps.balances (h : Keeps limits spent j spent') : Balances spent j spent' := by
  induction j generalizing spent with
  | nil =>
    rw [Keeps] at h
    rw [h]
    exact .refl spent
  | cons e j ih => exact (balances_entry h.1).trans (ih h.2)

/-- The counts of an enforcer that had not counted anything before. -/
theorem Balances.of_fresh {made : Nat} (h : Balances (fresh made) j spent) :
    spent.modelCalls = j.turnsGranted ∧ spent.toolCalls = j.callsGranted.length ∧
      (∀ tool, spent.perTool.getD tool 0 = j.callsGranted.count tool) ∧
      spent.tokens = j.tokensRecorded ∧ spent.started = made :=
  ⟨h.modelCalls.trans (Nat.zero_add _), h.toolCalls.trans (Nat.zero_add _),
    fun tool => (h.perTool tool).trans (Nat.zero_add _), h.tokens.trans (Nat.zero_add _), h.started⟩

/-! ## No count passes its limit -/

/-- No count has passed its limit. -/
structure Within (limits : BudgetConfig) (spent : Spent) : Prop where
  modelCalls : ∀ max, limits.maxModelCalls = some max → spent.modelCalls ≤ max
  toolCalls : ∀ max, limits.maxToolCalls = some max → spent.toolCalls ≤ max
  perTool : ∀ tool max, limits.perTool.get? tool = some max → spent.perTool.getD tool 0 ≤ max

theorem within_fresh (limits : BudgetConfig) (now : Nat) : Within limits (fresh now) :=
  ⟨fun _ _ => Nat.zero_le _, fun _ _ => Nat.zero_le _, fun _ _ _ => Nat.zero_le _⟩

/-- A turn is granted only below the limit. -/
theorem Within.checkIteration (h : Within limits spent) :
    Within limits (spent.checkIteration limits).2 := by
  have hturns := turns_checkIteration limits spent
  generalize spent.checkIteration limits = answer at hturns ⊢
  cases hturns with
  | refused => exact h
  | granted htokens hcalls =>
    exact ⟨fun max hmax => reached_eq_none_iff.1 hcalls max hmax, h.toolCalls, h.perTool⟩

/-- A call is granted only below both limits. -/
theorem Within.checkTool (h : Within limits spent) (tool : String) :
    Within limits (spent.checkTool limits tool).2 := by
  have hcalls := calls_checkTool limits spent tool
  generalize spent.checkTool limits tool = answer at hcalls ⊢
  cases hcalls with
  | refused => exact h
  | granted hcalls htool =>
    refine ⟨h.modelCalls, fun max hmax => reached_eq_none_iff.1 hcalls max hmax, ?_⟩
    intro other max hmax
    simp only [Keyed.getD_insert]
    by_cases hother : tool = other
    · subst hother
      rw [if_pos rfl]
      exact reached_eq_none_iff.1 htool max hmax
    · rw [if_neg hother]
      exact h.perTool other max hmax

theorem Within.replay (h : Within limits spent) (e : Entry) :
    Within limits (spent.replay limits e) := by
  unfold Spent.replay
  split
  · exact h.checkIteration
  · exact h.checkTool _
  · exact ⟨h.modelCalls, h.toolCalls, h.perTool⟩
  · exact h

theorem Keeps.within (h : Keeps limits spent j spent') (hspent : Within limits spent) :
    Within limits spent' := by
  induction j generalizing spent with
  | nil =>
    rw [Keeps] at h
    rwa [h]
  | cons e j ih => exact ih h.2 (hspent.replay e)

/-- A refusal is an answer of the enforcer as it stands after everything that came before. -/
theorem Keeps.answers {before after : Journal} {e : Entry}
    (h : Keeps limits spent (before ++ e :: after) spent'') :
    ∃ spent', Keeps limits spent before spent' ∧ spent'.Answers limits e := by
  obtain ⟨spent', hbefore, hanswers, -⟩ := keeps_append_iff.1 h
  exact ⟨spent', hbefore, hanswers⟩

end Spent

end AgentLoop
