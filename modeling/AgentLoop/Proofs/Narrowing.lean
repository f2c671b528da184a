import AgentLoop.Proofs.Permissions
import Mathlib.Data.List.Dedup
import Mathlib.Data.List.Perm.Basic
import Mathlib.Data.List.Sort

/-!
# Narrowing takes away and never gives

A context can be narrowed many times, by the caller and by the resolver of a call.  What is left in
the end depends on which lists were applied and on nothing else, and no gate allows a call afterwards
that it would not have allowed before.

* `narrowed_right_comm` and `narrowed_self` are the two laws of a single narrowing: the order of two
  lists does not matter, and to apply a list again changes nothing.
* `Narrowing` is one step, and `ExecutionContext.narrowedBy` applies several.
* `foldl_narrowed_eq_of_mem_iff` draws the conclusion for lists of any length, and
  `permits_narrowedBy` says what is still permitted.
* `answer_narrowedBy_eq_allowed_iff` is what a gate makes of it.
-/

namespace AgentLoop

/-- Sets with the same members are equal. -/
theorem NameSet.eq_of_mem_iff {a b : NameSet} (ha : a.Sorted) (hb : b.Sorted)
    (h : ∀ name, name ∈ a ↔ name ∈ b) : a = b :=
  List.Pairwise.eq_of_mem_iff ha hb h

namespace ExecutionContext

variable (c : ExecutionContext)

/-! ## Two narrowings -/

/-- The order of two lists does not matter. -/
theorem narrowed_right_comm (a b : List String) :
    (c.narrowed a).narrowed b = (c.narrowed b).narrowed a := by
  cases hallowed : c.allowedTools with
  | none =>
    -- Each side filters another list, but both are sorted and have the same members.
    have hsame : NameSet.inter (.ofList a) (.ofList b) = NameSet.inter (.ofList b) (.ofList a) := by
      refine NameSet.eq_of_mem_iff ((NameSet.sorted_ofList a).filter _)
        ((NameSet.sorted_ofList b).filter _) fun name => ?_
      rw [NameSet.mem_inter, NameSet.mem_inter, and_comm]
    simp only [narrowed, hallowed, hsame]
  | some allowed =>
    simp only [narrowed, hallowed, NameSet.inter, List.filter_filter, Bool.and_comm]

/-- To apply a list again changes nothing. -/
theorem narrowed_self (a : List String) : (c.narrowed a).narrowed a = c.narrowed a := by
  have hkept : ∀ names : NameSet, (∀ name ∈ names, name ∈ a) →
      NameSet.inter names (.ofList a) = names := by
    intro names hnames
    refine List.filter_eq_self.2 fun name hname => ?_
    exact List.contains_iff_mem.2 (NameSet.mem_ofList.2 (hnames name hname))
  cases hallowed : c.allowedTools with
  | none =>
    have hagain := hkept (.ofList a) fun name => NameSet.mem_ofList.1
    simp only [narrowed, hallowed, hagain]
  | some allowed =>
    have hagain := hkept (NameSet.inter allowed (.ofList a)) fun name hname =>
      NameSet.mem_ofList.1 (NameSet.mem_inter.1 hname).2
    simp only [narrowed, hallowed, hagain]

/-! ## Many narrowings -/

/-- A list that is applied last can be applied first. -/
theorem narrowed_foldl (lists : List (List String)) (a : List String) :
    (lists.foldl narrowed c).narrowed a = lists.foldl narrowed (c.narrowed a) := by
  induction lists generalizing c with
  | nil => rfl
  | cons b lists ih => rw [List.foldl_cons, List.foldl_cons, ih, narrowed_right_comm]

/-- To apply a list that was applied before changes nothing. -/
theorem narrowed_foldl_of_mem {lists : List (List String)} {a : List String} (h : a ∈ lists) :
    (lists.foldl narrowed c).narrowed a = lists.foldl narrowed c := by
  induction lists generalizing c with
  | nil => cases h
  | cons b lists ih =>
    rw [List.foldl_cons]
    rcases List.mem_cons.1 h with rfl | h
    · rw [narrowed_foldl, narrowed_self]
    · exact ih _ h

theorem foldl_narrowed_dedup (lists : List (List String)) :
    lists.dedup.foldl narrowed c = lists.foldl narrowed c := by
  induction lists generalizing c with
  | nil => rfl
  | cons a lists ih =>
    by_cases hmem : a ∈ lists
    · rw [List.dedup_cons_of_mem hmem, ih, List.foldl_cons, ← narrowed_foldl,
        narrowed_foldl_of_mem c hmem]
    · rw [List.dedup_cons_of_notMem hmem, List.foldl_cons, ih, List.foldl_cons]

/-- Which lists were applied is all that counts. -/
theorem foldl_narrowed_eq_of_mem_iff {lists lists' : List (List String)}
    (h : ∀ tools, tools ∈ lists ↔ tools ∈ lists') :
    lists.foldl narrowed c = lists'.foldl narrowed c := by
  have hperm : lists.dedup.Perm lists'.dedup := by
    refine (List.perm_ext_iff_of_nodup (List.nodup_dedup _) (List.nodup_dedup _)).2 fun tools => ?_
    rw [List.mem_dedup, List.mem_dedup, h tools]
  rw [← foldl_narrowed_dedup, ← foldl_narrowed_dedup c lists']
  exact hperm.foldl_eq' (fun a _ b _ c => narrowed_right_comm c a b) c

end ExecutionContext

/-- A step by which a context is narrowed. -/
inductive Narrowing where
  /-- The caller narrows it to some tools. -/
  | byCaller (tools : List String)
  /-- The resolver narrows it to some tools when it finds the context of a call. -/
  | byResolver (tools : List String) (call : ToolCall)

namespace Narrowing

/-- The tools that a step leaves. -/
def tools : Narrowing → List String
  | byCaller tools | byResolver tools _ => tools

/-- The context after a step. -/
def apply (c : ExecutionContext) : Narrowing → ExecutionContext
  | byCaller tools => c.narrowed tools
  | byResolver tools call => Resolver.allowList tools call c

theorem apply_eq (c : ExecutionContext) (step : Narrowing) : step.apply c = c.narrowed step.tools := by
  cases step <;> rfl

end Narrowing

namespace ExecutionContext

/-- The context after some steps. -/
def narrowedBy (c : ExecutionContext) (steps : List Narrowing) : ExecutionContext :=
  steps.foldl Narrowing.apply c

variable {c : ExecutionContext} {steps : List Narrowing} {tool : String}

theorem narrowedBy_cons {step : Narrowing} :
    c.narrowedBy (step :: steps) = (c.narrowed step.tools).narrowedBy steps := by
  rw [narrowedBy, List.foldl_cons, step.apply_eq]
  rfl

theorem narrowedBy_eq_foldl :
    c.narrowedBy steps = (steps.map Narrowing.tools).foldl narrowed c := by
  induction steps generalizing c with
  | nil => rfl
  | cons step steps ih => rw [narrowedBy_cons, ih, List.map_cons, List.foldl_cons]

/-- Only the tools change. -/
theorem narrowedBy_eq_self :
    c.narrowedBy steps = { c with allowedTools := (c.narrowedBy steps).allowedTools } := by
  induction steps generalizing c with
  | nil => rfl
  | cons step steps ih =>
    rw [narrowedBy_cons]
    exact ih

/-- A tool is still permitted if it was before and every step leaves it. -/
theorem permits_narrowedBy :
    (c.narrowedBy steps).permits tool = true ↔
      c.permits tool = true ∧ ∀ step ∈ steps, tool ∈ step.tools := by
  induction steps generalizing c with
  | nil => simp [narrowedBy]
  | cons step steps ih => rw [narrowedBy_cons, ih, permits_narrowed, List.forall_mem_cons, and_assoc]

end ExecutionContext

/-! ## The gate -/

/-- After the steps a gate allows what it would have allowed before, of the tools that every step
leaves. -/
theorem Policy.answer_narrowedBy_eq_allowed_iff {policy : Policy} {state : PolicyState}
    {q : Inquiry} {base : ExecutionContext} {steps : List Narrowing} :
    (policy.answer state { q with context := base.narrowedBy steps }).1 = .allowed ↔
      (policy.answer state { q with context := base }).1 = .allowed ∧
        ∀ step ∈ steps, q.tool ∈ step.tools := by
  have hallows : ∀ context : ExecutionContext,
      (policy.answer state { q with context }).1 = .allowed ↔
        policy.AllowsAt state { q with context } q.autonomy :=
    fun _ => Iff.rfl
  simp only [hallows, allowsAt_iff, staticRefusal?_eq_none_iff, ExecutionContext.permits_narrowedBy]
  tauto

/-- Narrowing only takes away.  After any steps, by the caller or by a resolver, exactly the tools are
permitted that were before and that every step leaves.  The context depends on which lists were
applied, not on their order or on how often, and it differs from the one at first in its tools only.
A gate with any memory, at any time and level, allows exactly those calls that it would have allowed
before and whose tool every step leaves. -/
theorem narrowing_only_removes (base : ExecutionContext) (steps : List Narrowing) :
    (∀ tool, (base.narrowedBy steps).permits tool = true ↔
        base.permits tool = true ∧ ∀ step ∈ steps, tool ∈ step.tools) ∧
      (∀ others : List Narrowing,
        (∀ tools, tools ∈ others.map Narrowing.tools ↔ tools ∈ steps.map Narrowing.tools) →
          base.narrowedBy others = base.narrowedBy steps) ∧
      base.narrowedBy steps = { base with allowedTools := (base.narrowedBy steps).allowedTools } ∧
      ∀ (policy : Policy) (state : PolicyState) (q : Inquiry),
        (policy.answer state { q with context := base.narrowedBy steps }).1 = .allowed ↔
          (policy.answer state { q with context := base }).1 = .allowed ∧
            ∀ step ∈ steps, q.tool ∈ step.tools := by
  refine ⟨fun tool => ExecutionContext.permits_narrowedBy, fun others hsame => ?_,
    ExecutionContext.narrowedBy_eq_self,
    fun policy state q => Policy.answer_narrowedBy_eq_allowed_iff⟩
  rw [ExecutionContext.narrowedBy_eq_foldl, ExecutionContext.narrowedBy_eq_foldl]
  exact base.foldl_narrowed_eq_of_mem_iff hsame

/-- The caller allows two tools, and then a resolver allows one of them and another one.  Applied in
the other order, and one of them twice, the lists leave the same one tool. -/
theorem narrowing_only_removes_weather :
    ExecutionContext.unrestricted.narrowedBy
        [.byResolver ["weather", "clock"] ⟨"1", "shell", ""⟩, .byCaller ["shell", "weather"],
          .byResolver ["weather", "clock"] ⟨"2", "weather", ""⟩] =
      ExecutionContext.unrestricted.narrowedBy
        [.byCaller ["shell", "weather"], .byCaller ["weather", "clock"]] ∧
    (ExecutionContext.unrestricted.narrowedBy
        [.byCaller ["shell", "weather"], .byCaller ["weather", "clock"]]).allowedTools =
      some ["weather"] := by
  obtain ⟨-, hsame, -⟩ := narrowing_only_removes .unrestricted
    [.byCaller ["shell", "weather"], .byCaller ["weather", "clock"]]
  refine ⟨hsame _ fun tools => ?_, by decide⟩
  simp only [List.map_cons, List.map_nil, Narrowing.tools, List.mem_cons, List.not_mem_nil, or_false]
  tauto

end AgentLoop
