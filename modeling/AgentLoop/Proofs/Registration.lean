import AgentLoop.Proofs.AuditStory
import AgentLoop.Proofs.Ledgers
import Mathlib.Data.List.Induction
import Mathlib.Data.List.Sort

/-!
# Registered tools

A registry is filled by one registration after the other, and it keeps the last tool under each name.
In which order tools of different names come does not show.  A run calls its tools by name, and a
name that nobody has registered is a failure like any other.

There are three groups.

* Mappings.  `Keyed.eq_of_get?_eq`: sorted mappings that answer alike are equal.
* Registries.  `Registry.IsLast` says which tool stands in the end, and `find?_ofTools_eq_some_iff`
  that this is the one that is found.  `Registry.Faithful` lists what a registry says of its tools.
* Runs.  `fate_of_unknown` is what becomes of a call under an unknown name.  `Journal.Misses` says of
  a journal that all such calls which were executed have failed, and `misses_run` that this holds of
  every run.
-/

namespace AgentLoop

/-! ## Mappings that answer alike -/

namespace Keyed

variable {α : Type} {m m' : Keyed α}

theorem get?_eq_some_iff (h : Sorted m) {key : String} {value : α} :
    get? key m = some value ↔ (key, value) ∈ m := by
  induction m with
  | nil => simp [get?]
  | cons entry m ih =>
    obtain ⟨k, v⟩ := entry
    obtain ⟨hhead, htail⟩ := List.pairwise_cons.1 h
    rw [get?, List.mem_cons, Prod.mk.injEq]
    split
    · next hk =>
      subst hk
      have hlater : (k, value) ∉ m := fun hmem => String.lt_irrefl k (hhead _ hmem)
      simp [hlater, eq_comm]
    · next hk =>
      rw [ih htail]
      simp [Ne.symm hk]

/-- Sorted mappings that answer alike are equal. -/
theorem eq_of_get?_eq (h : Sorted m) (h' : Sorted m') (hget : ∀ key, get? key m = get? key m') :
    m = m' := by
  have hirrefl : Std.Irrefl fun a b : String × α => a.1 < b.1 := ⟨fun a => String.lt_irrefl a.1⟩
  have hasymm : Std.Asymm fun a b : String × α => a.1 < b.1 := ⟨fun a b => String.lt_asymm⟩
  refine List.Pairwise.eq_of_mem_iff h h' fun ⟨key, value⟩ => ?_
  rw [← get?_eq_some_iff h, ← get?_eq_some_iff h', hget]

end Keyed

namespace Registry

/-! ## Registries -/

/-- The tool is registered, and no other one under its name after it. -/
def IsLast (tools : List Tool) (tool : Tool) : Prop :=
  ∃ earlier later, tools = earlier ++ tool :: later ∧
    ∀ other ∈ later, other.definition.name ≠ tool.definition.name

variable {tools others : List Tool} {tool : Tool} {name : String}

theorem sorted_ofTools : Keyed.Sorted (ofTools tools) := by
  have hfold : ∀ r : Registry, Keyed.Sorted r → Keyed.Sorted (tools.foldl register r) := by
    induction tools with
    | nil => exact fun r h => h
    | cons tool tools ih => exact fun r h => ih _ (Keyed.sorted_insert h)
  exact hfold [] List.Pairwise.nil

/-- The tool of a name is the first one from behind. -/
theorem find?_ofTools :
    (ofTools tools).find? name = tools.reverse.find? fun tool => tool.definition.name = name := by
  induction tools using List.reverseRecOn with
  | nil => rfl
  | append_singleton tools tool ih =>
    have hlast : ofTools (tools ++ [tool]) = (ofTools tools).register tool := by
      rw [ofTools, List.foldl_append]
      rfl
    rw [find?] at ih
    rw [hlast, find?, register, Keyed.get?_insert, ih, List.reverse_append, List.reverse_singleton,
      List.singleton_append, List.find?_cons]
    split <;> next h => simp [h]

theorem find?_ofTools_eq_some_iff :
    (ofTools tools).find? name = some tool ↔ tool.definition.name = name ∧ IsLast tools tool := by
  rw [find?_ofTools, List.find?_eq_some_iff_append]
  constructor
  · rintro ⟨hname, later, earlier, htools, hlater⟩
    simp only [decide_eq_true_eq] at hname
    subst hname
    refine ⟨rfl, earlier.reverse, later.reverse, ?_, fun other hother => ?_⟩
    · rw [← List.reverse_reverse tools, htools]
      simp
    · simpa using hlater other (List.mem_reverse.1 hother)
  · rintro ⟨rfl, earlier, later, rfl, hlater⟩
    refine ⟨by simp, later.reverse, earlier.reverse, by simp, fun other hother => ?_⟩
    simpa using hlater other (List.mem_reverse.1 hother)

theorem mem_ofTools_iff {entry : String × Tool} :
    entry ∈ ofTools tools ↔ entry.2.definition.name = entry.1 ∧ IsLast tools entry.2 := by
  rw [← find?_ofTools_eq_some_iff, find?, Keyed.get?_eq_some_iff sorted_ofTools]

theorem knows_ofTools_iff :
    (ofTools tools).knows name = true ↔ ∃ tool ∈ tools, tool.definition.name = name := by
  rw [knows, find?_ofTools, List.find?_isSome]
  simp

theorem knows_ofTools_eq_false (h : ∀ tool ∈ tools, tool.definition.name ≠ name) :
    (ofTools tools).knows name = false := by
  rw [Bool.eq_false_iff, ne_eq, knows_ofTools_iff]
  rintro ⟨tool, htool, hname⟩
  exact h tool htool hname

theorem mem_definitions_ofTools_iff {definition : ToolDefinition} :
    definition ∈ (ofTools tools).definitions ↔
      ∃ tool, IsLast tools tool ∧ tool.definition = definition := by
  rw [definitions, List.mem_map]
  constructor
  · rintro ⟨entry, hentry, rfl⟩
    exact ⟨entry.2, (mem_ofTools_iff.1 hentry).2, rfl⟩
  · rintro ⟨tool, hlast, rfl⟩
    exact ⟨(tool.definition.name, tool), mem_ofTools_iff.2 ⟨rfl, hlast⟩, rfl⟩

/-- What a registry says of the tools that were registered with it, one after the other. -/
structure Faithful (tools : List Tool) (r : Registry) : Prop where
  /-- The definitions come by name, and each name once. -/
  increasing : r.definitions.Pairwise fun a b => a.name < b.name
  /-- They are those of the tools that stand in the end. -/
  listed : ∀ definition, definition ∈ r.definitions ↔
    ∃ tool, IsLast tools tool ∧ tool.definition = definition
  found : ∀ name tool, r.find? name = some tool ↔
    tool.definition.name = name ∧ IsLast tools tool
  /-- What is known, what is found, what is listed and what was registered have the same names. -/
  registered : ∀ name, r.knows name = true ↔ ∃ tool ∈ tools, tool.definition.name = name
  known : ∀ name, r.knows name = true ↔ (r.find? name).isSome = true
  named : ∀ name, r.knows name = true ↔ name ∈ r.names
  described : ∀ name, r.knows name = true ↔ name ∈ r.definitions.map ToolDefinition.name
  /-- A call runs the tool that is listed under its name. -/
  runs : ∀ tool, IsLast tools tool → ∀ arguments context,
    r.execute tool.definition.name arguments context =
      (tool.run arguments context).map ToolOutcome.ofReport
  /-- A call under another name fails at once. -/
  misses : ∀ name, (∀ tool ∈ tools, tool.definition.name ≠ name) → ∀ arguments context,
    r.execute name arguments context = .now (.failure s!"Tool not found: {name}")

/-- A registry does not run a tool under a name that it does not know. -/
theorem execute_of_unknown {r : Registry} (h : r.knows name = false) (arguments : Json)
    (context : ExecutionContext) :
    r.execute name arguments context = .now (.failure s!"Tool not found: {name}") := by
  have hnone : r.find? name = none := by simpa [knows] using h
  rw [execute, hnone]
  rfl

theorem knows_iff_mem_names : (ofTools tools).knows name = true ↔ name ∈ (ofTools tools).names := by
  rw [knows, find?, Option.isSome_iff_exists, names, Keyed.keys, List.mem_map]
  simp only [Keyed.get?_eq_some_iff sorted_ofTools]
  constructor
  · rintro ⟨tool, h⟩
    exact ⟨_, h, rfl⟩
  · rintro ⟨⟨_, tool⟩, h, rfl⟩
    exact ⟨tool, h⟩

/-- The names of a registry are those of its definitions. -/
theorem names_ofTools :
    (ofTools tools).names = (ofTools tools).definitions.map ToolDefinition.name := by
  rw [names, Keyed.keys, definitions, List.map_map]
  exact List.map_congr_left fun entry hentry => (mem_ofTools_iff.1 hentry).1.symm

theorem faithful_ofTools : Faithful tools (ofTools tools) where
  increasing := by
    refine List.pairwise_map.2 (sorted_ofTools.imp_of_mem fun {a b} ha hb hlt => ?_)
    rwa [(mem_ofTools_iff.1 ha).1, (mem_ofTools_iff.1 hb).1]
  listed _ := mem_definitions_ofTools_iff
  found _ _ := find?_ofTools_eq_some_iff
  registered _ := knows_ofTools_iff
  known _ := Iff.rfl
  named _ := knows_iff_mem_names
  described name := by rw [knows_iff_mem_names, names_ofTools]
  runs tool hlast arguments context := by
    rw [execute, find?_ofTools_eq_some_iff.2 ⟨rfl, hlast⟩]
  misses _ hnone := execute_of_unknown (knows_ofTools_eq_false hnone)

/-- Only the order of registrations under one name counts. -/
theorem ofTools_eq_of_filter_eq
    (h : ∀ name, others.filter (fun tool => tool.definition.name = name) =
      tools.filter fun tool => tool.definition.name = name) : ofTools others = ofTools tools := by
  refine Keyed.eq_of_get?_eq sorted_ofTools sorted_ofTools fun name => ?_
  change (ofTools others).find? name = (ofTools tools).find? name
  rw [find?_ofTools, find?_ofTools, ← List.head?_filter, ← List.head?_filter, List.filter_reverse,
    List.filter_reverse, h]

end Registry

/-! ## Runs -/

/-- Of the calls under a name those have failed that were executed, and none has succeeded. -/
structure Journal.Misses (name : String) (j : Journal) : Prop where
  failed : (j.actions.countP fun r => r.toolName = name ∧ r.status = .failed) =
    j.executions.countP fun e => e.1 = name
  notSucceeded : ∀ r ∈ j.actions, r.toolName = name → r.status ≠ .succeeded

theorem Journal.misses_of_nil {name : String} {j : Journal} (hactions : j.actions = [])
    (hexecutions : j.executions = []) : j.Misses name := by
  constructor
  · rw [hactions, hexecutions]
    rfl
  · simp [hactions]

theorem Journal.Misses.append {name : String} {j k : Journal} (hj : j.Misses name)
    (hk : k.Misses name) : (j ++ k).Misses name := by
  constructor
  · rw [actions_append, List.countP_append, hj.failed, hk.failed, executions_eq_pick,
      executions_eq_pick, executions_eq_pick, pick_append, List.countP_append]
  · intro r hr
    rw [actions_append] at hr
    rcases List.mem_append.1 hr with hr | hr
    · exact hj.notSucceeded r hr
    · exact hk.notSucceeded r hr

/-- The outcome of a call under a name that is not registered. -/
def ToolOutcome.unknown (name : String) : ToolOutcome := .failure s!"Tool not found: {name}"

namespace Controller

variable {M G B : Type} {c : Controller M G B Unit} {inv : Invocation} {w : World M G B Unit}
  {s : Stand M G B Unit} {registry : Registry} {call : ToolCall} {name : String}

/-- A call under an unknown name is not executed, and then it has neither failed nor succeeded; or it
is, and fails for its name. -/
theorem fate_of_unknown (inv : Invocation) (hexecutor : c.executor = registry.executor)
    (hunknown : registry.knows call.name = false) (w : World M G B Unit) :
    ((c.judge inv call w).2.2.executions = [] ∧ (c.judge inv call w).1.status ≠ .failed ∧
        (c.judge inv call w).1.status ≠ .succeeded) ∨
      ∃ arguments, (c.judge inv call w).2.2.executions =
          [(call.name, arguments, c.callContext inv call)] ∧
        (c.judge inv call w).1 = .ended arguments (.unknown call.name) := by
  have hexecution : ∀ arguments, (c.execution inv call arguments w).1 = .now (.unknown call.name) := by
    intro arguments
    rw [execution, hexecutor]
    exact Registry.execute_of_unknown hunknown _ _
  have hwait : ∀ arguments, inv.cancel.fired (c.executing inv call arguments w).now = false →
      c.toolWait inv call arguments w = .done (c.executing inv call arguments w).now := by
    intro arguments hfired
    rw [toolWait, hexecution]
    exact await_at_once hfired _
  have hjudges := c.judges_judge inv call w
  generalize c.judge inv call w = judged at hjudges ⊢
  cases hjudges with
  | unreadable | denied | blocked | withdrawn =>
    exact .inl ⟨rfl, by simp [Fate.status], by simp [Fate.status]⟩
  | @ended arguments => exact .inr ⟨arguments, rfl, by rw [hexecution]; rfl⟩
  | timedOut _ _ _ hfired hlate | cancelled _ _ _ hfired hlate =>
    cases (hwait _ hfired).symm.trans hlate

theorem misses_stride (hexecutor : c.executor = registry.executor)
    (hunknown : registry.knows name = false) (phase : Phase) (s : Stand M G B Unit)
    (hpending : s.state.transcript.pending = phase.open) :
    (c.stride inv phase s).1.journal.Misses name := by
  rcases phase.dispatching_or with ⟨call, calls, deferred, rfl⟩ | hcall
  · have hactions := c.actions_dispatch inv hpending
    have hexecutions := c.executions_dispatch inv hpending
    by_cases hname : call.name = name
    · subst hname
      rcases fate_of_unknown inv hexecutor hunknown s.world with
        ⟨hnone, hfailed, hsucceeded⟩ | ⟨arguments, hone, hfate⟩
      · constructor
        · simp [hactions, hexecutions, hnone, Fate.record, hfailed]
        · simp [hactions, Fate.record, hsucceeded]
      · have hstatus : (c.judge inv call s.world).1.status = .failed := by
          rw [hfate]
          rfl
        constructor
        · simp [hactions, hexecutions, hone, Fate.record, hstatus]
        · simp [hactions, Fate.record, hstatus]
    · -- The call has another name, and so has what it gives to the executor.
      have hnone : ((c.judge inv call s.world).2.2.executions.countP fun e => e.1 = name) = 0 := by
        refine List.countP_eq_zero.2 fun e he => ?_
        rw [← hexecutions] at he
        obtain ⟨htool, -⟩ := ruling_of_mem_dispatch hpending he
        rwa [htool, decide_eq_true_eq]
      constructor
      · rw [hactions, hexecutions, hnone]
        simp [Fate.record, hname]
      · simp [hactions, Fate.record, hname]
  · exact Journal.misses_of_nil (c.actions_stride_eq_nil inv hpending hcall)
      (c.pick_stride_eq_nil inv Journal.onlyCalls_execution? hcall)

/-- In a run all calls under an unknown name fail that are executed. -/
theorem misses_run (hexecutor : c.executor = registry.executor)
    (hunknown : registry.knows name = false) : (c.run inv w).journal.Misses name := by
  refine run_of_strides (fun j hj => ?_) (fun _ _ => .append) (misses_stride hexecutor hunknown)
  refine Journal.misses_of_nil (Journal.actions_of_isFrame hj) ?_
  rw [Journal.executions_eq_pick]
  exact Journal.pick_of_isFrame (fun _ _ => rfl) (fun _ _ => rfl) (fun _ => rfl) hj

/-- A run that has come to something has used tools that are known, and no others. -/
theorem knows_of_mem_toolsUsed (hexecutor : c.executor = registry.executor) {p : LoopProgress}
    (hp : (c.run inv w).ending.progress? = some p) (hmem : name ∈ p.toolsUsed) :
    registry.knows name = true := by
  obtain ⟨-, -, -, hused⟩ := exists_turns_of_progress? hp
  rw [hused, NameSet.mem_ofList, Journal.mem_successes_iff] at hmem
  obtain ⟨r, hr, hsucceeded, hname⟩ := hmem
  by_contra hunknown
  rw [Bool.not_eq_true] at hunknown
  exact (misses_run hexecutor hunknown).notSucceeded r hr hname hsucceeded

/-- The call counts as one more failure in a row, and the model is told that there is no such tool. -/
structure CountsAsMiss (c : Controller M G B Unit) (inv : Invocation) (call : ToolCall)
    (calls deferred : List ToolCall) (s : Stand M G B Unit) : Prop where
  counted : ∃ t, (c.stride inv (.dispatching (call :: calls) deferred) s).1.stand.state =
    { s.state.recordFailure with transcript := t }
  recorded : ∃ r, (c.stride inv (.dispatching (call :: calls) deferred) s).1.journal.actions = [r] ∧
    r.toolName = call.name ∧ r.status = .failed
  answered : ∃ stamp, (c.dispatchCall inv call s).stand.state.transcript.messages =
    s.state.transcript.messages ++
      [.toolResult stamp call s!"Error: Tool not found: {call.name}"]

/-- A call under an unknown name counts as a failure if it is executed. -/
theorem countsAsMiss_of_executed (hexecutor : c.executor = registry.executor)
    {calls deferred : List ToolCall} (hunknown : registry.knows call.name = false)
    (hpending : s.state.transcript.pending = call :: (calls ++ deferred))
    (hexecuted : (c.stride inv (.dispatching (call :: calls) deferred) s).1.journal.executions ≠ []) :
    c.CountsAsMiss inv call calls deferred s := by
  rw [c.executions_dispatch inv hpending] at hexecuted
  rcases fate_of_unknown inv hexecutor hunknown s.world with
    ⟨hnone, -⟩ | ⟨arguments, -, hfate⟩
  · exact absurd hnone hexecuted
  · constructor
    · obtain ⟨t, hstate⟩ := c.exists_state_dispatch inv hpending
      rw [hfate] at hstate
      exact ⟨t, hstate⟩
    · refine ⟨_, c.actions_dispatch inv hpending, rfl, ?_⟩
      rw [hfate]
      rfl
    · rcases hjudge : c.judge inv call s.world with ⟨fate, w, asked⟩
      obtain rfl : fate = .ended arguments (.unknown call.name) := by rw [← hfate, hjudge]
      rw [c.dispatchCall_of_pending inv hpending hjudge, transcript_settledState]
      exact ⟨_, rfl⟩

/-- A registry is filled faithfully, and runs rely on it.  It holds the last tool under each name and
tells of it wherever it is asked, in the order of names; only the order of registrations under one
name counts; and a name that was not registered is a failure.  In a run whose calls go to it, the
tools that are listed as used were all registered.  A call under another name counts as a failure if
it is executed, and the journal of the run shows as many failures under the name as executions. -/
theorem registry_is_faithful (tools : List Tool) :
    Registry.Faithful tools (.ofTools tools) ∧
      (∀ others : List Tool,
        (∀ name, others.filter (fun tool => tool.definition.name = name) =
          tools.filter fun tool => tool.definition.name = name) →
            Registry.ofTools others = .ofTools tools) ∧
      ∀ (c : Controller M G B Unit) (inv : Invocation) (w : World M G B Unit),
        c.executor = (Registry.ofTools tools).executor →
          (∀ p, (c.run inv w).ending.progress? = some p →
            ∀ name ∈ p.toolsUsed, ∃ tool ∈ tools, tool.definition.name = name) ∧
          ∀ name, (∀ tool ∈ tools, tool.definition.name ≠ name) →
            (c.run inv w).journal.Misses name ∧
            ∀ call calls deferred past s,
              c.Reaches inv w (.dispatching (call :: calls) deferred) past s → call.name = name →
              (c.stride inv (.dispatching (call :: calls) deferred) s).1.journal.executions ≠ [] →
                c.CountsAsMiss inv call calls deferred s := by
  refine ⟨Registry.faithful_ofTools, fun others => Registry.ofTools_eq_of_filter_eq, ?_⟩
  intro c inv w hexecutor
  constructor
  · intro p hp name hname
    exact Registry.knows_ofTools_iff.1 (knows_of_mem_toolsUsed hexecutor hp hname)
  · intro name hnone
    have hunknown := Registry.knows_ofTools_eq_false hnone
    refine ⟨misses_run hexecutor hunknown, ?_⟩
    rintro call calls deferred past s hreaches rfl hexecuted
    exact countsAsMiss_of_executed hexecutor hunknown (awaits_of_reaches hreaches).pending hexecuted

/-- A tool for the weather of yesterday. -/
def staleWeatherTool : Tool := ⟨⟨"weather", "", .obj []⟩, fun _ _ => .now (.ok "raining")⟩

/-- A tool that tells the time. -/
def clockTool : Tool := ⟨⟨"clock", "", .obj []⟩, fun _ _ => .now (.ok "noon")⟩

/-- A controller with a clock, and with a tool for the weather in the place of an earlier one.  Its
model calls a tool that is not there, and then the weather. -/
def searchCaller : Controller Unit Unit Unit Unit :=
  { singleTurn openGate (.calls "" [⟨"a", "search", ""⟩, ⟨"b", "weather", ""⟩]) with
    executor := (Registry.ofTools [staleWeatherTool, clockTool, weatherTool]).executor }

/-- The clock may be registered first.  The run has used the weather, which is registered, and its
call of a tool that is not there was executed and counts as a failure. -/
theorem registry_is_faithful_searchCaller :
    Registry.ofTools [clockTool, staleWeatherTool, weatherTool] =
        .ofTools [staleWeatherTool, clockTool, weatherTool] ∧
      (∃ p, (searchCaller.run task (idle ())).ending.progress? = some p ∧
        p.toolsUsed = ["weather"] ∧
        ∃ tool ∈ [staleWeatherTool, clockTool, weatherTool], tool.definition.name = "weather") ∧
      (searchCaller.run task (idle ())).journal.statuses = [.failed, .succeeded] ∧
      (searchCaller.run task (idle ())).journal.Misses "search" ∧
      ∃ s, searchCaller.CountsAsMiss task ⟨"a", "search", ""⟩ [⟨"b", "weather", ""⟩] [] s := by
  have hunregistered : ∀ tool ∈ [staleWeatherTool, clockTool, weatherTool],
      tool.definition.name ≠ "search" := by
    simp [staleWeatherTool, clockTool, weatherTool]
  have hused : (searchCaller.run task (idle ())).ending.progress?.map LoopProgress.toolsUsed =
      some ["weather"] := by
    decide +kernel
  obtain ⟨p, hp, hweather⟩ := Option.map_eq_some_iff.1 hused
  obtain ⟨-, hreordered, hruns⟩ := registry_is_faithful (M := Unit) (G := Unit) (B := Unit)
    [staleWeatherTool, clockTool, weatherTool]
  obtain ⟨husable, hmissing⟩ := hruns searchCaller task (idle ()) rfl
  obtain ⟨hmisses, hcounts⟩ := hmissing "search" hunregistered
  -- The first call is dispatched after the model was asked and its reply taken in.
  have hbegin : searchCaller.Reaches task (idle ()) .turn _ _ := .begin (t := ⟨task.seed, []⟩) rfl
  have hreplied := hbegin.stride (by decide +kernel)
  have hdispatching := hreplied.stride (by decide +kernel)
  refine ⟨hreordered _ fun name => ?_, ⟨p, hp, hweather, ?_⟩, by decide +kernel, hmisses,
    _, hcounts ⟨"a", "search", ""⟩ [⟨"b", "weather", ""⟩] [] _ _ hdispatching rfl
      (by decide +kernel)⟩
  · by_cases hclock : "clock" = name
    · subst hclock
      simp [staleWeatherTool, clockTool, weatherTool]
    · simp [List.filter_cons, clockTool, hclock]
  · exact husable p hp "weather" (hweather ▸ List.mem_singleton_self _)

end Controller

end AgentLoop
