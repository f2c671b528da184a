import AgentLoop.Proofs.Handback
import AgentLoop.Proofs.Policy

/-!
# Least privilege

A run only executes what its gate has allowed.  When the gate follows a policy and every call is
resolved against the context of the caller, a tool is executed only if policy and caller both
permit it, and a call of any other tool is answered by a denial and goes no further.

There are three groups.

* `Permitted` lists what a tool has to meet, and `permitted_iff` says that the policy refuses
  exactly the tools that do not.
* `exists_ruling_of_mem_executions` holds for every gate: before a call is executed the gate is
  asked about it, with the same tool, arguments and context, and allows it.
* `Refused` lists what becomes of a call that is denied, `refused_of_ruling` says so for every gate.
  `least_privilege` is the result for the gate of a policy.
-/

namespace AgentLoop

/-! ## What a tool has to meet -/

/-- The resolver that narrows the context of the caller to some tools, if there are any given. -/
def Resolver.ofAllowList : Option (List String) → Resolver
  | none => passThrough
  | some tools => allowList tools

/-- The tool may be called under a configuration, on behalf of a caller, who may have been narrowed
to some tools. -/
structure Permitted (config : GovernanceConfig) (caller : ExecutionContext)
    (allow : Option (List String)) (tool : String) : Prop where
  notDenied : tool ∉ config.deniedTools
  byCaller : caller.permits tool = true
  narrowed : ∀ tools, allow = some tools → tool ∈ tools
  readOnly : caller.autonomy = .readOnly → tool ∈ config.readOnlyTools
  supervised : caller.autonomy = .supervised → tool ∉ config.supervisedBlockedTools

variable {config : GovernanceConfig} {caller : ExecutionContext} {allow : Option (List String)}
  {call : ToolCall} {tool : String}

@[simp] theorem autonomy_ofAllowList :
    (Resolver.ofAllowList allow call caller).autonomy = caller.autonomy := by
  cases allow <;> rfl

theorem permits_ofAllowList :
    (Resolver.ofAllowList allow call caller).permits tool = true ↔
      caller.permits tool = true ∧ ∀ tools, allow = some tools → tool ∈ tools := by
  cases allow with
  | none => simp [Resolver.ofAllowList, Resolver.passThrough]
  | some tools =>
    simp [Resolver.ofAllowList, Resolver.allowList, ExecutionContext.permits_narrowed]

/-- The policy of a configuration refuses exactly the tools that are not permitted. -/
theorem permitted_iff :
    Permitted config caller allow tool ↔
      (Policy.ofConfig config).staticRefusal? tool (Resolver.ofAllowList allow call caller)
        caller.autonomy = none := by
  rw [Policy.staticRefusal?_eq_none_iff, permits_ofAllowList]
  simp only [Policy.ofConfig, NameSet.mem_ofList]
  constructor
  · intro h
    exact ⟨h.notDenied, ⟨h.byCaller, h.narrowed⟩, h.readOnly, h.supervised⟩
  · rintro ⟨hdenied, ⟨hcaller, hnarrowed⟩, hreadOnly, hsupervised⟩
    exact ⟨hdenied, hcaller, hnarrowed, hreadOnly, hsupervised⟩

namespace Controller

variable {M G B X : Type} {c : Controller M G B X} {inv : Invocation} {s : Stand M G B X}

/-! ## What is executed was allowed -/

/-- A call that is executed was allowed by the gate before, in the same stride. -/
theorem ruling_of_mem_dispatch {call : ToolCall} {rest : List ToolCall}
    (hpending : s.state.transcript.pending = call :: rest) {tool : String} {arguments : JsonObject}
    {context : ExecutionContext}
    (h : (tool, arguments, context) ∈
      (c.closeBatch inv (c.dispatchCall inv call s)).journal.pick Journal.execution?) :
    tool = call.name ∧ context = c.callContext inv call ∧
      Arguments.read call.arguments = .ok arguments ∧
      (c.ruling inv call arguments s.world).1 = .allowed := by
  rw [c.pick_dispatch_of_unaudited inv Journal.onlyCalls_execution?.toSkipsReports
    (fun _ _ _ _ => rfl) hpending] at h
  have hjudges := c.judges_judge inv call s.world
  generalize c.judge inv call s.world = judged at hjudges h
  cases hjudges with
  | unreadable | denied | blocked | withdrawn => cases h
  | ended hread hruling | timedOut hread hruling | cancelled hread hruling =>
    cases List.mem_singleton.1 h
    exact ⟨rfl, rfl, hread, hruling⟩

/-- Before a call is executed the gate is asked about it, with the same tool, arguments and context,
and allows it. -/
theorem exists_ruling_of_mem_executions {w : World M G B X} {tool : String}
    {arguments : JsonObject} {context : ExecutionContext}
    (h : (tool, arguments, context) ∈ (c.run inv w).journal.executions) :
    ∃ call calls deferred past s,
      c.Reaches inv w (.dispatching (call :: calls) deferred) past s ∧
        tool = call.name ∧ context = c.callContext inv call ∧
        Arguments.read call.arguments = .ok arguments ∧
        (c.ruling inv call arguments s.world).1 = .allowed := by
  rw [Journal.executions_eq_pick] at h
  obtain ⟨phase, past, s, hreaches, hmem⟩ :=
    mem_pick_run Journal.onlyCalls_execution?.toSkipsReports h
  by_cases hphase : ∃ call calls deferred, phase = .dispatching (call :: calls) deferred
  · obtain ⟨call, calls, deferred, rfl⟩ := hphase
    exact ⟨call, calls, deferred, past, s, hreaches,
      ruling_of_mem_dispatch (awaits_of_reaches hreaches).pending hmem⟩
  · rw [c.pick_stride_eq_nil inv Journal.onlyCalls_execution?
      fun call calls deferred h => hphase ⟨call, calls, deferred, h⟩] at hmem
    cases hmem

/-! ## What becomes of a denied call -/

/-- The call is denied: the model is told the reason, a failure is counted, and neither the budget
nor the executor sees the call. -/
structure Refused (c : Controller M G B X) (inv : Invocation) (call : ToolCall) (reason : String)
    (s : Stand M G B X) : Prop where
  answered : (c.dispatchCall inv call s).stand.state.transcript.messages =
    s.state.transcript.messages ++
      [.toolResult (c.stamps inv s.world.now s.state.transcript.length) call
        s!"Tool call denied: {reason}"]
  counted : (c.dispatchCall inv call s).stand.state =
    LoopState.recordFailure
      { s.state with transcript := (c.dispatchCall inv call s).stand.state.transcript }
  budget : (c.dispatchCall inv call s).stand.world.budget = s.world.budget
  tools : (c.dispatchCall inv call s).stand.world.tools = s.world.tools
  unseen : ∀ e ∈ (c.dispatchCall inv call s).journal,
    (∀ check decision, e.event ≠ .budgetChecked check decision) ∧
      ∀ tool arguments context, e.event ≠ .executed tool arguments context

/-- A call that the gate denies is refused. -/
theorem refused_of_ruling {call : ToolCall} {rest : List ToolCall} {arguments : JsonObject}
    {reason : String} (hpending : s.state.transcript.pending = call :: rest)
    (hread : Arguments.read call.arguments = .ok arguments)
    (hruling : (c.ruling inv call arguments s.world).1 = .denied reason) :
    c.Refused inv call reason s := by
  have hjudge : c.judge inv call s.world =
      (.denied reason, c.ruled inv call arguments s.world,
        [c.rulingEntry inv call arguments s.world]) := by
    rw [judge, hread]
    simp only
    rw [askGate_eq, hruling]
  have hdispatch := c.dispatchCall_of_pending inv hpending hjudge
  refine ⟨?_, ?_, ?_, ?_, ?_⟩ <;> rw [hdispatch]
  · rfl
  · rfl
  · rfl
  · rfl
  · intro e he
    simp only [settledEntries, remarks, Fate.remarkBefore, Fate.remarkAfter, auditCall,
      Fate.audited, reportCall, rulingEntry, Option.toList, List.map_cons, List.map_nil,
      List.append_nil, List.cons_append, List.nil_append, List.mem_cons, List.not_mem_nil,
      or_false] at he
    rcases he with rfl | rfl | rfl | rfl <;> simp

/-! ## The gate of a policy -/

section PolicyGate

variable {c : Controller M PolicyState B X} {epoch : Timestamp} {call : ToolCall}
  {arguments : JsonObject} {w : World M PolicyState B X}

/-- What a tool has to meet does not depend on the id of the run. -/
theorem permitted_of_contextOf {tool : String}
    (h : Permitted config (c.contextOf inv) allow tool) : Permitted config c.context allow tool :=
  ⟨h.notDenied, h.byCaller, h.narrowed, h.readOnly, h.supervised⟩

/-- The gate of a policy denies a call of a tool that is not permitted. -/
theorem exists_ruling_eq_denied (hgate : c.gate = (Policy.ofConfig config).gate epoch)
    (hresolver : c.resolver = .ofAllowList allow)
    (h : ¬ Permitted config c.context allow call.name) :
    ∃ refusal : Refusal,
      (c.ruling inv call arguments w).1 = .denied (refusal.message call.name) := by
  have hstatic : (Policy.ofConfig config).staticRefusal? call.name (c.callContext inv call)
      (c.callContext inv call).autonomy ≠ none := by
    rw [callContext, hresolver, autonomy_ofAllowList]
    exact fun hnone => h (permitted_of_contextOf (permitted_iff.2 hnone))
  obtain ⟨refusal, hrefusal⟩ := Option.ne_none_iff_exists'.1 hstatic
  refine ⟨refusal, ?_⟩
  simp only [ruling, hgate, Policy.gate, Policy.authorize, Policy.verdict, hrefusal]

/-- The gate of a policy allows a call only if the tool is permitted. -/
theorem permitted_of_ruling (hgate : c.gate = (Policy.ofConfig config).gate epoch)
    (hresolver : c.resolver = .ofAllowList allow)
    (hruling : (c.ruling inv call arguments w).1 = .allowed) :
    Permitted config c.context allow call.name := by
  by_contra h
  obtain ⟨refusal, hdenied⟩ := exists_ruling_eq_denied hgate hresolver h
  cases hruling.symm.trans hdenied

/-- With the gate of a policy a run executes permitted tools only.  A dispatched call of any other
tool, with arguments that can be read, is denied; the journal of the run and the conversation that
it hands back show it. -/
theorem least_privilege (inv : Invocation) (w : World M PolicyState B X)
    (hgate : c.gate = (Policy.ofConfig config).gate epoch)
    (hresolver : c.resolver = .ofAllowList allow) :
    (∀ tool arguments context,
      (tool, arguments, context) ∈ (c.run inv w).journal.executions →
        Permitted config c.context allow tool) ∧
    ∀ call calls deferred past s arguments,
      c.Reaches inv w (.dispatching (call :: calls) deferred) past s →
      Arguments.read call.arguments = .ok arguments →
      ¬ Permitted config c.context allow call.name →
        (∃ refusal : Refusal, c.Refused inv call (refusal.message call.name) s) ∧
          past ++ (c.dispatchCall inv call s).journal <+: (c.run inv w).journal ∧
          ∀ messages, (c.run inv w).ending.transcript? = some messages →
            (c.dispatchCall inv call s).stand.state.transcript.messages <+: messages := by
  constructor
  · intro tool arguments context h
    obtain ⟨call, calls, deferred, past, s, -, rfl, -, -, hruling⟩ :=
      exists_ruling_of_mem_executions h
    exact permitted_of_ruling hgate hresolver hruling
  · intro call calls deferred past s arguments hreaches hread hpermitted
    obtain ⟨refusal, hruling⟩ := exists_ruling_eq_denied hgate hresolver hpermitted
    refine ⟨⟨refusal, refused_of_ruling (awaits_of_reaches hreaches).pending hread hruling⟩,
      ?_, fun messages hback => ?_⟩
    · have hjournal := c.journal_isPrefix_closeBatch inv (c.dispatchCall inv call s)
      exact ((List.prefix_append_right_inj past).2 hjournal).trans hreaches.isPrefix_run
    · exact (c.messages_isPrefix_closeBatch inv (c.dispatchCall inv call s)).trans
        (hreaches.messages_isPrefix_run hback)

end PolicyGate

/-- A configuration that denies one tool to everyone. -/
def denyShell : GovernanceConfig := { GovernanceConfig.default with deniedTools := ["shell"] }

/-- A controller whose gate follows this configuration, and whose model calls the tool and another
one. -/
def shellCaller : Controller Unit PolicyState Unit Unit :=
  singleTurn ((Policy.ofConfig denyShell).gate default)
    (.calls "" [⟨"1", "shell", ""⟩, ⟨"2", "weather", ""⟩])

/-- In this run the denied tool is refused, and the other one is executed. -/
theorem least_privilege_shellCaller :
    (∀ tool arguments context,
      (tool, arguments, context) ∈ (shellCaller.run task (idle .empty)).journal.executions →
        Permitted denyShell .unrestricted none tool) ∧
    (shellCaller.run task (idle .empty)).journal.executions.map Prod.fst = ["weather"] ∧
    ∃ past s, shellCaller.Reaches task (idle .empty)
        (.dispatching [⟨"1", "shell", ""⟩, ⟨"2", "weather", ""⟩] []) past s ∧
      ∃ refusal : Refusal,
        shellCaller.Refused task ⟨"1", "shell", ""⟩ (refusal.message "shell") s := by
  have hgate : shellCaller.gate = (Policy.ofConfig denyShell).gate default := rfl
  have hresolver : shellCaller.resolver = .ofAllowList none := rfl
  have hresult := least_privilege task (idle .empty) hgate hresolver
  have hbegin : shellCaller.Reaches task (idle .empty) .turn _ _ :=
    .begin (t := ⟨task.seed, []⟩) rfl
  have hreplied := hbegin.stride (by decide)
  have hdispatching := hreplied.stride (by decide)
  have hdenied : ¬ Permitted denyShell shellCaller.context none "shell" :=
    fun h => h.notDenied (by decide)
  refine ⟨hresult.1, by decide, _, _, hdispatching, ?_⟩
  exact (hresult.2 ⟨"1", "shell", ""⟩ _ _ _ _ [] hdispatching rfl hdenied).1

end Controller

end AgentLoop
