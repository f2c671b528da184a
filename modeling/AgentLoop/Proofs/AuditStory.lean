import AgentLoop.Proofs.AuditTrail
import AgentLoop.Proofs.LeastPrivilege
import AgentLoop.Proofs.Strides
import AgentLoop.Proofs.Tracing

/-!
# Audit trail and trace tell the same story

A refusal is audited by the gate itself, an authorized call by the run through the gate, and the
trace is told of every dispatched call on a third way.  With the gate of a policy and the tools of a
registry the audit trail is found from the trace nevertheless: each recorded call whose arguments
could be read left exactly one entry, in the same order.

* `AuditFact` is what an audit entry says, its time and its details apart, and
  `ActionRecord.fact?` is what it has to say about a recorded call.
* `growsBy_judge` is one call, through all its fates; `gate_stride` says that nothing else is
  audited.
* `Controller.Dispatched` is the invariant of a point, and `audit_of_actions` the result.
-/

namespace AgentLoop

/-- What an audit entry says: who did what to what, and how it ended. -/
structure AuditFact where
  event : AuditEvent
  actor : String
  target : String
  outcome : AuditOutcome
  deriving DecidableEq, Repr

/-- What an entry says. -/
def AuditEntry.fact (e : AuditEntry) : AuditFact := ⟨e.event, e.actor, e.target, e.outcome⟩

/-- What the audit trail has to say about a call that ended like this.  A call whose arguments could
not be read is not audited. -/
def ActionStatus.fact? (tool actor : String) : ActionStatus → Option AuditFact
  | succeeded => some ⟨.toolExecution tool, actor, tool, .success⟩
  | failed | timedOut | blocked => some ⟨.toolExecution tool, actor, tool, .failure⟩
  | cancelled => some ⟨.toolExecution tool, actor, tool, .cancelled⟩
  | denied => some ⟨.toolDenied tool, actor, tool, .denied⟩
  | invalidArguments => none

/-- What the audit trail has to say about a recorded call in its context. -/
def ActionRecord.fact? (r : ActionRecord) (context : ExecutionContext) : Option AuditFact :=
  r.status.fact? r.toolName (actorOf context)

/-- One audit trail is another one with entries at its end that say these things, in order. -/
def AuditLog.GrowsBy (log log' : AuditLog) (facts : List AuditFact) : Prop :=
  ∃ added : AuditLog, log' = log ++ added ∧ added.map AuditEntry.fact = facts

namespace AuditLog

variable {log log' log'' : AuditLog} {facts facts' : List AuditFact}

theorem GrowsBy.refl (log : AuditLog) : log.GrowsBy log [] := ⟨[], (List.append_nil _).symm, rfl⟩

theorem growsBy_entry (log : AuditLog) (e : AuditEntry) : log.GrowsBy (log ++ [e]) [e.fact] :=
  ⟨[e], rfl, rfl⟩

theorem GrowsBy.trans (h : log.GrowsBy log' facts) (h' : log'.GrowsBy log'' facts') :
    log.GrowsBy log'' (facts ++ facts') := by
  obtain ⟨added, rfl, rfl⟩ := h
  obtain ⟨added', rfl, rfl⟩ := h'
  exact ⟨added ++ added', List.append_assoc .., List.map_append⟩

end AuditLog

/-- A gate that allows a call writes nothing, and one that denies it writes an entry. -/
theorem Policy.log_authorize (policy : Policy) (state : PolicyState) (tool : String)
    (context : ExecutionContext) (autonomy : AutonomyLevel) (now : Nat) (time : Timestamp) :
    (policy.authorize state tool context autonomy now time).2.log =
      match (policy.authorize state tool context autonomy now time).1 with
      | .allowed => state.log
      | .denied reason => state.log ++ [deniedEntry time tool context reason] := by
  rw [authorize]
  rcases policy.verdict state.admissions tool context autonomy now with ⟨_ | refusal, admissions⟩
  · rfl
  · rfl

/-- A tool of a registry succeeds or fails. -/
theorem Registry.outcome_execute (r : Registry) (tool : String) (arguments : Json)
    (context : ExecutionContext) :
    (∃ output, (r.execute tool arguments context).result = .success output) ∨
      ∃ error, (r.execute tool arguments context).result = .failure error := by
  rw [execute]
  cases r.find? tool with
  | none => exact .inr ⟨_, rfl⟩
  | some t =>
    simp only [Pending.map]
    cases (t.run arguments context).result with
    | ok output => exact .inl ⟨output, rfl⟩
    | error e => exact .inr ⟨_, rfl⟩

namespace Controller

section

variable {M G B X : Type} (c : Controller M G B X) (inv : Invocation) {s : Stand M G B X}

/-! ## Where the gate comes in -/

@[simp] theorem world_closeBatch (st : Stretch M G B X) :
    (c.closeBatch inv st).stand.world = st.stand.world := by
  rw [closeBatch]
  split <;> rfl

/-- The gate only comes in where a call is dispatched. -/
theorem gate_stride {phase : Phase}
    (hphase : ∀ call calls deferred, phase ≠ .dispatching (call :: calls) deferred) :
    (c.stride inv phase s).1.stand.world.gate = s.world.gate := by
  match phase with
  | .turn =>
    have hasks := c.asks_askModel inv s
    rw [stride]
    generalize c.askModel inv s = asked at hasks ⊢
    cases hasks <;> rfl
  | .replied reply =>
    have htakes := c.takes_strideReply inv reply s
    rw [stride]
    generalize c.strideReply inv reply s = taken at htakes ⊢
    cases htakes <;> rfl
  | .dispatching [] deferred => rfl
  | .dispatching (call :: calls) deferred => exact absurd rfl (hphase call calls deferred)
  | .deferring [] => rfl
  | .deferring (call :: calls) =>
    rw [stride, strideDeferral]
    split <;> rfl
  | .closing =>
    rw [stride, closeTurn_eq]
    split <;> rfl

end

/-! ## One call -/

section

variable {M B X : Type} {c : Controller M PolicyState B X} {inv : Invocation} {policy : Policy}
  {epoch : Timestamp} {call : ToolCall} {arguments : JsonObject} {w : World M PolicyState B X}

theorem log_ruled (hgate : c.gate = policy.gate epoch) :
    (c.ruled inv call arguments w).gate.log =
      match (c.ruling inv call arguments w).1 with
      | .allowed => w.gate.log
      | .denied reason =>
        w.gate.log ++ [Policy.deniedEntry (epoch.addMillis w.now) call.name
          (c.callContext inv call) reason] := by
  rw [ruled, ruling, hgate]
  exact policy.log_authorize ..

/-- Of an authorized call the gate writes an entry when it is told what became of it. -/
theorem log_auditCall (hgate : c.gate = policy.gate epoch) {fate : Fate} {outcome : ToolOutcome}
    (haudited : fate.audited call.name = some (arguments, outcome)) :
    (c.auditCall inv call fate w).1.gate.log =
      w.gate.log ++ [Policy.executedEntry (epoch.addMillis w.now) call.name (.obj arguments)
        (c.callContext inv call) outcome] := by
  rw [auditCall, haudited, hgate]
  rfl

/-- Of a call that the gate did not allow it is not told. -/
theorem auditCall_of_none {fate : Fate} (haudited : fate.audited call.name = none) :
    (c.auditCall inv call fate w).1 = w := by
  rw [auditCall, haudited]

/-- An authorized call leaves one entry, with the outcome that the gate is told. -/
theorem growsBy_of_allowed (hgate : c.gate = policy.gate epoch)
    (hruling : (c.ruling inv call arguments w).1 = .allowed) (fate : Fate)
    (w' : World M PolicyState B X) (hsame : w'.gate = (c.ruled inv call arguments w).gate)
    {outcome : ToolOutcome} (haudited : fate.audited call.name = some (arguments, outcome)) :
    w.gate.log.GrowsBy (c.auditCall inv call fate w').1.gate.log
      [⟨.toolExecution call.name, actorOf (c.callContext inv call), call.name,
        .ofTool outcome⟩] := by
  rw [log_auditCall hgate haudited, hsame, log_ruled hgate, hruling]
  exact AuditLog.growsBy_entry _ _

end

section

variable {M B : Type} {c : Controller M PolicyState B Unit} {inv : Invocation} {policy : Policy}
  {registry : Registry} {epoch : Timestamp} {s : Stand M PolicyState B Unit}

/-- However a call ends, the audit trail says of it what its status says. -/
theorem growsBy_judge (inv : Invocation) (hgate : c.gate = policy.gate epoch)
    (hexecutor : c.executor = registry.executor) (call : ToolCall)
    (w : World M PolicyState B Unit) :
    w.gate.log.GrowsBy
      (c.auditCall inv call (c.judge inv call w).1 (c.judge inv call w).2.1).1.gate.log
      ((c.judge inv call w).1.status.fact? call.name
        (actorOf (c.callContext inv call))).toList := by
  have hjudges := c.judges_judge inv call w
  generalize c.judge inv call w = judged at hjudges ⊢
  cases hjudges with
  | unreadable hread =>
    rw [auditCall_of_none rfl]
    exact .refl _
  | denied hread hruling =>
    rw [auditCall_of_none rfl, log_ruled hgate, hruling]
    exact AuditLog.growsBy_entry _ _
  | @blocked arguments reason hread hruling hcheck =>
    exact growsBy_of_allowed hgate hruling (.blocked _ _) (c.checked inv call arguments w) rfl rfl
  | @withdrawn arguments hread hruling hcheck hfired =>
    exact growsBy_of_allowed hgate hruling (.cancelled _) (c.executing inv call arguments w) rfl rfl
  | @timedOut arguments time hread hruling hcheck hfired hwait =>
    exact growsBy_of_allowed hgate hruling (.timedOut _ _) (c.executed inv call arguments w time)
      rfl rfl
  | @cancelled arguments time hread hruling hcheck hfired hwait =>
    exact growsBy_of_allowed hgate hruling (.cancelled _) (c.executed inv call arguments w time)
      rfl rfl
  | @ended arguments time hread hruling hcheck hfired hwait =>
    have hentry := growsBy_of_allowed hgate hruling
      (.ended arguments (c.execution inv call arguments w).1.result)
      (c.executed inv call arguments w time) rfl rfl
    have hexecution : (c.execution inv call arguments w).1 =
        registry.execute call.name (.obj arguments) (c.callContext inv call) := by
      rw [execution, hexecutor]
      rfl
    rcases registry.outcome_execute call.name (.obj arguments) (c.callContext inv call) with
      ⟨output, hsuccess⟩ | ⟨error, hfailure⟩
    · rw [hexecution, hsuccess] at hentry ⊢
      exact hentry
    · rw [hexecution, hfailure] at hentry ⊢
      exact hentry

end

/-! ## A run -/

/-- The calls that were dispatched, each with its record.  The trace has the records, and the audit
trail what they say of the calls, each in its context. -/
structure Dispatched {M G B X : Type} (c : Controller M G B X) (inv : Invocation)
    (log log' : AuditLog) (j : Journal) (calls : List (ToolCall × ActionRecord)) : Prop where
  actions : j.actions = calls.map Prod.snd
  names : ∀ d ∈ calls, d.2.callId = d.1.id ∧ d.2.toolName = d.1.name
  audit : log.GrowsBy log' (calls.filterMap fun d => d.2.fact? (c.callContext inv d.1))

section

variable {M G B X : Type} {c : Controller M G B X} {inv : Invocation} {log log' log'' : AuditLog}
  {j k : Journal} {calls calls' : List (ToolCall × ActionRecord)}

theorem dispatched_nil (h : j.actions = []) : c.Dispatched inv log log j [] :=
  ⟨h, by simp, .refl _⟩

theorem Dispatched.append (h : c.Dispatched inv log log' j calls)
    (h' : c.Dispatched inv log' log'' k calls') :
    c.Dispatched inv log log'' (j ++ k) (calls ++ calls') where
  actions := by rw [Journal.actions_append, h.actions, h'.actions, List.map_append]
  names := by
    intro d hd
    rcases List.mem_append.1 hd with hd | hd
    · exact h.names d hd
    · exact h'.names d hd
  audit := by
    rw [List.filterMap_append]
    exact h.audit.trans h'.audit

end

section

variable {M B : Type} {c : Controller M PolicyState B Unit} {inv : Invocation} {policy : Policy}
  {registry : Registry} {epoch : Timestamp} {s : Stand M PolicyState B Unit}
  {w : World M PolicyState B Unit} {phase : Phase} {past : Journal}

/-- A stride dispatches the call of its phase, if it has one. -/
theorem exists_dispatched_stride (inv : Invocation) (hgate : c.gate = policy.gate epoch)
    (hexecutor : c.executor = registry.executor)
    (hpending : s.state.transcript.pending = phase.open) :
    ∃ calls : List (ToolCall × ActionRecord), calls.map Prod.fst = phase.dispatched ∧
      c.Dispatched inv s.world.gate.log (c.stride inv phase s).1.stand.world.gate.log
        (c.stride inv phase s).1.journal calls := by
  rcases phase.dispatching_or with ⟨call, calls, deferred, rfl⟩ | hphase
  · have haudit := growsBy_judge inv hgate hexecutor call s.world
    have hactions := c.actions_dispatch inv hpending
    rcases hjudge : c.judge inv call s.world with ⟨fate, w, asked⟩
    rw [hjudge] at haudit hactions
    have hworld : (c.stride inv (.dispatching (call :: calls) deferred) s).1.stand.world =
        (c.auditCall inv call fate w).1 := by
      rw [stride, world_closeBatch, c.dispatchCall_of_pending inv hpending hjudge]
    refine ⟨[(call, fate.record call (w.now - s.world.now))], rfl, hactions, ?_, ?_⟩
    · intro d hd
      rw [List.mem_singleton.1 hd]
      exact ⟨rfl, rfl⟩
    · have hone : ∀ (f : ToolCall × ActionRecord → Option AuditFact) (d : ToolCall × ActionRecord),
          [d].filterMap f = (f d).toList := by
        intro f d
        cases hd : f d <;> simp [hd]
      rw [hworld, hone]
      exact haudit
  · refine ⟨[], ?_, ?_⟩
    · rw [Phase.dispatched_eq_nil hphase]
      rfl
    · rw [c.gate_stride inv hphase]
      exact dispatched_nil (c.actions_stride_eq_nil inv hpending hphase)

theorem exists_dispatched_of_reaches_stride (hgate : c.gate = policy.gate epoch)
    (hexecutor : c.executor = registry.executor) (h : c.Reaches inv w phase past s)
    {calls : List (ToolCall × ActionRecord)}
    (hcalls : c.Dispatched inv w.gate.log s.world.gate.log past calls)
    (hissued : (calls.map Prod.fst ++ phase.unheard s.state.iterations).Sublist
      (issuedCalls past.replies)) :
    ∃ calls' : List (ToolCall × ActionRecord),
      c.Dispatched inv w.gate.log (c.stride inv phase s).1.stand.world.gate.log
        (past ++ (c.stride inv phase s).1.journal) calls' ∧
      (calls'.map Prod.fst ++ (c.stride inv phase s).2.unheard
        (s.state.iterations + (c.stride inv phase s).2.incoming.length)).Sublist
        (issuedCalls (past ++ (c.stride inv phase s).1.journal).replies) := by
  obtain ⟨more, hmore, hdispatched⟩ := exists_dispatched_stride inv hgate hexecutor
    (awaits_of_reaches h).pending
  refine ⟨calls ++ more, hcalls.append hdispatched, ?_⟩
  rw [List.map_append, hmore]
  exact sublist_issued_stride h hissued

/-- At every point the audit trail has grown by what the trace was told. -/
theorem exists_dispatched_of_reaches (hgate : c.gate = policy.gate epoch)
    (hexecutor : c.executor = registry.executor) (h : c.Reaches inv w phase past s) :
    ∃ calls : List (ToolCall × ActionRecord),
      c.Dispatched inv w.gate.log s.world.gate.log past calls ∧
      (calls.map Prod.fst ++ phase.unheard s.state.iterations).Sublist
        (issuedCalls past.replies) := by
  induction h with
  | begin hadopt => exact ⟨[], dispatched_nil rfl, List.nil_sublist _⟩
  | stride hpast hflow ih =>
    obtain ⟨calls, hcalls, hissued⟩ := ih
    rw [c.iterations_stride inv hflow]
    exact exists_dispatched_of_reaches_stride hgate hexecutor hpast hcalls hissued

/-- However a run ends, the audit trail and the trace tell the same story, call by call.  The calls
that the run dispatched are calls that the model issued, in the order of issue.  The trace has one
record of each, with its id and its name; and the audit trail has grown by one entry for each
record, in the same order, those with unreadable arguments left out.  Event and outcome of an entry
are those of the status in the record, its target and the tool of its event are the tool of the
record, and its actor is the caller in the context of the call. -/
theorem audit_of_actions (inv : Invocation) (w : World M PolicyState B Unit)
    (hgate : c.gate = policy.gate epoch) (hexecutor : c.executor = registry.executor) :
    ∃ calls : List (ToolCall × ActionRecord),
      (calls.map Prod.fst).Sublist (issuedCalls (c.run inv w).journal.replies) ∧
      (c.run inv w).journal.actions = calls.map Prod.snd ∧
      (∀ d ∈ calls, d.2.callId = d.1.id ∧ d.2.toolName = d.1.name) ∧
      w.gate.log.GrowsBy (c.run inv w).world.gate.log
        (calls.filterMap fun d => d.2.fact? (c.callContext inv d.1)) := by
  rcases c.run_cases inv w with ⟨error, -, hrun⟩ | ⟨journal, s, flow, hends, hrun⟩
  · rw [hrun]
    exact ⟨[], List.nil_sublist _, rfl, by simp, .refl _⟩
  · rw [hrun, Journal.replies, pick_reportOf inv Journal.skipsReports_reply?, actions_reportOf]
    obtain @⟨phase, past, s, hpast, hflow⟩ := hends
    obtain ⟨calls, hcalls, hissued⟩ := exists_dispatched_of_reaches hgate hexecutor hpast
    obtain ⟨all, hall, hsublist⟩ :=
      exists_dispatched_of_reaches_stride hgate hexecutor hpast hcalls hissued
    exact ⟨all, (List.sublist_append_left _ _).trans hsublist, hall.actions, hall.names, hall.audit⟩

end

/-- A tool that says that the sun is shining. -/
def weatherTool : Tool := ⟨⟨"weather", "", .obj []⟩, fun _ _ => .now (.ok "sunny")⟩

/-- A controller whose gate denies the shell, and whose model calls the one tool that there is with
arguments that cannot be read, the shell, the tool once more, and a tool that is not there. -/
def mixedCaller : Controller Unit PolicyState Unit Unit :=
  { singleTurn ((Policy.ofConfig denyShell).gate default)
      (.calls "" [⟨"a", "weather", "1"⟩, ⟨"b", "shell", ""⟩, ⟨"c", "weather", ""⟩,
        ⟨"d", "search", ""⟩]) with
    executor := (Registry.ofTools [weatherTool]).executor }

/-- Four calls are recorded, and three of them are audited. -/
theorem audit_of_actions_mixedCaller :
    (mixedCaller.run task (idle .empty)).journal.statuses =
        [.invalidArguments, .denied, .succeeded, .failed] ∧
      (mixedCaller.run task (idle .empty)).world.gate.log.map AuditEntry.outcome =
        [.denied, .success, .failure] ∧
      ∃ calls : List (ToolCall × ActionRecord),
        (mixedCaller.run task (idle .empty)).journal.actions = calls.map Prod.snd ∧
        AuditLog.GrowsBy [] (mixedCaller.run task (idle .empty)).world.gate.log
          (calls.filterMap fun d => d.2.fact? (mixedCaller.callContext task d.1)) := by
  have hgate : mixedCaller.gate = (Policy.ofConfig denyShell).gate default := rfl
  have hexecutor : mixedCaller.executor = (Registry.ofTools [weatherTool]).executor := rfl
  obtain ⟨calls, -, hactions, -, haudit⟩ :=
    mixedCaller.audit_of_actions task (idle .empty) hgate hexecutor
  exact ⟨by decide +kernel, by decide +kernel, calls, hactions, haudit⟩

end Controller

end AgentLoop
