import AgentLoop.Proofs.Discipline

/-!
# What the tracer is told

The tracer is told when a turn begins, what the model replied, and how each dispatched call ended.
Nothing else that a run does between its start and its end is told to it.

* `Journal.told` is what the tracer was told, `Controller.toldIn` is what it is told by a stride,
  and `told_stride` says so.
* `Journal.steps` are the turns that the tracer was told of, and `steps_of_reaches` says that they
  are numbered from one.
* `Journal.actions` are the records of the dispatched calls, in order, and `Journal.statuses` says
  how they ended.  `actions_dispatch` adds the record of the call that the stride dispatches.
-/

namespace AgentLoop

/-- The record of a dispatched call with this fate. -/
def Fate.record (call : ToolCall) (fate : Fate) (durationMs : Nat) : ActionRecord :=
  { callId := call.id
    toolName := call.name
    status := fate.status
    detail :=
      if fate.status.isSuccess || fate.content call.name = "" then none
      else some (fate.content call.name)
    durationMs }

/-- The turn whose beginning this is. -/
def TraceEvent.step? : TraceEvent → Option Nat
  | step _ iteration => some iteration
  | _ => none

/-- How the call ended that this is about. -/
def TraceEvent.status? : TraceEvent → Option ActionStatus
  | action _ record => some record.status
  | _ => none

/-- The record of the call that this is about. -/
def TraceEvent.action? : TraceEvent → Option ActionRecord
  | action _ record => some record
  | _ => none

namespace Journal

/-- What the tracer is told by an event. -/
def traced? : Event → Option TraceEvent
  | .traced event => some event
  | _ => none

/-- What the tracer was told, in order. -/
def told (j : Journal) : List TraceEvent := j.pick traced?

/-- The turns that were begun, by their numbers. -/
def steps (j : Journal) : List Nat := j.told.filterMap TraceEvent.step?

/-- How the dispatched calls ended, in order. -/
def statuses (j : Journal) : List ActionStatus := j.told.filterMap TraceEvent.status?

/-- The records of the dispatched calls, in order. -/
def actions (j : Journal) : List ActionRecord := j.told.filterMap TraceEvent.action?

/-- The record of a dispatched call that the tracer is told by an event. -/
def action? : Event → Option ActionRecord
  | .traced (.action _ record) => some record
  | _ => none

theorem actions_eq_pick (j : Journal) : j.actions = j.pick action? := by
  rw [actions, told, pick, pick, List.filterMap_filterMap]
  congr
  funext entry
  cases entry.event with
  | traced event => cases event <;> rfl
  | _ => rfl

theorem told_append (j k : Journal) : (j ++ k).told = j.told ++ k.told := pick_append j k

@[simp] theorem steps_append (j k : Journal) : (j ++ k).steps = j.steps ++ k.steps := by
  rw [steps, told_append, List.filterMap_append]
  rfl

@[simp] theorem actions_append (j k : Journal) : (j ++ k).actions = j.actions ++ k.actions := by
  rw [actions_eq_pick, actions_eq_pick, actions_eq_pick, pick_append]

theorem statuses_eq_map (j : Journal) : j.statuses = j.actions.map ActionRecord.status := by
  rw [statuses, actions, List.map_filterMap]
  congr
  funext event
  cases event <;> rfl

@[simp] theorem statuses_append (j k : Journal) :
    (j ++ k).statuses = j.statuses ++ k.statuses := by
  rw [statuses_eq_map, actions_append, List.map_append, ← statuses_eq_map, ← statuses_eq_map]

end Journal

/-- The turns that a stride from a phase begins. -/
def Phase.begun : Phase → Nat
  | turn => 1
  | _ => 0

namespace Controller

variable {M G B X : Type} (c : Controller M G B X) (inv : Invocation) {s : Stand M G B X}

/-! ## What a stride tells -/

/-- What the tracer is told by the stride from a phase. -/
def toldIn : Phase → Stand M G B X → List TraceEvent
  | .turn, s => [.step inv.traceId (s.state.iterations + 1)]
  | .replied reply, _ =>
    [.modelCall inv.traceId reply.model reply.usage reply.toolCalls.length]
  | .dispatching (call :: _) _, s =>
    let judged := c.judge inv call s.world
    [.action inv.traceId (judged.1.record call (judged.2.1.now - s.world.now))]
  | _, _ => []

theorem told_remarks (now : Nat) (remark : Option Remark) : (remarks now remark).told = [] := by
  cases remark <;> rfl

theorem told_takeText (content : String) (s : Stand M G B X) :
    (c.takeText inv content s).journal.told = [] := by
  rw [takeText]
  split
  · split <;> rfl
  · rfl

theorem told_notedEntries (reply : ModelReply) (s : Stand M G B X) :
    (c.notedEntries inv reply s).told =
      [.modelCall inv.traceId reply.model reply.usage reply.toolCalls.length] := by
  rw [notedEntries, recordReply]
  cases reply.usage <;> rfl

theorem told_judge (call : ToolCall) (w : World M G B X) :
    (c.judge inv call w).2.2.told = [] := by
  have hjudges := c.judges_judge inv call w
  generalize c.judge inv call w = judged at hjudges ⊢
  cases hjudges <;> rfl

theorem told_auditCall (call : ToolCall) (fate : Fate) (w : World M G B X) :
    (c.auditCall inv call fate w).2.told = [] := by
  rw [auditCall]
  split <;> rfl

theorem told_closeBatch (st : Stretch M G B X) :
    (c.closeBatch inv st).journal.told = st.journal.told := by
  rw [closeBatch]
  split
  · rw [Journal.told_append]
    exact List.append_nil _
  · rfl

/-- Of a dispatched call the tracer is told how it ended. -/
theorem told_dispatch {call : ToolCall} {rest : List ToolCall}
    (hpending : s.state.transcript.pending = call :: rest) :
    (c.closeBatch inv (c.dispatchCall inv call s)).journal.told =
      [.action inv.traceId ((c.judge inv call s.world).1.record call
        ((c.judge inv call s.world).2.1.now - s.world.now))] := by
  have hasked := c.told_judge inv call s.world
  rcases hjudge : c.judge inv call s.world with ⟨fate, w, asked⟩
  rw [hjudge] at hasked
  rw [told_closeBatch, c.dispatchCall_of_pending inv hpending hjudge]
  simp only [settledEntries, Journal.told_append, hasked, told_remarks, told_auditCall,
    List.nil_append, List.append_nil]
  rfl

/-- A stride tells the tracer this. -/
theorem told_stride {phase : Phase} (hpending : s.state.transcript.pending = phase.open) :
    (c.stride inv phase s).1.journal.told = c.toldIn inv phase s := by
  match phase with
  | .turn =>
    have hasks := c.asks_askModel inv s
    rw [stride]
    generalize c.askModel inv s = asked at hasks ⊢
    cases hasks <;> rfl
  | .replied reply =>
    have hnoted := c.told_notedEntries inv reply s
    rw [stride, strideReply]
    simp only
    split
    · exact hnoted
    · split
      · simpa [Stretch.after, Journal.told_append, told_takeText, toldIn] using hnoted
      · rw [Journal.told_append, hnoted]
        rfl
  | .dispatching [] deferred =>
    rw [stride, strideToDeferred]
    simp only
    split <;> rfl
  | .dispatching (call :: calls) deferred => exact c.told_dispatch inv hpending
  | .deferring [] => rfl
  | .deferring (call :: calls) =>
    rw [stride, journal_strideDeferral]
    rfl
  | .closing =>
    rw [stride, closeTurn_eq]
    split <;> rfl

/-- A stride adds the number of the turn that it begins. -/
theorem steps_stride {phase : Phase} (hpending : s.state.transcript.pending = phase.open) :
    (c.stride inv phase s).1.journal.steps =
      List.range' (s.state.iterations + 1) phase.begun := by
  rw [Journal.steps, c.told_stride inv hpending]
  match phase with
  | .turn => rfl
  | .replied reply => rfl
  | .dispatching [] deferred => rfl
  | .dispatching (call :: calls) deferred => rfl
  | .deferring calls => rfl
  | .closing => rfl

/-- The stride that dispatches a call adds its record. -/
theorem actions_dispatch {call : ToolCall} {calls deferred : List ToolCall}
    (hpending : s.state.transcript.pending = call :: (calls ++ deferred)) :
    (c.stride inv (.dispatching (call :: calls) deferred) s).1.journal.actions =
      [(c.judge inv call s.world).1.record call
        ((c.judge inv call s.world).2.1.now - s.world.now)] := by
  rw [Journal.actions, c.told_stride inv hpending]
  rfl

/-- Only the dispatching of a call adds a record. -/
theorem actions_stride_eq_nil {phase : Phase}
    (hpending : s.state.transcript.pending = phase.open)
    (hphase : ∀ call calls deferred, phase ≠ .dispatching (call :: calls) deferred) :
    (c.stride inv phase s).1.journal.actions = [] := by
  rw [Journal.actions, c.told_stride inv hpending]
  match phase with
  | .turn => rfl
  | .replied reply => rfl
  | .dispatching [] deferred => rfl
  | .dispatching (call :: calls) deferred => exact absurd rfl (hphase call calls deferred)
  | .deferring calls => rfl
  | .closing => rfl

theorem statuses_dispatch {call : ToolCall} {calls deferred : List ToolCall}
    (hpending : s.state.transcript.pending = call :: (calls ++ deferred)) :
    (c.stride inv (.dispatching (call :: calls) deferred) s).1.journal.statuses =
      [(c.judge inv call s.world).1.status] := by
  rw [Journal.statuses_eq_map, c.actions_dispatch inv hpending]
  rfl

theorem statuses_stride_eq_nil {phase : Phase}
    (hpending : s.state.transcript.pending = phase.open)
    (hphase : ∀ call calls deferred, phase ≠ .dispatching (call :: calls) deferred) :
    (c.stride inv phase s).1.journal.statuses = [] := by
  rw [Journal.statuses_eq_map, c.actions_stride_eq_nil inv hpending hphase]
  rfl

/-- The end of a run tells of no turn and of no call. -/
theorem steps_reportOf {w : World M G B X} {journal : Journal} {flow : Flow} :
    (reportOf inv w journal s flow).journal.steps = journal.steps := by
  rw [reportOf, Journal.steps_append]
  cases flow <;> exact List.append_nil _

theorem actions_reportOf {w : World M G B X} {journal : Journal} {flow : Flow} :
    (reportOf inv w journal s flow).journal.actions = journal.actions := by
  rw [reportOf, Journal.actions_append]
  cases flow <;> exact List.append_nil _

theorem statuses_reportOf {w : World M G B X} {journal : Journal} {flow : Flow} :
    (reportOf inv w journal s flow).journal.statuses = journal.statuses := by
  rw [Journal.statuses_eq_map, actions_reportOf, Journal.statuses_eq_map]

/-! ## The number of turns -/

/-- However it flows on, a stride counts the turn that it begins. -/
theorem iterations_stride_eq (phase : Phase) (s : Stand M G B X) :
    (c.stride inv phase s).1.stand.state.iterations = s.state.iterations + phase.begun := by
  match phase with
  | .turn =>
    have hasks := c.asks_askModel inv s
    rw [stride]
    generalize c.askModel inv s = asked at hasks ⊢
    cases hasks <;> rfl
  | .replied reply =>
    rw [stride, strideReply]
    simp only
    split
    · rfl
    · split
      · exact c.iterations_takeText inv reply.content _
      · rfl
  | .dispatching [] deferred => rfl
  | .dispatching (call :: calls) deferred =>
    rw [stride]
    exact (c.iterations_closeBatch inv _).trans (c.iterations_dispatchCall inv call s)
  | .deferring [] => rfl
  | .deferring (call :: calls) =>
    rw [stride, strideDeferral]
    split <;> rfl
  | .closing =>
    rw [stride, closeTurn_eq]
    split <;> rfl

variable {c inv} {w : World M G B X} {phase : Phase} {past journal : Journal} {flow : Flow}

/-- One stride more in the steps. -/
theorem steps_of_reaches_stride (h : c.Reaches inv w phase past s)
    (hsteps : past.steps = List.range' 1 s.state.iterations) :
    (past ++ (c.stride inv phase s).1.journal).steps =
      List.range' 1 (c.stride inv phase s).1.stand.state.iterations := by
  rw [Journal.steps_append, hsteps, c.steps_stride inv (awaits_of_reaches h).pending,
    c.iterations_stride_eq, Nat.add_comm _ 1, ← List.range'_append_1]

/-- At every point the tracer was told of the turns that the run has counted. -/
theorem steps_of_reaches (h : c.Reaches inv w phase past s) :
    past.steps = List.range' 1 s.state.iterations := by
  induction h with
  | begin hadopt => rfl
  | stride hpast hflow ih => exact steps_of_reaches_stride hpast ih

theorem steps_of_ends (h : c.Ends inv w journal s flow) :
    journal.steps = List.range' 1 s.state.iterations := by
  obtain ⟨hpast, hflow⟩ := h
  exact steps_of_reaches_stride hpast (steps_of_reaches hpast)

end Controller

end AgentLoop
