import AgentLoop.Proofs.Recording
import AgentLoop.Proofs.SharedBudget

/-!
# The ledgers of a run agree

A run counts for itself, its tracer keeps a trace of it and adds to the totals of all runs, and the
enforcer counts what it is asked for.  None of them knows of the others, and a run can leave a turn
at many points.  All of them are found in the journal: each ledger is what the journal tells of it,
and what the journal tells of the one is what it tells of the other.

* `LoopState.Counts` says that a state counts what a journal tells; `counts_stride` is one stride,
  `counts_of_ends` the end of a course.
* `Journal.Booked` says that the calls which the budget allowed are those whose action says so, and
  `booked_run` that this holds of every run.
* `LedgersAgree` lists the ledgers of a run, and `ledgersAgree_run` says that they agree.
-/

namespace AgentLoop

/-- The budget had allowed a call that ended like this. -/
def ActionStatus.isGranted : ActionStatus → Bool
  | succeeded | failed | timedOut | cancelled => true
  | denied | blocked | invalidArguments => false

/-- The tokens of a reply are those that the tracer is told of. -/
theorem ModelReply.tokensOf_usage (reply : ModelReply) : tokensOf reply.usage = reply.tokens := by
  rw [tokens]
  cases reply.usage <;> rfl

namespace Journal

/-- The tools of the calls that succeeded, in order. -/
def successes (j : Journal) : List String :=
  (j.actions.filter fun r => r.status.isSuccess).map ActionRecord.toolName

@[simp] theorem successes_append (j k : Journal) :
    (j ++ k).successes = j.successes ++ k.successes := by
  simp [successes]

theorem successes_eq_nil {j : Journal} (h : j.actions = []) : j.successes = [] := by
  rw [successes, h]
  rfl

/-- The calls that the budget allowed are those whose action says so. -/
def Booked (j : Journal) : Prop :=
  j.callsGranted = (j.actions.filter fun r => r.status.isGranted).map ActionRecord.toolName

theorem Booked.append {j k : Journal} (hj : j.Booked) (hk : k.Booked) : (j ++ k).Booked := by
  rw [Booked, callsGranted_append, hj, hk, actions_append, List.filter_append, List.map_append]

theorem Booked.length_callsGranted {j : Journal} (h : j.Booked) :
    j.callsGranted.length = j.actions.countP fun r => r.status.isGranted := by
  rw [h, List.length_map, List.countP_eq_length_filter]

theorem actions_of_isFrame {j : Journal} (h : ∀ e ∈ j, e.event.isFrame = true) :
    j.actions = [] := by
  rw [actions_eq_pick]
  exact pick_of_isFrame (fun _ _ => rfl) (fun _ _ => rfl) (fun _ => rfl) h

end Journal

/-! ## What a run counts for itself -/

/-- A state counts what a journal tells. -/
structure LoopState.Counts (s : LoopState) (j : Journal) : Prop where
  totalTokens : s.totalTokens = j.tokensRecorded
  toolCallsMade : s.toolCallsMade = j.successes.length
  toolsUsed : s.toolsUsed = NameSet.ofList j.successes

namespace LoopState.Counts

variable {s s' : LoopState} {j k : Journal}

/-- What is counted of a stride in which no call succeeds. -/
theorem of_tokens (h : s.Counts j) (hsuccesses : k.successes = [])
    (htokens : s'.totalTokens = s.totalTokens + k.tokensRecorded)
    (hcalls : s'.toolCallsMade = s.toolCallsMade) (htools : s'.toolsUsed = s.toolsUsed) :
    s'.Counts (j ++ k) where
  totalTokens := by rw [htokens, h.totalTokens, Journal.tokensRecorded_append]
  toolCallsMade := by
    rw [hcalls, h.toolCallsMade, Journal.successes_append, hsuccesses, List.append_nil]
  toolsUsed := by rw [htools, h.toolsUsed, Journal.successes_append, hsuccesses, List.append_nil]

/-- What is counted of a dispatched call. -/
theorem of_fate {call : ToolCall} {fate : Fate} {t : Transcript} {durationMs : Nat}
    (h : s.Counts j) (htokens : k.tokensRecorded = 0)
    (hactions : k.actions = [fate.record call durationMs]) :
    Counts { fate.count call.name s with transcript := t } (j ++ k) := by
  have hrecord : k.successes =
      ([fate.record call durationMs].filter fun r => r.status.isSuccess).map
        ActionRecord.toolName := by
    rw [Journal.successes, hactions]
  by_cases hsuccess : fate.status = .succeeded
  · have hone : k.successes = [call.name] := by
      rw [hrecord]
      simp [Fate.record, hsuccess, ActionStatus.isSuccess]
    have hcount : fate.count call.name s = s.recordSuccess call.name := by
      rw [Fate.count, hsuccess]
    rw [hcount]
    constructor
    · rw [Journal.tokensRecorded_append, htokens]
      exact h.totalTokens
    · rw [Journal.successes_append, hone, List.length_append, ← h.toolCallsMade]
      rfl
    · rw [Journal.successes_append, hone, NameSet.ofList_concat, ← h.toolsUsed]
      rfl
  · have hnone : k.successes = [] := by
      rw [hrecord]
      simp [Fate.record, hsuccess, ActionStatus.isSuccess]
    have hcount : ∃ errors, fate.count call.name s = { s with consecutiveErrors := errors } := by
      rw [Fate.count]
      split
      · next hstatus => exact absurd hstatus hsuccess
      · exact ⟨_, rfl⟩
      · exact ⟨_, rfl⟩
      · exact ⟨_, rfl⟩
    obtain ⟨errors, hcount⟩ := hcount
    rw [hcount]
    refine h.of_tokens hnone ?_ rfl rfl
    rw [htokens]
    rfl

end LoopState.Counts

namespace Controller

variable {M G B X : Type} {c : Controller M G B X} {inv : Invocation} {w : World M G B X}
  {phase : Phase} {past journal : Journal} {s : Stand M G B X} {flow : Flow}

/-- However the run flows on, a stride is counted. -/
theorem counts_stride (hpending : s.state.transcript.pending = phase.open)
    (h : s.state.Counts past) :
    (c.stride inv phase s).1.stand.state.Counts (past ++ (c.stride inv phase s).1.journal) := by
  have htokens := c.tokensRecorded_stride inv hpending
  rcases phase.dispatching_or with ⟨call, calls, deferred, rfl⟩ | hcall
  · obtain ⟨t, hstate⟩ := c.exists_state_dispatch inv hpending
    rw [hstate]
    exact h.of_fate htokens (c.actions_dispatch inv hpending)
  · have hnone := Journal.successes_eq_nil (c.actions_stride_eq_nil inv hpending hcall)
    rcases phase.replied_or with ⟨reply, rfl⟩ | hreply
    · obtain ⟨t, awaiting, hstate⟩ := c.exists_state_strideReply inv reply s
      refine h.of_tokens hnone ?_ ?_ ?_ <;> rw [stride, hstate]
      · rw [stride] at htokens
        rw [htokens]
        rfl
      · rfl
      · rfl
    · obtain ⟨t, n, hstate⟩ := c.exists_state_stride inv (s := s) hreply hcall
      rw [Phase.incoming_eq_nil hreply] at htokens
      refine h.of_tokens hnone ?_ ?_ ?_ <;> rw [hstate]
      rw [htokens]
      rfl

/-- At every point a run has counted what its journal tells. -/
theorem counts_of_reaches (h : c.Reaches inv w phase past s) : s.state.Counts past := by
  induction h with
  | begin hadopt => exact ⟨rfl, rfl, rfl⟩
  | stride hpast hflow ih => exact counts_stride (awaits_of_reaches hpast).pending ih

theorem counts_of_ends (h : c.Ends inv w journal s flow) : s.state.Counts journal := by
  obtain ⟨hpast, hflow⟩ := h
  exact counts_stride (awaits_of_reaches hpast).pending (counts_of_reaches hpast)

/-! ## What the enforcer counts -/

/-- A call comes to a grant of the budget exactly if its status says so. -/
theorem callsGranted_judge (c : Controller M G B X) (inv : Invocation) (call : ToolCall)
    (w : World M G B X) :
    (c.judge inv call w).2.2.callsGranted =
      if (c.judge inv call w).1.status.isGranted then [call.name] else [] := by
  have hjudges := c.judges_judge inv call w
  generalize c.judge inv call w = judged at hjudges ⊢
  cases hjudges with
  | unreadable | denied => rfl
  | blocked hread hruling hcheck =>
    simp [Journal.callsGranted, Journal.callGranted?, rulingEntry, checkEntry, hcheck, Fate.status,
      ActionStatus.isGranted]
  | @ended arguments time hread hruling hcheck =>
    have hgranted :
        (Fate.ended arguments (c.execution inv call arguments w).1.result).status.isGranted =
          true := by
      rw [Fate.status]
      split <;> rfl
    simp [Journal.callsGranted, Journal.callGranted?, rulingEntry, checkEntry, executedEntry,
      hcheck, hgranted]
  | withdrawn hread hruling hcheck | timedOut hread hruling hcheck
  | cancelled hread hruling hcheck =>
    simp [Journal.callsGranted, Journal.callGranted?, rulingEntry, checkEntry, executedEntry,
      hcheck, Fate.status, ActionStatus.isGranted]

theorem booked_stride (phase : Phase) (s : Stand M G B X)
    (hpending : s.state.transcript.pending = phase.open) :
    (c.stride inv phase s).1.journal.Booked := by
  rw [Journal.Booked]
  rcases phase.dispatching_or with ⟨call, calls, deferred, rfl⟩ | hcall
  · have hgranted := c.callsGranted_judge inv call s.world
    rw [Journal.callsGranted] at hgranted
    rw [c.actions_dispatch inv hpending, Journal.callsGranted, stride,
      c.pick_dispatch_of_unaudited inv Journal.onlyCalls_callGranted?.toSkipsReports
        (fun _ _ _ _ => rfl) hpending, hgranted]
    cases hstatus : (c.judge inv call s.world).1.status.isGranted <;> simp [Fate.record, hstatus]
  · rw [c.actions_stride_eq_nil inv hpending hcall, Journal.callsGranted,
      c.pick_stride_eq_nil inv Journal.onlyCalls_callGranted? hcall]
    rfl

theorem booked_run : (c.run inv w).journal.Booked := by
  refine run_of_strides (fun j hj => ?_) (fun _ _ => .append) booked_stride
  rw [Journal.Booked, Journal.actions_of_isFrame hj, Journal.callsGranted,
    Journal.pick_of_isFrame (fun _ _ => rfl) (fun _ _ => rfl) (fun _ => rfl) hj]
  rfl

end Controller

/-! ## All ledgers -/

/-- The ledgers of a run that has come to `p` by these replies: its trace, the totals of the
recorder before and after it, and the enforcer before and after it. -/
structure LedgersAgree (p : LoopProgress) (replies : List ModelReply) (t : LoopTrace)
    (totals totals' : TraceTotals) (spent spent' : Spent) : Prop where
  /-- The run has counted the tokens that its replies report. -/
  tokensUsed : p.tokensUsed = (replies.map ModelReply.tokens).sum
  traceTokens : t.totalTokens = p.tokensUsed
  totalTokens : totals'.tokens = totals.tokens + p.tokensUsed
  spentTokens : spent'.tokens = spent.tokens + p.tokensUsed
  steps : t.steps.map Step.iteration = List.range' 1 p.iterations
  modelCalls : t.modelCallCount = replies.length
  totalModelCalls : totals'.modelCalls = totals.modelCalls + replies.length
  totalActions : totals'.actions = totals.actions + t.actionCount
  totalFailedActions : totals'.failedActions = totals.failedActions + t.failedActionCount
  toolCallsMade : p.toolCallsMade = t.actions.countP fun a => a.status == .succeeded
  /-- The tools are listed once each, in order. -/
  sorted : NameSet.Sorted p.toolsUsed
  mem_toolsUsed : ∀ tool, tool ∈ p.toolsUsed ↔
    ∃ a ∈ t.actions, a.status = .succeeded ∧ a.toolName = tool
  /-- The enforcer counts the calls that came to an execution, or were cancelled right before. -/
  spentToolCalls : spent'.toolCalls =
    spent.toolCalls + t.actions.countP fun a => a.status.isGranted

namespace LoopTrace

variable {t : LoopTrace} {j : Journal} {turns : List ToldTurn}

/-- The actions of a trace are counted by what the journal tells of them. -/
theorem countP_actions (h : t.actions.map Action.report = j.actions) (p : ActionStatus → Bool) :
    (t.actions.countP fun a => p a.status) = j.actions.countP fun r => p r.status := by
  rw [← h, List.countP_map]
  rfl

end LoopTrace

theorem Journal.length_successes (j : Journal) :
    j.successes.length = j.actions.countP fun r => r.status == .succeeded := by
  rw [successes, List.length_map, List.countP_eq_length_filter]
  rfl

theorem Journal.mem_successes_iff {j : Journal} {tool : String} :
    tool ∈ j.successes ↔ ∃ r ∈ j.actions, r.status = .succeeded ∧ r.toolName = tool := by
  simp [successes, ActionStatus.isSuccess, and_assoc]

namespace Controller

variable {M G B X : Type} {c : Controller M G B X} {inv : Invocation} {w : World M G B X}
  {p : LoopProgress}

/-- What a run has come to in the end is what its journal tells, turn by turn. -/
theorem exists_turns_of_progress? (hp : (c.run inv w).ending.progress? = some p) :
    (∃ turns ending, (c.run inv w).journal.told =
        .start inv.traceId inv.id :: (toldFrom inv.traceId 1 turns ++ ending) ∧
      (∀ event ∈ ending, ∃ outcome, event = .finish inv.traceId outcome) ∧
      turns.length = p.iterations) ∧
    p.tokensUsed = (c.run inv w).journal.tokensReceived ∧
    p.toolCallsMade = (c.run inv w).journal.successes.length ∧
    p.toolsUsed = NameSet.ofList (c.run inv w).journal.successes := by
  rw [tokensReceived_run]
  rcases c.run_cases inv w with ⟨error, -, hrun⟩ | ⟨journal, s, flow, hends, hrun⟩
  · rw [hrun] at hp
    cases hp
  · rw [hrun] at hp ⊢
    obtain rfl := eq_progress_of_progress? hends hp
    obtain ⟨turns, ending, htold, hending⟩ := exists_told_reportOf hends
    obtain ⟨hsteps, -⟩ := readings_of_told htold hending
    have hcounts := counts_of_ends hends
    have hlength : turns.length = s.state.iterations := by
      rw [steps_reportOf, steps_of_ends hends] at hsteps
      simpa using congrArg List.length hsteps.symm
    refine ⟨⟨turns, ending, htold, hending, hlength⟩, ?_, ?_, ?_⟩
    · rw [tokensRecorded_reportOf]
      exact hcounts.totalTokens
    · rw [Journal.successes, actions_reportOf]
      exact hcounts.toolCallsMade
    · rw [Journal.successes, actions_reportOf]
      exact hcounts.toolsUsed

/-- All ledgers of a run that comes to a result or is cancelled agree: what it has counted itself,
the trace that a recorder has kept of it, what it has added to the totals of the recorder, and what
it has added to the counts of the enforcer. -/
theorem ledgersAgree_run {M G X : Type} {limits : BudgetConfig} (c : Controller M G Spent X)
    (inv : Invocation) (w : World M G Spent X) (r : TraceRecorder) (epoch : Timestamp)
    (hbudget : c.budget = limits.tracker) (hnew : ∀ t ∈ r.traces, t.id ≠ inv.traceId)
    {p : LoopProgress} (hp : (c.run inv w).ending.progress? = some p) :
    ∃ t, (r.follow epoch (c.run inv w).journal).find? inv.traceId = some t ∧
      LedgersAgree p (c.run inv w).journal.replies t r.totals
        (r.follow epoch (c.run inv w).journal).totals w.budget (c.run inv w).world.budget := by
  obtain ⟨⟨turns, ending, htold, hending, hlength⟩, htokens, hmade, hused⟩ :=
    exists_turns_of_progress? hp
  obtain ⟨t, hfind, hfollows⟩ := r.exists_trace_of_told epoch hnew htold hending
  obtain ⟨-, hcalls, hactions⟩ := readings_of_told htold hending
  obtain ⟨htotalCalls, htotalTokens, htotalActions, htotalFailed⟩ :=
    r.totals_follow epoch (c.run inv w).journal
  have hspent := (Spent.keeps_of_tells hbudget (c.tells_run inv w)).balances
  have hreplies : (c.run inv w).journal.modelCalls =
      (c.run inv w).journal.replies.map ModelCall.ofReply := modelCalls_run
  have hreported : t.actions.map Action.report = (c.run inv w).journal.actions := by
    rw [hfollows.actions_eq, hactions]
  have hsum : ((c.run inv w).journal.modelCalls.map fun m => tokensOf m.usage).sum =
      p.tokensUsed := by
    rw [htokens, Journal.tokensReceived, hreplies, List.map_map]
    congr 2
    funext reply
    exact reply.tokensOf_usage
  refine ⟨t, hfind, ?_⟩
  constructor
  · exact htokens
  · rw [hfollows.totalTokens_eq, ← hcalls, hsum]
  · rw [htotalTokens, hsum]
  · rw [hspent.tokens, htokens, tokensReceived_run]
  · rw [hfollows.iterations, hlength]
  · rw [hfollows.modelCallCount_eq, ← hcalls, hreplies, List.length_map]
  · rw [htotalCalls, hreplies, List.length_map]
  · rw [htotalActions, ← hreported, List.length_map, LoopTrace.actionCount]
  · rw [htotalFailed, LoopTrace.failedActionCount,
      LoopTrace.countP_actions hreported fun status => !status.isSuccess]
  · rw [hmade, Journal.length_successes, LoopTrace.countP_actions hreported (· == .succeeded)]
  · rw [hused]
    exact NameSet.sorted_ofList _
  · intro tool
    rw [hused, NameSet.mem_ofList, Journal.mem_successes_iff, ← hreported]
    simp [Action.report]
  · rw [hspent.toolCalls, booked_run.length_callsGranted,
      LoopTrace.countP_actions hreported ActionStatus.isGranted]

/-- A call and two texts, of which the last does not say what it took. -/
def metered : World Script Unit Spent Unit :=
  ⟨0, .ofReplies [{ callReply "a" with usage := some ⟨3, 4, 7⟩ },
    { ModelReply.text "done" with usage := some ⟨2, 3, 5⟩ }, .text "done"], (), .fresh 0, ()⟩

/-- The report of the run of a task by these replies. -/
def meteredRun : RunReport Script Unit Spent Unit :=
  (SharedRuns.billed .unlimited).run task metered

/-- The twelve tokens of this run are found in all its ledgers. -/
theorem ledgersAgree_run_metered :
    ∃ p t, meteredRun.ending.progress? = some p ∧ p.tokensUsed = 12 ∧ p.toolsUsed = ["weather"] ∧
      LedgersAgree p meteredRun.journal.replies t (TraceRecorder.ofLimit 1).totals
        ((TraceRecorder.ofLimit 1).follow default meteredRun.journal).totals metered.budget
        meteredRun.world.budget := by
  have hcounts : (meteredRun.ending.progress?.map fun p => (p.tokensUsed, p.toolsUsed)) =
      some (12, ["weather"]) := by
    decide +kernel
  obtain ⟨p, hp, hboth⟩ := Option.map_eq_some_iff.1 hcounts
  obtain ⟨htokens, htools⟩ := Prod.mk.inj hboth
  obtain ⟨t, -, hagree⟩ := ledgersAgree_run (SharedRuns.billed .unlimited) task metered
    (TraceRecorder.ofLimit 1) default rfl (by simp [TraceRecorder.ofLimit]) hp
  exact ⟨p, t, hp, htokens, htools, hagree⟩

end Controller

end AgentLoop
