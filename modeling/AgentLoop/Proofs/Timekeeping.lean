import AgentLoop.Proofs.CallDurations
import AgentLoop.Proofs.Endings
import AgentLoop.Proofs.Retention
import AgentLoop.Proofs.Undisturbed

/-!
# Where the time of a run goes

A run that takes no time by itself spends all its time at two places: it waits for the model, and it
waits for tools, for each of them at most as long as a call may take.  What it says about how long
it took, what its trace says, and what its actions say come from different readings of the clock,
and agree.

* `Journal.waits` are the times for which a run waited for the model.
* `now_stride` says how far the clock moves on in one stride, and `now_of_reaches` how far it has
  moved on at a point of a run.
* `exists_trace_of_result` is about the result of a run and its trace, which is read off the reports
  of the run at its beginning and at its end.
* `modelDelay` is the time that the model needs in the state that the journal leads to.  Where a run
  comes to a result, it is waited for as long (`exists_wait_of_split`), and so are the tools, as far
  as a call may take (`exists_took_of_split`).
* `KeepsTime` and `AccountsFor` list all that is said about the time of a run, and `time_accounted`
  puts it together.
-/

namespace AgentLoop

/-! ## The clock -/

namespace Timestamp

theorem nano_addMillis_lt (t : Timestamp) (millis : Nat) :
    (t.addMillis millis).nano < nanosPerSecond :=
  Nat.mod_lt _ (by decide)

theorem addMillis_addMillis (t : Timestamp) (first second : Nat) :
    (t.addMillis first).addMillis second = t.addMillis (first + second) := by
  simp only [addMillis, nanosPerSecond, Timestamp.mk.injEq]
  omega

/-- The time between two readings of a clock. -/
theorem millisTo_of_le (t : Timestamp) {start stop : Nat} (h : start ≤ stop) :
    (t.addMillis start).millisTo (t.addMillis stop) = stop - start := by
  have hsplit := t.addMillis_addMillis start (stop - start)
  rw [Nat.add_sub_cancel' h] at hsplit
  rw [← hsplit, millisTo_addMillis _ _ (t.nano_addMillis_lt start)]

end Timestamp

/-- What is reported about a trace does not change when it began. -/
theorem LoopTrace.startedAt_follow (epoch : Timestamp) (t : LoopTrace)
    (reports : List (Nat × TraceEvent)) : (t.follow epoch reports).startedAt = t.startedAt := by
  induction reports using List.reverseRecOn with
  | nil => rfl
  | append_singleton reports report ih =>
    rw [follow_concat]
    have horigin := origin_record (epoch.addMillis report.1) report.2 (t.follow epoch reports)
    simp only [origin, Prod.mk.injEq] at horigin
    rw [horigin.2.2, ih]

/-- What is awaited without a limit comes after its delay. -/
theorem exists_delay_of_done {cancel : Cancellation} {now time : Nat} {delay : Option Nat}
    (h : await cancel none now delay = .done time) : ∃ d, delay = some d ∧ time = now + d := by
  have hfree : await none none now delay = .done time := by
    rcases await_undisturbed_or cancel none now delay with hsame | ⟨cut, hcut⟩
    · exact hsame.symm.trans h
    · cases hcut.symm.trans h
  cases delay with
  | none => cases hfree
  | some d => exact ⟨d, rfl, (Waited.done.inj hfree).symm⟩

namespace Journal

/-- The time for which a run waited for the reply that an event is. -/
def waited? : Event → Option Nat
  | .replied _ waited => some waited
  | _ => none

/-- The times for which a run waited for the model, in order. -/
def waits (j : Journal) : List Nat := j.pick waited?

@[simp] theorem waits_append (j k : Journal) : (j ++ k).waits = j.waits ++ k.waits :=
  pick_append j k

theorem skipsReports_waited? : SkipsReports waited? :=
  ⟨fun _ => rfl, fun _ => rfl, fun _ => rfl, fun _ => rfl⟩

/-- There is one wait for each reply. -/
theorem length_waits (j : Journal) : j.waits.length = j.replies.length := by
  induction j with
  | nil => rfl
  | cons e j ih =>
    rw [waits, replies, pick_cons, pick_cons, List.length_append, List.length_append, ← waits,
      ← replies, ih]
    cases e.event <;> rfl

theorem waits_eq_nil {j : Journal} (h : j.replies = []) : j.waits = [] := by
  rw [← List.length_eq_zero_iff, length_waits, h]
  rfl

/-- There is one wait for each request. -/
def Answered (j : Journal) : Prop := j.waits.length = j.requests.length

theorem Answered.append {j k : Journal} (hj : j.Answered) (hk : k.Answered) :
    (j ++ k).Answered := by
  rw [Answered, requests_eq_pick, pick_append, waits_append, List.length_append, hj, hk,
    List.length_append]
  rfl

end Journal

/-- The run goes on, or it comes to a result. -/
def Flow.isRegular : Flow → Bool
  | goOn | stop .. => true
  | _ => false

namespace Controller

variable {M G B X : Type} (c : Controller M G B X) (inv : Invocation) {s : Stand M G B X}

/-! ## One stride -/

/-- Only the beginning of a turn brings a reply. -/
theorem waits_stride_eq_nil {phase : Phase} (hpending : s.state.transcript.pending = phase.open)
    (hphase : phase ≠ .turn) : (c.stride inv phase s).1.journal.waits = [] := by
  refine Journal.waits_eq_nil ?_
  rw [c.replies_stride inv hpending]
  match phase with
  | .turn => exact absurd rfl hphase
  | .replied reply => exact c.incoming_strideReply inv reply s
  | .dispatching [] deferred => rfl
  | .dispatching (call :: calls) deferred => rfl
  | .deferring [] => rfl
  | .deferring (call :: calls) => rfl
  | .closing => rfl

/-- Where the run neither asks the model nor dispatches a call, no time passes. -/
theorem now_stride_eq_self {phase : Phase} (hturn : phase ≠ .turn)
    (hcall : ∀ call calls deferred, phase ≠ .dispatching (call :: calls) deferred) :
    (c.stride inv phase s).1.stand.world.now = s.world.now := by
  match phase with
  | .turn => exact absurd rfl hturn
  | .replied reply =>
    have htakes := c.takes_strideReply inv reply s
    rw [stride]
    generalize c.strideReply inv reply s = taken at htakes ⊢
    cases htakes <;> rfl
  | .dispatching [] deferred => rfl
  | .dispatching (call :: calls) deferred => exact absurd rfl (hcall call calls deferred)
  | .deferring [] => rfl
  | .deferring (call :: calls) =>
    rw [stride, strideDeferral]
    split <;> rfl
  | .closing =>
    rw [stride, closeTurn_eq]
    split <;> rfl

/-- What is deferred takes no time. -/
theorem world_deferEach (calls : List ToolCall) (s : Stand M G B X) :
    (c.deferEach inv calls s).stand.world = s.world := by
  induction calls generalizing s with
  | nil => rfl
  | cons call calls ih =>
    rw [deferEach]
    split
    · rfl
    · exact ih _

/-- The model is asked at once. -/
theorem now_asking (hlag : ∀ w, c.lag w = 0) (s : Stand M G B X) :
    (c.asking s).world.now = s.world.now := by
  change s.world.now + c.lag _ = s.world.now
  rw [hlag, Nat.add_zero]

/-- A reply comes after the time that the model needs. -/
theorem exists_delay_of_modelWait (hlag : ∀ w, c.lag w = 0) {time : Nat}
    (hwait : c.modelWait inv s = .done time) :
    ∃ d, (c.modelAnswer inv s).1.delay = some d ∧ time = s.world.now + d := by
  rw [modelWait, c.now_asking hlag] at hwait
  exact exists_delay_of_done hwait

/-- A stride with which the run goes on or stops takes as long as its waits and its action say. -/
theorem now_stride (hlag : ∀ w, c.lag w = 0) {phase : Phase}
    (hpending : s.state.transcript.pending = phase.open)
    (hflow : (c.stride inv phase s).1.flow.isRegular = true) :
    (c.stride inv phase s).1.stand.world.now = s.world.now +
      ((c.stride inv phase s).1.journal.waits.sum + (c.stride inv phase s).1.journal.toolTime) := by
  rcases phase.dispatching_or with ⟨call, calls, deferred, rfl⟩ | hcall
  · obtain ⟨r, hactions, -, -, hnow⟩ := c.exists_action_dispatch inv hlag hpending
    rw [c.waits_stride_eq_nil inv hpending Phase.noConfusion, Journal.toolTime, hactions, hnow]
    simp
  · rw [Journal.toolTime_eq_zero (c.actions_stride_eq_nil inv hpending hcall)]
    by_cases hturn : phase = .turn
    · subst hturn
      have hasks := c.asks_askModel inv s
      rw [stride] at hflow ⊢
      generalize c.askModel inv s = asked at hasks hflow ⊢
      cases hasks with
      | blocked hbudget => rfl
      | @replied time reply hbudget hfired hwait hresult =>
        obtain ⟨d, -, rfl⟩ := c.exists_delay_of_modelWait inv hlag hwait
        change s.world.now + d = s.world.now + ([s.world.now + d - (c.asking s).world.now].sum + 0)
        rw [c.now_asking hlag, Nat.add_sub_cancel_left, List.sum_singleton, Nat.add_zero]
      | _ => cases hflow
    · rw [c.now_stride_eq_self inv hturn hcall, c.waits_stride_eq_nil inv hpending hturn]
      rfl

/-! ## The clock of a run -/

variable {c inv} {w : World M G B X} {phase : Phase} {past journal : Journal} {flow : Flow}

/-- The clock of a run moves on by its waits and its actions, and by nothing else. -/
theorem now_of_reaches (hlag : ∀ w, c.lag w = 0) (h : c.Reaches inv w phase past s) :
    s.world.now = w.now + (past.waits.sum + past.toolTime) := by
  induction h with
  | begin hadopt => rfl
  | stride hpast hflow ih =>
    rw [c.now_stride inv hlag (awaits_of_reaches hpast).pending (hflow ▸ rfl), ih,
      Journal.waits_append, Journal.toolTime_append, List.sum_append]
    omega

theorem now_of_ends (hlag : ∀ w, c.lag w = 0) {reason : TerminationReason} {output : JsonObject}
    (h : c.Ends inv w journal s (.stop reason output)) :
    s.world.now = w.now + (journal.waits.sum + journal.toolTime) := by
  generalize hstop : Flow.stop reason output = flow at h
  obtain ⟨hpast, hflow⟩ := h
  rw [c.now_stride inv hlag (awaits_of_reaches hpast).pending (hstop ▸ rfl),
    now_of_reaches hlag hpast, Journal.waits_append, Journal.toolTime_append, List.sum_append]
  omega

theorem traceEvents_append (j k : Journal) :
    (j ++ k).traceEvents = j.traceEvents ++ k.traceEvents :=
  List.filterMap_append

/-- What the tracer is told of a run begins with its start, at the time at which it began. -/
theorem exists_traceEvents_of_reaches (h : c.Reaches inv w phase past s) :
    ∃ reports, past.traceEvents = (w.now, .start inv.traceId inv.id) :: reports := by
  induction h with
  | begin hadopt => exact ⟨[], rfl⟩
  | @stride phase past s hpast hflow ih =>
    obtain ⟨reports, hreports⟩ := ih
    refine ⟨reports ++ (c.stride inv phase s).1.journal.traceEvents, ?_⟩
    rw [traceEvents_append, hreports, List.cons_append]

theorem exists_traceEvents_of_ends (h : c.Ends inv w journal s flow) :
    ∃ reports, journal.traceEvents = (w.now, .start inv.traceId inv.id) :: reports := by
  obtain @⟨phase, past, s, hpast, hflow⟩ := h
  obtain ⟨reports, hreports⟩ := exists_traceEvents_of_reaches hpast
  refine ⟨reports ++ (c.stride inv phase s).1.journal.traceEvents, ?_⟩
  rw [traceEvents_append, hreports, List.cons_append]

/-- The trace of a run that stops lasts as long as the run. -/
theorem exists_trace_of_ends {r : TraceRecorder} (epoch : Timestamp)
    (hnew : ∀ t ∈ r.traces, t.id ≠ inv.traceId) {reason : TerminationReason} {output : JsonObject}
    (h : c.Ends inv w journal s (.stop reason output)) (hle : w.now ≤ s.world.now) :
    ∃ t, (r.follow epoch (reportOf inv w journal s (.stop reason output)).journal).find?
        inv.traceId = some t ∧ t.durationMs = some (s.world.now - w.now) := by
  obtain ⟨turns, ending, htold, hending⟩ := exists_told_reportOf h
  obtain ⟨reports, hreports⟩ := exists_traceEvents_of_ends h
  have hall : (reportOf inv w journal s (.stop reason output)).journal.traceEvents =
      (w.now, .start inv.traceId inv.id) ::
        (reports ++ [(s.world.now, .finish inv.traceId reason.name)]) := by
    rw [reportOf, traceEvents_append, hreports, List.cons_append]
    rfl
  rw [Journal.told_eq_map, hall, List.map_cons] at htold
  have hrest := (List.cons.inj htold).2
  refine ⟨_, r.find?_follow epoch hnew hall (TraceRecorder.traceId_of_told hrest hending), ?_⟩
  rw [LoopTrace.follow_concat]
  change some (Timestamp.millisTo (LoopTrace.follow epoch _ reports).startedAt
    (epoch.addMillis s.world.now)) = _
  rw [LoopTrace.startedAt_follow]
  exact congrArg some (epoch.millisTo_of_le hle)

/-- A run that comes to a result has taken as long as its waits and its actions say, and so has its
trace. -/
theorem exists_trace_of_result {r : TraceRecorder} (epoch : Timestamp) (hlag : ∀ w, c.lag w = 0)
    (hnew : ∀ t ∈ r.traces, t.id ≠ inv.traceId) {result : LoopResult}
    (hresult : (c.run inv w).ending.result? = some result) :
    result.durationMs = (c.run inv w).journal.waits.sum + (c.run inv w).journal.toolTime ∧
      ∃ t, (r.follow epoch (c.run inv w).journal).find? inv.traceId = some t ∧
        t.durationMs = some result.durationMs := by
  rcases c.run_cases inv w with ⟨error, -, hrun⟩ | ⟨journal, s, flow, hends, hrun⟩
  · rw [hrun] at hresult
    cases hresult
  · rw [hrun] at hresult ⊢
    obtain ⟨reason, output, rfl, rfl⟩ := result?_reportOf_eq_some_iff.1 hresult
    have hnow := now_of_ends hlag hends
    have hwaits : (reportOf inv w journal s (.stop reason output)).journal.waits = journal.waits :=
      pick_reportOf inv Journal.skipsReports_waited? w journal s _
    constructor
    · rw [hwaits, Journal.toolTime, actions_reportOf, ← Journal.toolTime]
      change s.world.now - w.now = _
      omega
    · exact exists_trace_of_ends epoch hnew hends (by omega)

/-! ## A run that comes to a result -/

variable (c) in
/-- The time that the model needs for a request that is made after a journal. -/
def modelDelay (w : World M G B X) (before : Journal) (request : ModelRequest) : Option Nat :=
  (c.model.ask request (before.foldl c.replay w).model).1.delay

variable {before after : Journal} {time : Nat} {result : LoopResult}

theorem modelDelay_of_reaches (h : c.Reaches inv w .turn past s) (request : ModelRequest) :
    c.modelDelay w (past ++ (c.turnEntries inv s ++ [callingEntry s])) request =
      (c.model.ask request s.world.model).1.delay := by
  obtain ⟨now, hworld⟩ := (tells_of_reaches h).eq_foldl
  rw [modelDelay, List.foldl_append]
  conv_rhs => rw [hworld]
  rfl

/-- Where a run comes to a result, no stride is cancelled, fails or gets stuck. -/
theorem isRegular_of_result (hresult : (c.run inv w).ending.result? = some result)
    (h : c.Reaches inv w phase past s) : (c.stride inv phase s).1.flow.isRegular = true := by
  by_cases hflow : (c.stride inv phase s).1.flow = .goOn
  · rw [hflow]
    rfl
  · rw [h.run_eq_reportOf hflow] at hresult
    obtain ⟨reason, output, hstop, -⟩ := result?_reportOf_eq_some_iff.1 hresult
    rw [hstop]
    rfl

/-- A stride with which the run goes on or stops does not leave a request without its reply. -/
theorem answered_stride (hpending : s.state.transcript.pending = phase.open)
    (hflow : (c.stride inv phase s).1.flow.isRegular = true) :
    (c.stride inv phase s).1.journal.Answered := by
  by_cases hturn : phase = .turn
  · subst hturn
    have hasks := c.asks_askModel inv s
    rw [stride] at hflow ⊢
    generalize c.askModel inv s = asked at hasks hflow ⊢
    cases hasks with
    | blocked | replied => rfl
    | _ => cases hflow
  · rw [Journal.Answered, c.waits_stride_eq_nil inv hpending hturn,
      c.requests_stride_eq_nil inv hpending hturn]
    rfl

theorem answered_of_reaches (h : c.Reaches inv w phase past s) : past.Answered := by
  induction h with
  | begin hadopt => rfl
  | stride hpast hflow ih =>
    exact ih.append (answered_stride (awaits_of_reaches hpast).pending (hflow ▸ rfl))

theorem answered_of_result (hresult : (c.run inv w).ending.result? = some result) :
    (c.run inv w).journal.Answered := by
  rcases c.run_cases inv w with ⟨error, -, hrun⟩ | ⟨journal, s, flow, hends, hrun⟩
  · rw [hrun]
    rfl
  · obtain @⟨phase, past, s, hpast, hflow⟩ := hends
    have hlast := answered_stride (awaits_of_reaches hpast).pending
      (isRegular_of_result hresult hpast)
    have hfarewell : ∀ (s : Stand M G B X) flow, (farewell inv s flow).Answered := by
      intro s flow
      rw [farewell]
      split <;> rfl
    rw [hrun]
    exact ((answered_of_reaches hpast).append hlast).append (hfarewell _ _)

/-- A turn with which the run goes on brings the reply after the time that the model needs. -/
theorem exists_reply_turn (hlag : ∀ w, c.lag w = 0)
    (hbudget : (c.budget.checkIteration s.world.now s.world.budget).1 = .allowed)
    (hflow : (c.stride inv .turn s).1.flow.isRegular = true) :
    ∃ d reply, (c.modelAnswer inv s).1.delay = some d ∧
      (c.stride inv .turn s).1.journal = c.turnEntries inv s ++ [callingEntry s] ++
        c.askedEntry inv s :: [⟨s.world.now + d, .replied reply d⟩] := by
  have hasks := c.asks_askModel inv s
  rw [stride] at hflow ⊢
  generalize c.askModel inv s = asked at hasks hflow ⊢
  cases hasks with
  | blocked hblocked => cases hblocked.symm.trans hbudget
  | @replied time reply _ _ hwait hreply =>
    obtain ⟨d, hdelay, rfl⟩ := c.exists_delay_of_modelWait inv hlag hwait
    rw [c.now_asking hlag, Nat.add_sub_cancel_left]
    exact ⟨d, reply, hdelay, by simp⟩
  | _ => cases hflow

/-- The model is waited for as long as it needs. -/
theorem exists_wait_of_split (hlag : ∀ w, c.lag w = 0)
    (hresult : (c.run inv w).ending.result? = some result) {request : ModelRequest}
    (hsplit : (c.run inv w).journal = before ++ ⟨time, .asked request⟩ :: after) :
    ∃ d, c.modelDelay w before request = some d ∧ after.waits.head? = some d := by
  obtain ⟨past, s, hpast, rfl, hentry, hbudget, -⟩ := exists_turn_of_asked hsplit
  cases hentry
  obtain ⟨d, reply, hdelay, hjournal⟩ :=
    exists_reply_turn hlag hbudget (isRegular_of_result hresult hpast)
  obtain ⟨rest, rfl⟩ := hpast.isPrefix_of_split hsplit hjournal
  exact ⟨d, (modelDelay_of_reaches hpast _).trans hdelay, rfl⟩

/-- No call is cancelled. -/
theorem status_ne_cancelled_of_result (hresult : (c.run inv w).ending.result? = some result) :
    ∀ r ∈ (c.run inv w).journal.actions, r.status ≠ .cancelled := by
  intro r hr hstatus
  obtain ⟨call, calls, deferred, past, s, hpast, hactions⟩ := exists_dispatch_of_mem_actions hr
  have hpending := (awaits_of_reaches hpast).pending
  have hcancelled : (c.judge inv call s.world).1.status = .cancelled := by
    rw [c.actions_dispatch inv hpending] at hactions
    exact (congrArg ActionRecord.status (List.singleton_injective hactions)).trans hstatus
  have hflow := (c.settles_dispatch inv hpending).cancelled_iff.2 hcancelled
  have hregular := isRegular_of_result hresult hpast
  rw [hflow] at hregular
  cases hregular

/-- Every execution took the time that its tool needs, as far as it may. -/
theorem exists_took_of_split (hlag : ∀ w, c.lag w = 0)
    (hresult : (c.run inv w).ending.result? = some result) {tool : String}
    {arguments : JsonObject} {context : ExecutionContext}
    (hsplit : (c.run inv w).journal =
      before ++ ⟨time, .executed tool arguments context⟩ :: after) :
    ∃ r, after.actions.head? = some r ∧ r.toolName = tool ∧
      r.Took c.config.toolCallTimeoutMs (c.toolDelay w before tool arguments context) := by
  obtain ⟨r, hrecords⟩ := exists_records_of_split hlag hsplit
  have hmem : r ∈ (c.run inv w).journal.actions := by
    rw [hsplit, Journal.actions_append]
    exact List.mem_append_right _ (List.mem_of_mem_head? hrecords.next)
  exact ⟨r, hrecords.next, hrecords.toolName,
    hrecords.took (status_ne_cancelled_of_result hresult r hmem)⟩

/-! ## The time of a run -/

variable (c inv)

/-- What every run takes for its calls, also one that is cancelled.

* The clock of a run moves on by its waits and its actions, and by nothing else.
* Deferring calls and closing them changes nothing but the conversation.
* An execution takes the time that its tool needs, as far as it may, unless the run is cancelled
  meanwhile; the action says so.
* The duration of an action agrees with its status.
* All calls together take no longer than the executor was entered times the time that a call may
  take. -/
structure KeepsTime (w : World M G B X) : Prop where
  now_eq : ∀ phase past s, c.Reaches inv w phase past s →
    s.world.now = w.now + (past.waits.sum + past.toolTime)
  deferred : ∀ calls s, (c.deferEach inv calls s).stand.world = s.world
  closed : ∀ st, (c.closeBatch inv st).stand.world = st.stand.world
  executed : ∀ (before after : Journal) time tool arguments context,
    (c.run inv w).journal = before ++ ⟨time, .executed tool arguments context⟩ :: after →
      ∃ r, c.Records tool (c.toolDelay w before tool arguments context) after r
  timely : ∀ r ∈ (c.run inv w).journal.actions, r.Timely c.config.toolCallTimeoutMs
  toolTime_le : (c.run inv w).journal.toolTime ≤
    (c.run inv w).journal.executions.length * c.config.toolCallTimeoutMs

/-- What a run that comes to a result says about its time.

* Its duration is the sum of its waits and of the durations of its actions.
* There is one wait for each request, and it is as long as the model needs.
* No call is cancelled, and every execution took the time that its tool needs, as far as it may.
* Its trace lasts as long as the run. -/
structure AccountsFor (w : World M G B X) (result : LoopResult) (t : LoopTrace) : Prop where
  durationMs_eq : result.durationMs =
    (c.run inv w).journal.waits.sum +
      ((c.run inv w).journal.actions.map ActionRecord.durationMs).sum
  answered : (c.run inv w).journal.Answered
  asked : ∀ (before after : Journal) time request,
    (c.run inv w).journal = before ++ ⟨time, .asked request⟩ :: after →
      ∃ d, c.modelDelay w before request = some d ∧ after.waits.head? = some d
  uncancelled : ∀ r ∈ (c.run inv w).journal.actions, r.status ≠ .cancelled
  executed : ∀ (before after : Journal) time tool arguments context,
    (c.run inv w).journal = before ++ ⟨time, .executed tool arguments context⟩ :: after →
      ∃ r, after.actions.head? = some r ∧ r.toolName = tool ∧
        r.Took c.config.toolCallTimeoutMs (c.toolDelay w before tool arguments context)
  traced : t.durationMs = some result.durationMs

/-- If nothing but the model, the tools and the timeouts takes time, the time of every run is
accounted for by its waits and its actions, in its result as well as in its trace. -/
theorem time_accounted (w : World M G B X) (r : TraceRecorder) (epoch : Timestamp)
    (hlag : ∀ w, c.lag w = 0) (hnew : ∀ t ∈ r.traces, t.id ≠ inv.traceId) :
    c.KeepsTime inv w ∧
      ∀ result, (c.run inv w).ending.result? = some result →
        ∃ t, (r.follow epoch (c.run inv w).journal).find? inv.traceId = some t ∧
          c.AccountsFor inv w result t := by
  constructor
  · exact {
      now_eq := fun phase past s h => now_of_reaches hlag h
      deferred := c.world_deferEach inv
      closed := c.world_closeBatch inv
      executed := fun _ _ _ _ _ _ hsplit => exists_records_of_split hlag hsplit
      timely := timely_run hlag
      toolTime_le := toolTime_run_le hlag }
  · intro result hresult
    obtain ⟨hduration, t, hfind, htraced⟩ := exists_trace_of_result epoch hlag hnew hresult
    exact ⟨t, hfind, {
      durationMs_eq := hduration
      answered := answered_of_result hresult
      asked := fun _ _ _ _ hsplit => exists_wait_of_split hlag hresult hsplit
      uncancelled := status_ne_cancelled_of_result hresult
      executed := fun _ _ _ _ _ _ hsplit => exists_took_of_split hlag hresult hsplit
      traced := htraced }⟩

/-- A controller that waits for a tool for at most 50 milliseconds.  Its model needs 7 for a reply
and the weather 30, and everything else never comes. -/
def unevenTools : Controller Script Unit Unit Unit :=
  { scripted { LoopConfig.default with toolCallTimeoutMs := 50, maxToolCallsPerIteration := 2 }
      (.success "done") with
    model := { ask := fun _ script => (⟨some 7, script.next.1⟩, script.next.2) }
    executor :=
      { execute := fun tool _ _ x =>
          (⟨if tool = "weather" then some 30 else none, .success "done"⟩, x) } }

/-- A reply with three calls, of which the last one is deferred, and a text twice. -/
def unevenReplies : World Script Unit Unit Unit :=
  reciting [.calls "" [⟨"a", "weather", ""⟩, ⟨"b", "forecast", ""⟩, ⟨"c", "weather", ""⟩],
    .text "Sunny.", .text "Sunny."]

/-- Three replies, a call that ends in time and one that does not take 101 milliseconds. -/
theorem time_accounted_unevenTools :
    unevenTools.KeepsTime task unevenReplies ∧
      ∃ result t, (unevenTools.run task unevenReplies).ending.result? = some result ∧
        ((TraceRecorder.ofLimit 1).follow default
          (unevenTools.run task unevenReplies).journal).find? task.traceId = some t ∧
        unevenTools.AccountsFor task unevenReplies result t ∧ t.durationMs = some 101 ∧
        (unevenTools.run task unevenReplies).journal.actions.map ActionRecord.status =
          [.succeeded, .timedOut] := by
  have hduration : ((unevenTools.run task unevenReplies).ending.result?.map
      LoopResult.durationMs) = some 101 := by
    decide +kernel
  obtain ⟨hkeeps, hresults⟩ := unevenTools.time_accounted task unevenReplies
    (TraceRecorder.ofLimit 1) default (fun _ => rfl) (fun _ ht => absurd ht List.not_mem_nil)
  obtain ⟨result, hresult, hmillis⟩ := Option.map_eq_some_iff.1 hduration
  obtain ⟨t, hfind, haccounts⟩ := hresults result hresult
  exact ⟨hkeeps, result, t, hresult, hfind, haccounts,
    haccounts.traced.trans (congrArg some hmillis), by decide +kernel⟩

end Controller

end AgentLoop
