import AgentLoop.Proofs.AuditTrail
import AgentLoop.Proofs.Endings
import AgentLoop.Proofs.Tracing
import Mathlib.Data.List.Forall2

/-!
# What a run hands over

The arguments of a call are handed over to the gate, to the budget and to the executor, in this
order and only as far as the call gets.  All that is handed over in a run belongs to the calls that
it dispatches, and these are the calls of the replies by their positions: in each turn those up to
the cap, one after the other.

There are three groups.

* `Journal.handings` are the entries with which something is handed over.  `Handed` are the ways in
  which the arguments of a call can be, and `Brought` are those for a text that may be unreadable.
  `brought_dispatch` says so of every dispatched call.
* `dispatchable` are the calls of replies up to the cap, and `Phase.awaiting` those of them that a
  phase has still to dispatch.  `awaiting_stride` is one stride.
* `Journal.HandsOver` says that a journal hands over these calls and no others, and
  `exists_handsOver_of_reaches` that every point of a run has such a journal.
  `exists_handsOver_run` is the result.
-/

namespace AgentLoop

/-! ## Handing over the arguments of a call -/

/-- The event is about one call, and holds the arguments of it. -/
def Event.isHanding : Event → Bool
  | authorized .. | audited .. | executed .. | budgetChecked (.tool ..) _ => true
  | _ => false

namespace Journal

/-- All that is handed over to gate, budget and executor, with the times. -/
def handings (j : Journal) : Journal := j.filter fun entry => entry.event.isHanding

theorem handings_append (j k : Journal) : (j ++ k).handings = j.handings ++ k.handings :=
  List.filter_append ..

/-- The event, if something is handed over with it. -/
def handing? (e : Event) : Option Event := if e.isHanding then some e else none

theorem onlyCalls_handing? : OnlyCalls handing? :=
  ⟨⟨fun _ => rfl, fun _ => rfl, fun _ => rfl, fun _ => rfl⟩, fun _ => rfl, fun _ _ => rfl,
    fun _ => rfl, fun _ => rfl⟩

theorem handings_eq_nil_iff {j : Journal} : j.handings = [] ↔ j.pick handing? = [] := by
  simp [handings, pick, handing?]

end Journal

/-- The ways in which the arguments of a call are handed over.  The gate is given them first.  If it
allows the call the budget is given them next, at the same time, and the gate is told in the end
what became of them.  If the budget allows the call too the executor is given them, unless the run
has been cancelled by then. -/
inductive Handed (cancel : Cancellation) (tool : String) (arguments : JsonObject) :
    Journal → Prop where
  | denied {now : Nat} {context : ExecutionContext} {reason : String} :
      Handed cancel tool arguments [⟨now, .authorized tool arguments context (.denied reason)⟩]
  | blocked {now : Nat} {context : ExecutionContext} {reason : String} {outcome : ToolOutcome} :
      Handed cancel tool arguments
        [⟨now, .authorized tool arguments context .allowed⟩,
          ⟨now, .budgetChecked (.tool tool arguments) (.blocked reason)⟩,
          ⟨now, .audited tool arguments context outcome⟩]
  | withdrawn {now : Nat} {context : ExecutionContext} {outcome : ToolOutcome}
      (hfired : cancel.fired now = true) :
      Handed cancel tool arguments
        [⟨now, .authorized tool arguments context .allowed⟩,
          ⟨now, .budgetChecked (.tool tool arguments) .allowed⟩,
          ⟨now, .audited tool arguments context outcome⟩]
  | executed {now later : Nat} {context : ExecutionContext} {outcome : ToolOutcome}
      (hfired : cancel.fired now = false) :
      Handed cancel tool arguments
        [⟨now, .authorized tool arguments context .allowed⟩,
          ⟨now, .budgetChecked (.tool tool arguments) .allowed⟩,
          ⟨now, .executed tool arguments context⟩,
          ⟨later, .audited tool arguments context outcome⟩]

/-- What is handed over of a call whose arguments are this text. -/
inductive Brought (cancel : Cancellation) (tool text : String) : Journal → Prop where
  | unreadable {error : ArgumentsError} (hread : Arguments.read text = .error error) :
      Brought cancel tool text []
  | handed {arguments : JsonObject} {story : Journal} (hread : Arguments.read text = .ok arguments)
      (hhanded : Handed cancel tool arguments story) : Brought cancel tool text story

namespace Controller

section

variable {M G B X : Type} (c : Controller M G B X) (inv : Invocation) {s : Stand M G B X}

/-- To close a batch nothing is handed over. -/
theorem handings_closeBatch (st : Stretch M G B X) :
    (c.closeBatch inv st).journal.handings = st.journal.handings := by
  unfold closeBatch
  split
  · rw [Journal.handings_append]
    exact List.append_nil _
  · rfl

/-- Of a dispatched call these are the entries that were made while its fate was found, and its
audit. -/
theorem handings_dispatch {call : ToolCall} {rest : List ToolCall} {fate : Fate}
    {w : World M G B X} {asked : Journal}
    (hpending : s.state.transcript.pending = call :: rest)
    (hjudge : c.judge inv call s.world = (fate, w, asked)) :
    (c.closeBatch inv (c.dispatchCall inv call s)).journal.handings =
      asked.handings ++ (c.auditCall inv call fate w).2.handings := by
  have hremarks : ∀ now remark, (remarks now remark).handings = [] := by
    intro now remark
    apply Journal.handings_eq_nil_iff.2
    exact pick_remarks Journal.onlyCalls_handing?.toSkipsReports now remark
  have hreport : ∀ now iteration duration,
      (c.reportCall inv now iteration call fate duration).handings = [] := by
    intro now iteration duration
    rfl
  rw [c.handings_closeBatch, c.dispatchCall_of_pending inv hpending hjudge]
  simp only [settledEntries, Journal.handings_append, hremarks, hreport, List.nil_append,
    List.append_nil]

/-- Where a run takes no time by itself, the arguments of a dispatched call are handed over like
this. -/
theorem brought_dispatch (hlag : ∀ w, c.lag w = 0) {call : ToolCall} {rest : List ToolCall}
    (hpending : s.state.transcript.pending = call :: rest) :
    Brought inv.cancel call.name call.arguments
      (c.closeBatch inv (c.dispatchCall inv call s)).journal.handings := by
  have hnow : ∀ arguments, (c.executing inv call arguments s.world).now = s.world.now := by
    intro arguments
    exact c.now_executing inv hlag call arguments s.world
  have hjudges := c.judges_judge inv call s.world
  rcases hjudge : c.judge inv call s.world with ⟨fate, w, asked⟩
  rw [c.handings_dispatch inv hpending hjudge]
  rw [hjudge] at hjudges
  cases hjudges with
  | unreadable hread => exact .unreadable hread
  | denied hread hruling =>
    rw [rulingEntry, hruling]
    exact .handed hread .denied
  | blocked hread hruling hcheck =>
    rw [rulingEntry, hruling, checkEntry, hcheck]
    exact .handed hread .blocked
  | @withdrawn arguments hread hruling hcheck hfired =>
    -- It is told of at the time at which the executor was to be entered.
    have haudit : (c.auditCall inv call (.cancelled arguments)
        (c.executing inv call arguments s.world)).2 =
          [⟨s.world.now, .audited call.name arguments (c.callContext inv call) .cancelled⟩] := by
      rw [← hnow arguments]
      rfl
    rw [hnow] at hfired
    rw [rulingEntry, hruling, checkEntry, hcheck, haudit]
    exact .handed hread (.withdrawn hfired)
  | ended hread hruling hcheck hfired | timedOut hread hruling hcheck hfired
  | cancelled hread hruling hcheck hfired =>
    rw [hnow] at hfired
    rw [rulingEntry, hruling, checkEntry, hcheck, executedEntry, hnow]
    exact .handed hread (.executed hfired)

end

end Controller

/-! ## The calls of the replies up to the cap -/

/-- The calls of replies up to the cap in each turn, when the first one is the reply of this turn. -/
def dispatchableFrom (cap iteration : Nat) : List ModelReply → List ToolCall
  | [] => []
  | reply :: replies =>
    (normalizeCalls iteration reply.toolCalls).take cap ++
      dispatchableFrom cap (iteration + 1) replies

/-- The calls of all replies of a run, up to the cap in each turn. -/
def dispatchable (cap : Nat) (replies : List ModelReply) : List ToolCall :=
  dispatchableFrom cap 1 replies

theorem dispatchableFrom_append (cap iteration : Nat) (replies later : List ModelReply) :
    dispatchableFrom cap iteration (replies ++ later) =
      dispatchableFrom cap iteration replies ++
        dispatchableFrom cap (iteration + replies.length) later := by
  induction replies generalizing iteration with
  | nil => rfl
  | cons reply replies ih =>
    have hnext : iteration + 1 + replies.length = iteration + (replies.length + 1) := by omega
    simp only [List.cons_append, dispatchableFrom, ih, List.append_assoc, List.length_cons, hnext]

theorem dispatchable_isPrefix {cap : Nat} {replies more : List ModelReply} (h : replies <+: more) :
    dispatchable cap replies <+: dispatchable cap more := by
  obtain ⟨later, rfl⟩ := h
  rw [dispatchable, dispatchable, dispatchableFrom_append]
  exact List.prefix_append _ _

/-- The calls that are still to be dispatched in a phase of this turn. -/
def Phase.awaiting (cap iteration : Nat) : Phase → List ToolCall
  | replied reply => (normalizeCalls iteration reply.toolCalls).take cap
  | dispatching calls _ => calls
  | turn | deferring _ | closing => []

theorem Phase.dispatched_isPrefix (phase : Phase) (cap iteration : Nat) :
    phase.dispatched <+: phase.awaiting cap iteration := by
  cases phase with
  | dispatching calls deferred =>
    cases calls with
    | nil => exact List.nil_prefix
    | cons call calls => exact ⟨calls, rfl⟩
  | _ => exact List.nil_prefix

/-- A run with this ending may leave calls that were still to be dispatched. -/
def Ending.leavesCalls : Ending → Bool
  | finished result =>
    result.terminationReason == .budgetExceeded || result.terminationReason == .error
  | failed (.model _) | stalled => false
  | failed _ => true

namespace Controller

variable {M G B X : Type} (c : Controller M G B X) (inv : Invocation) {s : Stand M G B X}
  {phase : Phase}

/-- With a text nothing is to be dispatched. -/
theorem awaiting_replied_eq_nil {reply : ModelReply} (htext : reply.toolCalls = [])
    (cap iteration : Nat) : (Phase.replied reply).awaiting cap iteration = [] := by
  rw [Phase.awaiting, htext]
  exact List.take_nil

/-- A stride with which the run goes on takes the call that it dispatches from the front of those
that were to be dispatched.  The calls of the reply that came in are added. -/
theorem awaiting_stride (hflow : (c.stride inv phase s).1.flow = .goOn) :
    phase.dispatched ++ (c.stride inv phase s).2.awaiting c.config.maxToolCallsPerIteration
        (c.stride inv phase s).1.stand.state.iterations =
      phase.awaiting c.config.maxToolCallsPerIteration s.state.iterations ++
        dispatchableFrom c.config.maxToolCallsPerIteration (s.state.iterations + 1)
          (c.stride inv phase s).2.incoming := by
  rw [c.iterations_stride inv hflow]
  match phase with
  | .turn =>
    have hasks := c.asks_askModel inv s
    rw [stride] at hflow ⊢
    generalize c.askModel inv s = asked at hasks hflow ⊢
    cases hasks with
    | replied => exact (List.append_nil _).symm
    | _ => cases hflow
  | .replied reply =>
    have htakes := c.takes_strideReply inv reply s
    rw [stride] at hflow ⊢
    generalize c.strideReply inv reply s = taken at htakes hflow ⊢
    cases htakes with
    | prompted htext =>
      rw [awaiting_replied_eq_nil htext]
      rfl
    | calls => exact (List.append_nil _).symm
    | _ => cases hflow
  | .dispatching [] deferred => rfl
  | .dispatching (call :: calls) deferred => exact (List.append_nil _).symm
  | .deferring [] => rfl
  | .deferring (call :: calls) => rfl
  | .closing => rfl

/-- A call with which the run does not go on may leave others behind. -/
theorem Settles.leavesCalls {c : Controller M G B X} {errors errors' : Nat} {status : ActionStatus}
    {flow : Flow} (h : c.Settles errors status flow errors') (hflow : flow ≠ .goOn)
    (inv : Invocation) (started : Nat) (last : Stand M G B X) :
    (endingOf inv started last flow).leavesCalls = true := by
  cases h with
  | succeeded | failed => exact absurd rfl hflow
  | exhausted | blocked | cancelled => rfl

/-- Nothing is left to be dispatched when a run comes to an ending that leaves no calls. -/
theorem awaiting_eq_nil_of_ending (hpending : s.state.transcript.pending = phase.open)
    (hflow : (c.stride inv phase s).1.flow ≠ .goOn) {started : Nat} {last : Stand M G B X}
    (hending : (endingOf inv started last (c.stride inv phase s).1.flow).leavesCalls = false)
    (cap iteration : Nat) : phase.awaiting cap iteration = [] := by
  match phase with
  | .replied reply =>
    have htakes := c.takes_strideReply inv reply s
    rw [stride] at hflow hending
    generalize c.strideReply inv reply s = taken at htakes hflow hending
    cases htakes with
    | refused => cases hending
    | prompted htext | accepted htext => exact awaiting_replied_eq_nil htext cap iteration
    | calls => exact absurd rfl hflow
  | .dispatching (call :: calls) deferred =>
    rw [(c.settles_dispatch inv hpending).leavesCalls hflow inv started last] at hending
    cases hending
  | .turn | .dispatching [] deferred | .deferring calls | .closing => rfl

end Controller

/-! ## What a journal hands over -/

/-- The journal hands over these calls, one after another, and nothing else. -/
structure Journal.HandsOver (cancel : Cancellation) (j : Journal) (calls : List ToolCall)
    (stories : List Journal) : Prop where
  handings : j.handings = stories.flatten
  brought : List.Forall₂ (fun (call : ToolCall) (story : Journal) =>
    Brought cancel call.name call.arguments story) calls stories
  /-- The tracer is told of these calls. -/
  actions : j.actions.map ActionRecord.toolName = calls.map ToolCall.name

namespace Journal

variable {cancel : Cancellation} {j k : Journal} {calls later : List ToolCall}
  {stories more : List Journal}

theorem handsOver_nil (hhandings : j.handings = []) (hactions : j.actions = []) :
    j.HandsOver cancel [] [] :=
  ⟨hhandings, .nil, congrArg (List.map ActionRecord.toolName) hactions⟩

theorem HandsOver.append (h : j.HandsOver cancel calls stories)
    (hmore : k.HandsOver cancel later more) :
    (j ++ k).HandsOver cancel (calls ++ later) (stories ++ more) := by
  constructor
  · rw [handings_append, h.handings, hmore.handings, List.flatten_append]
  · exact List.rel_append h.brought hmore.brought
  · rw [actions_append, List.map_append, List.map_append, h.actions, hmore.actions]

end Journal

namespace Controller

variable {M G B X : Type} {c : Controller M G B X} {inv : Invocation} {w : World M G B X}
  {s : Stand M G B X} {phase : Phase} {past : Journal} {calls : List ToolCall}
  {stories : List Journal}

/-- A stride hands over the call that it dispatches. -/
theorem exists_handsOver_stride (hlag : ∀ w, c.lag w = 0)
    (hpending : s.state.transcript.pending = phase.open) :
    ∃ stories : List Journal,
      (c.stride inv phase s).1.journal.HandsOver inv.cancel phase.dispatched stories := by
  rcases phase.dispatching_or with ⟨call, calls, deferred, rfl⟩ | hphase
  · have hbrought := c.brought_dispatch inv hlag hpending
    refine ⟨[_], (List.append_nil _).symm, .cons hbrought .nil, ?_⟩
    rw [c.actions_dispatch inv hpending]
    rfl
  · refine ⟨[], ?_⟩
    rw [Phase.dispatched_eq_nil hphase]
    exact Journal.handsOver_nil
      (Journal.handings_eq_nil_iff.2 (c.pick_stride_eq_nil inv Journal.onlyCalls_handing? hphase))
      (c.actions_stride_eq_nil inv hpending hphase)

/-- One stride more.  The calls of all replies but the last have been handed over. -/
theorem exists_handsOver_of_reaches_stride (hlag : ∀ w, c.lag w = 0)
    (h : c.Reaches inv w phase past s) (hhands : past.HandsOver inv.cancel calls stories)
    (hcalls : calls ++ phase.awaiting c.config.maxToolCallsPerIteration s.state.iterations =
      dispatchable c.config.maxToolCallsPerIteration past.replies)
    (hearlier : dispatchable c.config.maxToolCallsPerIteration past.replies.dropLast <+: calls) :
    (∃ stories : List Journal,
      (past ++ (c.stride inv phase s).1.journal).HandsOver inv.cancel (calls ++ phase.dispatched)
        stories) ∧
      dispatchable c.config.maxToolCallsPerIteration
        (past ++ (c.stride inv phase s).1.journal).replies.dropLast <+:
          calls ++ phase.dispatched := by
  obtain ⟨more, hmore⟩ := exists_handsOver_stride hlag (awaits_of_reaches h).pending
  refine ⟨⟨_, hhands.append hmore⟩, ?_⟩
  rw [replies_of_reaches_stride h]
  refine List.IsPrefix.trans ?_ (List.prefix_append calls phase.dispatched)
  -- When a reply comes in, nothing is left to be dispatched of those before it.
  by_cases hturn : phase = .turn
  · subst hturn
    rw [Phase.awaiting, List.append_nil] at hcalls
    rw [hcalls]
    apply dispatchable_isPrefix
    cases (c.stride inv .turn s).2 with
    | replied reply => exact List.dropLast_concat ▸ List.prefix_refl _
    | _ => exact (List.append_nil past.replies).symm ▸ List.dropLast_prefix _
  · rwa [c.incoming_stride_eq_nil inv hturn, List.append_nil]

/-- At every point the journal hands over calls of the replies, and those that are left are still to
be dispatched. -/
theorem exists_handsOver_of_reaches (hlag : ∀ w, c.lag w = 0) (h : c.Reaches inv w phase past s) :
    ∃ (calls : List ToolCall) (stories : List Journal),
      past.HandsOver inv.cancel calls stories ∧
        calls ++ phase.awaiting c.config.maxToolCallsPerIteration s.state.iterations =
          dispatchable c.config.maxToolCallsPerIteration past.replies ∧
        dispatchable c.config.maxToolCallsPerIteration past.replies.dropLast <+: calls := by
  induction h with
  | begin hadopt => exact ⟨[], [], Journal.handsOver_nil rfl rfl, rfl, List.nil_prefix⟩
  | stride hpast hflow ih =>
    obtain ⟨calls, stories, hhands, hcalls, hearlier⟩ := ih
    obtain ⟨⟨stories, hhands⟩, hearlier⟩ :=
      exists_handsOver_of_reaches_stride hlag hpast hhands hcalls hearlier
    refine ⟨_, stories, hhands, ?_, hearlier⟩
    rw [List.append_assoc, c.awaiting_stride inv hflow, ← List.append_assoc, hcalls,
      replies_of_reaches_stride hpast, dispatchable, dispatchable, dispatchableFrom_append,
      length_replies_of_reaches hpast, Nat.add_comm 1]

/-- The end of a run hands nothing over. -/
theorem handsOver_reportOf {journal : Journal} {flow : Flow}
    (h : journal.HandsOver inv.cancel calls stories) :
    (reportOf inv w journal s flow).journal.HandsOver inv.cancel calls stories where
  handings := by
    rw [reportOf, Journal.handings_append, Journal.handings_eq_nil_iff.2 (pick_farewell inv
      Journal.onlyCalls_handing?.toSkipsReports s flow), List.append_nil, h.handings]
  brought := h.brought
  actions := by rw [actions_reportOf, h.actions]

/-- However a run ends, it hands over calls of its replies, one after another: all calls up to the cap
of every reply but the last, and of the last one some.  These are all, unless the run was cut off. -/
theorem exists_handsOver_run (hlag : ∀ w, c.lag w = 0) (inv : Invocation) (w : World M G B X) :
    ∃ (calls : List ToolCall) (stories : List Journal),
      (c.run inv w).journal.HandsOver inv.cancel calls stories ∧
        dispatchable c.config.maxToolCallsPerIteration (c.run inv w).journal.replies.dropLast <+:
          calls ∧
        calls <+: dispatchable c.config.maxToolCallsPerIteration (c.run inv w).journal.replies ∧
        ((c.run inv w).ending.leavesCalls = false →
          calls = dispatchable c.config.maxToolCallsPerIteration (c.run inv w).journal.replies) := by
  rcases c.run_cases inv w with ⟨error, -, hrun⟩ | ⟨journal, s, flow, hends, hrun⟩
  · rw [hrun]
    exact ⟨[], [], Journal.handsOver_nil rfl rfl, List.nil_prefix, List.nil_prefix, fun _ => rfl⟩
  · rw [hrun, Journal.replies, pick_reportOf inv Journal.skipsReports_reply?]
    obtain @⟨phase, past, s, hpast, hflow⟩ := hends
    obtain ⟨calls, stories, hhands, hcalls, hearlier⟩ := exists_handsOver_of_reaches hlag hpast
    obtain ⟨⟨stories, hhands⟩, hearlier⟩ :=
      exists_handsOver_of_reaches_stride hlag hpast hhands hcalls hearlier
    have hreplies := replies_of_reaches_stride hpast
    rw [c.incoming_of_ne_goOn inv hflow, List.append_nil] at hreplies
    have hinOrder : calls ++ phase.dispatched <+:
        dispatchable c.config.maxToolCallsPerIteration past.replies := by
      rw [← hcalls]
      exact (List.prefix_append_right_inj calls).2 (phase.dispatched_isPrefix _ _)
    rw [← Journal.replies, hreplies]
    rw [hreplies] at hearlier
    refine ⟨_, stories, handsOver_reportOf hhands, hearlier, hinOrder, fun hending => ?_⟩
    have hleft := c.awaiting_eq_nil_of_ending inv (awaits_of_reaches hpast).pending hflow hending
      c.config.maxToolCallsPerIteration s.state.iterations
    have hlast : phase.dispatched = [] :=
      List.prefix_nil.1 (hleft ▸ phase.dispatched_isPrefix _ _)
    rw [hlast, ← hcalls, hleft]

end Controller

end AgentLoop
