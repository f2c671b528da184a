import AgentLoop.Proofs.AuditTrail
import AgentLoop.Proofs.FailureStreak
import AgentLoop.Proofs.Places

/-!
# The refusals of a budget

A budget is asked at three places: when a turn begins, before an authorized call is executed, and at
the end of a turn.  It may answer as it likes, but it can refuse only once, for at each of the three
places a refusal ends the run.

* `Journal.inquiries` is what a run asks of the model, the gate, the budget and the executor, and
  `Journal.budgetAnswers` are the answers of the budget.
* `Controller.Blocks` are the ways in which the budget can refuse in a stride, with the reason for
  which the run then stops.  `exists_blocks_of_mem` says that these are all, and `Blocks.inquiries`
  that the refusal is the last thing asked in its stride.
* `exists_blocks_of_split` leads from a refusal in the journal of a run to its last stride,
  `exists_blocks_of_flow` from the reason of a run to the refusal.
* `Withheld` is what becomes of a call that the budget refuses, and `refusal_is_final` is the
  result.
-/

namespace AgentLoop

namespace Journal

/-! ## Readings -/

/-- What an event asks of the model, the gate, the budget or the executor. -/
def inquiry? : Event → Option Event
  | .asked request => some (.asked request)
  | .authorized tool arguments context decision =>
    some (.authorized tool arguments context decision)
  | .budgetChecked check decision => some (.budgetChecked check decision)
  | .executed tool arguments context => some (.executed tool arguments context)
  | _ => none

/-- All that a run asks, in order. -/
def inquiries (j : Journal) : List Event := j.pick inquiry?

theorem skipsReports_inquiry? : SkipsReports inquiry? :=
  ⟨fun _ => rfl, fun _ => rfl, fun _ => rfl, fun _ => rfl⟩

/-- The answer of the budget that an event is. -/
def budgetAnswer? : Event → Option (BudgetCheck × BudgetDecision)
  | .budgetChecked check decision => some (check, decision)
  | _ => none

/-- The answers of the budget, in order. -/
def budgetAnswers (j : Journal) : List (BudgetCheck × BudgetDecision) := j.pick budgetAnswer?

theorem skipsReports_budgetAnswer? : SkipsReports budgetAnswer? :=
  ⟨fun _ => rfl, fun _ => rfl, fun _ => rfl, fun _ => rfl⟩

/-- The answers of the budget are among what a run asks. -/
theorem budgetAnswers_eq_filterMap (j : Journal) :
    j.budgetAnswers = j.inquiries.filterMap budgetAnswer? := by
  rw [budgetAnswers, inquiries, pick, pick, List.filterMap_filterMap]
  congr
  funext entry
  cases entry.event <;> rfl

/-- An answer in a journal was given at some place. -/
theorem exists_split_of_mem_budgetAnswers {j : Journal} {check : BudgetCheck}
    {decision : BudgetDecision} (h : (check, decision) ∈ j.budgetAnswers) :
    ∃ before time after, j = before ++ ⟨time, .budgetChecked check decision⟩ :: after := by
  obtain ⟨⟨time, event⟩, hentry, hanswer⟩ := List.mem_filterMap.1 h
  obtain ⟨before, after, rfl⟩ := List.append_of_mem hentry
  cases event with
  | budgetChecked check' decision' =>
    simp only [budgetAnswer?, Option.some.injEq, Prod.mk.injEq] at hanswer
    obtain ⟨rfl, rfl⟩ := hanswer
    exact ⟨before, time, after, rfl⟩
  | _ => cases hanswer

end Journal

/-- Only a blocked call has this status. -/
theorem Fate.exists_eq_blocked {fate : Fate} (h : fate.status = .blocked) :
    ∃ arguments reason, fate = .blocked arguments reason := by
  cases fate with
  | blocked arguments reason => exact ⟨arguments, reason, rfl⟩
  | ended arguments outcome =>
    rw [Fate.status] at h
    split at h <;> cases h
  | _ => cases h

namespace Controller

variable {M G B X : Type} (c : Controller M G B X) (inv : Invocation) {s : Stand M G B X}

/-! ## A stride in which the budget refuses -/

/-- The ways in which the budget can refuse in the stride from a phase, with the check and the
reason for which the run then stops. -/
inductive Blocks (s : Stand M G B X) (reason : String) :
    Phase → BudgetCheck → TerminationReason → Prop where
  | turn (hbudget : (c.budget.checkIteration s.world.now s.world.budget).1 = .blocked reason) :
      Blocks s reason .turn .iteration .budgetExceeded
  | call {call : ToolCall} {calls deferred : List ToolCall} {arguments : JsonObject}
      (hfate : (c.judge inv call s.world).1 = .blocked arguments reason) :
      Blocks s reason (.dispatching (call :: calls) deferred) (.tool call.name arguments)
        .budgetExceeded
  /-- The time is up, but the run may not fail at all. -/
  | exhausted (hbudget : (c.durationCheck s).1 = .blocked reason)
      (hexhausted : c.config.errorThreshold ≤ s.state.consecutiveErrors) :
      Blocks s reason .closing .duration .error
  | late (hbudget : (c.durationCheck s).1 = .blocked reason)
      (hmore : s.state.consecutiveErrors < c.config.errorThreshold) :
      Blocks s reason .closing .duration .durationExceeded

/-- A call that the budget blocks has been read and allowed by the gate. -/
theorem asked_of_blocked {call : ToolCall} {w : World M G B X} {arguments : JsonObject}
    {reason : String} (h : (c.judge inv call w).1 = .blocked arguments reason) :
    Arguments.read call.arguments = .ok arguments ∧
      (c.judge inv call w).2.2 =
        [⟨w.now, .authorized call.name arguments (c.callContext inv call) .allowed⟩,
          ⟨w.now, .budgetChecked (.tool call.name arguments) (.blocked reason)⟩] := by
  have hjudges := c.judges_judge inv call w
  generalize c.judge inv call w = judged at hjudges h ⊢
  cases hjudges with
  | blocked hread hruling hcheck =>
    obtain ⟨rfl, rfl⟩ := Fate.blocked.inj h
    refine ⟨hread, ?_⟩
    rw [rulingEntry, checkEntry, hruling, hcheck]
  | _ => cases h

/-- All that is asked about a call is asked to find its fate. -/
theorem inquiries_dispatch {call : ToolCall} {calls deferred : List ToolCall}
    (hpending : s.state.transcript.pending = call :: (calls ++ deferred)) :
    (c.stride inv (.dispatching (call :: calls) deferred) s).1.journal.inquiries =
      (c.judge inv call s.world).2.2.inquiries :=
  c.pick_dispatch_of_unaudited inv Journal.skipsReports_inquiry? (fun _ _ _ _ => rfl) hpending

theorem inquiries_closing (s : Stand M G B X) :
    (c.stride inv .closing s).1.journal.inquiries =
      [.budgetChecked .duration (c.durationCheck s).1] := by
  rw [stride, closeTurn_eq]
  split <;> rfl

variable {c inv} {phase : Phase} {check : BudgetCheck} {stop : TerminationReason} {reason : String}

/-- A blocked call stops the run. -/
theorem Settles.flow_of_blocked {errors errors' : Nat} {status : ActionStatus} {flow : Flow}
    (h : c.Settles errors status flow errors') (hstatus : status = .blocked) :
    flow = .stop .budgetExceeded [] := by
  subst hstatus
  cases h with
  | blocked => rfl
  | failed hfailure | exhausted hfailure => cases hfailure

/-- With a refusal the run stops. -/
theorem Blocks.flow (hpending : s.state.transcript.pending = phase.open)
    (h : c.Blocks inv s reason phase check stop) :
    (c.stride inv phase s).1.flow = .stop stop [] := by
  cases h with
  | turn hbudget =>
    have hreason : stopReason? c.config s.state.nextIteration (.turnStart (.blocked reason)) =
        some .budgetExceeded := rfl
    rw [stride, askModel_eq, hbudget, hreason]
  | call hfate =>
    have hsettles := c.settles_dispatch inv hpending
    rw [hfate] at hsettles
    exact hsettles.flow_of_blocked rfl
  | exhausted hbudget hexhausted =>
    have hreason : stopReason? c.config s.state (.turnEnd (.blocked reason)) = some .error := by
      simp [stopReason?, errorsExhausted, hexhausted]
    rw [stride, closeTurn_eq, hbudget, hreason]
  | late hbudget hmore =>
    have hreason : stopReason? c.config s.state (.turnEnd (.blocked reason)) =
        some .durationExceeded := by
      simp [stopReason?, errorsExhausted, BudgetDecision.isBlocked, Nat.not_le.2 hmore]
    rw [stride, closeTurn_eq, hbudget, hreason]

/-- A refusal is the last thing that is asked in its stride, and the first answer of the budget. -/
theorem Blocks.inquiries (hpending : s.state.transcript.pending = phase.open)
    (h : c.Blocks inv s reason phase check stop) :
    ∃ earlier, (c.stride inv phase s).1.journal.inquiries =
        earlier ++ [.budgetChecked check (.blocked reason)] ∧
      earlier.filterMap Journal.budgetAnswer? = [] := by
  cases h with
  | turn hbudget =>
    have hreason : stopReason? c.config s.state.nextIteration (.turnStart (.blocked reason)) =
        some .budgetExceeded := rfl
    refine ⟨[], ?_, rfl⟩
    rw [stride, askModel_eq, turnEntries, hbudget, hreason]
    rfl
  | @call call calls deferred arguments hfate =>
    refine ⟨[.authorized call.name arguments (c.callContext inv call) .allowed], ?_, rfl⟩
    rw [c.inquiries_dispatch inv hpending, (c.asked_of_blocked inv hfate).2]
    rfl
  | exhausted hbudget | late hbudget =>
    refine ⟨[], ?_, rfl⟩
    rw [inquiries_closing, hbudget]
    rfl

theorem Blocks.budgetAnswers (hpending : s.state.transcript.pending = phase.open)
    (h : c.Blocks inv s reason phase check stop) :
    (c.stride inv phase s).1.journal.budgetAnswers = [(check, .blocked reason)] := by
  obtain ⟨earlier, hinquiries, hnone⟩ := h.inquiries hpending
  rw [Journal.budgetAnswers_eq_filterMap, hinquiries, List.filterMap_append, hnone]
  rfl

/-- Wherever a stride asks the budget and it refuses, it is one of these ways. -/
theorem exists_blocks_of_mem (hpending : s.state.transcript.pending = phase.open)
    (h : .budgetChecked check (.blocked reason) ∈ (c.stride inv phase s).1.journal.inquiries) :
    ∃ stop, c.Blocks inv s reason phase check stop := by
  match phase with
  | .turn =>
    have hfirst : .budgetChecked check (.blocked reason) =
        Event.budgetChecked .iteration
          (c.budget.checkIteration s.world.now s.world.budget).1 := by
      have hasks := c.asks_askModel inv s
      rw [stride] at h
      generalize c.askModel inv s = asked at hasks h
      cases hasks <;>
        simpa [Journal.inquiries, turnEntries, callingEntry, askedEntry, Journal.inquiry?] using h
    obtain ⟨rfl, hbudget⟩ := Event.budgetChecked.inj hfirst
    exact ⟨_, .turn hbudget.symm⟩
  | .replied reply =>
    rw [stride, Journal.inquiries,
      c.pick_strideReply inv Journal.skipsReports_inquiry? reply s] at h
    cases h
  | .dispatching [] deferred =>
    rw [stride, Journal.inquiries,
      c.pick_strideToDeferred Journal.skipsReports_inquiry? deferred s] at h
    cases h
  | .dispatching (call :: calls) deferred =>
    rw [c.inquiries_dispatch inv hpending] at h
    have hblocked : ∃ arguments, check = .tool call.name arguments ∧
        (c.judge inv call s.world).1 = .blocked arguments reason := by
      have hjudges := c.judges_judge inv call s.world
      generalize c.judge inv call s.world = judged at hjudges h ⊢
      cases hjudges with
      | @blocked arguments reason' hread hruling hcheck =>
        simp [Journal.inquiries, rulingEntry, checkEntry, Journal.inquiry?, hcheck] at h
        obtain ⟨rfl, rfl⟩ := h
        exact ⟨arguments, rfl, rfl⟩
      | unreadable => cases h
      | denied => simp [Journal.inquiries, rulingEntry, Journal.inquiry?] at h
      | withdrawn hread hruling hcheck | ended hread hruling hcheck | timedOut hread hruling hcheck
      | cancelled hread hruling hcheck =>
        simp [Journal.inquiries, rulingEntry, checkEntry, executedEntry, Journal.inquiry?,
          hcheck] at h
    obtain ⟨arguments, rfl, hfate⟩ := hblocked
    exact ⟨_, .call hfate⟩
  | .deferring [] => cases h
  | .deferring (call :: calls) =>
    rw [stride, journal_strideDeferral] at h
    cases h
  | .closing =>
    rw [inquiries_closing, List.mem_singleton] at h
    obtain ⟨rfl, hbudget⟩ := Event.budgetChecked.inj h
    by_cases hexhausted : c.config.errorThreshold ≤ s.state.consecutiveErrors
    · exact ⟨_, .exhausted hbudget.symm hexhausted⟩
    · exact ⟨_, .late hbudget.symm (by omega)⟩

/-- A run that stops for a budget was refused. -/
theorem exists_blocks_of_flow {output : JsonObject}
    (hpending : s.state.transcript.pending = phase.open)
    (hflow : (c.stride inv phase s).1.flow = .stop stop output)
    (hstop : stop = .budgetExceeded ∨ stop = .durationExceeded) :
    ∃ reason check, c.Blocks inv s reason phase check stop := by
  cases c.stops_of_flow inv hpending hflow with
  | refused hbudget => exact ⟨_, _, .turn hbudget⟩
  | blocked hstatus =>
    obtain ⟨arguments, reason, hfate⟩ := Fate.exists_eq_blocked hstatus
    exact ⟨reason, _, .call hfate⟩
  | @late reason hbudget =>
    by_cases hexhausted : c.config.errorThreshold ≤ s.state.consecutiveErrors
    · -- then the run would have stopped for its errors
      have hblocks : c.Blocks inv s reason .closing .duration .error :=
        .exhausted hbudget hexhausted
      have herror := hblocks.flow hpending
      rw [hflow] at herror
      cases herror
    · exact ⟨reason, _, .late hbudget (by omega)⟩
  | _ => simp at hstop

/-! ## The run that was refused -/

variable {w : World M G B X} {past before after : Journal} {time : Nat}

/-- A stride in which the budget refuses is the last one. -/
theorem Blocks.run_eq (hpast : c.Reaches inv w phase past s)
    (h : c.Blocks inv s reason phase check stop) :
    c.run inv w = reportOf inv w (past ++ (c.stride inv phase s).1.journal)
      (c.stride inv phase s).1.stand (.stop stop []) := by
  have hflow := h.flow (awaits_of_reaches hpast).pending
  rw [hpast.run_eq_reportOf (by rw [hflow]; exact Flow.noConfusion), hflow]

/-- The refusal is the last answer of the budget. -/
theorem Blocks.getLast?_budgetAnswers (hpast : c.Reaches inv w phase past s)
    (h : c.Blocks inv s reason phase check stop) :
    (c.run inv w).journal.budgetAnswers.getLast? = some (check, .blocked reason) := by
  have hlast := h.budgetAnswers (awaits_of_reaches hpast).pending
  rw [Journal.budgetAnswers] at hlast ⊢
  rw [h.run_eq hpast, pick_reportOf inv Journal.skipsReports_budgetAnswer?, Journal.pick_append,
    hlast, List.getLast?_concat]

/-- A refusal in the journal of a run was made in its last stride, and nothing was asked after
it. -/
theorem exists_blocks_of_split
    (hsplit : (c.run inv w).journal =
      before ++ ⟨time, .budgetChecked check (.blocked reason)⟩ :: after) :
    ∃ phase past s stop, c.Reaches inv w phase past s ∧ c.Blocks inv s reason phase check stop ∧
      past <+: before ∧ after.inquiries = [] := by
  obtain ⟨phase, past, s, (front : Journal), (back : Journal), hpast, rfl, hstride⟩ :=
    exists_stride_of_split rfl hsplit
  have hpending := (awaits_of_reaches hpast).pending
  have hasked : (c.stride inv phase s).1.journal.inquiries =
      front.inquiries ++ .budgetChecked check (.blocked reason) :: back.inquiries := by
    rw [hstride, Journal.inquiries, Journal.pick_append, Journal.pick_cons]
    rfl
  have hmem : .budgetChecked check (.blocked reason) ∈
      (c.stride inv phase s).1.journal.inquiries := by
    rw [hasked]
    exact List.mem_append_right _ List.mem_cons_self
  obtain ⟨stop, hblocks⟩ := exists_blocks_of_mem hpending hmem
  refine ⟨phase, past, s, stop, hpast, hblocks, List.prefix_append _ _, ?_⟩
  have hback : back.inquiries = [] := by
    obtain ⟨earlier, hinquiries, hnone⟩ := hblocks.inquiries hpending
    have hearlier : .budgetChecked check (.blocked reason) ∉ earlier := fun h =>
      absurd (List.filterMap_eq_nil_iff.1 hnone _ h) (by simp [Journal.budgetAnswer?])
    have hsame := (List.append_cons_inj_of_notMem hearlier List.not_mem_nil).1
      (hinquiries.symm.trans hasked)
    exact hsame.2.2.symm
  have hafter : after = back ++ farewell inv (c.stride inv phase s).1.stand (.stop stop []) := by
    have hwhole : (past ++ front) ++ ⟨time, .budgetChecked check (.blocked reason)⟩ :: after =
        (past ++ front) ++ ⟨time, .budgetChecked check (.blocked reason)⟩ ::
          (back ++ farewell inv (c.stride inv phase s).1.stand (.stop stop [])) := by
      rw [← hsplit, hblocks.run_eq hpast, reportOf, hstride]
      simp
    exact (List.cons.inj (List.append_cancel_left hwhole)).2
  rw [hafter, Journal.inquiries, Journal.pick_append,
    pick_farewell inv Journal.skipsReports_inquiry?, List.append_nil]
  exact hback

theorem exists_blocks_of_getLast?
    (h : (c.run inv w).journal.budgetAnswers.getLast? = some (check, .blocked reason)) :
    ∃ phase past s stop, c.Reaches inv w phase past s ∧ c.Blocks inv s reason phase check stop := by
  obtain ⟨before, time, after, hsplit⟩ :=
    Journal.exists_split_of_mem_budgetAnswers (List.mem_of_getLast? h)
  obtain ⟨phase, past, s, stop, hpast, hblocks, -⟩ := exists_blocks_of_split hsplit
  exact ⟨phase, past, s, stop, hpast, hblocks⟩

/-- A run that stopped for a budget was refused. -/
theorem exists_blocks_of_reason? (hreason : (c.run inv w).ending.reason? = some stop)
    (hstop : stop = .budgetExceeded ∨ stop = .durationExceeded) :
    ∃ phase past s reason check, c.Reaches inv w phase past s ∧
      c.Blocks inv s reason phase check stop := by
  rcases c.run_cases inv w with ⟨error, -, hrun⟩ | ⟨journal, s, flow, hends, hrun⟩
  · rw [hrun] at hreason
    cases hreason
  · rw [hrun] at hreason
    obtain ⟨output, hflow⟩ := reason?_reportOf_eq_some_iff.1 hreason
    obtain @⟨phase, past, s, hpast, hne⟩ := hends
    obtain ⟨reason, check, hblocks⟩ :=
      exists_blocks_of_flow (awaits_of_reaches hpast).pending hflow hstop
    exact ⟨phase, past, s, reason, check, hpast, hblocks⟩

theorem Blocks.reason? (hpast : c.Reaches inv w phase past s)
    (h : c.Blocks inv s reason phase check stop) : (c.run inv w).ending.reason? = some stop := by
  rw [h.run_eq hpast]
  exact reason?_reportOf_eq_some_iff.2 ⟨[], rfl⟩

/-- A run that may fail at least once has not failed too often when it asks whether its time is
up. -/
theorem not_exhausted_of_reaches (hthreshold : 1 ≤ c.config.errorThreshold)
    (hpast : c.Reaches inv w phase past s) :
    s.state.consecutiveErrors < c.config.errorThreshold := by
  have hnone := (noStreak_of_reaches hthreshold hpast).self
  rw [endsInFailures_iff, ← consecutiveErrors_of_reaches hpast] at hnone
  omega

/-! ## A call that the budget refuses -/

variable (c inv)

/-- What becomes of a call that the budget refuses in the state `before`, leaving the state `after`
behind: this is what passes about it between the run and the gate or the executor, and what is
recorded of it, and it is not counted. -/
structure Withheld (call : ToolCall) (arguments : JsonObject) (reason : String) (before : LoopState)
    (last : Journal) (after : LoopState) : Prop where
  governed : last.governed =
    [.authorized call.name arguments (c.callContext inv call) .allowed,
      .audited call.name arguments (c.callContext inv call) (.failure s!"not executed: {reason}")]
  actions : ∃ record, last.actions = [record] ∧ record.callId = call.id ∧
    record.toolName = call.name ∧ record.status = .blocked
  consecutiveErrors : after.consecutiveErrors = before.consecutiveErrors
  toolCallsMade : after.toolCallsMade = before.toolCallsMade
  toolsUsed : after.toolsUsed = before.toolsUsed

theorem withheld_dispatch {call : ToolCall} {calls deferred : List ToolCall}
    {arguments : JsonObject} (hpending : s.state.transcript.pending = call :: (calls ++ deferred))
    (hfate : (c.judge inv call s.world).1 = .blocked arguments reason) :
    c.Withheld inv call arguments reason s.state
      (c.stride inv (.dispatching (call :: calls) deferred) s).1.journal
      (c.stride inv (.dispatching (call :: calls) deferred) s).1.stand.state := by
  obtain ⟨t, hstate⟩ := c.exists_state_dispatch inv hpending
  have hcount : (c.judge inv call s.world).1.count call.name s.state = s.state := by
    rw [hfate]
    rfl
  rw [hcount] at hstate
  refine ⟨?_, ⟨_, c.actions_dispatch inv hpending, rfl, rfl, ?_⟩, ?_, ?_, ?_⟩
  · have hasked := (c.asked_of_blocked inv hfate).2
    rcases hjudge : c.judge inv call s.world with ⟨fate, w, asked⟩
    rw [hjudge] at hfate hasked
    obtain rfl : fate = .blocked arguments reason := hfate
    obtain rfl : asked = _ := hasked
    exact c.pick_dispatch inv Journal.onlyCalls_governed?.toSkipsReports hpending hjudge
  · rw [hfate]
    rfl
  · rw [hstate]
  · rw [hstate]
  · rw [hstate]

/-! ## Results -/

/-- Whatever the budget is, its refusal is final.  After a refusal the run asks nothing more of the
model, the gate, the budget or the executor, and it comes to a result.  The run stops with the
reason that its budget is exceeded exactly when the last answer of the budget refused a turn or a
call, and with the reason that its time is up only when that answer was about the time; when the run
may fail at least once it then has this reason.  A call that is refused is not executed and is
audited once, as a failure; it is recorded as blocked and not counted. -/
theorem refusal_is_final (w : World M G B X) :
    (∀ (before after : Journal) time check reason,
      (c.run inv w).journal =
        before ++ ⟨time, .budgetChecked check (.blocked reason)⟩ :: after →
      after.inquiries = [] ∧ ∃ result, (c.run inv w).ending = .finished result) ∧
    ((c.run inv w).ending.reason? = some .budgetExceeded ↔
      ∃ check reason, check ≠ .duration ∧
        (c.run inv w).journal.budgetAnswers.getLast? = some (check, .blocked reason)) ∧
    ((c.run inv w).ending.reason? = some .durationExceeded → ∃ reason,
      (c.run inv w).journal.budgetAnswers.getLast? = some (.duration, .blocked reason)) ∧
    (1 ≤ c.config.errorThreshold → ∀ reason,
      (c.run inv w).journal.budgetAnswers.getLast? = some (.duration, .blocked reason) →
      (c.run inv w).ending.reason? = some .durationExceeded) ∧
    ∀ (before after : Journal) time name arguments reason,
      (c.run inv w).journal =
        before ++ ⟨time, .budgetChecked (.tool name arguments) (.blocked reason)⟩ :: after →
      ∃ call calls deferred past s last s',
        c.Reaches inv w (.dispatching (call :: calls) deferred) past s ∧ past <+: before ∧
        call.name = name ∧ Arguments.read call.arguments = .ok arguments ∧
        c.run inv w = reportOf inv w (past ++ last) s' (.stop .budgetExceeded []) ∧
        c.Withheld inv call arguments reason s.state last s'.state := by
  refine ⟨?_, ⟨?_, ?_⟩, ?_, ?_, ?_⟩
  · intro before after time check reason hsplit
    obtain ⟨phase, past, s, stop, hpast, hblocks, -, hafter⟩ := exists_blocks_of_split hsplit
    refine ⟨hafter, ?_⟩
    rw [hblocks.run_eq hpast]
    exact ⟨_, rfl⟩
  · intro hreason
    obtain ⟨phase, past, s, reason, check, hpast, hblocks⟩ :=
      exists_blocks_of_reason? hreason (.inl rfl)
    refine ⟨check, reason, ?_, hblocks.getLast?_budgetAnswers hpast⟩
    cases hblocks <;> exact BudgetCheck.noConfusion
  · rintro ⟨check, reason, hcheck, hlast⟩
    obtain ⟨phase, past, s, stop, hpast, hblocks⟩ := exists_blocks_of_getLast? hlast
    have hreason := hblocks.reason? hpast
    cases hblocks with
    | turn | call => exact hreason
    | exhausted | late => exact absurd rfl hcheck
  · intro hreason
    obtain ⟨phase, past, s, reason, check, hpast, hblocks⟩ :=
      exists_blocks_of_reason? hreason (.inr rfl)
    have hlast := hblocks.getLast?_budgetAnswers hpast
    cases hblocks with
    | late => exact ⟨reason, hlast⟩
  · intro hthreshold reason hlast
    obtain ⟨phase, past, s, stop, hpast, hblocks⟩ := exists_blocks_of_getLast? hlast
    have hreason := hblocks.reason? hpast
    have hmore := not_exhausted_of_reaches hthreshold hpast
    cases hblocks with
    | exhausted hbudget hexhausted => omega
    | late => exact hreason
  · intro before after time name arguments reason hsplit
    obtain ⟨phase, past, s, stop, hpast, hblocks, hbegins, -⟩ := exists_blocks_of_split hsplit
    have hrun := hblocks.run_eq hpast
    cases hblocks with
    | @call call calls deferred arguments hfate =>
      have hpending := (awaits_of_reaches hpast).pending
      exact ⟨call, calls, deferred, past, s, _, _, hpast, hbegins, rfl,
        (c.asked_of_blocked inv hfate).1, hrun, c.withheld_dispatch inv hpending hfate⟩

/-- A budget that allows a single call. -/
def singleCall : BudgetTracker Nat where
  checkIteration _ calls := (.allowed, calls)
  checkTool _ _ _ calls := if calls = 0 then (.allowed, 1) else (.blocked "one call only", calls)
  checkDuration _ calls := (.allowed, calls)
  recordUsage _ calls := calls

/-- A controller with such a budget, whose model follows a script. -/
def sparingTools : Controller Script Unit Nat Unit where
  config := .default
  model := Script.client
  gate := openGate
  budget := singleCall
  executor := { execute := fun _ _ _ x => (.now (.success "done"), x) }
  resolver := .passThrough
  context := .unrestricted
  epoch := default

/-- A reply with three calls, and a text. -/
def greedy : World Script Unit Nat Unit :=
  ⟨0, .ofReplies [.calls "" [⟨"a", "weather", ""⟩, ⟨"b", "weather", ""⟩, ⟨"c", "weather", ""⟩],
    .text "Sunny."], (), 0, ()⟩

/-- The second of three calls is refused: it is withheld, the third one is not dispatched any more,
and the run stops. -/
theorem refusal_is_final_sparingTools :
    (sparingTools.run task greedy).journal.statuses = [.succeeded, .blocked] ∧
      (sparingTools.run task greedy).ending.reason? = some .budgetExceeded ∧
      ∃ call before last after,
        sparingTools.Withheld task call [] "one call only" before last after := by
  have hstatuses : (sparingTools.run task greedy).journal.statuses = [.succeeded, .blocked] := by
    decide +kernel
  have hlast : (sparingTools.run task greedy).journal.budgetAnswers.getLast? =
      some (.tool "weather" [], .blocked "one call only") := by
    decide +kernel
  obtain ⟨-, hreason, -, -, hcall⟩ := sparingTools.refusal_is_final task greedy
  obtain ⟨before, time, after, hsplit⟩ :=
    Journal.exists_split_of_mem_budgetAnswers (List.mem_of_getLast? hlast)
  obtain ⟨call, calls, deferred, past, s, last, s', -, -, -, -, -, hwithheld⟩ :=
    hcall before after time _ _ _ hsplit
  refine ⟨hstatuses, hreason.2 ⟨_, _, ?_, hlast⟩, call, s.state, last, s'.state, hwithheld⟩
  exact BudgetCheck.noConfusion

end Controller

end AgentLoop
