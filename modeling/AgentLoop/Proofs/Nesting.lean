import AgentLoop.Proofs.Refusals
import AgentLoop.Proofs.ToldTurns

/-!
# The trace of a run is complete

However a run ends, what it has opened in its trace it has closed: the tracer is told first that the
run begins and last how it ended, and in between come the turns, each with its number, the reply of
the model, and the dispatched calls.  Only the last turn can be without a reply, and the observer is
told of the same replies and calls as the tracer.

* `RunReport.EndsAsking` are the ways in which a run can end while it asks the model, and
  `endsAsking_iff` says that these are all: they come about in the stride that begins a turn, and
  nowhere else.
* `Ending.outcome?` is how the tracer is told of an ending, and `told_farewell` says so.
* `Observation.Mirrors` relates what the observer is told to what the tracer is told.
  `mirrored_stride` says that a stride keeps the two in step, `mirrored_run` that a run does.
* `trace_well_nested` is the result.
-/

namespace AgentLoop

/-! ## The last turn -/

/-- The event asks whether a turn may begin, or it asks the model. -/
def Event.isAsking : Event → Bool
  | budgetChecked .iteration _ | asked _ => true
  | _ => false

/-- Of all that was asked of model, gate, budget and executor, the last was whether a turn may
begin, or it was asked of the model. -/
def Journal.IsAsking (j : Journal) : Prop :=
  ∃ e, j.inquiries.getLast? = some e ∧ e.isAsking = true

/-- The ways in which a run can end while it asks the model for a reply, or asks whether it may. -/
inductive RunReport.EndsAsking {M G B X : Type} (r : RunReport M G B X) : Prop where
  /-- The iteration budget refused the turn. -/
  | refused {reason : String}
      (hlast : r.journal.budgetAnswers.getLast? = some (.iteration, .blocked reason)) :
      EndsAsking r
  /-- The run was cancelled while it asked the model. -/
  | cancelled {progress : LoopProgress} (hending : r.ending = .failed (.cancelled progress))
      (hasking : r.journal.IsAsking) : EndsAsking r
  /-- The model failed. -/
  | failed {error : ModelError} (hending : r.ending = .failed (.model error)) : EndsAsking r
  /-- The model never answers, and the run does not end at all. -/
  | stalled (hending : r.ending = .stalled) : EndsAsking r

/-! ## The end, as it is told -/

/-- How the tracer is told of an ending. -/
def Ending.outcome? : Ending → Option String
  | finished result => some result.terminationReason.name
  | failed (.cancelled _) => some "cancelled"
  | failed _ => some "fatal"
  | stalled => none

/-! ## Two listeners -/

/-- The report is about a reply of the model or about a dispatched call. -/
def TraceEvent.isRecord : TraceEvent → Bool
  | modelCall .. | action .. => true
  | _ => false

/-- The observation says the same as the report to the tracer. -/
def Observation.Mirrors (o : Observation) : TraceEvent → Prop
  | .modelCall _ model usage toolCalls =>
    o.kind = .modelReply ∧
      o.metadata.get? "model" = some (.str model) ∧
      o.metadata.get? "tool_calls" = some (.nat toolCalls) ∧
      o.metadata.get? "tokens" = usage.map fun u => .nat u.totalTokens
  | .action _ record =>
    o.kind = .toolCall ∧
      o.metadata.get? "call_id" = some (.str record.callId) ∧
      o.metadata.get? "tool" = some (.str record.toolName) ∧
      o.metadata.get? "status" = some (.str record.status.name) ∧
      o.metadata.get? "duration_ms" = some (.nat record.durationMs) ∧
      ∀ text, record.detail = some text → o.content = text
  | _ => False

namespace Journal

/-- What the tracer was told of replies and calls, in order. -/
def recorded (j : Journal) : List TraceEvent := j.told.filter TraceEvent.isRecord

/-- The observer and the tracer were told of the same replies and calls, in the same order. -/
def Mirrored (j : Journal) : Prop := List.Forall₂ Observation.Mirrors j.observations j.recorded

/-- The observation that an event is. -/
def observed? : Event → Option Observation
  | .observed o => some o
  | _ => none

/-- The report of a reply or of a call that an event is. -/
def recorded? : Event → Option TraceEvent
  | .traced event => if event.isRecord then some event else none
  | _ => none

theorem observations_eq_pick (j : Journal) : j.observations = j.pick observed? := rfl

theorem recorded_eq_pick (j : Journal) : j.recorded = j.pick recorded? := by
  rw [recorded, told, pick, pick, ← List.filterMap_eq_filter, List.filterMap_filterMap]
  congr
  funext entry
  cases entry.event <;> rfl

theorem Mirrored.append {j k : Journal} (hj : j.Mirrored) (hk : k.Mirrored) :
    (j ++ k).Mirrored := by
  rw [Mirrored, observations_eq_pick, recorded_eq_pick, pick_append, pick_append]
  rw [Mirrored, observations_eq_pick, recorded_eq_pick] at hj hk
  exact List.rel_append hj hk

/-- A journal of which neither is told anything. -/
theorem mirrored_of_pick {j : Journal} (hobserved : j.pick observed? = [])
    (hrecorded : j.pick recorded? = []) : j.Mirrored := by
  rw [Mirrored, observations_eq_pick, recorded_eq_pick, hobserved, hrecorded]
  exact .nil

theorem mirrored_of_isFrame {j : Journal} (h : ∀ e ∈ j, e.event.isFrame = true) : j.Mirrored :=
  mirrored_of_pick (pick_of_isFrame (fun _ _ => rfl) (fun _ _ => rfl) (fun _ => rfl) h)
    (pick_of_isFrame (fun _ _ => rfl) (fun _ _ => rfl) (fun _ => rfl) h)

end Journal

namespace Controller

variable {M G B X : Type} (c : Controller M G B X) (inv : Invocation) {s : Stand M G B X}

/-! ## Where a run ends that asks the model -/

/-- A call that is cancelled was allowed by the gate and by the budget, so these were asked last, or
the executor. -/
theorem exists_last_inquiry_of_cancelled {call : ToolCall} {w : World M G B X}
    (h : (c.judge inv call w).1.status = .cancelled) :
    ∃ e, (c.judge inv call w).2.2.inquiries.getLast? = some e ∧ e.isAsking = false := by
  obtain ⟨arguments, hfate⟩ := Fate.exists_eq_cancelled h
  have hjudges := c.judges_judge inv call w
  generalize c.judge inv call w = judged at hjudges hfate ⊢
  cases hjudges with
  | withdrawn | cancelled => exact ⟨_, rfl, rfl⟩
  | _ => cases hfate

/-- A run fails in the model only where it asks the model. -/
theorem eq_turn_of_model_failed {phase : Phase} {error : ModelError}
    (hpending : s.state.transcript.pending = phase.open)
    (hflow : (c.stride inv phase s).1.flow = .failed (.model error)) : phase = .turn := by
  match phase with
  | .turn => rfl
  | .replied reply =>
    have htakes := c.takes_strideReply inv reply s
    rw [stride] at hflow
    generalize c.strideReply inv reply s = taken at htakes hflow
    cases htakes <;> cases hflow
  | .dispatching [] deferred => cases hflow
  | .dispatching (call :: calls) deferred =>
    have hsettles := c.settles_dispatch inv hpending
    rw [hflow] at hsettles
    generalize (c.judge inv call s.world).1.status = status at hsettles
    cases hsettles
  | .deferring [] => cases hflow
  | .deferring (call :: calls) =>
    rw [stride, strideDeferral, Transcript.pushToolResult_of_pending hpending] at hflow
    cases hflow
  | .closing =>
    rw [stride, closeTurn_eq] at hflow
    split at hflow <;> cases hflow

/-- A run gets stuck only where it asks the model. -/
theorem eq_turn_of_stalled {phase : Phase} (hpending : s.state.transcript.pending = phase.open)
    (hflow : (c.stride inv phase s).1.flow = .stalled) : phase = .turn := by
  cases c.waits_of_flow inv (.inr hflow) with
  | turn => rfl
  | dispatching => exact absurd hflow (c.settles_dispatch inv hpending).ne_stalled

variable {c inv} {w : World M G B X} {phase : Phase} {past journal : Journal} {flow : Flow}

/-- A run is reported to have failed in the model when its last stride has. -/
theorem flow_eq_of_model_failed {error : ModelError}
    (h : (reportOf inv w journal s flow).ending = .failed (.model error)) :
    flow = .failed (.model error) := by
  cases flow with
  | failed error' => exact congrArg Flow.failed (Ending.failed.inj h)
  | _ => cases h

/-- What the last stride asks last is what the run asks last. -/
theorem isAsking_run {e : Event} (hpast : c.Reaches inv w phase past s)
    (hflow : (c.stride inv phase s).1.flow ≠ .goOn)
    (hlast : (c.stride inv phase s).1.journal.inquiries.getLast? = some e) :
    (c.run inv w).journal.IsAsking ↔ e.isAsking = true := by
  have hrun : (c.run inv w).journal.inquiries.getLast? = some e := by
    rw [Journal.inquiries] at hlast ⊢
    rw [hpast.run_eq_reportOf hflow, pick_reportOf inv Journal.skipsReports_inquiry?,
      Journal.pick_append, List.getLast?_append, hlast, Option.some_or]
  simp [Journal.IsAsking, hrun]

/-- A run whose turn was refused ended there: no other stride stops for a budget of iterations. -/
theorem eq_turn_of_refused {reason : String} (hpast : c.Reaches inv w phase past s)
    (hflow : (c.stride inv phase s).1.flow ≠ .goOn)
    (hlast : (c.run inv w).journal.budgetAnswers.getLast? = some (.iteration, .blocked reason)) :
    phase = .turn := by
  obtain ⟨phase', past', s', stop, hpast', hblocks⟩ := exists_blocks_of_getLast? hlast
  have hreason := hblocks.reason? hpast'
  cases hblocks
  rw [hpast.run_eq_reportOf hflow] at hreason
  obtain ⟨output, hstop⟩ := reason?_reportOf_eq_some_iff.1 hreason
  obtain ⟨reason', check, hblocks'⟩ :=
    exists_blocks_of_flow (awaits_of_reaches hpast).pending hstop (.inl rfl)
  have hsame := Option.some.inj ((hblocks'.getLast?_budgetAnswers hpast).symm.trans hlast)
  obtain ⟨rfl, -⟩ := Prod.mk.inj hsame
  cases hblocks'
  rfl

/-- A run that was cancelled while it asked the model ended there. -/
theorem eq_turn_of_cancelled (hpast : c.Reaches inv w phase past s)
    (hflow : (c.stride inv phase s).1.flow = .cancelled)
    (hasking : (c.run inv w).journal.IsAsking) : phase = .turn := by
  have hpending := (awaits_of_reaches hpast).pending
  cases c.waits_of_flow inv (.inl hflow) with
  | turn => rfl
  | @dispatching call calls deferred =>
    have hstatus := (c.settles_dispatch inv hpending).cancelled_iff.1 hflow
    obtain ⟨e, hlast, hnot⟩ := c.exists_last_inquiry_of_cancelled inv hstatus
    rw [← c.inquiries_dispatch inv hpending] at hlast
    have hyes := (isAsking_run hpast (by rw [hflow]; exact Flow.noConfusion) hlast).1 hasking
    cases hnot.symm.trans hyes

/-- A run that ends in the stride which asks the model ends in one of the four ways. -/
theorem endsAsking_of_turn (hpast : c.Reaches inv w .turn past s)
    (hflow : (c.stride inv .turn s).1.flow ≠ .goOn) : (c.run inv w).EndsAsking := by
  have hending : (c.run inv w).ending =
      endingOf inv w.now (c.stride inv .turn s).1.stand (c.stride inv .turn s).1.flow := by
    rw [hpast.run_eq_reportOf hflow, reportOf]
  have hasking : ∀ {e}, (c.stride inv .turn s).1.journal.inquiries.getLast? = some e →
      e.isAsking = true → (c.run inv w).journal.IsAsking :=
    fun hlast => (isAsking_run hpast hflow hlast).2
  have hasks := c.asks_askModel inv s
  rw [stride] at hflow hending hasking
  generalize c.askModel inv s = asked at hasks hflow hending hasking
  cases hasks with
  | blocked hbudget => exact .refused ((Blocks.turn hbudget).getLast?_budgetAnswers hpast)
  | withdrawn | cancelled => exact .cancelled hending (hasking rfl rfl)
  | stalled => exact .stalled hending
  | failed => exact .failed hending
  | replied => exact absurd rfl hflow

/-- The last stride of a run is the one that asks the model exactly when the run ended in one of the
four ways. -/
theorem endsAsking_iff (hpast : c.Reaches inv w phase past s)
    (hflow : (c.stride inv phase s).1.flow ≠ .goOn) :
    (c.run inv w).EndsAsking ↔ phase = .turn := by
  have hpending := (awaits_of_reaches hpast).pending
  have hends := Ends.last hpast hflow
  have hrun := hpast.run_eq_reportOf hflow
  constructor
  · intro h
    cases h with
    | refused hlast => exact eq_turn_of_refused hpast hflow hlast
    | cancelled hending hasking =>
      rw [hrun] at hending
      exact eq_turn_of_cancelled hpast (eq_cancelled_of_ends hends hending).1 hasking
    | failed hending =>
      rw [hrun] at hending
      exact c.eq_turn_of_model_failed inv hpending (flow_eq_of_model_failed hending)
    | stalled hending =>
      rw [hrun] at hending
      exact c.eq_turn_of_stalled inv hpending ((ending_reportOf_eq_stalled_iff hends).1 hending)
  · rintro rfl
    exact endsAsking_of_turn hpast hflow

/-! ## The end of a run -/

/-- When a run has ended the tracer is told how, and if it does not end the tracer is not told. -/
theorem told_farewell (h : c.Ends inv w journal s flow) :
    (farewell inv s flow).told =
      (reportOf inv w journal s flow).ending.outcome?.toList.map (.finish inv.traceId) := by
  cases flow with
  | failed error =>
    cases error with
    | cancelled progress => exact absurd rfl (ne_cancelled_of_ends h _ rfl progress)
    | _ => rfl
  | _ => rfl

/-- A run has begun as many turns as the tracer was told of. -/
theorem length_turns_of_ends {turns : List ToldTurn} (h : c.Ends inv w journal s flow)
    (htold : journal.told = .start inv.traceId inv.id :: toldFrom inv.traceId 1 turns) :
    turns.length = s.state.iterations ∧ turns.length = journal.beats.count .begun := by
  have hlength : turns.length = s.state.iterations := by
    simpa using congrArg List.length ((steps_of_told htold).symm.trans (steps_of_ends h))
  obtain ⟨laps, hpaced⟩ := paced_of_ends h
  exact ⟨hlength, by rw [hlength, hpaced.beats, Lap.count_begun_flatMap_beats, hpaced.length]⟩

/-! ## Two listeners in step -/

variable (c inv)

/-- Both are told of a reply. -/
theorem mirrored_notedEntries (reply : ModelReply) (s : Stand M G B X) :
    (c.notedEntries inv reply s).Mirrored := by
  rw [notedEntries, recordReply]
  cases reply.usage <;>
    exact .cons ⟨rfl, by simp [Observation.of, Keyed.ofList],
      by simp [Observation.of, Keyed.ofList],
      by simp [Observation.of, Keyed.ofList, Keyed.get?]⟩ .nil

/-- Both are told of a dispatched call. -/
theorem mirrored_reportCall (now iteration : Nat) (call : ToolCall) (fate : Fate)
    (durationMs : Nat) : (c.reportCall inv now iteration call fate durationMs).Mirrored := by
  refine .cons ⟨rfl, ?_, ?_, ?_, ?_, ?_⟩ .nil
  · simp [Observation.of, Keyed.ofList]
  · simp [Observation.of, Keyed.ofList]
  · simp [Observation.of, Keyed.ofList]
  · simp [Observation.of, Keyed.ofList]
  · intro text htext
    simp only at htext
    split at htext
    · cases htext
    · exact Option.some.inj htext

/-- To find the fate of a call neither is told anything. -/
theorem mirrored_judge (call : ToolCall) (w : World M G B X) :
    (c.judge inv call w).2.2.Mirrored := by
  have hjudges := c.judges_judge inv call w
  generalize c.judge inv call w = judged at hjudges ⊢
  cases hjudges <;> exact Journal.mirrored_of_pick rfl rfl

theorem mirrored_auditCall (call : ToolCall) (fate : Fate) (w : World M G B X) :
    (c.auditCall inv call fate w).2.Mirrored := by
  rw [auditCall]
  split <;> exact Journal.mirrored_of_pick rfl rfl

theorem mirrored_remarks (now : Nat) (remark : Option Remark) : (remarks now remark).Mirrored := by
  cases remark <;> exact Journal.mirrored_of_pick rfl rfl

theorem mirrored_closeBatch {st : Stretch M G B X} (h : st.journal.Mirrored) :
    (c.closeBatch inv st).journal.Mirrored := by
  rw [closeBatch]
  split
  · exact h.append (Journal.mirrored_of_pick rfl rfl)
  · exact h

theorem mirrored_dispatch {call : ToolCall} {rest : List ToolCall}
    (hpending : s.state.transcript.pending = call :: rest) :
    (c.closeBatch inv (c.dispatchCall inv call s)).journal.Mirrored := by
  have hasked := c.mirrored_judge inv call s.world
  rcases hjudge : c.judge inv call s.world with ⟨fate, w, asked⟩
  rw [hjudge] at hasked
  refine c.mirrored_closeBatch inv ?_
  rw [c.dispatchCall_of_pending inv hpending hjudge, settledEntries]
  exact hasked.append ((((mirrored_remarks _ _).append (c.mirrored_auditCall inv _ _ _)).append
    (c.mirrored_reportCall inv _ _ _ _ _)).append (mirrored_remarks _ _))

/-- A stride keeps the two in step. -/
theorem mirrored_stride {phase : Phase} (hpending : s.state.transcript.pending = phase.open) :
    (c.stride inv phase s).1.journal.Mirrored := by
  match phase with
  | .turn =>
    have hasks := c.asks_askModel inv s
    rw [stride]
    generalize c.askModel inv s = asked at hasks ⊢
    cases hasks <;> exact Journal.mirrored_of_pick rfl rfl
  | .replied reply =>
    have hnoted := c.mirrored_notedEntries inv reply s
    have htakes := c.takes_strideReply inv reply s
    rw [stride]
    generalize c.strideReply inv reply s = taken at htakes ⊢
    cases htakes with
    | refused | accepted => exact hnoted
    | prompted | calls => exact hnoted.append (Journal.mirrored_of_pick rfl rfl)
  | .dispatching [] deferred =>
    rw [stride, strideToDeferred]
    simp only
    split <;> exact Journal.mirrored_of_pick rfl rfl
  | .dispatching (call :: calls) deferred => exact c.mirrored_dispatch inv hpending
  | .deferring [] => exact Journal.mirrored_of_pick rfl rfl
  | .deferring (call :: calls) =>
    rw [stride, journal_strideDeferral]
    exact Journal.mirrored_of_pick rfl rfl
  | .closing =>
    rw [stride, closeTurn_eq]
    split <;> exact Journal.mirrored_of_pick rfl rfl

/-- Observer and tracer are told of the same replies and calls, however the run goes. -/
theorem mirrored_run (w : World M G B X) : (c.run inv w).journal.Mirrored :=
  run_of_strides (fun _ => Journal.mirrored_of_isFrame) (fun _ _ => Journal.Mirrored.append)
    fun _ _ => c.mirrored_stride inv

/-! ## A complete trace -/

/-- A run that cannot take over its messages calls nobody.  Every other run, however it ends, leaves
a trace that is complete: the tracer is told that the run begins, then of its turns, and last how it
ended, unless it does not end at all.  The turns are as many as the budget was asked for, and as the
run says.  Each is told with its number, its reply and its calls, and only the last one can be
without a reply: it is, exactly when the turn was refused, or the run was cancelled while it asked
the model, or the model failed or never answered.  The observer is told of the same replies and
calls, in the same order. -/
theorem trace_well_nested (w : World M G B X) :
    (∀ error, Transcript.adopt (c.stamps inv w.now) inv.seed = .error error →
      c.run inv w = ⟨.failed (.transcript error), w, []⟩) ∧
    ∀ t, Transcript.adopt (c.stamps inv w.now) inv.seed = .ok t →
      ∃ turns,
        (c.run inv w).journal.told =
          .start inv.traceId inv.id :: (toldFrom inv.traceId 1 turns ++
            (c.run inv w).ending.outcome?.toList.map (.finish inv.traceId)) ∧
        turns.length = (c.run inv w).journal.beats.count .begun ∧
        (∀ n, (c.run inv w).ending.iterations? = some n → n = turns.length) ∧
        (Unanswered turns ∨ turns ≠ [] ∧ Answered turns) ∧
        (Unanswered turns ↔ (c.run inv w).EndsAsking) ∧
        List.Forall₂ Observation.Mirrors (c.run inv w).journal.observations
          (c.run inv w).journal.recorded := by
  refine ⟨fun error => c.run_of_adopt_eq_error inv w, fun t hadopt => ?_⟩
  obtain ⟨journal, s, flow, hends, hrun⟩ := c.exists_ends inv w hadopt
  obtain @⟨phase, past, s, hpast, hflow⟩ := hends
  have hends := Ends.last hpast hflow
  obtain ⟨before, htells⟩ := exists_tellsTurns_of_reaches hpast
  obtain ⟨turns, htold, hleaves⟩ := exists_told_stride hpast htells
  obtain ⟨hiterations, hbegun⟩ := length_turns_of_ends hends htold
  refine ⟨turns, ?_, ?_, ?_, ?_, ?_, c.mirrored_run inv w⟩
  · rw [hrun, ← told_farewell hends, reportOf, Journal.told_append, htold, List.cons_append]
  · rw [hbegun, hrun, Journal.beats, Journal.beats, pick_reportOf inv Journal.skipsReports_beat?]
  · intro n hn
    rw [hrun] at hn
    rw [hiterations]
    exact eq_iterations_of_iterations? hends hn
  · exact hleaves.unanswered_or
  · rw [hleaves.unanswered_iff, endsAsking_iff hpast hflow]

/-- A script of one reply: the call of the first turn is told, and then the model fails. -/
example :
    ((scripted .default (.success "done")).run task (reciting [callReply "a"])).journal.told =
      .start "trace" "run" ::
        (toldFrom "trace" 1
            [⟨some ⟨"", none, 1⟩, [⟨"a", "weather", .succeeded, none, 0⟩]⟩, .announced] ++
          [.finish "trace" "fatal"]) := by
  decide +kernel

end Controller

end AgentLoop
