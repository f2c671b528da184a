import AgentLoop.Proofs.Strides

/-!
# A run that nobody cancels

A run can be compared with the run that differs from it only in that nobody cancels it.  A
cancellation shows at two places, where the run waits for the model and where it waits for a tool,
and wherever it shows the run ends.  So a run agrees with the undisturbed one stride by stride, up
to the stride in which it is cancelled, if there is one.

* `await_undisturbed_or`: a wait ends as if nobody cancelled it, or it is cancelled.
* `askModel_undisturbed_or` and `judge_undisturbed_or` say this of the two places, and
  `stride_undisturbed_or` of every stride.
* `Reaches.undisturbed` and `Ends.undisturbed` are the course, `run_undisturbed` the whole run.
-/

namespace AgentLoop

/-- The invocation, with nobody who cancels it. -/
def Invocation.undisturbed (inv : Invocation) : Invocation := { inv with cancel := none }

/-- A wait ends as if nobody cancelled it, or it is cancelled. -/
theorem await_undisturbed_or (cancel : Cancellation) (limit : Option Nat) (now : Nat)
    (delay : Option Nat) :
    await cancel limit now delay = await none limit now delay ∨
      ∃ time, await cancel limit now delay = .cancelled time := by
  cases cancel with
  | none => exact .inl rfl
  | some time =>
    simp only [await]
    cases awaitUndisturbed limit now delay with
    | done finish | timedOut finish =>
      by_cases htime : time ≤ finish
      · exact .inr ⟨time, if_pos htime⟩
      · exact .inl (if_neg htime)
    | cancelled | forever => exact .inr ⟨time, rfl⟩

namespace Controller

variable {M G B X : Type} (c : Controller M G B X) (inv : Invocation)

/-! ## The two places -/

/-- The model is asked as if nobody cancelled the run, or the run is cancelled. -/
theorem awaitModel_undisturbed_or (s : Stand M G B X) :
    c.awaitModel inv (c.begun s) = c.awaitModel inv.undisturbed (c.begun s) ∨
      ∃ stretch, c.awaitModel inv (c.begun s) = .ended stretch ∧ stretch.flow = .cancelled := by
  have hfree : inv.undisturbed.cancel.fired (c.asking s).world.now = false := rfl
  rw [awaitModel_begun, awaitModel_begun, hfree]
  cases hfired : inv.cancel.fired (c.asking s).world.now with
  | true => exact .inr ⟨_, rfl, rfl⟩
  | false =>
    rcases await_undisturbed_or inv.cancel none (c.asking s).world.now
      (c.modelAnswer inv s).1.delay with hwait | ⟨time, hwait⟩
    · have hwait : c.modelWait inv s = c.modelWait inv.undisturbed s := hwait
      rw [hwait]
      exact .inl rfl
    · have hwait : c.modelWait inv s = .cancelled time := hwait
      rw [hwait]
      exact .inr ⟨_, rfl, rfl⟩

theorem askModel_undisturbed_or (s : Stand M G B X) :
    c.askModel inv s = c.askModel inv.undisturbed s ∨
      ∃ stretch, c.askModel inv s = .ended stretch ∧ stretch.flow = .cancelled := by
  rw [askModel_eq, askModel_eq]
  split
  · exact .inl rfl
  · rcases c.awaitModel_undisturbed_or inv s with hsame | ⟨stretch, hended, hflow⟩
    · rw [hsame]
      exact .inl rfl
    · rw [hended]
      exact .inr ⟨_, rfl, hflow⟩

theorem execute_undisturbed_or (call : ToolCall) (arguments : JsonObject) (w : World M G B X) :
    c.execute inv call arguments (c.checked inv call arguments w) =
        c.execute inv.undisturbed call arguments (c.checked inv.undisturbed call arguments w) ∨
      (c.execute inv call arguments (c.checked inv call arguments w)).1 = .cancelled arguments := by
  have hfree : inv.undisturbed.cancel.fired (c.executing inv.undisturbed call arguments w).now =
      false := rfl
  rw [execute_checked, execute_checked, hfree]
  cases hfired : inv.cancel.fired (c.executing inv call arguments w).now with
  | true => exact .inr rfl
  | false =>
    rcases await_undisturbed_or inv.cancel (some c.config.toolCallTimeoutMs)
      (c.executing inv call arguments w).now (c.execution inv call arguments w).1.delay with
      hwait | ⟨time, hwait⟩
    · have hwait : c.toolWait inv call arguments w = c.toolWait inv.undisturbed call arguments w :=
        hwait
      rw [hwait]
      exact .inl rfl
    · have hwait : c.toolWait inv call arguments w = .cancelled time := hwait
      rw [hwait]
      exact .inr rfl

theorem askBudget_undisturbed_or (call : ToolCall) (arguments : JsonObject) (w : World M G B X) :
    c.askBudget inv call arguments (c.ruled inv call arguments w) =
        c.askBudget inv.undisturbed call arguments (c.ruled inv.undisturbed call arguments w) ∨
      (c.askBudget inv call arguments (c.ruled inv call arguments w)).1 = .cancelled arguments := by
  rw [askBudget_ruled, askBudget_ruled]
  cases (c.toolCheck call arguments w).1 with
  | blocked reason => exact .inl rfl
  | allowed =>
    rcases c.execute_undisturbed_or inv call arguments w with hsame | hcancelled
    · rw [hsame]
      exact .inl rfl
    · exact .inr hcancelled

/-- The fate of a call is the same as if nobody cancelled the run, or the call is cancelled. -/
theorem judge_undisturbed_or (call : ToolCall) (w : World M G B X) :
    c.judge inv call w = c.judge inv.undisturbed call w ∨
      ∃ arguments, (c.judge inv call w).1 = .cancelled arguments := by
  rw [judge, judge]
  cases Arguments.read call.arguments with
  | error error => exact .inl rfl
  | ok arguments =>
    have hruling : c.ruling inv.undisturbed call arguments w = c.ruling inv call arguments w := rfl
    simp only
    rw [askGate_eq, askGate_eq, hruling]
    cases (c.ruling inv call arguments w).1 with
    | denied reason => exact .inl rfl
    | allowed =>
      rcases c.askBudget_undisturbed_or inv call arguments w with hsame | hcancelled
      · rw [hsame]
        exact .inl rfl
      · exact .inr ⟨arguments, hcancelled⟩

/-! ## A stride -/

/-- A call that is cancelled ends the run. -/
theorem flow_dispatch_of_cancelled {call : ToolCall} {calls deferred : List ToolCall}
    {arguments : JsonObject} {s : Stand M G B X}
    (hpending : s.state.transcript.pending = call :: (calls ++ deferred))
    (hfate : (c.judge inv call s.world).1 = .cancelled arguments) :
    (c.stride inv (.dispatching (call :: calls) deferred) s).1.flow = .cancelled := by
  refine (c.settles_dispatch inv hpending).cancelled_iff.2 ?_
  rw [hfate]
  rfl

/-- A stride is the same as if nobody cancelled the run, or the run is cancelled in it. -/
theorem stride_undisturbed_or {phase : Phase} {s : Stand M G B X}
    (hpending : s.state.transcript.pending = phase.open) :
    c.stride inv phase s = c.stride inv.undisturbed phase s ∨
      (c.stride inv phase s).1.flow = .cancelled := by
  match phase with
  | .turn =>
    rcases c.askModel_undisturbed_or inv s with hsame | ⟨stretch, hended, hflow⟩
    · rw [stride, stride, hsame]
      exact .inl rfl
    · rw [stride, hended]
      exact .inr hflow
  | .dispatching (call :: calls) deferred =>
    rcases c.judge_undisturbed_or inv call s.world with hsame | ⟨arguments, hfate⟩
    · rw [stride, stride, dispatchCall, dispatchCall, hsame]
      exact .inl rfl
    · exact .inr (c.flow_dispatch_of_cancelled inv hpending hfate)
  | .replied reply | .dispatching [] deferred | .deferring [] | .deferring (call :: calls)
  | .closing => exact .inl rfl

/-! ## A run -/

variable {c inv} {w : World M G B X} {phase : Phase} {past journal : Journal} {s : Stand M G B X}
  {flow : Flow}

/-- Every point of a run is a point of the undisturbed run. -/
theorem Reaches.undisturbed (h : c.Reaches inv w phase past s) :
    c.Reaches inv.undisturbed w phase past s := by
  induction h with
  | begin hadopt => exact .begin hadopt
  | stride hpast hflow ih =>
    rcases c.stride_undisturbed_or inv (awaits_of_reaches hpast).pending with hsame | hcancelled
    · rw [hsame] at hflow ⊢
      exact .stride ih hflow
    · cases hcancelled.symm.trans hflow

/-- A run that is not cancelled ends as the undisturbed run does. -/
theorem Ends.undisturbed (h : c.Ends inv w journal s flow) (hflow : flow ≠ .cancelled) :
    c.Ends inv.undisturbed w journal s flow := by
  obtain ⟨hpast, hstop⟩ := h
  rcases c.stride_undisturbed_or inv (awaits_of_reaches hpast).pending with hsame | hcancelled
  · rw [hsame] at hstop ⊢
    exact .last hpast.undisturbed hstop
  · exact absurd hcancelled hflow

/-- A run that is not cancelled is the undisturbed run. -/
theorem run_undisturbed (h : ∀ p, (c.run inv w).ending ≠ .failed (.cancelled p)) :
    c.run inv w = c.run inv.undisturbed w := by
  cases hadopt : Transcript.adopt (c.stamps inv w.now) inv.seed with
  | error error =>
    rw [c.run_of_adopt_eq_error inv w hadopt, c.run_of_adopt_eq_error inv.undisturbed w hadopt]
  | ok t =>
    obtain ⟨journal, s, flow, hends, hrun⟩ := c.exists_ends inv w hadopt
    have hflow : flow ≠ .cancelled := by
      rintro rfl
      exact h _ (by rw [hrun]; rfl)
    rw [hrun, (hends.undisturbed hflow).run_eq_reportOf]
    rfl

end Controller

end AgentLoop
