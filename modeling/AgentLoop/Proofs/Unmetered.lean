import AgentLoop.Proofs.MessageIds
import AgentLoop.Proofs.Refusals
import AgentLoop.Proofs.Spending

/-!
# A budget that refuses nothing

A budget acts on a run by its refusals alone: what it answers otherwise, and what it counts, goes
nowhere but into the budget itself.  And a refusal shows in how the run ends.  So a run that ends in
another way is the run without a budget.

There are four groups.

* What a run works on can have its budget struck out: `unmetered` takes the state of the budget out
  of a world, and the checks out of a journal.  `Controller.budgeted` is a controller with some
  budget.
* The functions of a run do without a budget what they do with one, once the budget is struck out,
  unless it refuses.  There is one lemma for each function, and `stride_unmetered_or` is one stride.
* `Reaches.unmetered` and `Ends.unmetered` are the course, and `run_unmetered` the whole run.
* `BudgetTracker.NeverBlocks` says that a budget refuses nothing at all; one without limits is such
  a budget.  `budget_invisible` is the result.
-/

namespace AgentLoop

/-! ## The budget struck out -/

/-- The event is a check of the budget. -/
def Event.isCheck : Event → Bool
  | budgetChecked .. => true
  | _ => false

/-- The journal without the checks of the budget. -/
def Journal.unmetered (j : Journal) : Journal := j.filter fun e => !e.event.isCheck

@[simp] theorem Journal.unmetered_append (j k : Journal) :
    (j ++ k).unmetered = j.unmetered ++ k.unmetered :=
  List.filter_append j k

@[simp] theorem Journal.unmetered_unmetered (j : Journal) :
    j.unmetered.unmetered = j.unmetered := by
  rw [unmetered, unmetered, List.filter_filter]
  simp only [Bool.and_self]

theorem Event.isCheck_withoutIds (e : Event) : e.withoutIds.isCheck = e.isCheck := by
  cases e with
  | remarked remark => cases remark <;> rfl
  | _ => rfl

theorem Journal.unmetered_withoutIds (j : Journal) :
    j.withoutIds.unmetered = j.unmetered.withoutIds := by
  have hsame : ((fun e : Entry => !e.event.isCheck) ∘
      fun e : Entry => ({ e with event := e.event.withoutIds } : Entry)) =
      fun e => !e.event.isCheck := by
    funext e
    exact congrArg not e.event.isCheck_withoutIds
  rw [unmetered, withoutIds, List.filter_map, hsame]
  rfl

section

variable {M G B X : Type}

/-- The world without the state of the budget. -/
def World.unmetered (w : World M G B X) : World M G Unit X := ⟨w.now, w.model, w.gate, (), w.tools⟩

/-- The stand without the state of the budget. -/
def Stand.unmetered (s : Stand M G B X) : Stand M G Unit X := ⟨s.state, s.world.unmetered⟩

/-- The stretch without the budget. -/
def Stretch.unmetered (st : Stretch M G B X) : Stretch M G Unit X :=
  ⟨st.stand.unmetered, st.journal.unmetered, st.flow⟩

/-- What comes of asking the model, without the budget. -/
def Asked.unmetered : Asked M G B X → Asked M G Unit X
  | reply r s journal => reply r s.unmetered journal.unmetered
  | ended stretch => ended stretch.unmetered

/-- The report without the budget. -/
def RunReport.unmetered (r : RunReport M G B X) : RunReport M G Unit X :=
  ⟨r.ending, r.world.unmetered, r.journal.unmetered⟩

theorem Stand.unmetered_self (s : Stand M G Unit X) : s.unmetered = s := rfl

@[simp] theorem Stretch.unmetered_unmetered (st : Stretch M G B X) :
    st.unmetered.unmetered = st.unmetered := by
  rw [unmetered, unmetered, Journal.unmetered_unmetered]
  rfl

@[simp] theorem Stretch.unmetered_after (journal : Journal) (st : Stretch M G B X) :
    (st.after journal).unmetered = st.unmetered.after journal.unmetered := by
  rw [after, unmetered, Journal.unmetered_append]
  rfl

theorem RunReport.unmetered_withoutIds (r : RunReport M G B X) :
    r.withoutIds.unmetered = r.unmetered.withoutIds := by
  rw [withoutIds, unmetered, Journal.unmetered_withoutIds]
  rfl

/-- The controller with this budget. -/
def Controller.budgeted (c : Controller M G Unit X) (budget : BudgetTracker B) :
    Controller M G B X :=
  { config := c.config
    model := c.model
    gate := c.gate
    budget
    executor := c.executor
    resolver := c.resolver
    context := c.context
    epoch := c.epoch
    lag := fun w => c.lag w.unmetered }

end

namespace Controller

variable {M G B X : Type} (c : Controller M G Unit X) (budget : BudgetTracker B) (inv : Invocation)

/-! ## The model is asked -/

theorem awaitModel_unmetered (s : Stand M G B X) :
    (c.budgeted .none).awaitModel inv ((c.budgeted .none).begun s.unmetered) =
      ((c.budgeted budget).awaitModel inv ((c.budgeted budget).begun s)).unmetered := by
  have hfired : inv.cancel.fired ((c.budgeted .none).asking s.unmetered).world.now =
      inv.cancel.fired ((c.budgeted budget).asking s).world.now := rfl
  have hanswer : (c.budgeted .none).modelAnswer inv s.unmetered =
      (c.budgeted budget).modelAnswer inv s := rfl
  have hwait : (c.budgeted .none).modelWait inv s.unmetered =
      (c.budgeted budget).modelWait inv s := rfl
  rw [awaitModel_begun, awaitModel_begun, hfired, hanswer, hwait]
  cases inv.cancel.fired ((c.budgeted budget).asking s).world.now with
  | true => rfl
  | false =>
    simp only [Bool.false_eq_true, if_false]
    cases (c.budgeted budget).modelWait inv s with
    | done time => cases ((c.budgeted budget).modelAnswer inv s).1.result <;> rfl
    | _ => rfl

/-- The model is asked as if there were no budget, or the budget refuses the turn. -/
theorem askModel_unmetered_or (s : Stand M G B X) :
    ((c.budgeted .none).askModel inv s.unmetered).unmetered =
        ((c.budgeted budget).askModel inv s).unmetered ∨
      ∃ stretch, (c.budgeted budget).askModel inv s = .ended stretch ∧
        stretch.flow = .stop .budgetExceeded [] := by
  have hfree : ((c.budgeted .none).budget.checkIteration s.unmetered.world.now
      s.unmetered.world.budget).1 = .allowed := rfl
  have hentries : ((c.budgeted .none).turnEntries inv s.unmetered).unmetered =
      ((c.budgeted budget).turnEntries inv s).unmetered := rfl
  rw [askModel_eq, askModel_eq, hfree]
  cases hbudget : ((c.budgeted budget).budget.checkIteration s.world.now s.world.budget).1 with
  | blocked reason => exact .inr ⟨_, rfl, rfl⟩
  | allowed =>
    left
    simp only [stopReason?, BudgetDecision.isBlocked, Bool.false_eq_true, if_false]
    rw [c.awaitModel_unmetered budget inv]
    cases (c.budgeted budget).awaitModel inv ((c.budgeted budget).begun s) with
    | ended stretch =>
      simp only [Asked.unmetered, Stretch.unmetered_after, Stretch.unmetered_unmetered, hentries]
    | reply reply s' journal =>
      simp only [Asked.unmetered, Journal.unmetered_append, Journal.unmetered_unmetered, hentries]
      rfl

/-! ## A reply is taken in -/

theorem noted_unmetered (reply : ModelReply) (s : Stand M G B X) :
    (c.budgeted .none).noted inv reply s.unmetered =
      ((c.budgeted budget).noted inv reply s).unmetered := by
  rw [noted, noted, recordReply, recordReply]
  cases reply.usage <;> rfl

theorem notedEntries_unmetered (reply : ModelReply) (s : Stand M G B X) :
    (c.budgeted .none).notedEntries inv reply s.unmetered =
      (c.budgeted budget).notedEntries inv reply s := by
  rw [notedEntries, notedEntries, recordReply, recordReply]
  cases reply.usage <;> rfl

theorem takeText_unmetered (content : String) (s : Stand M G B X) :
    (c.budgeted .none).takeText inv content s.unmetered =
      ((c.budgeted budget).takeText inv content s).unmetered := by
  have hneeds : needsConfirmation (c.budgeted .none).config s.unmetered.state =
      needsConfirmation (c.budgeted budget).config s.state := rfl
  have hpush : s.unmetered.state.transcript.pushUser
      ((c.budgeted .none).stamps inv s.unmetered.world.now) confirmationPrompt =
      s.state.transcript.pushUser ((c.budgeted budget).stamps inv s.world.now)
        confirmationPrompt := rfl
  rw [takeText, takeText, hneeds, hpush]
  split
  · cases s.state.transcript.pushUser ((c.budgeted budget).stamps inv s.world.now)
      confirmationPrompt <;> rfl
  · rfl

theorem strideReply_unmetered (reply : ModelReply) (s : Stand M G B X) :
    ((c.budgeted .none).strideReply inv reply s.unmetered).1.unmetered =
        ((c.budgeted budget).strideReply inv reply s).1.unmetered ∧
      ((c.budgeted .none).strideReply inv reply s.unmetered).2 =
        ((c.budgeted budget).strideReply inv reply s).2 := by
  have hpush : s.unmetered.state.transcript.pushAssistant
      ((c.budgeted .none).replyMessage inv reply s.unmetered) =
      s.state.transcript.pushAssistant ((c.budgeted budget).replyMessage inv reply s) := rfl
  have hcalls : callsOf reply s.unmetered = callsOf reply s := rfl
  rw [strideReply, strideReply, hpush, hcalls, c.noted_unmetered budget inv,
    c.notedEntries_unmetered budget inv]
  cases s.state.transcript.pushAssistant ((c.budgeted budget).replyMessage inv reply s) with
  | error error => exact ⟨rfl, rfl⟩
  | ok t =>
    simp only
    split
    · have htext : (c.budgeted .none).takeText inv reply.content
          (((c.budgeted budget).noted inv reply s).unmetered.withTranscript t) =
          ((c.budgeted budget).takeText inv reply.content
            (((c.budgeted budget).noted inv reply s).withTranscript t)).unmetered :=
        c.takeText_unmetered budget inv reply.content
          (((c.budgeted budget).noted inv reply s).withTranscript t)
      rw [htext, Stretch.unmetered_after, Stretch.unmetered_after, Stretch.unmetered_unmetered]
      exact ⟨rfl, rfl⟩
    · exact ⟨rfl, rfl⟩

/-! ## A call is dispatched -/

/-- What comes of asking about a call, without the budget. -/
def unmeteredJudged (judged : Fate × World M G B X × Journal) : Fate × World M G Unit X × Journal :=
  (judged.1, judged.2.1.unmetered, judged.2.2.unmetered)

theorem execute_unmetered (call : ToolCall) (arguments : JsonObject) (w : World M G B X) :
    (c.budgeted .none).execute inv call arguments
        ((c.budgeted .none).checked inv call arguments w.unmetered) =
      (((c.budgeted budget).execute inv call arguments
          ((c.budgeted budget).checked inv call arguments w)).1,
        ((c.budgeted budget).execute inv call arguments
          ((c.budgeted budget).checked inv call arguments w)).2.1.unmetered,
        ((c.budgeted budget).execute inv call arguments
          ((c.budgeted budget).checked inv call arguments w)).2.2) := by
  have hfired : inv.cancel.fired
      ((c.budgeted .none).executing inv call arguments w.unmetered).now =
      inv.cancel.fired ((c.budgeted budget).executing inv call arguments w).now := rfl
  have hwait : (c.budgeted .none).toolWait inv call arguments w.unmetered =
      (c.budgeted budget).toolWait inv call arguments w := rfl
  rw [execute_checked, execute_checked, hfired, hwait]
  cases inv.cancel.fired ((c.budgeted budget).executing inv call arguments w).now with
  | true => rfl
  | false => cases (c.budgeted budget).toolWait inv call arguments w <;> rfl

/-- The budget is asked about a call as if there were none, or it refuses the call. -/
theorem askBudget_unmetered_or (call : ToolCall) (arguments : JsonObject) (w : World M G B X) :
    unmeteredJudged ((c.budgeted .none).askBudget inv call arguments
          ((c.budgeted .none).ruled inv call arguments w.unmetered)) =
        unmeteredJudged ((c.budgeted budget).askBudget inv call arguments
          ((c.budgeted budget).ruled inv call arguments w)) ∨
      ((c.budgeted budget).askBudget inv call arguments
        ((c.budgeted budget).ruled inv call arguments w)).1.status = .blocked := by
  have hfree : ((c.budgeted .none).toolCheck call arguments w.unmetered).1 = .allowed := rfl
  rw [askBudget_ruled, askBudget_ruled, hfree]
  cases ((c.budgeted budget).toolCheck call arguments w).1 with
  | blocked reason => exact .inr rfl
  | allowed =>
    simp only
    rw [c.execute_unmetered budget inv]
    exact .inl rfl

/-- The fate of a call is the same as if there were no budget, or the budget refuses the call. -/
theorem judge_unmetered_or (call : ToolCall) (w : World M G B X) :
    unmeteredJudged ((c.budgeted .none).judge inv call w.unmetered) =
        unmeteredJudged ((c.budgeted budget).judge inv call w) ∨
      ((c.budgeted budget).judge inv call w).1.status = .blocked := by
  rw [judge, judge]
  cases Arguments.read call.arguments with
  | error error => exact .inl rfl
  | ok arguments =>
    have hruling : (c.budgeted .none).ruling inv call arguments w.unmetered =
      (c.budgeted budget).ruling inv call arguments w := rfl
    simp only
    rw [askGate_eq, askGate_eq, hruling]
    cases ((c.budgeted budget).ruling inv call arguments w).1 with
    | denied reason => exact .inl rfl
    | allowed =>
      rcases c.askBudget_unmetered_or budget inv call arguments w with hsame | hblocked
      · left
        simp only [unmeteredJudged, Prod.mk.injEq] at hsame ⊢
        obtain ⟨hfate, hworld, hjournal⟩ := hsame
        refine ⟨hfate, hworld, ?_⟩
        exact congrArg (List.cons ((c.budgeted budget).rulingEntry inv call arguments w)) hjournal
      · exact .inr hblocked

theorem auditCall_unmetered (call : ToolCall) (fate : Fate) (w : World M G B X) :
    (c.budgeted .none).auditCall inv call fate w.unmetered =
      (((c.budgeted budget).auditCall inv call fate w).1.unmetered,
        ((c.budgeted budget).auditCall inv call fate w).2) := by
  rw [auditCall, auditCall]
  cases fate.audited call.name <;> rfl

theorem settledEntries_unmetered (started iteration : Nat) (call : ToolCall) (fate : Fate)
    (w : World M G B X) :
    (c.budgeted .none).settledEntries inv started iteration call fate w.unmetered =
      (c.budgeted budget).settledEntries inv started iteration call fate w := by
  rw [settledEntries, settledEntries, c.auditCall_unmetered budget inv]
  rfl

theorem dispatchCall_unmetered_or {call : ToolCall} {rest : List ToolCall} {s : Stand M G B X}
    (hpending : s.state.transcript.pending = call :: rest) :
    ((c.budgeted .none).dispatchCall inv call s.unmetered).unmetered =
        ((c.budgeted budget).dispatchCall inv call s).unmetered ∨
      ((c.budgeted budget).dispatchCall inv call s).flow = .stop .budgetExceeded [] := by
  have hpending' : s.unmetered.state.transcript.pending = call :: rest := hpending
  rcases hjudge : (c.budgeted budget).judge inv call s.world with ⟨fate, w, asked⟩
  rcases hjudge' : (c.budgeted .none).judge inv call s.unmetered.world with ⟨fate', w', asked'⟩
  have hor := c.judge_unmetered_or budget inv call s.world
  change unmeteredJudged ((c.budgeted .none).judge inv call s.unmetered.world) = _ ∨ _ at hor
  rw [hjudge, hjudge'] at hor
  rw [(c.budgeted budget).dispatchCall_of_pending inv hpending hjudge,
    (c.budgeted .none).dispatchCall_of_pending inv hpending' hjudge']
  rcases hor with hsame | hblocked
  · left
    simp only [unmeteredJudged, Prod.mk.injEq] at hsame
    obtain ⟨rfl, hworld, hasked⟩ := hsame
    obtain rfl : w' = w.unmetered := hworld
    have hentries : (c.budgeted .none).settledEntries inv s.unmetered.world.now
        s.unmetered.state.iterations call fate' w.unmetered =
        (c.budgeted budget).settledEntries inv s.world.now s.state.iterations call fate' w :=
      c.settledEntries_unmetered budget inv s.world.now s.state.iterations call fate' w
    rw [c.auditCall_unmetered budget inv, hentries, Stretch.unmetered, Stretch.unmetered,
      Journal.unmetered_append, Journal.unmetered_append, hasked]
    rfl
  · right
    rw [flowAfter, hblocked]

theorem closeBatch_unmetered {batch : Stretch M G B X} {batch' : Stretch M G Unit X}
    (h : batch'.unmetered = batch.unmetered) :
    ((c.budgeted .none).closeBatch inv batch').unmetered =
      ((c.budgeted budget).closeBatch inv batch).unmetered := by
  obtain ⟨s, journal, flow⟩ := batch
  obtain ⟨s', journal', flow'⟩ := batch'
  simp only [Stretch.unmetered, Stretch.mk.injEq] at h
  obtain ⟨hstand, hjournal, rfl⟩ := h
  obtain rfl : s' = s.unmetered := hstand
  cases flow' <;>
    simp only [closeBatch, Stretch.unmetered, Journal.unmetered_append, hjournal] <;> rfl

theorem strideDeferral_unmetered (call : ToolCall) (s : Stand M G B X) :
    (c.budgeted .none).strideDeferral inv call s.unmetered =
      ((c.budgeted budget).strideDeferral inv call s).unmetered := by
  have hpush : s.unmetered.state.transcript.pushToolResult
      ((c.budgeted .none).stamps inv s.unmetered.world.now) call.id
      (deferralText (c.budgeted .none).config.maxToolCallsPerIteration) =
      s.state.transcript.pushToolResult ((c.budgeted budget).stamps inv s.world.now) call.id
        (deferralText (c.budgeted budget).config.maxToolCallsPerIteration) := rfl
  rw [strideDeferral, strideDeferral, hpush]
  cases s.state.transcript.pushToolResult ((c.budgeted budget).stamps inv s.world.now) call.id
    (deferralText (c.budgeted budget).config.maxToolCallsPerIteration) <;> rfl

/-! ## A run -/

/-- A turn is closed as if there were no budget, or the budget stops the run for its duration. -/
theorem closeTurn_unmetered_or (s : Stand M G B X) :
    ((c.budgeted .none).closeTurn s.unmetered).unmetered =
        ((c.budgeted budget).closeTurn s).unmetered ∨
      ((c.budgeted budget).closeTurn s).flow = .stop .durationExceeded [] := by
  have hfree : ((c.budgeted .none).durationCheck s.unmetered).1 = .allowed := rfl
  have hstate : stopReason? (c.budgeted .none).config s.unmetered.state =
      stopReason? (c.budgeted budget).config s.state := rfl
  rw [closeTurn_eq, closeTurn_eq, hfree, hstate]
  cases ((c.budgeted budget).durationCheck s).1 with
  | allowed =>
    left
    cases stopReason? (c.budgeted budget).config s.state (.turnEnd .allowed) <;> rfl
  | blocked reason =>
    cases hexhausted : errorsExhausted (c.budgeted budget).config s.state with
    | true =>
      -- The failures are asked about before the budget is.
      left
      simp only [stopReason?, hexhausted, if_true]
      rfl
    | false =>
      right
      simp only [stopReason?, hexhausted, Bool.false_eq_true, if_false, BudgetDecision.isBlocked,
        if_true]

/-- A turn begins as if there were no budget, or the budget refuses it. -/
theorem strideTurn_unmetered_or (s : Stand M G B X) :
    ((c.budgeted .none).stride inv .turn s.unmetered).1.unmetered =
          ((c.budgeted budget).stride inv .turn s).1.unmetered ∧
        ((c.budgeted .none).stride inv .turn s.unmetered).2 =
          ((c.budgeted budget).stride inv .turn s).2 ∨
      ((c.budgeted budget).stride inv .turn s).1.flow = .stop .budgetExceeded [] := by
  rcases c.askModel_unmetered_or budget inv s with hsame | ⟨stretch, hended, hflow⟩
  · left
    rw [stride, stride]
    generalize (c.budgeted .none).askModel inv s.unmetered = asked' at hsame ⊢
    generalize (c.budgeted budget).askModel inv s = asked at hsame ⊢
    cases asked with
    | ended stretch =>
      cases asked' with
      | ended stretch' => exact ⟨Asked.ended.inj hsame, rfl⟩
      | reply reply' stand' journal' => cases hsame
    | reply reply stand journal =>
      cases asked' with
      | ended stretch' => cases hsame
      | reply reply' stand' journal' =>
        obtain ⟨rfl, hstand, hjournal⟩ := Asked.reply.inj hsame
        simp only [Stretch.unmetered, hstand, hjournal, and_self]
  · right
    rw [stride, hended]
    exact hflow

/-- A stride is the same as if there were no budget, or the budget stops the run in it. -/
theorem stride_unmetered_or {phase : Phase} {s : Stand M G B X}
    (hpending : s.state.transcript.pending = phase.open) :
    ((c.budgeted .none).stride inv phase s.unmetered).1.unmetered =
          ((c.budgeted budget).stride inv phase s).1.unmetered ∧
        ((c.budgeted .none).stride inv phase s.unmetered).2 =
          ((c.budgeted budget).stride inv phase s).2 ∨
      ∃ reason, (reason = .budgetExceeded ∨ reason = .durationExceeded) ∧
        ((c.budgeted budget).stride inv phase s).1.flow = .stop reason [] := by
  match phase with
  | .turn =>
    rcases c.strideTurn_unmetered_or budget inv s with hsame | hblocked
    · exact .inl hsame
    · exact .inr ⟨_, .inl rfl, hblocked⟩
  | .replied reply => exact .inl (c.strideReply_unmetered budget inv reply s)
  | .dispatching [] deferred =>
    rw [stride, stride, strideToDeferred, strideToDeferred]
    exact .inl ⟨rfl, rfl⟩
  | .dispatching (call :: calls) deferred =>
    rcases c.dispatchCall_unmetered_or budget inv hpending with hsame | hblocked
    · exact .inl ⟨c.closeBatch_unmetered budget inv hsame, rfl⟩
    · exact .inr ⟨_, .inl rfl, (flow_closeBatch _ _ _).trans hblocked⟩
  | .deferring [] => exact .inl ⟨rfl, rfl⟩
  | .deferring (call :: calls) =>
    rw [stride, stride, c.strideDeferral_unmetered budget inv, Stretch.unmetered_unmetered]
    exact .inl ⟨rfl, rfl⟩
  | .closing =>
    rcases c.closeTurn_unmetered_or budget s with hsame | hlate
    · exact .inl ⟨hsame, rfl⟩
    · exact .inr ⟨_, .inr rfl, hlate⟩

variable {c budget inv} {w : World M G B X} {phase : Phase} {past journal : Journal}
  {s : Stand M G B X} {flow : Flow}

/-- Every point of a run is a point of the run without a budget. -/
theorem Reaches.unmetered (h : (c.budgeted budget).Reaches inv w phase past s) :
    ∃ past' : Journal, past'.unmetered = past.unmetered ∧
      (c.budgeted .none).Reaches inv w.unmetered phase past' s.unmetered := by
  induction h with
  | begin hadopt => exact ⟨_, rfl, .begin hadopt⟩
  | @stride phase past s hpast hflow ih =>
    obtain ⟨past', hsame, hpast'⟩ := ih
    rcases c.stride_unmetered_or budget inv (awaits_of_reaches hpast).pending with
      ⟨hstride, hphase⟩ | ⟨reason, -, hstop⟩
    · obtain ⟨hstand, hjournal, hgo⟩ := Stretch.mk.inj hstride
      have hnext := hpast'.stride (hgo.trans hflow)
      rw [hphase, ← Stand.unmetered_self (Stretch.stand _), hstand] at hnext
      refine ⟨_, ?_, hnext⟩
      rw [Journal.unmetered_append, Journal.unmetered_append, hsame, hjournal]
    · cases hstop.symm.trans hflow

/-- A run that its budget does not stop ends as the run without a budget does. -/
theorem Ends.unmetered (h : (c.budgeted budget).Ends inv w journal s flow)
    (hreason : ∀ output, flow ≠ .stop .budgetExceeded output ∧
      flow ≠ .stop .durationExceeded output) :
    ∃ journal' : Journal, journal'.unmetered = journal.unmetered ∧
      (c.budgeted .none).Ends inv w.unmetered journal' s.unmetered flow := by
  obtain ⟨hpast, hflow⟩ := h
  obtain ⟨past', hsame, hpast'⟩ := hpast.unmetered
  rcases c.stride_unmetered_or budget inv (awaits_of_reaches hpast).pending with
    ⟨hstride, hphase⟩ | ⟨reason, hover, hstop⟩
  · obtain ⟨hstand, hjournal, hgo⟩ := Stretch.mk.inj hstride
    have hlast := Ends.last hpast' (fun hgoOn => hflow (hgo.symm.trans hgoOn))
    rw [hgo, ← Stand.unmetered_self (Stretch.stand _), hstand] at hlast
    refine ⟨_, ?_, hlast⟩
    rw [Journal.unmetered_append, Journal.unmetered_append, hsame, hjournal]
  · rcases hover with rfl | rfl
    · exact absurd hstop (hreason []).1
    · exact absurd hstop (hreason []).2

/-- A run that its budget does not stop is the run without a budget. -/
theorem run_unmetered
    (hbudget : ((c.budgeted budget).run inv w).ending.reason? ≠ some .budgetExceeded)
    (hduration : ((c.budgeted budget).run inv w).ending.reason? ≠ some .durationExceeded) :
    ((c.budgeted .none).run inv w.unmetered).unmetered =
      ((c.budgeted budget).run inv w).unmetered := by
  cases hadopt : Transcript.adopt ((c.budgeted budget).stamps inv w.now) inv.seed with
  | error error =>
    rw [(c.budgeted budget).run_of_adopt_eq_error inv w hadopt,
      (c.budgeted .none).run_of_adopt_eq_error inv w.unmetered hadopt]
    rfl
  | ok t =>
    obtain ⟨journal, s, flow, hends, hrun⟩ := (c.budgeted budget).exists_ends inv w hadopt
    rw [hrun] at hbudget hduration ⊢
    obtain ⟨journal', hsame, hends'⟩ := hends.unmetered fun output =>
      ⟨fun hflow => hbudget (reason?_reportOf_eq_some_iff.2 ⟨output, hflow⟩),
        fun hflow => hduration (reason?_reportOf_eq_some_iff.2 ⟨output, hflow⟩)⟩
    rw [hends'.run_eq_reportOf, reportOf, reportOf, RunReport.unmetered, RunReport.unmetered,
      Journal.unmetered_append, Journal.unmetered_append, hsame]
    rfl

end Controller

/-! ## A budget that refuses nothing at all -/

/-- The budget allows everything that it is asked. -/
structure BudgetTracker.NeverBlocks {B : Type} (budget : BudgetTracker B) : Prop where
  iteration : ∀ now b, (budget.checkIteration now b).1 = .allowed
  tool : ∀ now name arguments b, (budget.checkTool now name arguments b).1 = .allowed
  duration : ∀ now b, (budget.checkDuration now b).1 = .allowed

/-- An enforcer without limits allows everything. -/
theorem neverBlocks_unlimited : BudgetConfig.unlimited.tracker.NeverBlocks where
  iteration _ _ := rfl
  tool _ _ _ _ := rfl
  duration _ _ := rfl

namespace Controller

section

variable {M G B X : Type} {c : Controller M G B X} {inv : Invocation} {w : World M G B X}
  {phase : Phase} {s : Stand M G B X} {reason : String} {check : BudgetCheck}
  {stop : TerminationReason}

theorem not_blocks (h : c.budget.NeverBlocks) : ¬ c.Blocks inv s reason phase check stop := by
  intro hblocks
  cases hblocks with
  | turn hbudget => cases (h.iteration _ _).symm.trans hbudget
  | @call call calls deferred arguments hfate =>
    have hjudges := c.judges_judge inv call s.world
    generalize c.judge inv call s.world = judged at hjudges hfate
    cases hjudges with
    | blocked hread hruling hcheck => cases (h.tool _ _ _ _).symm.trans hcheck
    | _ => cases hfate
  | exhausted hbudget => cases (h.duration _ _).symm.trans hbudget
  | late hbudget => cases (h.duration _ _).symm.trans hbudget

/-- A budget that refuses nothing stops no run. -/
theorem reason?_of_neverBlocks (h : c.budget.NeverBlocks)
    (hstop : stop = .budgetExceeded ∨ stop = .durationExceeded) :
    (c.run inv w).ending.reason? ≠ some stop := by
  intro hreason
  obtain ⟨phase, past, s, reason, check, -, hblocks⟩ := exists_blocks_of_reason? hreason hstop
  exact not_blocks h hblocks

end

variable {M G B X : Type} (c : Controller M G Unit X)

/-- The run with a budget is the run without one.

* Both end alike, with the same result, progress or failure.
* The clock, the model, the gate and the tools come to the same.
* The journals are the same but for the checks of the budget: the same happens, at the same times
  and in the same order.
* The same holds up to the ids of new messages if they differ, unless the model heeds ids. -/
structure Unnoticed (budget : BudgetTracker B) (inv : Invocation) (w : World M G B X) : Prop where
  ending : ((c.budgeted .none).run inv w.unmetered).ending =
    ((c.budgeted budget).run inv w).ending
  world : ((c.budgeted .none).run inv w.unmetered).world =
    ((c.budgeted budget).run inv w).world.unmetered
  journal : ((c.budgeted .none).run inv w.unmetered).journal.unmetered =
    ((c.budgeted budget).run inv w).journal.unmetered
  renamed : c.model.HeedsNoIds → ∀ messageId : Nat → String,
    ((c.budgeted .none).run (inv.renamed messageId) w.unmetered).unmetered.withoutIds =
      ((c.budgeted budget).run inv w).unmetered.withoutIds

variable {c} {budget : BudgetTracker B} {inv : Invocation} {w : World M G B X}

theorem unnoticed_of_eq (h : ((c.budgeted .none).run inv w.unmetered).unmetered =
    ((c.budgeted budget).run inv w).unmetered) : c.Unnoticed budget inv w where
  ending := congrArg RunReport.ending h
  world := congrArg RunReport.world h
  journal := congrArg RunReport.journal h
  renamed hmodel messageId := by
    have hrenamed : ((c.budgeted .none).run (inv.renamed messageId) w.unmetered).withoutIds =
        ((c.budgeted .none).run inv w.unmetered).withoutIds := run_renamed (.inr hmodel)
    rw [← RunReport.unmetered_withoutIds, hrenamed, RunReport.unmetered_withoutIds, h]

/-- An enforcer that does not stop a run goes unnoticed, and one without limits always does. -/
theorem budget_invisible (c : Controller M G Unit X) (inv : Invocation) (w : World M G Spent X) :
    (∀ limits : BudgetConfig,
      ((c.budgeted limits.tracker).run inv w).ending.reason? ≠ some .budgetExceeded →
      ((c.budgeted limits.tracker).run inv w).ending.reason? ≠ some .durationExceeded →
        c.Unnoticed limits.tracker inv w) ∧
    c.Unnoticed BudgetConfig.unlimited.tracker inv w := by
  have hfree : (c.budgeted BudgetConfig.unlimited.tracker).budget.NeverBlocks :=
    neverBlocks_unlimited
  constructor
  · intro limits hbudget hduration
    exact unnoticed_of_eq (run_unmetered hbudget hduration)
  · exact unnoticed_of_eq (run_unmetered (reason?_of_neverBlocks hfree (.inl rfl))
      (reason?_of_neverBlocks hfree (.inr rfl)))

/-- Three turns and one call. -/
def threeTurns : BudgetConfig := { BudgetConfig.unlimited with
  maxModelCalls := some 3
  maxToolCalls := some 1 }

/-- A reply with one call, and a text twice. -/
def threeReplies : World Script Unit Spent Unit :=
  ⟨0, .ofReplies [callReply "a", .text "Sunny.", .text "Sunny."], (), .fresh 0, ()⟩

/-- A run that spends all that it is allowed is completed, and so is the run without a budget. -/
theorem budget_invisible_threeTurns :
    (((scripted .default (.success "done")).budgeted threeTurns.tracker).run task
        threeReplies).world.budget = ⟨3, 1, 0, [("weather", 1)], 0⟩ ∧
      ((scripted .default (.success "done")).budgeted .none |>.run task
        threeReplies.unmetered).ending.reason? = some .completed := by
  have hreason : (((scripted .default (.success "done")).budgeted threeTurns.tracker).run task
      threeReplies).ending.reason? = some .completed := by
    decide +kernel
  refine ⟨by decide +kernel, ?_⟩
  have hunnoticed := ((scripted .default (.success "done")).budget_invisible task
    threeReplies).1 threeTurns (by rw [hreason]; decide) (by rw [hreason]; decide)
  rw [hunnoticed.ending, hreason]

end Controller

end AgentLoop
