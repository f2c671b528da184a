import AgentLoop.Proofs.Handback
import AgentLoop.Proofs.Strides
import AgentLoop.Script.Session

/-!
# Why a run stops

A run that comes to a result was stopped by one of its strides, and every stride has reasons of its
own.

* `NoPrefix` says that something did not happen before.
* `Controller.Stops` are the ways in which a stride can stop a run, and `stops_of_flow` says that
  these are all.
* `Ending.result?`, `Ending.reason?`, `Ending.iterations?` and `Ending.progress?` are read off an
  ending, and the last group of lemmas says what they are at the end of a course.
-/

namespace AgentLoop

/-- No part of the list from its beginning on has the property. -/
def NoPrefix {α : Type} (P : List α → Prop) (l : List α) : Prop :=
  ∀ front, front <+: l → ¬ P front

namespace NoPrefix

variable {α : Type} {P : List α → Prop} {l : List α} {a : α}

theorem self (h : NoPrefix P l) : ¬ P l := h l (List.prefix_refl l)

theorem nil (h : ¬ P []) : NoPrefix P [] := by
  intro front hfront
  rw [List.prefix_nil.1 hfront]
  exact h

theorem concat (h : NoPrefix P l) (hlast : ¬ P (l ++ [a])) : NoPrefix P (l ++ [a]) := by
  intro front hfront
  rcases List.prefix_concat_iff.1 hfront with rfl | hfront
  · exact hlast
  · exact h front hfront

/-- With one more element only the whole list can have the property. -/
theorem eq_nil_of_append {front back : List α} (h : NoPrefix P l)
    (hsplit : l ++ [a] = front ++ back) (hfront : P front) : back = [] := by
  have hprefix : front <+: l ++ [a] := ⟨back, hsplit.symm⟩
  rcases List.prefix_concat_iff.1 hprefix with rfl | hprefix
  · exact List.self_eq_append_right.1 hsplit
  · exact absurd hfront (h front hprefix)

end NoPrefix

/-- What a run came to. -/
def Ending.result? : Ending → Option LoopResult
  | finished result => some result
  | _ => none

/-- The reason for which a run stopped. -/
def Ending.reason? (e : Ending) : Option TerminationReason :=
  e.result?.map LoopResult.terminationReason

/-- The number of turns of a run that stopped or was cancelled. -/
def Ending.iterations? : Ending → Option Nat
  | finished result => some result.iterations
  | failed (.cancelled progress) => some progress.iterations
  | _ => none

/-- The part of a result that a cancelled run knows too. -/
def LoopResult.progress (r : LoopResult) : LoopProgress :=
  { invocationId := r.invocationId
    iterations := r.iterations
    tokensUsed := r.tokensUsed
    toolCallsMade := r.toolCallsMade
    toolsUsed := r.toolsUsed
    transcript := r.transcript }

/-- What a run that stopped or was cancelled had come to. -/
def Ending.progress? : Ending → Option LoopProgress
  | finished result => some result.progress
  | failed error => error.progress?
  | stalled => none

theorem Ending.result?_eq_some_iff {e : Ending} {r : LoopResult} :
    e.result? = some r ↔ e = .finished r := by
  cases e <;> simp [result?]

/-- Without a result, only a cancelled run has come to something. -/
theorem Ending.eq_cancelled_of_progress? {e : Ending} {p : LoopProgress} (hp : e.progress? = some p)
    (hresult : e.result? = none) : e = .failed (.cancelled p) := by
  cases e with
  | finished result => cases hresult
  | failed error =>
    cases error with
    | cancelled progress =>
      obtain rfl : progress = p := Option.some.inj hp
      rfl
    | _ => cases hp
  | stalled => cases hp

theorem Ending.iterations?_eq_map (e : Ending) :
    e.iterations? = e.progress?.map LoopProgress.iterations := by
  cases e with
  | failed error => cases error <;> rfl
  | _ => rfl

namespace Controller

variable {M G B X : Type} (c : Controller M G B X) (inv : Invocation) {s : Stand M G B X}

/-! ## How a stride stops a run -/

/-- The ways in which the stride from a phase can stop a run, with the reason and the output. -/
inductive Stops (s : Stand M G B X) : Phase → TerminationReason → JsonObject → Prop where
  /-- The iteration budget refuses a turn. -/
  | refused {reason : String}
      (hbudget : (c.budget.checkIteration s.world.now s.world.budget).1 = .blocked reason) :
      Stops s .turn .budgetExceeded []
  /-- A text is accepted as the answer. -/
  | accepted {reply : ModelReply} (htext : reply.toolCalls = [])
      (hneeds : needsConfirmation c.config s.state = false) :
      Stops s (.replied reply) .completed (Answer.read reply.content)
  /-- The tool budget refuses a call. -/
  | blocked {call : ToolCall} {calls deferred : List ToolCall}
      (hstatus : (c.judge inv call s.world).1.status = .blocked) :
      Stops s (.dispatching (call :: calls) deferred) .budgetExceeded []
  /-- Too many calls have failed in a row. -/
  | failing {call : ToolCall} {calls deferred : List ToolCall}
      (hfailure : (c.judge inv call s.world).1.status.isFailure = true)
      (hexhausted : c.config.errorThreshold ≤ s.state.consecutiveErrors + 1) :
      Stops s (.dispatching (call :: calls) deferred) .error []
  /-- The run may not fail at all. -/
  | exhausted (hexhausted : c.config.errorThreshold ≤ s.state.consecutiveErrors) :
      Stops s .closing .error []
  /-- The time is up. -/
  | late {reason : String} (hbudget : (c.durationCheck s).1 = .blocked reason) :
      Stops s .closing .durationExceeded []
  /-- The run has had all its turns. -/
  | lastTurn (hlimit : c.config.maxIterations ≤ s.state.iterations) :
      Stops s .closing .maxIterations []

theorem stops_closeTurn {reason : TerminationReason} {output : JsonObject}
    (h : (c.closeTurn s).flow = .stop reason output) : c.Stops inv s .closing reason output := by
  rw [closeTurn_eq] at h
  split at h
  · next stopped hstopped =>
    simp only [Flow.stop.injEq] at h
    obtain ⟨rfl, rfl⟩ := h
    simp only [stopReason?, errorsExhausted, decide_eq_true_eq] at hstopped
    split at hstopped
    · next hexhausted =>
      cases hstopped
      exact .exhausted hexhausted
    · split at hstopped
      · next hblocked =>
        cases hstopped
        cases hbudget : (c.durationCheck s).1 with
        | allowed => simp [hbudget, BudgetDecision.isBlocked] at hblocked
        | blocked reason => exact .late hbudget
      · split at hstopped
        · next hlimit =>
          cases hstopped
          exact .lastTurn hlimit
        · cases hstopped
  · cases h

/-- A stride stops a run in one of these ways. -/
theorem stops_of_flow {phase : Phase} {reason : TerminationReason} {output : JsonObject}
    (hpending : s.state.transcript.pending = phase.open)
    (h : (c.stride inv phase s).1.flow = .stop reason output) :
    c.Stops inv s phase reason output := by
  match phase with
  | .turn =>
    have hasks := c.asks_askModel inv s
    rw [stride] at h
    generalize c.askModel inv s = asked at hasks h
    cases hasks with
    | blocked hbudget =>
      cases h
      exact .refused hbudget
    | _ => cases h
  | .replied reply =>
    have htakes := c.takes_strideReply inv reply s
    rw [stride] at h
    generalize c.strideReply inv reply s = taken at htakes h
    cases htakes with
    | accepted htext hneeds =>
      cases h
      exact .accepted htext hneeds
    | _ => cases h
  | .dispatching [] deferred => cases h
  | .dispatching (call :: calls) deferred =>
    have hsettles := c.settles_dispatch inv hpending
    rw [h] at hsettles
    obtain ⟨rfl, ⟨rfl, hfailure, hexhausted⟩ | ⟨rfl, hstatus⟩⟩ := hsettles.of_stop
    · exact .failing hfailure hexhausted
    · exact .blocked hstatus
  | .deferring [] => cases h
  | .deferring (call :: calls) =>
    rw [stride, strideDeferral] at h
    split at h <;> cases h
  | .closing => exact c.stops_closeTurn inv h

variable {c inv} {w : World M G B X} {journal : Journal} {flow : Flow}

/-- Only an accepted text has an output. -/
theorem Stops.output_eq_nil {phase : Phase} {reason : TerminationReason} {output : JsonObject}
    (h : c.Stops inv s phase reason output) (hreason : reason ≠ .completed) : output = [] := by
  cases h with
  | accepted => exact absurd rfl hreason
  | _ => rfl

theorem output_eq_nil_of_ends {w : World M G B X} {journal : Journal} {reason : TerminationReason}
    {output : JsonObject} (h : c.Ends inv w journal s (.stop reason output))
    (hreason : reason ≠ .completed) : output = [] := by
  generalize hstop : Flow.stop reason output = flow at h
  obtain ⟨hpast, hflow⟩ := h
  exact (c.stops_of_flow inv (awaits_of_reaches hpast).pending hstop.symm).output_eq_nil hreason

/-! ## Readings of an ending -/

/-- A run comes to a result when it stops. -/
theorem result?_reportOf_eq_some_iff {result : LoopResult} :
    (reportOf inv w journal s flow).ending.result? = some result ↔
      ∃ reason output, flow = .stop reason output ∧
        result = s.state.result inv.id reason output (s.world.now - w.now) := by
  cases flow <;> simp [reportOf, endingOf, Ending.result?, eq_comm]

theorem reason?_reportOf_eq_some_iff {reason : TerminationReason} :
    (reportOf inv w journal s flow).ending.reason? = some reason ↔
      ∃ output, flow = .stop reason output := by
  cases flow <;> simp [reportOf, endingOf, Ending.reason?, Ending.result?, LoopState.result]

/-- A run is never reported as cancelled because of a fault. -/
theorem ne_cancelled_of_ends (h : c.Ends inv w journal s flow) :
    ∀ error, flow = .failed error → ∀ progress, error ≠ .cancelled progress := by
  rintro error rfl progress rfl
  rcases discipline_of_ends h with ⟨-, -, hfailed⟩ | ⟨-, -, id, -, -, hflow⟩
  · obtain ⟨fault, hfault⟩ := hfailed _ rfl
    cases hfault
  · cases hflow

/-- A run that stops or is cancelled says what it has counted. -/
theorem eq_progress_of_progress? {p : LoopProgress} (h : c.Ends inv w journal s flow)
    (hp : (reportOf inv w journal s flow).ending.progress? = some p) :
    p = s.state.progress inv.id := by
  cases flow with
  | stop | cancelled => exact (Option.some.inj hp).symm
  | failed error =>
    cases error with
    | cancelled progress => exact absurd rfl (ne_cancelled_of_ends h _ rfl progress)
    | _ => cases hp
  | _ => cases hp

theorem eq_iterations_of_iterations? {n : Nat} (h : c.Ends inv w journal s flow)
    (hn : (reportOf inv w journal s flow).ending.iterations? = some n) :
    n = s.state.iterations := by
  rw [Ending.iterations?_eq_map] at hn
  obtain ⟨p, hp, rfl⟩ := Option.map_eq_some_iff.1 hn
  rw [eq_progress_of_progress? h hp]
  rfl

/-- A run is reported as cancelled when its last stride is. -/
theorem eq_cancelled_of_ends {p : LoopProgress} (h : c.Ends inv w journal s flow)
    (hp : (reportOf inv w journal s flow).ending = .failed (.cancelled p)) :
    flow = .cancelled ∧ p = s.state.progress inv.id := by
  have hprogress : p = s.state.progress inv.id := by
    refine eq_progress_of_progress? h ?_
    rw [hp]
    rfl
  refine ⟨?_, hprogress⟩
  cases flow with
  | cancelled => rfl
  | failed error =>
    have herror : error = .cancelled p := by simpa [reportOf, endingOf] using hp
    exact absurd herror (ne_cancelled_of_ends h _ rfl p)
  | _ => cases hp

/-- A conversation that is handed back is the one at the end of the course. -/
theorem eq_messages_of_ends {messages : List Message} (h : c.Ends inv w journal s flow)
    (hback : (reportOf inv w journal s flow).ending.transcript? = some messages) :
    messages = s.state.transcript.messages := by
  rcases discipline_of_ends h with ⟨-, -, hfailed⟩ | ⟨-, -, id, -, -, rfl⟩
  · exact eq_messages_of_transcript? inv hfailed hback
  · cases hback

/-- A run is stalled when its last stride is. -/
theorem ending_reportOf_eq_stalled_iff (h : c.Ends inv w journal s flow) :
    (reportOf inv w journal s flow).ending = .stalled ↔ flow = .stalled := by
  obtain ⟨hpast, hflow⟩ := h
  revert hflow
  generalize (c.stride inv _ _).1.flow = flow
  cases flow <;> simp [reportOf, endingOf]

/-! ## A run that follows a script -/

/-- A controller whose model follows a script and whose tools all come to the same outcome. -/
def scripted (config : LoopConfig) (outcome : ToolOutcome) : Controller Script Unit Unit Unit where
  config
  model := Script.client
  gate := openGate
  budget := .none
  executor := { execute := fun _ _ _ x => (.now outcome, x) }
  resolver := .passThrough
  context := .unrestricted
  epoch := default

/-- The world of such a controller at time zero. -/
def reciting (replies : List ModelReply) : World Script Unit Unit Unit :=
  ⟨0, .ofReplies replies, (), (), ()⟩

/-- A reply that requests one call. -/
def callReply (id : String) : ModelReply := .calls "" [⟨id, "weather", ""⟩]

end Controller

end AgentLoop
