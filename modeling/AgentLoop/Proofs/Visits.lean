import AgentLoop.Proofs.AuditStory
import AgentLoop.Proofs.Cancellation
import AgentLoop.Proofs.Nesting

/-!
# A dispatched call

A call is dispatched when it is next in turn.  It goes to the gate, the budget and the executor, as
far as they let it; it is counted, told of and answered; and it may end the batch that it belongs
to.  In this module each of these is said of one call.  The batch comes later.

* `Visit` is a dispatched call with the stand at which it is dispatched, and `Controller.visit` is
  the stretch that it takes.
* `Consults` says who is dealt with about a call, `LeadsTo` what a call changes in the world and in
  the counters; `consults_visit` and `leadsTo_visit` say so of every call.
* `StopsWith` are the ways in which a call can end the batch, and `stopsWith_visit_iff` says that
  these are all.
* `exists_answer_visit` is the answer to a call after which the batch goes on, and
  `exists_answers_visit` are the answers that are given when a call ends the batch.
* `visit_withResolver`: of the resolver only its word about the call matters.
* `entries` is what several dispatched calls write into the journal, with readings of it.
-/

namespace AgentLoop

/-- A dispatched call, with the stand at which it is dispatched. -/
structure Visit (M G B X : Type) where
  call : ToolCall
  stand : Stand M G B X

/-- The call is dispatched when it is next in turn. -/
def Visit.IsNext {M G B X : Type} (v : Visit M G B X) : Prop :=
  ∃ rest, v.stand.state.transcript.pending = v.call :: rest

/-- The answer to the calls that are left over when a batch flows on like this. -/
def leftoverText (cap : Nat) : Flow → String
  | .goOn => deferralText cap
  | .stop reason _ => closingText reason
  | _ => cancellationText

/-- How a call that ended like this ends a batch, if it does. -/
def ActionStatus.ending : ActionStatus → Flow
  | blocked => .stop .budgetExceeded []
  | cancelled => .cancelled
  | _ => .stop .error []

namespace Journal

/-- The event, unless it is only a report. -/
def dealing? (e : Event) : Option Event := if e.isReport then none else some e

/-- What a run asks of the model, the gate, the budget and the executor, and what it tells them. -/
def dealings (j : Journal) : List Event := j.pick dealing?

theorem skipsReports_dealing? : SkipsReports dealing? :=
  ⟨fun _ => rfl, fun _ => rfl, fun _ => rfl, fun _ => rfl⟩

end Journal

namespace Controller

variable {M G B X : Type} (c : Controller M G B X) (inv : Invocation)

/-- The stretch that a dispatched call takes.  If it ends the batch, every open call is answered. -/
def visit (v : Visit M G B X) : Stretch M G B X :=
  c.closeBatch inv (c.dispatchCall inv v.call v.stand)

/-- What becomes of a dispatched call. -/
def fate (v : Visit M G B X) : Fate := (c.judge inv v.call v.stand.world).1

/-- How long a dispatched call takes. -/
def duration (v : Visit M G B X) : Nat :=
  (c.judge inv v.call v.stand.world).2.1.now - v.stand.world.now

/-- The record of a dispatched call. -/
def record (v : Visit M G B X) : ActionRecord :=
  (c.fate inv v).record v.call (c.duration inv v)

/-- The ways in which a dispatched call can end the batch. -/
inductive StopsWith (v : Visit M G B X) : Flow → Prop where
  /-- The budget blocked it. -/
  | blocked (hstatus : (c.fate inv v).status = .blocked) : StopsWith v (.stop .budgetExceeded [])
  /-- It failed, and too many have failed in a row. -/
  | exhausted (hfailure : (c.fate inv v).status.isFailure = true)
      (hexhausted : c.config.errorThreshold ≤
        ((c.fate inv v).count v.call.name v.stand.state).consecutiveErrors) :
      StopsWith v (.stop .error [])
  | cancelled (hstatus : (c.fate inv v).status = .cancelled) : StopsWith v .cancelled

/-- Who is dealt with about a call that comes to this fate: gate, budget and executor are asked, in
this order and only as far as need be, and the gate is told of a call that it allowed. -/
inductive Consults (call : ToolCall) : Fate → List Event → Prop where
  | unreadable {error : ArgumentsError} (hread : Arguments.read call.arguments = .error error) :
      Consults call (.unreadable error) []
  | denied {arguments : JsonObject} {reason : String}
      (hread : Arguments.read call.arguments = .ok arguments) :
      Consults call (.denied reason)
        [.authorized call.name arguments (c.callContext inv call) (.denied reason)]
  | blocked {arguments : JsonObject} {reason : String}
      (hread : Arguments.read call.arguments = .ok arguments) :
      Consults call (.blocked arguments reason)
        [.authorized call.name arguments (c.callContext inv call) .allowed,
          .budgetChecked (.tool call.name arguments) (.blocked reason),
          .audited call.name arguments (c.callContext inv call)
            (.failure s!"not executed: {reason}")]
  /-- The run is cancelled before the call reaches the executor. -/
  | withdrawn {arguments : JsonObject} (hread : Arguments.read call.arguments = .ok arguments) :
      Consults call (.cancelled arguments)
        [.authorized call.name arguments (c.callContext inv call) .allowed,
          .budgetChecked (.tool call.name arguments) .allowed,
          .audited call.name arguments (c.callContext inv call) .cancelled]
  | executed {fate : Fate} {arguments : JsonObject} {outcome : ToolOutcome}
      (hread : Arguments.read call.arguments = .ok arguments) (hstatus : fate.status ≠ .blocked)
      (haudited : fate.audited call.name = some (arguments, outcome)) :
      Consults call fate
        [.authorized call.name arguments (c.callContext inv call) .allowed,
          .budgetChecked (.tool call.name arguments) .allowed,
          .executed call.name arguments (c.callContext inv call),
          .audited call.name arguments (c.callContext inv call) outcome]

/-- Where a dispatched call leads to.  The world is changed by those who were asked about the call,
the call is counted by its fate, and apart from that only the conversation changes. -/
structure LeadsTo (v : Visit M G B X) (s : Stand M G B X) : Prop where
  world : s.world =
    (c.auditCall inv v.call (c.fate inv v) (c.judge inv v.call v.stand.world).2.1).1
  state : ∃ t,
    s.state = { (c.fate inv v).count v.call.name v.stand.state with transcript := t }

/-- The dispatched calls that are answered by what became of them.  A call that the budget blocked
is left over. -/
def answeredOf (visits : List (Visit M G B X)) : List (Visit M G B X) :=
  visits.filter fun v => (c.fate inv v).status ≠ .blocked

/-- Messages that answer dispatched calls by what became of them, one after the other. -/
def Tell (messages : List Message) (visits : List (Visit M G B X)) : Prop :=
  List.Forall₂ (fun m v => m.AnswersWith ((c.fate inv v).content v.call.name) v.call) messages visits

variable {c inv} {v : Visit M G B X} {rest : List ToolCall} {flow : Flow}

theorem StopsWith.ne_goOn (h : c.StopsWith inv v flow) : flow ≠ .goOn := by
  cases h <;> exact Flow.noConfusion

/-- The status of a call says how it ends a batch, if it does. -/
theorem StopsWith.eq_ending (h : c.StopsWith inv v flow) :
    flow = (c.fate inv v).status.ending := by
  cases h with
  | blocked hstatus | cancelled hstatus => rw [hstatus, ActionStatus.ending]
  | exhausted hfailure =>
    cases hstatus : (c.fate inv v).status with
    | succeeded | blocked | cancelled => simp [hstatus, ActionStatus.isFailure] at hfailure
    | _ => rfl

variable (c inv)

/-! ## What a call changes, and whether it ends the batch -/

section

variable (hpending : v.stand.state.transcript.pending = v.call :: rest)

include hpending

theorem leadsTo_visit : c.LeadsTo inv v (c.visit inv v).stand := by
  constructor
  · rw [visit, world_closeBatch, c.dispatchCall_of_pending inv hpending rfl]
    rfl
  · rw [← List.append_nil rest] at hpending
    exact c.exists_state_dispatch inv hpending

theorem consults_visit :
    c.Consults inv v.call (c.fate inv v) (c.visit inv v).journal.dealings := by
  have hjudges := c.judges_judge inv v.call v.stand.world
  rcases hjudge : c.judge inv v.call v.stand.world with ⟨fate, w, asked⟩
  rw [visit, Journal.dealings, c.pick_dispatch inv Journal.skipsReports_dealing? hpending hjudge,
    Controller.fate, hjudge]
  rw [hjudge] at hjudges
  cases hjudges with
  | unreadable hread => exact .unreadable hread
  | denied hread hruling =>
    rw [rulingEntry, hruling]
    exact .denied hread
  | blocked hread hruling hcheck =>
    rw [rulingEntry, hruling, checkEntry, hcheck]
    exact .blocked hread
  | withdrawn hread hruling hcheck =>
    rw [rulingEntry, hruling, checkEntry, hcheck]
    exact .withdrawn hread
  | ended hread hruling hcheck =>
    rw [rulingEntry, hruling, checkEntry, hcheck]
    refine .executed hread ?_ rfl
    rw [Fate.status]
    split <;> exact ActionStatus.noConfusion
  | timedOut hread hruling hcheck =>
    rw [rulingEntry, hruling, checkEntry, hcheck]
    exact .executed hread (by rw [Fate.status]; exact ActionStatus.noConfusion) rfl
  | cancelled hread hruling hcheck =>
    rw [rulingEntry, hruling, checkEntry, hcheck]
    exact .executed hread (by rw [Fate.status]; exact ActionStatus.noConfusion) rfl

/-- A call ends the batch, with the flow of its stretch, or the batch goes on. -/
theorem stopsWith_or_goOn :
    c.StopsWith inv v (c.visit inv v).flow ∨
      (c.visit inv v).flow = .goOn ∧ ∀ flow, ¬ c.StopsWith inv v flow := by
  obtain ⟨t, hstate⟩ := (c.leadsTo_visit inv hpending).state
  rw [← List.append_nil rest] at hpending
  have hsettles : c.Settles v.stand.state.consecutiveErrors (c.fate inv v).status
      (c.visit inv v).flow (c.visit inv v).stand.state.consecutiveErrors :=
    c.settles_dispatch inv hpending
  rw [hstate] at hsettles
  generalize hstatus : (c.fate inv v).status = status at hsettles
  generalize (c.visit inv v).flow = flow at hsettles
  generalize herrors : ((c.fate inv v).count v.call.name v.stand.state).consecutiveErrors = errors
    at hsettles
  cases hsettles with
  | blocked => exact .inl (.blocked hstatus)
  | cancelled => exact .inl (.cancelled hstatus)
  | exhausted hfailure hexhausted =>
    exact .inl (.exhausted (hstatus ▸ hfailure) (herrors ▸ hexhausted))
  | succeeded =>
    refine .inr ⟨rfl, fun flow hstops => ?_⟩
    cases hstops with
    | exhausted hfailure => simp [hstatus, ActionStatus.isFailure] at hfailure
    | blocked hstatus' | cancelled hstatus' => cases hstatus.symm.trans hstatus'
  | failed hfailure hmore =>
    refine .inr ⟨rfl, fun flow hstops => ?_⟩
    cases hstops with
    | exhausted _ hexhausted => omega
    | blocked hstatus' | cancelled hstatus' =>
      rw [← hstatus, hstatus'] at hfailure
      cases hfailure

/-- A call ends the batch exactly when the run does not go on after it. -/
theorem stopsWith_visit_iff :
    c.StopsWith inv v flow ↔ (c.visit inv v).flow = flow ∧ flow ≠ .goOn := by
  rcases c.stopsWith_or_goOn inv hpending with hstops | ⟨hgoOn, hnone⟩
  · constructor
    · intro h
      exact ⟨hstops.eq_ending.trans h.eq_ending.symm, h.ne_goOn⟩
    · rintro ⟨rfl, -⟩
      exact hstops
  · refine iff_of_false (hnone flow) ?_
    rintro ⟨rfl, hne⟩
    exact hne hgoOn

/-! ## Answers -/

theorem transcript_dispatchCall :
    (c.dispatchCall inv v.call v.stand).stand.state.transcript =
      c.answered inv (c.judge inv v.call v.stand.world).2.1.now v.call (c.fate inv v) rest
        v.stand.state.transcript := by
  rw [c.dispatchCall_of_pending inv hpending rfl, transcript_settledState]
  rfl

/-- A call that was neither blocked nor cancelled is answered, and nothing else is said. -/
theorem exists_transcript_dispatchCall (hblocked : (c.fate inv v).status ≠ .blocked)
    (hcancelled : (c.fate inv v).status ≠ .cancelled) :
    ∃ m, (c.dispatchCall inv v.call v.stand).stand.state.transcript =
        ⟨v.stand.state.transcript.messages ++ [m], rest⟩ ∧ c.Tell inv [m] [v] := by
  rw [c.transcript_dispatchCall inv hpending]
  cases hfate : c.fate inv v with
  | blocked => exact absurd (congrArg Fate.status hfate) hblocked
  | cancelled => exact absurd (congrArg Fate.status hfate) hcancelled
  | _ => exact ⟨_, rfl, List.Forall₂.cons ⟨_, by rw [hfate]⟩ .nil⟩

/-- A call after which the batch goes on is answered by what became of it. -/
theorem exists_answer_visit (hflow : (c.visit inv v).flow = .goOn) :
    ∃ m, (c.visit inv v).stand.state.transcript =
        ⟨v.stand.state.transcript.messages ++ [m], rest⟩ ∧ c.Tell inv [m] [v] ∧
      (c.fate inv v).status ≠ .blocked := by
  have hnone : ∀ flow, ¬ c.StopsWith inv v flow := by
    intro flow hstops
    obtain ⟨rfl, hne⟩ := (c.stopsWith_visit_iff inv hpending).1 hstops
    exact hne hflow
  have hblocked : (c.fate inv v).status ≠ .blocked := fun h => hnone _ (.blocked h)
  have hcancelled : (c.fate inv v).status ≠ .cancelled := fun h => hnone _ (.cancelled h)
  obtain ⟨m, htranscript, hm⟩ := c.exists_transcript_dispatchCall inv hpending hblocked hcancelled
  rw [visit, flow_closeBatch] at hflow
  refine ⟨m, ?_, hm, hblocked⟩
  rw [visit, closeBatch, hflow]
  exact htranscript

omit hpending in
/-- When a call stops the run, all calls that it leaves open are answered. -/
theorem exists_transcript_of_stop {given : List Message} {left : List ToolCall}
    {reason : TerminationReason} {output : JsonObject}
    (hflow : (c.dispatchCall inv v.call v.stand).flow = .stop reason output)
    (htranscript : (c.dispatchCall inv v.call v.stand).stand.state.transcript =
      ⟨v.stand.state.transcript.messages ++ given, left⟩) :
    ∃ closed, (c.visit inv v).stand.state.transcript =
        ⟨v.stand.state.transcript.messages ++ (given ++ closed), []⟩ ∧
      List.Forall₂ (Message.AnswersWith (closingText reason)) closed left := by
  rw [visit, closeBatch]
  simp only [hflow]
  rw [Stand.transcript_withTranscript, htranscript]
  exact ⟨_, congrArg (Transcript.mk · []) (List.append_assoc _ _ _),
    Transcript.forall₂_answersWith _⟩

/-- A blocked call says nothing. -/
theorem transcript_dispatchCall_of_blocked (hblocked : (c.fate inv v).status = .blocked) :
    (c.dispatchCall inv v.call v.stand).stand.state.transcript =
      ⟨v.stand.state.transcript.messages ++ [], v.call :: rest⟩ := by
  obtain ⟨arguments, reason, hfate⟩ := Fate.exists_eq_blocked hblocked
  rw [c.transcript_dispatchCall inv hpending, hfate, List.append_nil, ← hpending]
  rfl

/-- A cancelled call is answered, and every call after it too. -/
theorem exists_transcript_of_cancelled (hcancelled : (c.fate inv v).status = .cancelled) :
    ∃ m closed, (c.dispatchCall inv v.call v.stand).stand.state.transcript =
        ⟨v.stand.state.transcript.messages ++ ([m] ++ closed), []⟩ ∧ c.Tell inv [m] [v] ∧
      List.Forall₂ (Message.AnswersWith cancellationText) closed rest := by
  obtain ⟨arguments, hfate⟩ := Fate.exists_eq_cancelled hcancelled
  rw [c.transcript_dispatchCall inv hpending, hfate]
  exact ⟨_, _, congrArg (Transcript.mk · []) (List.append_assoc _ _ _),
    List.Forall₂.cons ⟨_, by rw [hfate]⟩ .nil, Transcript.forall₂_answersWith _⟩

/-- When a call ends the batch, all open calls are answered alike: those after it, and the call
itself if the budget blocked it. -/
theorem exists_answers_visit (hstops : c.StopsWith inv v flow) :
    ∃ given left, (c.visit inv v).stand.state.transcript =
        ⟨v.stand.state.transcript.messages ++ (given ++ left), []⟩ ∧
      c.Tell inv given (c.answeredOf inv [v]) ∧
      List.Forall₂ (Message.AnswersWith (leftoverText c.config.maxToolCallsPerIteration flow)) left
        ((v.call :: rest).drop (c.answeredOf inv [v]).length) := by
  obtain ⟨hflow, -⟩ := (c.stopsWith_visit_iff inv hpending).1 hstops
  rw [visit, flow_closeBatch] at hflow
  cases hstops with
  | blocked hblocked =>
    have hnone : c.answeredOf inv [v] = [] := by simp [answeredOf, hblocked]
    have htranscript := c.transcript_dispatchCall_of_blocked inv hpending hblocked
    obtain ⟨left, hvisit, hleft⟩ := c.exists_transcript_of_stop inv hflow htranscript
    rw [hnone]
    exact ⟨[], left, hvisit, List.Forall₂.nil, hleft⟩
  | exhausted hfailure =>
    have hblocked : (c.fate inv v).status ≠ .blocked := fun h => by
      simp [h, ActionStatus.isFailure] at hfailure
    have hcancelled : (c.fate inv v).status ≠ .cancelled := fun h => by
      simp [h, ActionStatus.isFailure] at hfailure
    have hone : c.answeredOf inv [v] = [v] := by simp [answeredOf, hblocked]
    obtain ⟨m, htranscript, hm⟩ :=
      c.exists_transcript_dispatchCall inv hpending hblocked hcancelled
    obtain ⟨left, hvisit, hleft⟩ := c.exists_transcript_of_stop inv hflow htranscript
    rw [hone]
    exact ⟨[m], left, hvisit, hm, hleft⟩
  | cancelled hcancelled =>
    have hone : c.answeredOf inv [v] = [v] := by simp [answeredOf, hcancelled]
    obtain ⟨m, left, htranscript, hm, hleft⟩ :=
      c.exists_transcript_of_cancelled inv hpending hcancelled
    rw [hone, visit, closeBatch, hflow]
    exact ⟨[m], left, htranscript, hm, hleft⟩

end

/-! ## Another resolver -/

/-- The controller with another resolver. -/
def withResolver (resolver : Resolver) : Controller M G B X := { c with resolver }

variable {resolver : Resolver}

section

variable {call : ToolCall}
  (hsame : resolver call (c.contextOf inv) = c.resolver call (c.contextOf inv))

include hsame

theorem callContext_withResolver :
    (c.withResolver resolver).callContext inv call = c.callContext inv call :=
  hsame

theorem judge_withResolver (w : World M G B X) :
    (c.withResolver resolver).judge inv call w = c.judge inv call w := by
  have hcontext := c.callContext_withResolver inv hsame
  simp only [judge, askGate, askBudget, execute, hcontext]
  rfl

theorem settle_withResolver (started : Nat) (fate : Fate) (s : Stand M G B X) :
    (c.withResolver resolver).settle inv call started fate s = c.settle inv call started fate s := by
  have hcontext := c.callContext_withResolver inv hsame
  simp only [settle, auditCall, hcontext]
  rfl

end

/-- A resolver that says the same about a call makes no difference to it. -/
theorem visit_withResolver
    (hsame : resolver v.call (c.contextOf inv) = c.resolver v.call (c.contextOf inv)) :
    (c.withResolver resolver).visit inv v = c.visit inv v := by
  simp only [visit, dispatchCall, c.judge_withResolver inv hsame, c.settle_withResolver inv hsame]
  rfl

/-! ## Several calls -/

/-- What dispatched calls write into the journal. -/
def entries (visits : List (Visit M G B X)) : Journal :=
  visits.flatMap fun v => (c.visit inv v).journal

variable {visits : List (Visit M G B X)}

theorem entries_cons :
    c.entries inv (v :: visits) = (c.visit inv v).journal ++ c.entries inv visits :=
  List.flatMap_cons

/-- Of each dispatched call the tracer is told once. -/
theorem told_visits (hnext : ∀ v ∈ visits, v.IsNext) :
    (c.entries inv visits).told =
      visits.map fun v => .action inv.traceId (c.record inv v) := by
  induction visits with
  | nil => rfl
  | cons v visits ih =>
    obtain ⟨rest, hpending⟩ := hnext v List.mem_cons_self
    rw [entries_cons, Journal.told_append, visit, c.told_dispatch inv hpending,
      ih fun u hu => hnext u (List.mem_cons_of_mem _ hu)]
    rfl

theorem mirrored_visits (hnext : ∀ v ∈ visits, v.IsNext) :
    (c.entries inv visits).Mirrored := by
  induction visits with
  | nil => exact Journal.mirrored_of_pick rfl rfl
  | cons v visits ih =>
    obtain ⟨rest, hpending⟩ := hnext v List.mem_cons_self
    exact (c.mirrored_dispatch inv hpending).append
      (ih fun u hu => hnext u (List.mem_cons_of_mem _ hu))

/-- Of dispatched calls the observer is told what the tracer is told. -/
theorem observed_visits (hnext : ∀ v ∈ visits, v.IsNext) :
    List.Forall₂ Observation.Mirrors (c.entries inv visits).observations
      (c.entries inv visits).told := by
  have hrecorded : (c.entries inv visits).recorded = (c.entries inv visits).told := by
    rw [Journal.recorded, c.told_visits inv hnext]
    exact List.filter_eq_self.2 (by simp [TraceEvent.isRecord])
  rw [← hrecorded]
  exact c.mirrored_visits inv hnext

/-- Gate, budget and executor deal with dispatched calls one after the other. -/
theorem exists_dealings_visits (hnext : ∀ v ∈ visits, v.IsNext) :
    ∃ stories, (c.entries inv visits).dealings = stories.flatten ∧
      List.Forall₂ (fun story v => c.Consults inv v.call (c.fate inv v) story) stories visits := by
  induction visits with
  | nil => exact ⟨[], rfl, .nil⟩
  | cons v visits ih =>
    obtain ⟨rest, hpending⟩ := hnext v List.mem_cons_self
    obtain ⟨stories, hstories, hall⟩ := ih fun u hu => hnext u (List.mem_cons_of_mem _ hu)
    refine ⟨(c.visit inv v).journal.dealings :: stories, ?_, .cons (c.consults_visit inv hpending)
      hall⟩
    rw [entries_cons, Journal.dealings, Journal.pick_append, ← Journal.dealings,
      ← Journal.dealings, hstories, List.flatten_cons]

end Controller

end AgentLoop
