import AgentLoop.Proofs.Endings
import AgentLoop.Proofs.Tracing

/-!
# The turns of a run

Nothing in a turn counts the turns that are left.  A run comes to an end because every turn that
goes on to the next one was counted before the model was asked, and found to be below the limit at
its end.  This holds whatever the model replies and however the tools behave.

* `Journal.beats` are the events by which the work of a run is counted, and a `Lap` is what a turn
  contributes to them.
* `beats_turn` says what the beginning of a turn adds, and `beats_stride` what the other phases
  add; `Phase.room` is what a phase may still execute.
* `Journal.Paced` is the invariant, `paced_stride` says that a stride keeps it, and
  `iterations_of_reaches` bounds the number of turns.
* `run_within_limits` puts them together.
-/

namespace AgentLoop

/-! ## Beats and laps -/

/-- The events by which the work of a run is counted. -/
inductive Beat where
  /-- A turn was begun, and the iteration budget was asked for it. -/
  | begun
  | asked
  | replied
  | executed
  deriving DecidableEq, Repr

/-- What a turn contributes to the work of a run. -/
inductive Lap where
  /-- The model is not asked. -/
  | unasked
  /-- The model is asked and does not reply. -/
  | unanswered
  /-- The model replies, and some calls reach the executor. -/
  | answered (executions : Nat)
  deriving DecidableEq, Repr

namespace Lap

/-- The number of calls that reach the executor. -/
def executions : Lap → Nat
  | answered executions => executions
  | _ => 0

/-- The beats of a lap. -/
def beats : Lap → List Beat
  | unasked => [.begun]
  | unanswered => [.begun, .asked]
  | answered executions => [.begun, .asked, .replied] ++ List.replicate executions .executed

theorem count_asked_beats_le (lap : Lap) : lap.beats.count .asked ≤ 1 := by
  cases lap <;> simp [beats, List.count_replicate]

theorem count_executed_beats (lap : Lap) : lap.beats.count .executed = lap.executions := by
  cases lap <;> simp [beats, executions]

/-- Laps with at most so many beats of a kind each. -/
theorem count_flatMap_beats_le {laps : List Lap} {beat : Beat} {most : Nat}
    (h : ∀ lap ∈ laps, lap.beats.count beat ≤ most) :
    (laps.flatMap beats).count beat ≤ laps.length * most := by
  induction laps with
  | nil => simp
  | cons lap laps ih =>
    rw [List.flatMap_cons, List.count_append, List.length_cons, Nat.succ_mul, Nat.add_comm]
    exact Nat.add_le_add (ih fun other hother => h other (List.mem_cons_of_mem _ hother))
      (h lap List.mem_cons_self)

/-- A turn is begun once in every lap. -/
theorem count_begun_flatMap_beats (laps : List Lap) :
    (laps.flatMap beats).count .begun = laps.length := by
  induction laps with
  | nil => rfl
  | cons lap laps ih =>
    have hone : lap.beats.count .begun = 1 := by
      cases lap <;> simp [beats, List.count_replicate]
    rw [List.flatMap_cons, List.count_append, ih, hone, List.length_cons, Nat.add_comm]

end Lap

namespace Journal

/-- The beat that an event is. -/
def beat? : Event → Option Beat
  | .budgetChecked .iteration _ => some .begun
  | .asked _ => some .asked
  | .replied .. => some .replied
  | .executed .. => some .executed
  | _ => none

/-- The beats of a journal, in order. -/
def beats (j : Journal) : List Beat := j.pick beat?

@[simp] theorem beats_append (j k : Journal) : (j ++ k).beats = j.beats ++ k.beats :=
  pick_append j k

theorem skipsReports_beat? : SkipsReports beat? :=
  ⟨fun _ => rfl, fun _ => rfl, fun _ => rfl, fun _ => rfl⟩

/-- The request that an event is. -/
def request? : Event → Option ModelRequest
  | .asked request => some request
  | _ => none

theorem skipsReports_request? : SkipsReports request? :=
  ⟨fun _ => rfl, fun _ => rfl, fun _ => rfl, fun _ => rfl⟩

theorem requests_eq_pick (j : Journal) : j.requests = j.pick request? := rfl

/-- A reading of the events of one beat has as many entries as there are such beats. -/
theorem length_pick_eq_count {α : Type} {f : Event → Option α} {beat : Beat}
    (h : ∀ event, (f event).isSome = (beat? event == some beat)) (j : Journal) :
    (j.pick f).length = j.beats.count beat := by
  induction j with
  | nil => rfl
  | cons entry j ih =>
    rw [beats, pick_cons, pick_cons, List.length_append, List.count_append, ih, beats]
    congr 1
    have hevent := h entry.event
    cases hf : f entry.event <;> cases hbeat : beat? entry.event <;> simp_all

theorem length_requests (j : Journal) : j.requests.length = j.beats.count .asked := by
  rw [requests_eq_pick]
  refine length_pick_eq_count (fun event => ?_) j
  cases event with
  | budgetChecked check decision => cases check <;> rfl
  | _ => rfl

theorem length_executions (j : Journal) : j.executions.length = j.beats.count .executed := by
  rw [executions_eq_pick]
  refine length_pick_eq_count (fun event => ?_) j
  cases event with
  | budgetChecked check decision => cases check <;> rfl
  | _ => rfl

end Journal

/-- The number of calls that may still reach the executor in a turn. -/
def Phase.room (cap : Nat) : Phase → Nat
  | replied _ => cap
  | dispatching calls _ => calls.length
  | _ => 0

/-- A journal of so many turns, each with executions up to a cap.  In the midst of a turn the last
one has left room for what its phase may still execute. -/
structure Journal.Paced (cap : Nat) (phase : Phase) (turns : Nat) (laps : List Lap) (j : Journal) :
    Prop where
  beats : j.beats = laps.flatMap Lap.beats
  length : laps.length = turns
  executions_le : ∀ lap ∈ laps, lap.executions ≤ cap
  last : phase ≠ .turn →
    ∃ earlier executions, laps = earlier ++ [.answered executions] ∧
      executions + phase.room cap ≤ cap

namespace Journal.Paced

variable {cap turns : Nat} {phase : Phase} {laps : List Lap} {j : Journal}

/-- The model is asked at most once in a turn. -/
theorem length_requests_le (h : j.Paced cap phase turns laps) : j.requests.length ≤ turns := by
  have hcount := Lap.count_flatMap_beats_le fun lap (_ : lap ∈ laps) => lap.count_asked_beats_le
  rwa [Nat.mul_one, ← h.beats, ← Journal.length_requests, h.length] at hcount

theorem length_executions_le (h : j.Paced cap phase turns laps) :
    j.executions.length ≤ turns * cap := by
  have hcount := Lap.count_flatMap_beats_le fun lap (hlap : lap ∈ laps) =>
    Nat.le_trans (Nat.le_of_eq lap.count_executed_beats) (h.executions_le lap hlap)
  rwa [← h.beats, ← Journal.length_executions, h.length] at hcount

end Journal.Paced

namespace Controller

variable {M G B X : Type} (c : Controller M G B X) (inv : Invocation) {s : Stand M G B X}

/-! ## What a stride adds -/

/-- The beginning of a turn adds a lap, in which nothing was executed yet. -/
theorem beats_turn (s : Stand M G B X) :
    ∃ lap : Lap, (c.stride inv .turn s).1.journal.beats = lap.beats ∧ lap.executions = 0 ∧
      ((c.stride inv .turn s).2 = .turn ∨
        lap = .answered 0 ∧ ∃ reply, (c.stride inv .turn s).2 = .replied reply) := by
  have hasks := c.asks_askModel inv s
  rw [stride]
  generalize c.askModel inv s = asked at hasks ⊢
  cases hasks with
  | blocked | withdrawn => exact ⟨.unasked, rfl, rfl, .inl rfl⟩
  | cancelled | stalled | failed => exact ⟨.unanswered, rfl, rfl, .inl rfl⟩
  | replied => exact ⟨.answered 0, rfl, rfl, .inr ⟨rfl, _, rfl⟩⟩

/-- A call reaches the executor at most once. -/
theorem beats_dispatch {call : ToolCall} {rest : List ToolCall}
    (hpending : s.state.transcript.pending = call :: rest) :
    ∃ n ≤ 1, (c.closeBatch inv (c.dispatchCall inv call s)).journal.beats =
      List.replicate n .executed := by
  rw [Journal.beats, c.pick_dispatch_of_unaudited inv Journal.skipsReports_beat?
    (fun _ _ _ _ => rfl) hpending]
  have hjudges := c.judges_judge inv call s.world
  generalize c.judge inv call s.world = judged at hjudges ⊢
  cases hjudges with
  | unreadable | denied | blocked | withdrawn => exact ⟨0, by omega, rfl⟩
  | ended | timedOut | cancelled => exact ⟨1, by omega, rfl⟩

/-- Within a turn only executions are added, and no more than there was room for. -/
theorem beats_stride {phase : Phase} (hpending : s.state.transcript.pending = phase.open)
    (hphase : phase ≠ .turn) :
    ∃ n, (c.stride inv phase s).1.journal.beats = List.replicate n .executed ∧
      n + (c.stride inv phase s).2.room c.config.maxToolCallsPerIteration ≤
        phase.room c.config.maxToolCallsPerIteration := by
  match phase with
  | .turn => exact absurd rfl hphase
  | .replied reply =>
    refine ⟨0, c.pick_strideReply inv Journal.skipsReports_beat? reply s, ?_⟩
    have htakes := c.takes_strideReply inv reply s
    rw [stride]
    generalize c.strideReply inv reply s = taken at htakes ⊢
    cases htakes with
    | calls =>
      rw [Nat.zero_add]
      exact List.length_take_le _ _
    | _ => exact Nat.zero_le _
  | .dispatching [] deferred =>
    exact ⟨0, c.pick_strideToDeferred Journal.skipsReports_beat? deferred s, Nat.le_refl 0⟩
  | .dispatching (call :: calls) deferred =>
    obtain ⟨n, hn, hbeats⟩ := c.beats_dispatch inv hpending
    refine ⟨n, hbeats, ?_⟩
    simp only [stride, Phase.room, List.length_cons]
    omega
  | .deferring [] => exact ⟨0, rfl, Nat.le_refl 0⟩
  | .deferring (call :: calls) =>
    refine ⟨0, ?_, Nat.le_refl 0⟩
    rw [stride, journal_strideDeferral]
    rfl
  | .closing =>
    refine ⟨0, ?_, Nat.le_refl 0⟩
    rw [stride, closeTurn_eq]
    split <;> rfl

/-- The model is asked at the beginning of a turn only. -/
theorem requests_stride_eq_nil {phase : Phase} (hpending : s.state.transcript.pending = phase.open)
    (hphase : phase ≠ .turn) : (c.stride inv phase s).1.journal.requests = [] := by
  obtain ⟨n, hbeats, -⟩ := c.beats_stride inv hpending hphase
  rw [← List.length_eq_zero_iff, Journal.length_requests, hbeats, List.count_replicate]
  rfl

/-- A stride keeps the pace: it begins a turn, or goes on with the last one. -/
theorem paced_stride {phase : Phase} {past : Journal} {laps : List Lap}
    (hpending : s.state.transcript.pending = phase.open)
    (h : past.Paced c.config.maxToolCallsPerIteration phase s.state.iterations laps) :
    ∃ laps', (past ++ (c.stride inv phase s).1.journal).Paced c.config.maxToolCallsPerIteration
      (c.stride inv phase s).2 (c.stride inv phase s).1.stand.state.iterations laps' := by
  have hcount := c.iterations_stride_eq inv phase s
  by_cases hphase : phase = .turn
  · subst hphase
    obtain ⟨lap, hbeats, hnone, hnext⟩ := c.beats_turn inv s
    refine ⟨laps ++ [lap], ?_, ?_, ?_, ?_⟩
    · rw [Journal.beats_append, h.beats, hbeats, List.flatMap_append, List.flatMap_singleton]
    · rw [hcount, List.length_append, h.length]
      rfl
    · intro other hother
      rcases List.mem_append.1 hother with hother | hother
      · exact h.executions_le other hother
      · rw [List.mem_singleton.1 hother, hnone]
        exact Nat.zero_le _
    · intro hturn
      rcases hnext with hnext | ⟨rfl, reply, hnext⟩
      · exact absurd hnext hturn
      · rw [hnext]
        exact ⟨laps, 0, rfl, Nat.le_of_eq (Nat.zero_add _)⟩
  · obtain ⟨n, hbeats, hroom⟩ := c.beats_stride inv hpending hphase
    obtain ⟨earlier, executions, rfl, hlast⟩ := h.last hphase
    have hbegun : phase.begun = 0 := by
      cases phase with
      | turn => exact absurd rfl hphase
      | _ => rfl
    refine ⟨earlier ++ [.answered (executions + n)], ?_, ?_, ?_, fun _ => ⟨_, _, rfl, by omega⟩⟩
    · rw [Journal.beats_append, h.beats, hbeats]
      simp [Lap.beats]
    · have hlength := h.length
      rw [List.length_append] at hlength ⊢
      rw [hcount, hbegun, ← hlength]
      rfl
    · intro other hother
      rcases List.mem_append.1 hother with hother | hother
      · exact h.executions_le other (List.mem_append_left _ hother)
      · rw [List.mem_singleton.1 hother, Lap.executions]
        omega

/-- A run that goes on begins a turn only after it has closed one. -/
theorem begun_stride {phase : Phase} (hflow : (c.stride inv phase s).1.flow = .goOn)
    (hclosing : phase ≠ .closing) : (c.stride inv phase s).2.begun = 0 := by
  match phase with
  | .turn =>
    rw [stride] at hflow ⊢
    have hasks := c.asks_askModel inv s
    generalize c.askModel inv s = asked at hasks hflow ⊢
    cases hasks with
    | replied => rfl
    | _ => cases hflow
  | .replied reply =>
    have htakes := c.takes_strideReply inv reply s
    rw [stride]
    generalize c.strideReply inv reply s = taken at htakes ⊢
    cases htakes <;> rfl
  | .dispatching [] deferred => rfl
  | .dispatching (call :: calls) deferred => rfl
  | .deferring [] => rfl
  | .deferring (call :: calls) => rfl
  | .closing => exact absurd rfl hclosing

variable {c inv} {w : World M G B X} {phase : Phase} {past journal : Journal} {flow : Flow}

/-- At every point the journal is paced. -/
theorem paced_of_reaches (h : c.Reaches inv w phase past s) :
    ∃ laps, past.Paced c.config.maxToolCallsPerIteration phase s.state.iterations laps := by
  induction h with
  | begin hadopt => exact ⟨[], rfl, rfl, by simp, fun hphase => absurd rfl hphase⟩
  | stride hpast hflow ih =>
    obtain ⟨laps, hpaced⟩ := ih
    exact c.paced_stride inv (awaits_of_reaches hpast).pending hpaced

theorem paced_of_ends (h : c.Ends inv w journal s flow) :
    ∃ laps, journal.Paced c.config.maxToolCallsPerIteration .turn s.state.iterations laps := by
  obtain @⟨phase, past, s, hpast, hflow⟩ := h
  obtain ⟨laps, hpaced⟩ := paced_of_reaches hpast
  obtain ⟨laps', hpaced'⟩ := c.paced_stride inv (awaits_of_reaches hpast).pending hpaced
  exact ⟨laps', hpaced'.beats, hpaced'.length, hpaced'.executions_le,
    fun hturn => absurd rfl hturn⟩

/-! ## The number of turns -/

/-- The limit leaves room for the turn that a phase is about to begin, and a run that is not about
to begin one has begun one before. -/
theorem iterations_of_reaches (h : c.Reaches inv w phase past s) :
    1 ≤ s.state.iterations + phase.begun ∧ s.state.iterations + phase.begun ≤ c.turnLimit := by
  induction h with
  | begin hadopt => exact ⟨Nat.le_refl 1, Nat.le_max_left 1 _⟩
  | @stride phase past s hpast hflow ih =>
    have hcount := c.iterations_stride_eq inv phase s
    by_cases hclosing : phase = .closing
    · subst hclosing
      have hmore := (c.closeTurn_of_goOn hflow).2
      have hlimit : c.config.maxIterations ≤ c.turnLimit := Nat.le_max_right 1 _
      rw [hcount]
      simp only [Phase.begun, stride] at ih ⊢
      omega
    · have hbegun := c.begun_stride inv hflow hclosing
      rw [hcount, hbegun]
      exact ih

/-- A run ends in one of the turns that its configuration gives it. -/
theorem iterations_of_ends (h : c.Ends inv w journal s flow) :
    1 ≤ s.state.iterations ∧ s.state.iterations ≤ c.turnLimit := by
  obtain @⟨phase, past, s, hpast, hflow⟩ := h
  rw [c.iterations_stride_eq]
  exact iterations_of_reaches hpast

/-- A run that stops for want of turns has had all of them, and a reply in each. -/
theorem iterations_of_maxIterations {output : JsonObject}
    (h : c.Ends inv w journal s (.stop .maxIterations output)) :
    s.state.iterations = c.turnLimit ∧ journal.replies.length = c.turnLimit := by
  have hbounds := iterations_of_ends h
  generalize hstop : Flow.stop .maxIterations output = stopped at h
  obtain @⟨phase, past, s, hpast, hflow⟩ := h
  have hreplies : (past ++ (c.stride inv phase s).1.journal).replies.length =
      s.state.iterations := by
    rw [replies_of_reaches_stride hpast, c.incoming_of_ne_goOn inv hflow, List.append_nil,
      length_replies_of_reaches hpast]
  rw [hreplies]
  cases c.stops_of_flow inv (awaits_of_reaches hpast).pending hstop.symm with
  | lastTurn hlimit =>
    have hcount := c.iterations_stride_eq inv .closing s
    simp only [Phase.begun, Nat.add_zero] at hcount
    rw [hcount] at hbounds ⊢
    rw [turnLimit] at hbounds ⊢
    omega

/-! ## Getting stuck -/

variable (c inv)

/-- A stride gets stuck only where the model was asked and never answers. -/
theorem exists_unanswered_of_flow {phase : Phase}
    (hpending : s.state.transcript.pending = phase.open)
    (hflow : (c.stride inv phase s).1.flow = .stalled) :
    ∃ request ∈ (c.stride inv phase s).1.journal.requests, ∃ m,
      (c.model.ask request m).1.delay = none := by
  cases c.waits_of_flow inv (.inr hflow) with
  | turn =>
    have hasks := c.asks_askModel inv s
    rw [stride] at hflow ⊢
    generalize c.askModel inv s = asked at hasks hflow ⊢
    cases hasks with
    | stalled hbudget hfired hwait =>
      exact ⟨c.request inv (c.asking s).state, List.mem_singleton_self _, _,
        delay_eq_none_of_await hwait⟩
    | _ => cases hflow
  | dispatching => exact absurd hflow (c.settles_dispatch inv hpending).ne_stalled

variable {c inv}

/-- A run never gets stuck unless the model does not answer. -/
theorem exists_unanswered_of_ends (h : c.Ends inv w journal s .stalled) :
    ∃ request ∈ journal.requests, ∃ m, (c.model.ask request m).1.delay = none := by
  generalize hflow' : Flow.stalled = last at h
  obtain @⟨phase, past, s, hpast, hflow⟩ := h
  obtain ⟨request, hrequest, hdelay⟩ :=
    c.exists_unanswered_of_flow inv (awaits_of_reaches hpast).pending hflow'.symm
  refine ⟨request, ?_, hdelay⟩
  rw [Journal.requests_eq_pick, Journal.pick_append]
  exact List.mem_append_right _ hrequest

variable (c inv)

/-! ## A run within its limits -/

/-- However the model and the tools behave, the strides of a run, which know nothing of the turns
that are left, come to an end.  The work of the run is a number of laps, one for each turn that was
begun: at most as many as the configuration has turns, and each with no more executions than its cap
on calls.  A run that is handed back says this number, a run that stops for want of turns has had
all of them and a reply in each, and a run gets stuck only on a model that never answers. -/
theorem run_within_limits (w : World M G B X) :
    (∀ t, Transcript.adopt (c.stamps inv w.now) inv.seed = .ok t →
      ∃ journal s flow, c.Ends inv w journal s flow ∧
        c.run inv w = reportOf inv w journal s flow) ∧
    ∃ laps : List Lap,
      (c.run inv w).journal.beats = laps.flatMap Lap.beats ∧
      (c.run inv w).journal.steps = List.range' 1 laps.length ∧
      laps.length ≤ max 1 c.config.maxIterations ∧
      (∀ lap ∈ laps, lap.executions ≤ c.config.maxToolCallsPerIteration) ∧
      (c.run inv w).journal.requests.length ≤ max 1 c.config.maxIterations ∧
      (c.run inv w).journal.executions.length ≤
        max 1 c.config.maxIterations * c.config.maxToolCallsPerIteration ∧
      (∀ n, (c.run inv w).ending.iterations? = some n → n = laps.length ∧ 1 ≤ n) ∧
      ((c.run inv w).ending.reason? = some .maxIterations →
        (c.run inv w).ending.iterations? = some (max 1 c.config.maxIterations) ∧
          (c.run inv w).journal.replies.length = max 1 c.config.maxIterations) ∧
      ((c.run inv w).ending = .stalled →
        ∃ request ∈ (c.run inv w).journal.requests, ∃ m,
          (c.model.ask request m).1.delay = none) := by
  refine ⟨fun t hadopt => c.exists_ends inv w hadopt, ?_⟩
  rcases c.run_cases inv w with ⟨error, -, hrun⟩ | ⟨journal, s, flow, hends, hrun⟩
  · rw [hrun]
    exact ⟨[], rfl, rfl, by simp, by simp, by simp [Journal.requests],
      by simp [Journal.executions], by simp [Ending.iterations?],
      by simp [Ending.reason?, Ending.result?], by simp⟩
  · obtain ⟨laps, hpaced⟩ := paced_of_ends hends
    have hbeats : (c.run inv w).journal.beats = laps.flatMap Lap.beats := by
      rw [hrun, Journal.beats, pick_reportOf inv Journal.skipsReports_beat?]
      exact hpaced.beats
    have hlimit : s.state.iterations ≤ max 1 c.config.maxIterations :=
      (iterations_of_ends hends).2
    refine ⟨laps, hbeats, ?_, hpaced.length ▸ hlimit, hpaced.executions_le, ?_, ?_, ?_, ?_, ?_⟩
    · rw [hrun, steps_reportOf, steps_of_ends hends, hpaced.length]
    · rw [hrun, Journal.requests_eq_pick, pick_reportOf inv Journal.skipsReports_request?]
      exact Nat.le_trans hpaced.length_requests_le hlimit
    · rw [hrun, Journal.executions_eq_pick,
        pick_reportOf inv Journal.onlyCalls_execution?.toSkipsReports]
      exact Nat.le_trans hpaced.length_executions_le (Nat.mul_le_mul_right _ hlimit)
    · intro n hn
      rw [hrun] at hn
      rw [eq_iterations_of_iterations? hends hn]
      exact ⟨hpaced.length.symm, (iterations_of_ends hends).1⟩
    · intro hlast
      rw [hrun] at hlast ⊢
      obtain ⟨output, rfl⟩ := reason?_reportOf_eq_some_iff.1 hlast
      obtain ⟨hcount, hreplies⟩ := iterations_of_maxIterations hends
      rw [Journal.replies, pick_reportOf inv Journal.skipsReports_reply?]
      exact ⟨congrArg some hcount, hreplies⟩
    · intro hstalled
      rw [hrun] at hstalled ⊢
      obtain rfl := (ending_reportOf_eq_stalled_iff hends).1 hstalled
      rw [Journal.requests_eq_pick, pick_reportOf inv Journal.skipsReports_request?]
      exact exists_unanswered_of_ends hends

/-- A controller of two turns, whose model always gives a reply with two calls and whose tools never
return. -/
def silentTools : Controller Unit Unit Unit Unit :=
  { singleTurn openGate repeatedIdReply with
    config := { LoopConfig.default with maxIterations := 2, errorThreshold := 5 }
    executor := { execute := fun _ _ _ x => (⟨none, .success ""⟩, x) } }

/-- A run with tools that never return has its two turns, and then it stops. -/
theorem run_within_limits_silentTools :
    (silentTools.run task (idle ())).ending.reason? = some .maxIterations ∧
      (silentTools.run task (idle ())).ending.iterations? = some 2 ∧
      (silentTools.run task (idle ())).journal.replies.length = 2 := by
  have hreason : (silentTools.run task (idle ())).ending.reason? = some .maxIterations := by
    decide +kernel
  obtain ⟨-, laps, -, -, -, -, -, -, -, hlast, -⟩ := silentTools.run_within_limits task (idle ())
  exact ⟨hreason, hlast hreason⟩

end Controller

end AgentLoop
