import AgentLoop.Proofs.Steps

/-!
# The course of a run

A run is put together from functions that call each other.  For statements about all that happens
in a run, this module takes it apart again: the course of a run goes through phases, and one stride
leads from a phase to the next, or to the end.

There are five groups.

* `Phase` is where a run is between two strides, and `Controller.stride` is the stride that it
  takes from there.
* `Controller.Reaches` are the points that a run passes through, `Controller.Ends` is its end.
  What holds at every point is proved by induction on `Reaches`.
* The functions of a run are made of strides.  `Arrives` says of a stretch that it leads to a point
  or to the end, and there is one lemma for each function, up to `ends_turns`.
* `Finishes` is the course from a point on.  It leads from every point of a run to its end
  (`Reaches.finishes`), so nothing that a run has passed through is lost.
* `exists_ends`: a run that takes over its messages comes to an end of its course, and the report
  is read off there (`Ends.run_eq_reportOf`).  `run_of_adopt_eq_error` is the other case.
-/

namespace AgentLoop

/-- Where a run is between two strides. -/
inductive Phase where
  /-- A turn begins. -/
  | turn
  /-- The model has replied. -/
  | replied (reply : ModelReply)
  /-- Calls are to be dispatched, and others to be deferred after them. -/
  | dispatching (calls deferred : List ToolCall)
  /-- Calls are to be deferred. -/
  | deferring (calls : List ToolCall)
  /-- The turn ends. -/
  | closing

/-- What holds at the end of a stretch and is kept by the next one holds at the end of both. -/
theorem Stretch.stand_andThen {M G B X : Type} {P : Stand M G B X → Prop}
    {first : Stretch M G B X} {next : Stand M G B X → Stretch M G B X} (hfirst : P first.stand)
    (hnext : ∀ s, P s → P (next s).stand) : P (first.andThen next).stand := by
  rw [Stretch.andThen]
  split
  · exact hnext _ hfirst
  · exact hfirst

/-- The calls that are open in a phase. -/
def Phase.open : Phase → List ToolCall
  | dispatching calls deferred => calls ++ deferred
  | deferring calls => calls
  | _ => []

namespace Controller

variable {M G B X : Type} (c : Controller M G B X) (inv : Invocation)

/-! ## Strides -/

/-- Takes a reply into the conversation: its calls are dispatched next, and a text closes the
turn. -/
def strideReply (reply : ModelReply) (s : Stand M G B X) : Stretch M G B X × Phase :=
  let calls := callsOf reply s
  let cap := c.config.maxToolCallsPerIteration
  match s.state.transcript.pushAssistant (c.replyMessage inv reply s) with
  | .error error =>
    (⟨c.noted inv reply s, c.notedEntries inv reply s, .failed (.transcript error)⟩, .closing)
  | .ok t =>
    if calls.isEmpty then
      ((c.takeText inv reply.content ((c.noted inv reply s).withTranscript t)).after
        (c.notedEntries inv reply s), .closing)
    else
      let opening : Entry :=
        ⟨s.world.now, .remarked
          (.executingCalls s.state.iterations calls.length (calls.drop cap).length)⟩
      (⟨c.dispatchStand inv reply s t, c.notedEntries inv reply s ++ [opening], .goOn⟩,
        .dispatching (calls.take cap) (calls.drop cap))

/-- Turns from the dispatched calls to the deferred ones. -/
def strideToDeferred (deferred : List ToolCall) (s : Stand M G B X) : Stretch M G B X :=
  let remark :=
    .limitReached s.state.iterations deferred.length c.config.maxToolCallsPerIteration
  ⟨s, if deferred.isEmpty then [] else [s.entry (.remarked remark)], .goOn⟩

/-- Answers one deferred call. -/
def strideDeferral (call : ToolCall) (s : Stand M G B X) : Stretch M G B X :=
  match s.state.transcript.pushToolResult (c.stamps inv s.world.now) call.id
      (deferralText c.config.maxToolCallsPerIteration) with
  | .error error => ⟨s, [], .failed (.transcript error)⟩
  | .ok transcript => ⟨s.withTranscript transcript, [], .goOn⟩

/-- The stride that a run takes in a phase, with the phase that it enters if it goes on. -/
def stride : Phase → Stand M G B X → Stretch M G B X × Phase
  | .turn, s =>
    match c.askModel inv s with
    | .ended stretch => (stretch, .turn)
    | .reply reply s journal => (⟨s, journal, .goOn⟩, .replied reply)
  | .replied reply, s => c.strideReply inv reply s
  | .dispatching [] deferred, s => (c.strideToDeferred deferred s, .deferring deferred)
  | .dispatching (call :: calls) deferred, s =>
    (c.closeBatch inv (c.dispatchCall inv call s), .dispatching calls deferred)
  | .deferring [], s => (⟨s, [], .goOn⟩, .closing)
  | .deferring (call :: calls), s => (c.strideDeferral inv call s, .deferring calls)
  | .closing, s => (c.closeTurn s, .turn)

/-- The journal of a run before its first turn. -/
def opening (w : World M G B X) (t : Transcript) : Journal :=
  [⟨w.now, .traced (.start inv.traceId inv.id)⟩,
    ⟨w.now, .remarked (.started t.length inv.tools.length c.config.maxIterations)⟩]

/-! ## The points of a run -/

/-- The run from the world `w` passes through a phase, with this journal and at this stand. -/
inductive Reaches (w : World M G B X) : Phase → Journal → Stand M G B X → Prop where
  | begin {t : Transcript} (hadopt : Transcript.adopt (c.stamps inv w.now) inv.seed = .ok t) :
      Reaches w .turn (c.opening inv w t) ⟨.begin t, w⟩
  | stride {phase : Phase} {past : Journal} {s : Stand M G B X} (hpast : Reaches w phase past s)
      (hflow : (c.stride inv phase s).1.flow = .goOn) :
      Reaches w (c.stride inv phase s).2 (past ++ (c.stride inv phase s).1.journal)
        (c.stride inv phase s).1.stand

/-- The last stride of the run from the world `w` ends with this journal, at this stand and in this
flow. -/
inductive Ends (w : World M G B X) : Journal → Stand M G B X → Flow → Prop where
  | last {phase : Phase} {past : Journal} {s : Stand M G B X}
      (hpast : c.Reaches inv w phase past s) (hflow : (c.stride inv phase s).1.flow ≠ .goOn) :
      Ends w (past ++ (c.stride inv phase s).1.journal) (c.stride inv phase s).1.stand
        (c.stride inv phase s).1.flow

/-- A stretch that was entered with the journal `past` leads to a point of the run, or to its
end. -/
def Arrives (w : World M G B X) (phase : Phase) (past : Journal) (st : Stretch M G B X) : Prop :=
  (st.flow = .goOn → c.Reaches inv w phase (past ++ st.journal) st.stand) ∧
    (st.flow ≠ .goOn → c.Ends inv w (past ++ st.journal) st.stand st.flow)

variable {c inv} {w : World M G B X} {phase phase' : Phase} {past : Journal}
  {s : Stand M G B X} {st : Stretch M G B X}

theorem arrives_stride (h : c.Reaches inv w phase past s) :
    c.Arrives inv w (c.stride inv phase s).2 past (c.stride inv phase s).1 :=
  ⟨fun hflow => .stride h hflow, fun hflow => .last h hflow⟩

theorem Arrives.after {journal : Journal} (h : c.Arrives inv w phase (past ++ journal) st) :
    c.Arrives inv w phase past (st.after journal) := by
  simpa only [Arrives, Stretch.after, List.append_assoc] using h

/-- Stretches that arrive can be put one after another.  The second is only ever entered where the
first has led to. -/
theorem Arrives.andThen {next : Stand M G B X → Stretch M G B X}
    (h : c.Arrives inv w phase past st)
    (hnext : c.Reaches inv w phase (past ++ st.journal) st.stand →
      c.Arrives inv w phase' (past ++ st.journal) (next st.stand)) :
    c.Arrives inv w phase' past (st.andThen next) := by
  rw [Stretch.andThen]
  split
  · next hflow => exact Arrives.after (hnext (h.1 hflow))
  · next hflow =>
    have hflow : st.flow ≠ .goOn := fun e => hflow e
    exact ⟨fun e => absurd e hflow, fun _ => h.2 hflow⟩

/-- A stretch that goes on as it was entered. -/
theorem arrives_stay (h : c.Reaches inv w phase past s) :
    c.Arrives inv w phase past ⟨s, [], .goOn⟩ := by
  refine ⟨fun _ => ?_, fun hflow => absurd rfl hflow⟩
  rw [List.append_nil]
  exact h

/-! ## The number of turns

Only the beginning of a turn counts one more turn.  Every other function keeps the number. -/

variable (c inv)

@[simp] theorem iterations_takeText (content : String) (s : Stand M G B X) :
    (c.takeText inv content s).stand.state.iterations = s.state.iterations := by
  rw [takeText]
  split
  · split <;> rfl
  · rfl

@[simp] theorem iterations_dispatchCall (call : ToolCall) (s : Stand M G B X) :
    (c.dispatchCall inv call s).stand.state.iterations = s.state.iterations := by
  simp only [dispatchCall, settle, Stretch.after]
  split
  · rfl
  · exact iterations_count _ _ _

@[simp] theorem iterations_closeBatch (st : Stretch M G B X) :
    (c.closeBatch inv st).stand.state.iterations = st.stand.state.iterations := by
  rw [closeBatch]
  split <;> rfl

@[simp] theorem iterations_dispatchEach (calls : List ToolCall) (s : Stand M G B X) :
    (c.dispatchEach inv calls s).stand.state.iterations = s.state.iterations := by
  induction calls generalizing s with
  | nil => rfl
  | cons call calls ih =>
    refine Stretch.stand_andThen (P := fun s' => s'.state.iterations = s.state.iterations) ?_ ?_
    · exact iterations_dispatchCall c inv call s
    · intro s' hs'
      rw [ih, hs']

@[simp] theorem iterations_deferEach (calls : List ToolCall) (s : Stand M G B X) :
    (c.deferEach inv calls s).stand.state.iterations = s.state.iterations := by
  induction calls generalizing s with
  | nil => rfl
  | cons call calls ih =>
    rw [deferEach]
    split
    · rfl
    · rw [ih]
      rfl

@[simp] theorem iterations_dispatchBatch (calls : List ToolCall) (s : Stand M G B X) :
    (c.dispatchBatch inv calls s).stand.state.iterations = s.state.iterations := by
  refine Stretch.stand_andThen (P := fun s' => s'.state.iterations = s.state.iterations) ?_ ?_
  · simp
  · intro s' hs'
    simpa [Stretch.after] using hs'

@[simp] theorem iterations_takeReply (reply : ModelReply) (s : Stand M G B X) :
    (c.takeReply inv reply s).stand.state.iterations = s.state.iterations := by
  rw [takeReply_eq, Stretch.after]
  simp only
  split
  · rfl
  · split
    · rw [iterations_takeText]
      rfl
    · rw [iterations_dispatchBatch]
      rfl

/-- A turn that goes on keeps the state, and is not the last one. -/
theorem closeTurn_of_goOn {s : Stand M G B X} (hflow : (c.closeTurn s).flow = .goOn) :
    (c.closeTurn s).stand.state = s.state ∧ s.state.iterations < c.config.maxIterations := by
  rw [closeTurn_eq] at hflow ⊢
  simp only [stopReason?] at hflow ⊢
  split at hflow
  · cases hflow
  · next hreason =>
    refine ⟨rfl, ?_⟩
    split at hreason
    · cases hreason
    · split at hreason
      · cases hreason
      · split at hreason
        · cases hreason
        · omega

/-- After a turn that goes on the run has had one more turn, and not yet all. -/
theorem turn_of_goOn {s : Stand M G B X} (hflow : (c.turn inv s).flow = .goOn) :
    (c.turn inv s).stand.state.iterations = s.state.iterations + 1 ∧
      s.state.iterations + 1 < c.config.maxIterations := by
  have hasks := c.asks_askModel inv s
  rw [turn] at hflow ⊢
  generalize c.askModel inv s = asked at hasks hflow ⊢
  cases hasks with
  | @replied time reply =>
    simp only [Stretch.after, Stretch.andThen] at hflow ⊢
    split at hflow
    · next htaken =>
      obtain ⟨hstate, hlt⟩ := closeTurn_of_goOn c hflow
      rw [iterations_takeReply] at hlt
      refine ⟨?_, hlt⟩
      simp only
      rw [hstate, iterations_takeReply]
      rfl
    · next htaken => exact absurd hflow htaken
  | _ => cases hflow

/-! ## The functions of a run are made of strides -/

/-- Closing a batch of two stretches is closing the one that ends it. -/
theorem closeBatch_andThen (first : Stretch M G B X) (next : Stand M G B X → Stretch M G B X) :
    c.closeBatch inv (first.andThen next) =
      (c.closeBatch inv first).andThen fun s => c.closeBatch inv (next s) := by
  obtain ⟨stand, journal, flow⟩ := first
  cases flow with
  | goOn =>
    simp only [Stretch.andThen, closeBatch]
    cases hflow : (next stand).flow <;> simp [hflow]
  | _ => rfl

theorem deferEach_cons (call : ToolCall) (calls : List ToolCall) (s : Stand M G B X) :
    c.deferEach inv (call :: calls) s =
      (c.strideDeferral inv call s).andThen (c.deferEach inv calls) := by
  rw [deferEach, strideDeferral]
  cases s.state.transcript.pushToolResult (c.stamps inv s.world.now) call.id
      (deferralText c.config.maxToolCallsPerIteration) with
  | error error => rfl
  | ok transcript => rfl

variable {c inv}

theorem arrives_dispatchEach {calls deferred : List ToolCall}
    (h : c.Reaches inv w (.dispatching calls deferred) past s) :
    c.Arrives inv w (.dispatching [] deferred) past
      (c.closeBatch inv (c.dispatchEach inv calls s)) := by
  induction calls generalizing past s with
  | nil => exact arrives_stay h
  | cons call calls ih =>
    rw [dispatchEach, closeBatch_andThen]
    exact (arrives_stride h).andThen fun hnext => ih hnext

theorem arrives_deferEach {calls : List ToolCall}
    (h : c.Reaches inv w (.deferring calls) past s) :
    c.Arrives inv w .closing past (c.deferEach inv calls s) := by
  induction calls generalizing past s with
  | nil => exact arrives_stride h
  | cons call calls ih =>
    rw [deferEach_cons]
    exact (arrives_stride h).andThen fun hnext => ih hnext

/-- The deferral of the calls beyond the cap, after the others were dispatched. -/
theorem arrives_deferral {deferred : List ToolCall} {remark : Journal}
    (h : c.Reaches inv w (.dispatching [] deferred) past s)
    (hremark : (c.strideToDeferred deferred s).journal = remark) :
    c.Arrives inv w .closing past ((c.deferEach inv deferred s).after remark) := by
  have hnext := (arrives_stride h).1 rfl
  simp only [stride] at hnext
  rw [hremark] at hnext
  exact Arrives.after (arrives_deferEach hnext)

theorem arrives_dispatchBatch {calls : List ToolCall}
    (h : c.Reaches inv w (.dispatching (calls.take c.config.maxToolCallsPerIteration)
        (calls.drop c.config.maxToolCallsPerIteration))
      (past ++ [s.entry (.remarked (.executingCalls s.state.iterations calls.length
        (calls.drop c.config.maxToolCallsPerIteration).length))]) s) :
    c.Arrives inv w .closing past (c.dispatchBatch inv calls s) := by
  refine Arrives.after ((arrives_dispatchEach h).andThen fun hnext => arrives_deferral hnext ?_)
  rw [strideToDeferred, iterations_closeBatch, iterations_dispatchEach]

theorem arrives_takeReply {reply : ModelReply} (h : c.Reaches inv w (.replied reply) past s) :
    c.Arrives inv w .closing past (c.takeReply inv reply s) := by
  have hstride := arrives_stride h
  rw [takeReply_eq]
  simp only [stride, strideReply] at hstride
  cases hpush : s.state.transcript.pushAssistant (c.replyMessage inv reply s) with
  | error error =>
    simp only [hpush] at hstride
    exact Arrives.after ⟨fun hflow => (Flow.noConfusion hflow), fun _ => by simpa using hstride.2⟩
  | ok t =>
    simp only [hpush] at hstride
    cases hcalls : (callsOf reply s).isEmpty with
    | true =>
      simp only [hcalls, if_true] at hstride
      simpa [hcalls] using hstride
    | false =>
      simp only [hcalls, Bool.false_eq_true, if_false] at hstride
      have hnext := hstride.1 rfl
      rw [← List.append_assoc] at hnext
      simpa [hcalls] using Arrives.after (arrives_dispatchBatch hnext)

theorem arrives_turn (h : c.Reaches inv w .turn past s) :
    c.Arrives inv w .turn past (c.turn inv s) := by
  have hstride := arrives_stride h
  simp only [stride] at hstride
  rw [turn]
  cases hask : c.askModel inv s with
  | ended stretch => simpa only [hask] using hstride
  | reply reply s' journal =>
    simp only [hask] at hstride
    refine Arrives.after ((arrives_takeReply (hstride.1 rfl)).andThen fun hnext => ?_)
    exact arrives_stride hnext

/-- A run that may still have all turns that its configuration leaves it comes to its end. -/
theorem ends_turns {left : Nat} (h : c.Reaches inv w .turn past s) (hleft : 0 < left)
    (hlimit : c.config.maxIterations ≤ s.state.iterations + left) :
    c.Ends inv w (past ++ (c.turns inv left s).journal) (c.turns inv left s).stand
      (c.turns inv left s).flow := by
  induction left generalizing past s with
  | zero => omega
  | succ left ih =>
    have hturn := arrives_turn h
    rw [turns, Stretch.andThen]
    split
    · next hflow =>
      obtain ⟨hcount, hlt⟩ := turn_of_goOn c inv hflow
      have hrest := ih (hturn.1 hflow) (by omega) (by omega)
      rw [List.append_assoc] at hrest
      exact hrest
    · next hflow => exact hturn.2 fun e => hflow e

/-! ## The course of a run is a line -/

/-- The course from a point on leads to this end. -/
inductive Finishes (c : Controller M G B X) (inv : Invocation) :
    Phase → Journal → Stand M G B X → Journal → Stand M G B X → Flow → Prop where
  | last {phase : Phase} {past : Journal} {s : Stand M G B X}
      (hflow : (c.stride inv phase s).1.flow ≠ .goOn) :
      Finishes c inv phase past s (past ++ (c.stride inv phase s).1.journal)
        (c.stride inv phase s).1.stand (c.stride inv phase s).1.flow
  | stride {phase : Phase} {past journal : Journal} {s s' : Stand M G B X} {flow : Flow}
      (hflow : (c.stride inv phase s).1.flow = .goOn)
      (hrest : Finishes c inv (c.stride inv phase s).2 (past ++ (c.stride inv phase s).1.journal)
        (c.stride inv phase s).1.stand journal s' flow) :
      Finishes c inv phase past s journal s' flow

/-- From a point on the journal is only ever appended to. -/
theorem Finishes.isPrefix {journal : Journal} {s' : Stand M G B X} {flow : Flow}
    (h : c.Finishes inv phase past s journal s' flow) :
    past ++ (c.stride inv phase s).1.journal <+: journal := by
  induction h with
  | last hflow => exact List.prefix_refl _
  | stride hflow hrest ih => exact (List.prefix_append _ _).trans ih

/-- The course from a point leads to the end to which the course from the next point leads. -/
theorem Reaches.finishes_begin {t : Transcript} {journal : Journal} {s' : Stand M G B X}
    {flow : Flow}
    (hadopt : Transcript.adopt (c.stamps inv w.now) inv.seed = .ok t)
    (h : c.Reaches inv w phase past s) (hend : c.Finishes inv phase past s journal s' flow) :
    c.Finishes inv .turn (c.opening inv w t) ⟨.begin t, w⟩ journal s' flow := by
  induction h with
  | begin hadopt' =>
    cases hadopt.symm.trans hadopt'
    exact hend
  | stride hpast hflow ih => exact ih (.stride hflow hend)

/-- From every point that a run passes through the course leads to the end of the run. -/
theorem Reaches.finishes {journal : Journal} {s' : Stand M G B X} {flow : Flow}
    (h : c.Reaches inv w phase past s) (hend : c.Ends inv w journal s' flow) :
    c.Finishes inv phase past s journal s' flow := by
  induction h with
  | begin hadopt =>
    obtain ⟨hlast, hflow⟩ := hend
    exact hlast.finishes_begin hadopt (.last hflow)
  | stride hpast hflow ih =>
    cases ih with
    | last hstop => exact absurd hflow hstop
    | stride hflow' hrest => exact hrest

/-- A run has only one end. -/
theorem Ends.unique {journal journal' : Journal} {s' : Stand M G B X} {flow flow' : Flow}
    (h : c.Ends inv w journal s flow) (h' : c.Ends inv w journal' s' flow') :
    journal' = journal ∧ s' = s ∧ flow' = flow := by
  obtain ⟨hpast, hflow⟩ := h
  cases hpast.finishes h' with
  | last => exact ⟨rfl, rfl, rfl⟩
  | stride hgoOn => exact absurd hgoOn hflow

/-! ## The report of a run -/

variable (c inv)

/-- What a run writes into the journal when it has ended. -/
def farewell (s : Stand M G B X) (flow : Flow) : Journal :=
  match closing s.state flow with
  | none => []
  | some (outcome, remark) =>
    [s.entry (.traced (.finish inv.traceId outcome)), s.entry (.remarked remark)]

/-- The report of a run that began in the world `w`. -/
def reportOf (w : World M G B X) (journal : Journal) (s : Stand M G B X) (flow : Flow) :
    RunReport M G B X :=
  ⟨endingOf inv w.now s flow, s.world, journal ++ farewell inv s flow⟩

/-- A run that takes over its messages comes to an end of its course. -/
theorem exists_ends {t : Transcript} (w : World M G B X)
    (hadopt : Transcript.adopt (c.stamps inv w.now) inv.seed = .ok t) :
    ∃ journal s flow, c.Ends inv w journal s flow ∧
      c.run inv w = reportOf inv w journal s flow := by
  have hleft : 0 < c.turnLimit := by
    rw [turnLimit]
    omega
  have hlimit : c.config.maxIterations ≤ 0 + c.turnLimit := by
    rw [turnLimit]
    omega
  have hturns := ends_turns (.begin hadopt) hleft hlimit
  refine ⟨_, _, _, hturns, ?_⟩
  rw [run, hadopt]
  rfl

/-- A run that cannot take over its messages does nothing. -/
theorem run_of_adopt_eq_error {error : TranscriptError} (w : World M G B X)
    (hadopt : Transcript.adopt (c.stamps inv w.now) inv.seed = .error error) :
    c.run inv w = ⟨.failed (.transcript error), w, []⟩ := by
  rw [run, hadopt]

/-- A run does nothing, or comes to an end of its course. -/
theorem run_cases (w : World M G B X) :
    (∃ error, Transcript.adopt (c.stamps inv w.now) inv.seed = .error error ∧
        c.run inv w = ⟨.failed (.transcript error), w, []⟩) ∨
      ∃ journal s flow, c.Ends inv w journal s flow ∧
        c.run inv w = reportOf inv w journal s flow := by
  cases hadopt : Transcript.adopt (c.stamps inv w.now) inv.seed with
  | error error => exact .inl ⟨error, rfl, c.run_of_adopt_eq_error inv w hadopt⟩
  | ok t => exact .inr (c.exists_ends inv w hadopt)

variable {c inv}

/-- A run that passes through a point has taken over its messages. -/
theorem Reaches.exists_adopt (h : c.Reaches inv w phase past s) :
    ∃ t, Transcript.adopt (c.stamps inv w.now) inv.seed = .ok t := by
  induction h with
  | begin hadopt => exact ⟨_, hadopt⟩
  | stride hpast hflow ih => exact ih

/-- The report of a run is read off the end of its course. -/
theorem Ends.run_eq_reportOf {journal : Journal} {flow : Flow} (h : c.Ends inv w journal s flow) :
    c.run inv w = reportOf inv w journal s flow := by
  have hadopt : ∃ t, Transcript.adopt (c.stamps inv w.now) inv.seed = .ok t := by
    obtain ⟨hpast, -⟩ := h
    exact hpast.exists_adopt
  obtain ⟨t, hadopt⟩ := hadopt
  obtain ⟨journal', s', flow', hends, hrun⟩ := c.exists_ends inv w hadopt
  obtain ⟨rfl, rfl, rfl⟩ := h.unique hends
  exact hrun

/-- A stride with which a run does not go on is its last one. -/
theorem Reaches.run_eq_reportOf (h : c.Reaches inv w phase past s)
    (hflow : (c.stride inv phase s).1.flow ≠ .goOn) :
    c.run inv w = reportOf inv w (past ++ (c.stride inv phase s).1.journal)
      (c.stride inv phase s).1.stand (c.stride inv phase s).1.flow :=
  (Ends.last h hflow).run_eq_reportOf

/-- What a stride of a run writes into the journal is found in its report. -/
theorem Reaches.isPrefix_run (h : c.Reaches inv w phase past s) :
    past ++ (c.stride inv phase s).1.journal <+: (c.run inv w).journal := by
  obtain ⟨t, hadopt⟩ := h.exists_adopt
  obtain ⟨journal, s', flow, hends, hrun⟩ := c.exists_ends inv w hadopt
  rw [hrun, reportOf]
  exact (h.finishes hends).isPrefix.trans (List.prefix_append _ _)

end Controller

end AgentLoop
