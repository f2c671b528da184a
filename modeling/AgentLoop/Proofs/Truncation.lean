import AgentLoop.Proofs.Endings
import AgentLoop.Proofs.MessageIds

/-!
# The cap on the number of turns

The cap on turns is asked at one place, at the end of a turn, and there it is asked last.  So a run
under a larger cap takes the same strides up to the one in which the smaller cap stops it, and in
that stride it still does the same; all that the smaller cap can do is to cut off what comes after.

* `Journal.interactions` is what passes between a run and its collaborators.  Its own remarks are
  left out, for the first of them says what the cap is.
* `CutFrom` says of two stretches that they differ at most in how the run flows on, and there only
  in that the first one stops because it has had all its turns.  `cutFrom_stride` says so of every
  stride under two caps.
* `Reaches.capped` and `Ends.capped` are the course under the larger cap, `Ends.isPrefix_capped` is
  the course that is cut off, and `cap_truncates` is about whole runs.  The two runs may give their
  messages different ids if the model pays no heed to ids.
-/

namespace AgentLoop

/-! ## Interactions -/

/-- The event is a remark of the run, made to none of its collaborators. -/
def Event.isRemark : Event → Bool
  | remarked _ => true
  | _ => false

theorem Event.isRemark_withoutIds (e : Event) : e.withoutIds.isRemark = e.isRemark := by
  cases e with
  | remarked remark => cases remark <;> rfl
  | _ => rfl

namespace Journal

/-- What passes between a run and its collaborators. -/
def interactions (j : Journal) : Journal := j.filter fun e => !e.event.isRemark

@[simp] theorem interactions_append (j k : Journal) :
    (j ++ k).interactions = j.interactions ++ k.interactions :=
  List.filter_append j k

theorem interactions_withoutIds (j : Journal) :
    j.withoutIds.interactions = j.interactions.withoutIds := by
  have hsame : ((fun e : Entry => !e.event.isRemark) ∘
      fun e : Entry => ({ e with event := e.event.withoutIds } : Entry)) =
      fun e => !e.event.isRemark := by
    funext e
    exact congrArg not e.event.isRemark_withoutIds
  rw [interactions, withoutIds, List.filter_map, hsame]
  rfl

theorem isPrefix_interactions {j k : Journal} (h : j <+: k) : j.interactions <+: k.interactions :=
  h.filter _

end Journal

/-- The two stretches come to the same, but the first one may stop the run because it has had all
its turns. -/
structure Stretch.CutFrom {M G B X : Type} (st st' : Stretch M G B X) : Prop where
  stand : st.stand = st'.stand
  interactions : st.journal.interactions = st'.journal.interactions
  flow : st.flow = st'.flow ∨ st.flow = .stop .maxIterations []

namespace Stretch.CutFrom

variable {M G B X : Type} {st st' : Stretch M G B X}

theorem refl (st : Stretch M G B X) : st.CutFrom st := ⟨rfl, rfl, .inl rfl⟩

theorem flow_eq (h : st.CutFrom st') (hflow : st.flow ≠ .stop .maxIterations []) :
    st'.flow = st.flow := by
  rcases h.flow with hsame | hcut
  · exact hsame.symm
  · exact absurd hcut hflow

end Stretch.CutFrom

namespace Controller

variable {M G B X : Type} (c : Controller M G B X) (inv : Invocation) {s : Stand M G B X}

/-- The controller with another cap on the number of turns. -/
def capped (cap : Nat) : Controller M G B X :=
  { c with config := { c.config with maxIterations := cap } }

/-! ## Strides under two caps -/

variable {cap : Nat}

/-- Under a larger cap the question whether to stop at the end of a turn has the same answer, unless
the answer is that the run has had all its turns. -/
theorem stopReason?_capped_or (hcap : c.config.maxIterations ≤ cap) (state : LoopState)
    (decision : BudgetDecision) :
    stopReason? c.config state (.turnEnd decision) =
        stopReason? (c.capped cap).config state (.turnEnd decision) ∨
      stopReason? c.config state (.turnEnd decision) = some .maxIterations := by
  have herrors : errorsExhausted (c.capped cap).config state = errorsExhausted c.config state := rfl
  simp only [stopReason?, herrors]
  cases hexhausted : errorsExhausted c.config state with
  | true => exact .inl rfl
  | false =>
    cases hblocked : decision.isBlocked with
    | true => exact .inl rfl
    | false =>
      by_cases hlimit : c.config.maxIterations ≤ state.iterations
      · exact .inr (by simp [hlimit])
      · have hlimit' : ¬ (c.capped cap).config.maxIterations ≤ state.iterations := by
          show ¬ cap ≤ state.iterations
          omega
        exact .inl (by simp [hlimit, hlimit'])

/-- At the end of a turn the run asks the duration budget, whatever it remarks about the answer. -/
theorem interactions_closeTurn (s : Stand M G B X) :
    (c.closeTurn s).journal.interactions = [c.durationEntry s] := by
  rw [closeTurn_eq]
  split <;> rfl

theorem stand_closeTurn (s : Stand M G B X) : (c.closeTurn s).stand = c.durationChecked s := by
  rw [closeTurn_eq]
  split <;> rfl

/-- The end of a turn under two caps. -/
theorem cutFrom_closeTurn (hcap : c.config.maxIterations ≤ cap) (s : Stand M G B X) :
    (c.closeTurn s).CutFrom ((c.capped cap).closeTurn s) := by
  refine ⟨?_, ?_, ?_⟩
  · rw [stand_closeTurn, stand_closeTurn]
    rfl
  · rw [interactions_closeTurn, interactions_closeTurn]
    rfl
  · have hcheck : ((c.capped cap).durationCheck s).1 = (c.durationCheck s).1 := rfl
    rw [closeTurn_eq, closeTurn_eq, hcheck]
    rcases c.stopReason?_capped_or hcap s.state (c.durationCheck s).1 with hsame | hlimit
    · rw [hsame]
      left
      split <;> rfl
    · rw [hlimit]
      exact .inr rfl

/-- The cap shows only where a turn ends. -/
theorem stride_capped {phase : Phase} (hclosing : phase ≠ .closing) :
    (c.capped cap).stride inv phase s = c.stride inv phase s := by
  match phase with
  | .turn | .replied reply | .dispatching [] deferred | .dispatching (call :: calls) deferred
  | .deferring [] | .deferring (call :: calls) => rfl
  | .closing => exact absurd rfl hclosing

/-- A stride under two caps. -/
theorem cutFrom_stride (hcap : c.config.maxIterations ≤ cap) (phase : Phase) (s : Stand M G B X) :
    (c.stride inv phase s).1.CutFrom ((c.capped cap).stride inv phase s).1 ∧
      ((c.capped cap).stride inv phase s).2 = (c.stride inv phase s).2 := by
  by_cases hclosing : phase = .closing
  · subst hclosing
    exact ⟨c.cutFrom_closeTurn hcap s, rfl⟩
  · rw [c.stride_capped inv hclosing]
    exact ⟨.refl _, rfl⟩

/-! ## The course under two caps -/

variable {c inv} {w : World M G B X} {phase : Phase} {past journal : Journal} {flow : Flow}

/-- Every point of a run is a point of the run under a larger cap. -/
theorem Reaches.capped (hcap : c.config.maxIterations ≤ cap) (h : c.Reaches inv w phase past s) :
    ∃ past', (c.capped cap).Reaches inv w phase past' s ∧
      past'.interactions = past.interactions := by
  induction h with
  | begin hadopt => exact ⟨_, .begin hadopt, rfl⟩
  | @stride phase past s hpast hflow ih =>
    obtain ⟨past', hpast', hsame⟩ := ih
    obtain ⟨hcut, hphase⟩ := c.cutFrom_stride inv hcap phase s
    have hgoes : ((c.capped cap).stride inv phase s).1.flow = .goOn := by
      rw [hcut.flow_eq (by simp [hflow]), hflow]
    have hnext := hpast'.stride hgoes
    rw [hphase, ← hcut.stand] at hnext
    refine ⟨_, hnext, ?_⟩
    rw [Journal.interactions_append, Journal.interactions_append, hsame, hcut.interactions]

/-- A run that the cap does not stop has the same end under a larger cap. -/
theorem Ends.capped (hcap : c.config.maxIterations ≤ cap) (h : c.Ends inv w journal s flow)
    (hflow : flow ≠ .stop .maxIterations []) :
    ∃ journal', (c.capped cap).Ends inv w journal' s flow ∧
      journal'.interactions = journal.interactions := by
  obtain @⟨phase, past, s, hpast, hstop⟩ := h
  obtain ⟨past', hpast', hsame⟩ := hpast.capped hcap
  obtain ⟨hcut, -⟩ := c.cutFrom_stride inv hcap phase s
  have hends : ((c.capped cap).stride inv phase s).1.flow = (c.stride inv phase s).1.flow :=
    hcut.flow_eq hflow
  have hlast := Ends.last hpast' (by rw [hends]; exact hstop)
  rw [hends, ← hcut.stand] at hlast
  refine ⟨_, hlast, ?_⟩
  rw [Journal.interactions_append, Journal.interactions_append, hsame, hcut.interactions]

/-- Wherever a run ends, the run under a larger cap has come to the same point. -/
theorem Ends.isPrefix_capped (hcap : c.config.maxIterations ≤ cap)
    (h : c.Ends inv w journal s flow) :
    journal.interactions <+: ((c.capped cap).run inv w).journal.interactions ∧
      ∀ messages, ((c.capped cap).run inv w).ending.transcript? = some messages →
        s.state.transcript.messages <+: messages := by
  obtain @⟨phase, past, s, hpast, hstop⟩ := h
  obtain ⟨past', hpast', hsame⟩ := hpast.capped hcap
  obtain ⟨hcut, -⟩ := c.cutFrom_stride inv hcap phase s
  constructor
  · have hbegins := Journal.isPrefix_interactions hpast'.isPrefix_run
    rw [Journal.interactions_append, hsame, ← hcut.interactions] at hbegins
    rw [Journal.interactions_append]
    exact hbegins
  · intro messages hback
    rw [hcut.stand]
    exact hpast'.messages_isPrefix_run hback

/-- A run that was stopped by the cap ended in this flow. -/
theorem flow_eq_of_maxIterations (h : c.Ends inv w journal s flow)
    (hreason : (reportOf inv w journal s flow).ending.reason? = some .maxIterations) :
    flow = .stop .maxIterations [] := by
  obtain ⟨output, rfl⟩ := reason?_reportOf_eq_some_iff.1 hreason
  rw [output_eq_nil_of_ends h (by simp)]

/-- A run that the cap does not stop is the same under a larger cap. -/
theorem run_capped_of_ne (hcap : c.config.maxIterations ≤ cap)
    (h : (c.run inv w).ending.reason? ≠ some .maxIterations) :
    ((c.capped cap).run inv w).ending = (c.run inv w).ending ∧
      ((c.capped cap).run inv w).world = (c.run inv w).world ∧
      ((c.capped cap).run inv w).journal.interactions = (c.run inv w).journal.interactions := by
  cases hadopt : Transcript.adopt (c.stamps inv w.now) inv.seed with
  | error error =>
    rw [c.run_of_adopt_eq_error inv w hadopt, (c.capped cap).run_of_adopt_eq_error inv w hadopt]
    exact ⟨rfl, rfl, rfl⟩
  | ok t =>
    obtain ⟨journal, s, flow, hends, hrun⟩ := c.exists_ends inv w hadopt
    have hflow : flow ≠ .stop .maxIterations [] := by
      rintro rfl
      exact h (by rw [hrun]; rfl)
    obtain ⟨through, hthrough, hsame⟩ := hends.capped hcap hflow
    rw [hrun, hthrough.run_eq_reportOf]
    refine ⟨rfl, rfl, ?_⟩
    rw [reportOf, reportOf, Journal.interactions_append, Journal.interactions_append, hsame]

/-- A run that the cap stops is cut off from the run under a larger cap. -/
theorem run_capped_of_maxIterations (hcap : c.config.maxIterations ≤ cap)
    (h : (c.run inv w).ending.reason? = some .maxIterations) :
    ∃ (before : Journal) (time : Nat),
      (c.run inv w).journal.interactions =
        before ++ [⟨time, .traced (.finish inv.traceId TerminationReason.maxIterations.name)⟩] ∧
      before <+: ((c.capped cap).run inv w).journal.interactions ∧
      ∀ result messages, (c.run inv w).ending.result? = some result →
        ((c.capped cap).run inv w).ending.transcript? = some messages →
        result.transcript <+: messages := by
  rcases c.run_cases inv w with ⟨error, -, hrun⟩ | ⟨journal, s, flow, hends, hrun⟩
  · rw [hrun] at h
    cases h
  · rw [hrun] at h
    obtain rfl := flow_eq_of_maxIterations hends h
    obtain ⟨hbegins, hmessages⟩ := hends.isPrefix_capped hcap
    refine ⟨journal.interactions, s.world.now, ?_, hbegins, ?_⟩
    · rw [hrun, reportOf, Journal.interactions_append]
      rfl
    · intro result messages hresult hback
      rw [hrun] at hresult
      obtain ⟨reason, output, -, rfl⟩ := result?_reportOf_eq_some_iff.1 hresult
      exact hmessages messages hback

end Controller

/-! ## Runs under two caps -/

theorem Ending.transcript?_withoutIds (e : Ending) :
    e.withoutIds.transcript? = e.transcript?.map (List.map Message.withoutId) := by
  cases e with
  | failed error => cases error <;> rfl
  | _ => rfl

namespace Controller

variable {M G B X : Type} (c : Controller M G B X) (inv : Invocation)

/-- The cap on turns only cuts a run off.  Take a run and, up to the ids of new messages, the same
run under a larger cap.  If the first one does not end because it has had all its turns, both end
alike, with the same interactions.  If it does, its interactions without the last one, by which the
tracer is told of the end, begin those of the other run, and so do the messages of its
conversation. -/
theorem cap_truncates (w : World M G B X) (messageId : Nat → String) {cap : Nat}
    (hcap : c.config.maxIterations ≤ cap)
    (hids : messageId = inv.messageId ∨ c.model.HeedsNoIds) :
    ((c.run inv w).ending.reason? ≠ some .maxIterations →
      ((c.capped cap).run (inv.renamed messageId) w).ending.withoutIds =
          (c.run inv w).ending.withoutIds ∧
        ((c.capped cap).run (inv.renamed messageId) w).world = (c.run inv w).world ∧
        ((c.capped cap).run (inv.renamed messageId) w).journal.interactions.withoutIds =
          (c.run inv w).journal.interactions.withoutIds) ∧
    ((c.run inv w).ending.reason? = some .maxIterations →
      ∃ (before : Journal) (time : Nat),
        (c.run inv w).journal.interactions =
          before ++ [⟨time, .traced (.finish inv.traceId TerminationReason.maxIterations.name)⟩] ∧
        before.withoutIds <+:
          ((c.capped cap).run (inv.renamed messageId) w).journal.interactions.withoutIds ∧
        ∀ result messages, (c.run inv w).ending.result? = some result →
          ((c.capped cap).run (inv.renamed messageId) w).ending.transcript? = some messages →
          result.transcript.map Message.withoutId <+: messages.map Message.withoutId) := by
  have hrenamed : ((c.capped cap).run (inv.renamed messageId) w).withoutIds =
      ((c.capped cap).run inv w).withoutIds := run_renamed hids
  have hending : ((c.capped cap).run (inv.renamed messageId) w).ending.withoutIds =
      ((c.capped cap).run inv w).ending.withoutIds := congrArg RunReport.ending hrenamed
  have hworld : ((c.capped cap).run (inv.renamed messageId) w).world =
      ((c.capped cap).run inv w).world := by
    have hstruck := congrArg RunReport.world hrenamed
    exact hstruck
  have hinteractions :
      ((c.capped cap).run (inv.renamed messageId) w).journal.interactions.withoutIds =
        ((c.capped cap).run inv w).journal.interactions.withoutIds := by
    rw [← Journal.interactions_withoutIds, ← Journal.interactions_withoutIds]
    exact congrArg (fun report => report.journal.interactions) hrenamed
  constructor
  · intro hreason
    obtain ⟨hsame, hsameWorld, hsameInteractions⟩ := run_capped_of_ne hcap hreason
    rw [hending, hworld, hinteractions, hsame, hsameWorld, hsameInteractions]
    exact ⟨rfl, rfl, rfl⟩
  · intro hreason
    obtain ⟨before, time, hsplit, hbegins, hmessages⟩ := run_capped_of_maxIterations hcap hreason
    refine ⟨before, time, hsplit, ?_, ?_⟩
    · rw [hinteractions]
      exact hbegins.map _
    · intro result messages hresult hback
      have hstruck := congrArg Ending.transcript? hending
      rw [Ending.transcript?_withoutIds, Ending.transcript?_withoutIds, hback] at hstruck
      obtain ⟨messages', hback', hsame⟩ := Option.map_eq_some_iff.1 hstruck.symm
      rw [← hsame]
      exact (hmessages result messages' hresult hback').map Message.withoutId

/-- A controller of at most two turns, whose model follows a script. -/
def twoTurns : Controller Script Unit Unit Unit :=
  scripted { LoopConfig.default with maxIterations := 2 } (.success "done")

/-- Two replies with a call each, and a text twice. -/
def fourReplies : World Script Unit Unit Unit :=
  reciting [callReply "a", callReply "b", .text "Done.", .text "Done."]

/-- Stopped after two turns, the run has the first six messages of the run that may have six turns,
and that one is completed with nine messages; under a cap of ten turns it stays the same. -/
theorem cap_truncates_twoTurns :
    (∃ first second, (twoTurns.run task fourReplies).ending.result? = some first ∧
      ((twoTurns.capped 6).run (task.renamed fun _ => "message") fourReplies).ending.result? =
        some second ∧
      first.terminationReason = .maxIterations ∧ second.terminationReason = .completed ∧
      (first.transcript.length, second.transcript.length) = (6, 9) ∧
      first.transcript.map Message.withoutId <+: second.transcript.map Message.withoutId) ∧
    (((twoTurns.capped 6).capped 10).run (task.renamed fun _ => "message")
        fourReplies).ending.withoutIds =
      ((twoTurns.capped 6).run task fourReplies).ending.withoutIds := by
  have hmodel : twoTurns.model.HeedsNoIds := fun _ _ => rfl
  have hcap : twoTurns.config.maxIterations ≤ 6 := by decide
  have hlarger : (twoTurns.capped 6).config.maxIterations ≤ 10 := by decide
  constructor
  · have hfirst : ((twoTurns.run task fourReplies).ending.result?.map fun result =>
        (result.terminationReason, result.transcript.length)) = some (.maxIterations, 6) := by
      decide +kernel
    have hsecond : (((twoTurns.capped 6).run (task.renamed fun _ => "message")
        fourReplies).ending.result?.map fun result =>
          (result.terminationReason, result.transcript.length)) = some (.completed, 9) := by
      decide +kernel
    obtain ⟨first, hresult, hfirst⟩ := Option.map_eq_some_iff.1 hfirst
    obtain ⟨second, hresult', hsecond⟩ := Option.map_eq_some_iff.1 hsecond
    obtain ⟨hreason, hlength⟩ := Prod.mk.inj hfirst
    obtain ⟨hreason', hlength'⟩ := Prod.mk.inj hsecond
    have hstopped : (twoTurns.run task fourReplies).ending.reason? = some .maxIterations := by
      rw [Ending.reason?, hresult, Option.map_some, hreason]
    have hback : ((twoTurns.capped 6).run (task.renamed fun _ => "message")
        fourReplies).ending.transcript? = some second.transcript := by
      rw [Ending.result?_eq_some_iff.1 hresult']
      rfl
    obtain ⟨before, time, -, -, hmessages⟩ :=
      (twoTurns.cap_truncates task fourReplies _ hcap (.inr hmodel)).2 hstopped
    refine ⟨first, second, hresult, hresult', hreason, hreason', ?_, ?_⟩
    · rw [hlength, hlength']
    · exact hmessages first second.transcript hresult hback
  · have hcompleted : ((twoTurns.capped 6).run task fourReplies).ending.reason? ≠
        some .maxIterations := by
      decide +kernel
    exact (((twoTurns.capped 6).cap_truncates task fourReplies _ hlarger
      (.inr hmodel)).1 hcompleted).1

end Controller

end AgentLoop
