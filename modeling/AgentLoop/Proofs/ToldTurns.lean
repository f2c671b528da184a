import AgentLoop.Proofs.Strides
import AgentLoop.Proofs.Tracing

/-!
# What the tracer is told, turn by turn

The tracer is told of a run in turns: a turn is announced by its number, then comes the reply of the
model, and then the dispatched calls.  A turn without a reply has no calls, and only the last turn
of a run can be without one.

* `ToldTurn` is what is told of one turn, and `toldFrom` what is told of turns that are numbered
  from a number on.
* `Phase.Shape` is what a phase knows of the turns up to it, and `TellsTurns` the invariant of a
  point; `exists_tellsTurns_of_reaches` is the induction, `exists_told_of_ends` the end of a course.
* `Journal.modelCalls` are the replies as the tracer knows them, and `modelCalls_run` says that it
  knows all of them.
-/

namespace AgentLoop

/-- A reply, as it is told to the tracer. -/
def ModelCall.ofReply (reply : ModelReply) : ModelCall :=
  ⟨reply.model, reply.usage, reply.toolCalls.length⟩

/-- What the tracer is told of one turn. -/
structure ToldTurn where
  call : Option ModelCall
  actions : List ActionRecord
  deriving DecidableEq, Repr

/-- A turn that was announced, and nothing more. -/
def ToldTurn.announced : ToldTurn := ⟨none, []⟩

/-- The turn with one more dispatched call. -/
def ToldTurn.withAction (t : ToldTurn) (record : ActionRecord) : ToldTurn :=
  { t with actions := t.actions ++ [record] }

/-- The reports about a turn of this number. -/
def ToldTurn.events (id : String) (iteration : Nat) (t : ToldTurn) : List TraceEvent :=
  .step id iteration ::
    (t.call.toList.map (fun m => .modelCall id m.model m.usage m.toolCalls) ++
      t.actions.map (.action id))

/-- The reports about turns that are numbered from this number on. -/
def toldFrom (id : String) (iteration : Nat) : List ToldTurn → List TraceEvent
  | [] => []
  | t :: turns => t.events id iteration ++ toldFrom id (iteration + 1) turns

/-- The model call that this is about. -/
def TraceEvent.modelCall? : TraceEvent → Option ModelCall
  | modelCall _ model usage toolCalls => some ⟨model, usage, toolCalls⟩
  | _ => none

/-- The model calls that the tracer was told of, in order. -/
def Journal.modelCalls (j : Journal) : List ModelCall := j.told.filterMap TraceEvent.modelCall?

section

variable {id : String} {iteration : Nat} {turns : List ToldTurn}

theorem toldFrom_concat (t : ToldTurn) :
    toldFrom id iteration (turns ++ [t]) =
      toldFrom id iteration turns ++ t.events id (iteration + turns.length) := by
  induction turns generalizing iteration with
  | nil => simp [toldFrom]
  | cons first turns ih =>
    have hnumber : iteration + 1 + turns.length = iteration + (turns.length + 1) := by omega
    rw [List.cons_append, toldFrom, ih, toldFrom, List.append_assoc, List.length_cons, hnumber]

theorem events_withAction (t : ToldTurn) (record : ActionRecord) :
    (t.withAction record).events id iteration = t.events id iteration ++ [.action id record] := by
  simp [ToldTurn.events, ToldTurn.withAction]

/-- The reports about turns are all about the one trace, and begin none. -/
theorem traceId_of_mem_toldFrom {event : TraceEvent} (h : event ∈ toldFrom id iteration turns) :
    event.traceId = id ∧ ∀ other invocation, event ≠ .start other invocation := by
  induction turns generalizing iteration with
  | nil => cases h
  | cons t turns ih =>
    rcases List.mem_append.1 h with h | h
    · simp only [ToldTurn.events, List.mem_cons, List.mem_append, List.mem_map] at h
      rcases h with rfl | ⟨m, -, rfl⟩ | ⟨record, -, rfl⟩ <;>
        exact ⟨rfl, fun _ _ hstart => nomatch hstart⟩
    · exact ih h

/-- A reading of the reports about one turn. -/
theorem filterMap_events {α : Type} (f : TraceEvent → Option α) (t : ToldTurn) :
    (t.events id iteration).filterMap f =
      (f (.step id iteration)).toList ++
        (t.call.toList.filterMap (fun m => f (.modelCall id m.model m.usage m.toolCalls)) ++
          t.actions.filterMap fun record => f (.action id record)) := by
  rw [ToldTurn.events, List.filterMap_cons, List.filterMap_append, List.filterMap_map,
    List.filterMap_map]
  cases f (.step id iteration) <;> rfl

/-- The turns are told of in order, by their numbers. -/
theorem filterMap_step?_toldFrom :
    (toldFrom id iteration turns).filterMap TraceEvent.step? =
      List.range' iteration turns.length := by
  induction turns generalizing iteration with
  | nil => rfl
  | cons t turns ih =>
    rw [toldFrom, List.filterMap_append, filterMap_events, ih]
    simp [TraceEvent.step?, List.range'_succ]

theorem filterMap_modelCall?_toldFrom :
    (toldFrom id iteration turns).filterMap TraceEvent.modelCall? =
      turns.filterMap ToldTurn.call := by
  induction turns generalizing iteration with
  | nil => rfl
  | cons t turns ih =>
    rw [toldFrom, List.filterMap_append, filterMap_events, ih, List.filterMap_cons]
    cases hcall : t.call <;> simp [TraceEvent.modelCall?]

theorem filterMap_action?_toldFrom :
    (toldFrom id iteration turns).filterMap TraceEvent.action? =
      turns.flatMap ToldTurn.actions := by
  induction turns generalizing iteration with
  | nil => rfl
  | cons t turns ih =>
    rw [toldFrom, List.filterMap_append, filterMap_events, ih, List.flatMap_cons]
    simp [TraceEvent.action?]

/-- The readings of a journal that tells of turns, and then at most of the end of the run. -/
theorem readings_of_told {j : Journal} {invocation : String} {ending : List TraceEvent}
    (htold : j.told = .start id invocation :: (toldFrom id iteration turns ++ ending))
    (hending : ∀ event ∈ ending, ∃ outcome, event = .finish id outcome) :
    j.steps = List.range' iteration turns.length ∧
      j.modelCalls = turns.filterMap ToldTurn.call ∧
      j.actions = turns.flatMap ToldTurn.actions := by
  have hread : ∀ {α : Type} (f : TraceEvent → Option α), f (.start id invocation) = none →
      (∀ outcome, f (.finish id outcome) = none) →
      j.told.filterMap f = (toldFrom id iteration turns).filterMap f := by
    intro α f hstart hfinish
    have hnone : ending.filterMap f = [] := by
      refine List.filterMap_eq_nil_iff.2 fun event hevent => ?_
      obtain ⟨outcome, rfl⟩ := hending event hevent
      exact hfinish outcome
    rw [htold, List.filterMap_cons_none hstart, List.filterMap_append, hnone, List.append_nil]
  refine ⟨?_, ?_, ?_⟩
  · rw [Journal.steps, hread _ rfl fun _ => rfl, filterMap_step?_toldFrom]
  · rw [Journal.modelCalls, hread _ rfl fun _ => rfl, filterMap_modelCall?_toldFrom]
  · rw [Journal.actions, hread _ rfl fun _ => rfl, filterMap_action?_toldFrom]

/-- The turns that a journal tells of are announced by their numbers. -/
theorem steps_of_told {j : Journal} {invocation : String}
    (htold : j.told = .start id invocation :: toldFrom id iteration turns) :
    j.steps = List.range' iteration turns.length := by
  rw [← List.append_nil (toldFrom id iteration turns)] at htold
  exact (readings_of_told htold (by simp)).1

end

/-! ## The turns up to a point -/

/-- Every one of these turns had a reply. -/
def Answered (turns : List ToldTurn) : Prop := ∀ t ∈ turns, t.call.isSome

/-- The last of these turns was only announced, and every one before it had a reply. -/
def Unanswered (turns : List ToldTurn) : Prop :=
  ∃ earlier, turns = earlier ++ [.announced] ∧ Answered earlier

theorem answered_concat {earlier : List ToldTurn} {t : ToldTurn} (h : Answered earlier)
    (ht : t.call.isSome) : Answered (earlier ++ [t]) := by
  intro u hu
  rcases List.mem_append.1 hu with hu | hu
  · exact h u hu
  · rw [List.mem_singleton.1 hu]
    exact ht

/-- What a phase knows of the turns up to it. -/
def Phase.Shape : Phase → List ToldTurn → Prop
  | .turn, turns => Answered turns
  | .replied _, turns => Unanswered turns
  | _, turns => turns ≠ [] ∧ Answered turns

/-- What the stride from a phase leaves of the turns up to its end. -/
def Phase.Leaves : Phase → List ToldTurn → Prop
  | .turn, turns => Unanswered turns
  | _, turns => turns ≠ [] ∧ Answered turns

/-- A stride leaves its last turn without a reply exactly when it asks the model. -/
theorem Phase.Leaves.unanswered_iff {phase : Phase} {turns : List ToldTurn}
    (h : phase.Leaves turns) : Unanswered turns ↔ phase = .turn := by
  have hanswered : Answered turns → ¬ Unanswered turns := by
    rintro hall ⟨earlier, rfl, -⟩
    cases hall .announced (List.mem_append_right _ (List.mem_singleton_self _))
  match phase with
  | .turn => exact iff_of_true h rfl
  | .replied _ | .dispatching _ _ | .deferring _ | .closing =>
    exact iff_of_false (hanswered h.2) Phase.noConfusion

theorem Phase.Leaves.unanswered_or {phase : Phase} {turns : List ToldTurn}
    (h : phase.Leaves turns) : Unanswered turns ∨ turns ≠ [] ∧ Answered turns := by
  match phase with
  | .turn => exact .inl h
  | .replied _ | .dispatching _ _ | .deferring _ | .closing => exact .inr h

/-- A journal tells of these turns, and the run is in this phase. -/
structure TellsTurns (inv : Invocation) (phase : Phase) (turns : List ToldTurn) (j : Journal) :
    Prop where
  told : j.told = .start inv.traceId inv.id :: toldFrom inv.traceId 1 turns
  shape : phase.Shape turns

namespace Controller

variable {M G B X : Type} {c : Controller M G B X} {inv : Invocation} {w : World M G B X}
  {phase : Phase} {past journal : Journal} {s : Stand M G B X} {flow : Flow}

theorem length_of_tellsTurns {turns : List ToldTurn} (h : c.Reaches inv w phase past s)
    (htells : TellsTurns inv phase turns past) : turns.length = s.state.iterations := by
  have hsteps := steps_of_told htells.told
  rw [steps_of_reaches h] at hsteps
  simpa using congrArg List.length hsteps.symm

/-- However the run flows on, a stride announces a turn, or tells of its reply or of one more
call. -/
theorem exists_told_stride {turns : List ToldTurn} (h : c.Reaches inv w phase past s)
    (htells : TellsTurns inv phase turns past) :
    ∃ turns', (past ++ (c.stride inv phase s).1.journal).told =
        .start inv.traceId inv.id :: toldFrom inv.traceId 1 turns' ∧
      phase.Leaves turns' := by
  have hshape := htells.shape
  have hlength := length_of_tellsTurns h htells
  rw [Journal.told_append, c.told_stride inv (awaits_of_reaches h).pending, htells.told,
    List.cons_append]
  match phase with
  | .turn =>
    refine ⟨turns ++ [.announced], ?_, turns, rfl, hshape⟩
    rw [toldFrom_concat, hlength, Nat.add_comm 1]
    rfl
  | .replied reply =>
    obtain ⟨earlier, rfl, hearlier⟩ := hshape
    refine ⟨earlier ++ [⟨some (.ofReply reply), []⟩], ?_, by simp, answered_concat hearlier rfl⟩
    rw [toldFrom_concat, toldFrom_concat, List.append_assoc]
    rfl
  | .dispatching (call :: calls) deferred =>
    obtain ⟨hne, hanswered⟩ := hshape
    obtain ⟨earlier, t, rfl⟩ : ∃ earlier t, turns = earlier ++ [t] :=
      ⟨_, _, (List.dropLast_concat_getLast hne).symm⟩
    refine ⟨earlier ++ [t.withAction ((c.judge inv call s.world).1.record call
      ((c.judge inv call s.world).2.1.now - s.world.now))], ?_, by simp, ?_⟩
    · rw [toldFrom_concat, toldFrom_concat, events_withAction, ← List.append_assoc]
      rfl
    · exact answered_concat (fun u hu => hanswered u (List.mem_append_left _ hu))
        (hanswered t (List.mem_append_right _ (List.mem_singleton_self t)))
  | .dispatching [] deferred | .deferring calls | .closing =>
    exact ⟨turns, congrArg _ (List.append_nil _), hshape⟩

/-- A run that goes on knows of its turns what the last stride has left. -/
theorem shape_of_leaves {turns : List ToldTurn} (hflow : (c.stride inv phase s).1.flow = .goOn)
    (h : phase.Leaves turns) : (c.stride inv phase s).2.Shape turns := by
  match phase with
  | .turn =>
    have hasks := c.asks_askModel inv s
    rw [stride] at hflow ⊢
    generalize c.askModel inv s = asked at hasks hflow ⊢
    cases hasks with
    | replied => exact h
    | _ => cases hflow
  | .replied reply =>
    have htakes := c.takes_strideReply inv reply s
    rw [stride]
    generalize c.strideReply inv reply s = taken at htakes ⊢
    cases htakes <;> exact h
  | .dispatching [] deferred => exact h
  | .dispatching (call :: calls) deferred => exact h
  | .deferring [] => exact h
  | .deferring (call :: calls) => exact h
  | .closing => exact h.2

/-- At every point the tracer was told of the turns up to it. -/
theorem exists_tellsTurns_of_reaches (h : c.Reaches inv w phase past s) :
    ∃ turns, TellsTurns inv phase turns past := by
  induction h with
  | begin hadopt => exact ⟨[], rfl, fun _ ht => nomatch ht⟩
  | stride hpast hflow ih =>
    obtain ⟨turns, htells⟩ := ih
    obtain ⟨turns', htold, hleaves⟩ := exists_told_stride hpast htells
    exact ⟨turns', htold, shape_of_leaves hflow hleaves⟩

/-- However a run ends, the tracer was told of its turns.  Only the last one can be without a
reply. -/
theorem exists_told_of_ends (h : c.Ends inv w journal s flow) :
    ∃ turns, journal.told = .start inv.traceId inv.id :: toldFrom inv.traceId 1 turns ∧
      (Unanswered turns ∨ turns ≠ [] ∧ Answered turns) := by
  obtain @⟨phase, past, s, hpast, hflow⟩ := h
  obtain ⟨turns, htells⟩ := exists_tellsTurns_of_reaches hpast
  obtain ⟨turns', htold, hleaves⟩ := exists_told_stride hpast htells
  exact ⟨turns', htold, hleaves.unanswered_or⟩

/-! ## The replies, as they are told -/

theorem modelCalls_stride (hpending : s.state.transcript.pending = phase.open) :
    (c.stride inv phase s).1.journal.modelCalls = phase.incoming.map ModelCall.ofReply := by
  rw [Journal.modelCalls, c.told_stride inv hpending]
  match phase with
  | .turn => rfl
  | .replied reply => rfl
  | .dispatching [] deferred => rfl
  | .dispatching (call :: calls) deferred => rfl
  | .deferring calls => rfl
  | .closing => rfl

theorem modelCalls_append (j k : Journal) : (j ++ k).modelCalls = j.modelCalls ++ k.modelCalls := by
  rw [Journal.modelCalls, Journal.told_append, List.filterMap_append]
  rfl

/-- The tracer knows every reply but the one that just came in. -/
theorem modelCalls_of_reaches (h : c.Reaches inv w phase past s) :
    past.replies.map ModelCall.ofReply =
      past.modelCalls ++ phase.incoming.map ModelCall.ofReply := by
  induction h with
  | begin hadopt => rfl
  | stride hpast hflow ih =>
    rw [replies_of_reaches_stride hpast, List.map_append, ih, modelCalls_append,
      modelCalls_stride (awaits_of_reaches hpast).pending]

theorem modelCalls_of_ends (h : c.Ends inv w journal s flow) :
    journal.modelCalls = journal.replies.map ModelCall.ofReply := by
  obtain @⟨phase, past, s, hpast, hflow⟩ := h
  rw [replies_of_reaches_stride hpast, c.incoming_of_ne_goOn inv hflow, List.append_nil,
    modelCalls_of_reaches hpast, modelCalls_append,
    modelCalls_stride (awaits_of_reaches hpast).pending]

/-! ## The end of a run -/

/-- Of the end of a run the tracer is told at most that it has ended. -/
theorem eq_finish_of_mem_told_farewell {event : TraceEvent}
    (h : event ∈ (farewell inv s flow).told) : ∃ outcome, event = .finish inv.traceId outcome := by
  cases flow with
  | goOn | stalled => cases h
  | stop | cancelled | failed => exact ⟨_, List.mem_singleton.1 h⟩

/-- The journal of a run tells of its turns, and then at most of its end. -/
theorem exists_told_reportOf (h : c.Ends inv w journal s flow) :
    ∃ turns ending, (reportOf inv w journal s flow).journal.told =
        .start inv.traceId inv.id :: (toldFrom inv.traceId 1 turns ++ ending) ∧
      ∀ event ∈ ending, ∃ outcome, event = .finish inv.traceId outcome := by
  obtain ⟨turns, htold, -⟩ := exists_told_of_ends h
  refine ⟨turns, (farewell inv s flow).told, ?_, fun _ => eq_finish_of_mem_told_farewell⟩
  rw [reportOf, Journal.told_append, htold, List.cons_append]

theorem modelCalls_farewell : (farewell inv s flow).modelCalls = [] := by
  refine List.filterMap_eq_nil_iff.2 fun event hevent => ?_
  obtain ⟨outcome, rfl⟩ := eq_finish_of_mem_told_farewell hevent
  rfl

/-- When a run is over the tracer knows every reply. -/
theorem modelCalls_run :
    (c.run inv w).journal.modelCalls = (c.run inv w).journal.replies.map ModelCall.ofReply := by
  rcases c.run_cases inv w with ⟨error, -, hrun⟩ | ⟨journal, s, flow, hends, hrun⟩
  · rw [hrun]
    rfl
  · rw [hrun, Journal.replies, pick_reportOf inv Journal.skipsReports_reply?, reportOf,
      modelCalls_append, modelCalls_farewell, List.append_nil]
    exact modelCalls_of_ends hends

end Controller

end AgentLoop
