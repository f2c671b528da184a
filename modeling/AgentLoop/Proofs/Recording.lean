import AgentLoop.Proofs.ToldTurns
import Mathlib.Algebra.GroupWithZero.Nat

/-!
# What a recorder makes of a run

A recorder that follows a run keeps one trace of it, as its newest one, and in this trace one step
for each turn that it was told of.  What the steps contain is what was told; only the times at which
the reports came are added.  The totals count every report.

* `Step.told` is a step without its times.
* `LoopTrace.follow` is a trace after reports about it; `exists_steps_of_toldFrom` says that the
  reports of some turns give one step for each of them.
* `traces_take` and `totals_follow` are a recorder that follows reports, `find?_follow` is the trace
  that it has kept, and `exists_trace_of_told` says what this is of a run.
* `LoopTrace.Follows` says that a trace is made of some turns; its sums are then those of the turns.
-/

namespace AgentLoop

/-- The report of which an action was made. -/
def Action.report (a : Action) : ActionRecord :=
  ⟨a.callId, a.toolName, a.status, a.detail, a.durationMs⟩

@[simp] theorem Action.report_ofRecord (r : ActionRecord) (time : Timestamp) :
    (Action.ofRecord r time).report = r := rfl

/-- What was told of a step. -/
def Step.told (s : Step) : ToldTurn := ⟨s.modelCall, s.actions.map Action.report⟩

namespace LoopTrace

variable (epoch : Timestamp) {id : String} {reports : List (Nat × TraceEvent)}

/-! ## One trace -/

@[simp] theorem changeLast_concat (f : Step → Step) (time : Timestamp) (earlier : List Step)
    (s : Step) : changeLast f time (earlier ++ [s]) = earlier ++ [f s] := by
  induction earlier with
  | nil => rfl
  | cons first earlier ih =>
    cases earlier with
    | nil => rfl
    | cons second earlier =>
      simp only [List.cons_append, changeLast] at ih ⊢
      rw [ih]

/-- A trace after reports about it, each with the time of the clock at which it came. -/
def follow (epoch : Timestamp) (t : LoopTrace) (reports : List (Nat × TraceEvent)) : LoopTrace :=
  reports.foldl (fun t report => TraceRecorder.record (epoch.addMillis report.1) report.2 t) t

/-- The trace with these steps. -/
def withSteps (t : LoopTrace) (steps : List Step) : LoopTrace := { t with steps }

@[simp] theorem id_record (time : Timestamp) (event : TraceEvent) (t : LoopTrace) :
    (TraceRecorder.record time event t).id = t.id := by
  cases event <;> rfl

/-- Reports about calls go to the last step. -/
theorem follow_actions {records : List ActionRecord}
    (h : reports.map Prod.snd = records.map (TraceEvent.action id)) (t : LoopTrace)
    (earlier : List Step) (s : Step) :
    ∃ s', (t.withSteps (earlier ++ [s])).follow epoch reports = t.withSteps (earlier ++ [s']) ∧
      s'.iteration = s.iteration ∧ s'.told = ⟨s.told.call, s.told.actions ++ records⟩ := by
  induction records generalizing reports s with
  | nil =>
    obtain rfl : reports = [] := by simpa using h
    exact ⟨s, rfl, rfl, by simp⟩
  | cons record records ih =>
    obtain ⟨⟨time, event⟩, rest, rfl, rfl, hrest⟩ := List.map_eq_cons_iff.1 h
    obtain ⟨s', hfollow, hiteration, htold⟩ := ih hrest
      { s with actions := s.actions ++ [.ofRecord record (epoch.addMillis time)] }
    refine ⟨s', ?_, hiteration, ?_⟩
    · rw [← hfollow]
      simp [follow, TraceRecorder.record, changeStep, withSteps]
    · rw [htold]
      simp [Step.told]

/-- Reports about a turn make a step of it. -/
theorem exists_step_of_events {iteration : Nat} {turn : ToldTurn}
    (h : reports.map Prod.snd = turn.events id iteration) (t : LoopTrace) :
    ∃ s, t.follow epoch reports = t.withSteps (t.steps ++ [s]) ∧ s.iteration = iteration ∧
      s.told = turn := by
  obtain ⟨⟨time, event⟩, rest, rfl, rfl, hrest⟩ := List.map_eq_cons_iff.1 h
  obtain ⟨call, actions⟩ := turn
  cases call with
  | none =>
    obtain ⟨s, hfollow, hiteration, htold⟩ := follow_actions epoch hrest t t.steps
      (.empty iteration (epoch.addMillis time))
    exact ⟨s, hfollow, hiteration, htold⟩
  | some m =>
    have hcall : rest.map Prod.snd =
        .modelCall id m.model m.usage m.toolCalls :: actions.map (TraceEvent.action id) := hrest
    obtain ⟨⟨later, event⟩, rest, rfl, rfl, hactions⟩ := List.map_eq_cons_iff.1 hcall
    obtain ⟨s, hfollow, hiteration, htold⟩ := follow_actions epoch hactions t t.steps
      { Step.empty iteration (epoch.addMillis time) with modelCall := some m }
    refine ⟨s, ?_, hiteration, htold⟩
    rw [← hfollow]
    simp [follow, TraceRecorder.record, changeStep, addStep, withSteps]

/-- Reports about turns make one step of each. -/
theorem exists_steps_of_toldFrom {iteration : Nat} {turns : List ToldTurn}
    (h : reports.map Prod.snd = toldFrom id iteration turns) (t : LoopTrace) :
    ∃ steps, t.follow epoch reports = t.withSteps (t.steps ++ steps) ∧
      steps.map Step.iteration = List.range' iteration turns.length ∧
      steps.map Step.told = turns := by
  induction turns generalizing reports iteration t with
  | nil =>
    obtain rfl : reports = [] := by simpa [toldFrom] using h
    exact ⟨[], by simp [follow, withSteps], rfl, rfl⟩
  | cons turn turns ih =>
    obtain ⟨first, rest, rfl, hfirst, hrest⟩ := List.map_eq_append_iff.1 h
    obtain ⟨s, hs, hiteration, htold⟩ := exists_step_of_events epoch hfirst t
    obtain ⟨steps, hsteps, hiterations, htolds⟩ := ih hrest (t.withSteps (t.steps ++ [s]))
    refine ⟨s :: steps, ?_, ?_, ?_⟩
    · rw [follow, List.foldl_append]
      change (t.follow epoch first).follow epoch rest = _
      rw [hs, hsteps]
      simp [withSteps]
    · rw [List.map_cons, hiteration, hiterations, List.length_cons, List.range'_succ]
    · rw [List.map_cons, htold, htolds]

theorem follow_append (t : LoopTrace) (first rest : List (Nat × TraceEvent)) :
    t.follow epoch (first ++ rest) = (t.follow epoch first).follow epoch rest :=
  List.foldl_append

/-- The end of a run leaves the steps of its trace as they are. -/
theorem steps_follow_finish (t : LoopTrace) (h : ∀ report ∈ reports, ∃ outcome,
    report.2 = .finish id outcome) : (t.follow epoch reports).steps = t.steps := by
  induction reports generalizing t with
  | nil => rfl
  | cons report reports ih =>
    obtain ⟨outcome, hreport⟩ := h report List.mem_cons_self
    have hrest := ih (TraceRecorder.record (epoch.addMillis report.1) report.2 t)
      fun other hother => h other (List.mem_cons_of_mem _ hother)
    rw [follow, List.foldl_cons, ← follow, hrest, hreport]
    rfl

/-- A trace is made of these turns. -/
structure Follows (t : LoopTrace) (turns : List ToldTurn) : Prop where
  iterations : t.steps.map Step.iteration = List.range' 1 turns.length
  told : t.steps.map Step.told = turns

namespace Follows

variable {t : LoopTrace} {turns : List ToldTurn}

/-- The tokens of a trace are those of the model calls in its turns. -/
theorem totalTokens_eq (h : t.Follows turns) :
    t.totalTokens = ((turns.filterMap ToldTurn.call).map fun m => tokensOf m.usage).sum := by
  rw [← h.told, totalTokens]
  induction t.steps with
  | nil => rfl
  | cons s steps ih =>
    rw [List.map_cons, List.foldr_cons, ih, List.map_cons, List.filterMap_cons, Step.tokens,
      Step.told]
    cases s.modelCall <;> simp [tokensOf]

theorem modelCallCount_eq (h : t.Follows turns) :
    t.modelCallCount = (turns.filterMap ToldTurn.call).length := by
  rw [← h.told, modelCallCount]
  induction t.steps with
  | nil => rfl
  | cons s steps ih =>
    rw [List.countP_cons, ih, List.map_cons, List.filterMap_cons, Step.told]
    cases s.modelCall <;> simp

theorem actions_eq (h : t.Follows turns) :
    t.actions.map Action.report = turns.flatMap ToldTurn.actions := by
  rw [← h.told, actions, List.map_flatMap, List.flatMap_map]
  rfl

end Follows

@[simp] theorem id_follow (t : LoopTrace) : (t.follow epoch reports).id = t.id := by
  induction reports generalizing t with
  | nil => rfl
  | cons report reports ih =>
    rw [follow, List.foldl_cons, ← follow, ih, id_record]

/-- A new trace that is told of turns, and then of its end, is made of these turns. -/
theorem follows_begin {turns : List ToldTurn} {ending : List TraceEvent}
    (htold : reports.map Prod.snd = toldFrom id 1 turns ++ ending)
    (hending : ∀ event ∈ ending, ∃ outcome, event = .finish id outcome) (invocation : String)
    (time : Timestamp) : (follow epoch (.begin id invocation time) reports).Follows turns := by
  obtain ⟨first, last, rfl, hfirst, hlast⟩ := List.map_eq_append_iff.1 htold
  obtain ⟨steps, hsteps, hiterations, hturns⟩ :=
    exists_steps_of_toldFrom epoch hfirst (.begin id invocation time)
  have hfinish : ∀ report ∈ last, ∃ outcome, report.2 = .finish id outcome :=
    fun report hreport => hending _ (hlast ▸ List.mem_map_of_mem hreport)
  have hkept : (follow epoch (.begin id invocation time) (first ++ last)).steps = steps := by
    rw [follow_append, hsteps, steps_follow_finish epoch _ hfinish]
    rfl
  constructor
  · rw [hkept, hiterations]
  · rw [hkept, hturns]

end LoopTrace

/-! ## The recorder -/

namespace TraceRecorder

variable (epoch : Timestamp) {id : String} {reports : List (Nat × TraceEvent)}

theorem dropOne_sublist (traces : List LoopTrace) : (dropOne traces).Sublist traces := by
  rw [dropOne]
  split
  · exact List.eraseP_sublist
  · exact List.drop_sublist 1 traces

/-- To make room no trace is changed. -/
theorem prune_sublist (limit excess : Nat) (traces : List LoopTrace) :
    (prune limit excess traces).Sublist traces := by
  induction excess generalizing traces with
  | zero => exact List.Sublist.refl _
  | succ excess ih =>
    rw [prune]
    split
    · exact (ih _).trans (dropOne_sublist traces)
    · exact List.Sublist.refl _

theorem change_concat {f : LoopTrace → LoopTrace} {others : List LoopTrace} {t : LoopTrace}
    (hothers : ∀ other ∈ others, other.id ≠ id) (ht : t.id = id) :
    change id f (others ++ [t]) = others ++ [f t] := by
  induction others with
  | nil => simp [change, ht]
  | cons other others ih =>
    rw [List.cons_append, change, if_neg (hothers other List.mem_cons_self),
      ih fun u hu => hothers u (List.mem_cons_of_mem _ hu)]
    rfl

/-- A recorder after reports, each with the time of the clock at which it came. -/
def take (epoch : Timestamp) (r : TraceRecorder) (reports : List (Nat × TraceEvent)) :
    TraceRecorder :=
  reports.foldl (fun r (time, event) => r.apply (epoch.addMillis time) event) r

/-- Reports about the newest trace change it, and no other one. -/
theorem traces_take {r : TraceRecorder} {others : List LoopTrace} {t : LoopTrace}
    (hothers : ∀ other ∈ others, other.id ≠ id) (ht : t.id = id)
    (hreports : ∀ report ∈ reports, report.2.traceId = id ∧
      ∀ other invocation, report.2 ≠ .start other invocation)
    (hr : r.traces = others ++ [t]) :
    (r.take epoch reports).traces = others ++ [t.follow epoch reports] := by
  induction reports generalizing r t with
  | nil => exact hr
  | cons report reports ih =>
    obtain ⟨hid, hstart⟩ := hreports report List.mem_cons_self
    refine ih (t := record (epoch.addMillis report.1) report.2 t) ?_ ?_ ?_
    · rw [LoopTrace.id_record, ht]
    · exact fun other hother => hreports other (List.mem_cons_of_mem _ hother)
    · obtain ⟨time, event⟩ := report
      subst hid
      have hchange := change_concat (f := record (epoch.addMillis time) event) hothers ht
      rw [← hr] at hchange
      cases event with
      | start other invocation => exact absurd rfl (hstart other invocation)
      | _ => exact hchange

theorem find?_of_traces {r : TraceRecorder} {others : List LoopTrace} {t : LoopTrace}
    (hothers : ∀ other ∈ others, other.id ≠ id) (ht : t.id = id) (hr : r.traces = others ++ [t]) :
    r.find? id = some t := by
  rw [find?, hr, List.find?_append, List.find?_eq_none.2 (by simpa using hothers)]
  simp [ht]

/-- The totals count every report. -/
theorem totals_take (r : TraceRecorder) :
    (r.take epoch reports).totals = (reports.map Prod.snd).foldl count r.totals := by
  induction reports generalizing r with
  | nil => rfl
  | cons report reports ih => exact ih _

/-- What reports add to the totals. -/
theorem foldl_count (events : List TraceEvent) (totals : TraceTotals) :
    (events.foldl count totals).modelCalls =
        totals.modelCalls + (events.filterMap TraceEvent.modelCall?).length ∧
      (events.foldl count totals).tokens =
        totals.tokens +
          ((events.filterMap TraceEvent.modelCall?).map fun m => tokensOf m.usage).sum ∧
      (events.foldl count totals).actions =
        totals.actions + (events.filterMap TraceEvent.action?).length ∧
      (events.foldl count totals).failedActions =
        totals.failedActions +
          (events.filterMap TraceEvent.action?).countP fun r => !r.status.isSuccess := by
  induction events generalizing totals with
  | nil => exact ⟨rfl, rfl, rfl, rfl⟩
  | cons event events ih =>
    obtain ⟨hcalls, htokens, hactions, hfailed⟩ := ih (count totals event)
    simp only [List.foldl_cons, hcalls, htokens, hactions, hfailed]
    cases event with
    | modelCall id model usage toolCalls =>
      have hmore : (TraceEvent.modelCall id model usage toolCalls :: events).filterMap
          TraceEvent.modelCall? =
          ⟨model, usage, toolCalls⟩ :: events.filterMap TraceEvent.modelCall? := rfl
      have hsame : (TraceEvent.modelCall id model usage toolCalls :: events).filterMap
          TraceEvent.action? = events.filterMap TraceEvent.action? := rfl
      rw [hmore, hsame]
      refine ⟨?_, ?_, rfl, rfl⟩
      · simp only [count, List.length_cons]
        omega
      · simp only [count, List.map_cons, List.sum_cons]
        omega
    | action id report =>
      have hsame : (TraceEvent.action id report :: events).filterMap TraceEvent.modelCall? =
          events.filterMap TraceEvent.modelCall? := rfl
      have hmore : (TraceEvent.action id report :: events).filterMap TraceEvent.action? =
          report :: events.filterMap TraceEvent.action? := rfl
      rw [hmore, hsame]
      refine ⟨rfl, rfl, ?_, ?_⟩
      · simp only [count, List.length_cons]
        omega
      · simp only [count, List.countP_cons]
        cases report.status.isSuccess <;> simp
        omega
    | _ => exact ⟨rfl, rfl, rfl, rfl⟩

end TraceRecorder

/-! ## A recorder that follows a run -/

theorem Journal.told_eq_map (j : Journal) : j.told = j.traceEvents.map Prod.snd := by
  rw [told, pick, traceEvents, List.map_filterMap]
  congr
  funext entry
  cases entry.event <;> rfl

/-- A recorder that follows a journal adds to its totals what the journal tells. -/
theorem TraceRecorder.totals_follow (r : TraceRecorder) (epoch : Timestamp) (j : Journal) :
    (r.follow epoch j).totals.modelCalls = r.totals.modelCalls + j.modelCalls.length ∧
      (r.follow epoch j).totals.tokens =
        r.totals.tokens + (j.modelCalls.map fun m => tokensOf m.usage).sum ∧
      (r.follow epoch j).totals.actions = r.totals.actions + j.actions.length ∧
      (r.follow epoch j).totals.failedActions =
        r.totals.failedActions + j.actions.countP fun a => !a.status.isSuccess := by
  have htotals : (r.follow epoch j).totals = j.told.foldl count r.totals := by
    rw [Journal.told_eq_map]
    exact totals_take epoch r
  rw [htotals]
  exact foldl_count j.told r.totals

/-- A recorder that is told of a trace with an id of its own has this trace: a new one, after all
that is told of it. -/
theorem TraceRecorder.find?_follow (r : TraceRecorder) (epoch : Timestamp) {j : Journal}
    {id invocation : String} {time : Nat} {reports : List (Nat × TraceEvent)}
    (hnew : ∀ t ∈ r.traces, t.id ≠ id)
    (hj : j.traceEvents = (time, .start id invocation) :: reports)
    (hreports : ∀ report ∈ reports, report.2.traceId = id ∧
      ∀ other invocation, report.2 ≠ .start other invocation) :
    (r.follow epoch j).find? id =
      some (LoopTrace.follow epoch (.begin id invocation (epoch.addMillis time)) reports) := by
  have hothers : ∀ other ∈ prune r.maxTraces r.traces.length r.traces, other.id ≠ id :=
    fun other hother => hnew other ((prune_sublist _ _ _).mem hother)
  have htraces := traces_take epoch (r := r.apply (epoch.addMillis time) (.start id invocation))
    (t := .begin id invocation (epoch.addMillis time)) hothers rfl hreports rfl
  refine find?_of_traces hothers (LoopTrace.id_follow epoch _) ?_
  rw [follow, hj]
  exact htraces

/-- What is told of a trace after its start, if that is turns and the end of a run. -/
theorem TraceRecorder.traceId_of_told {id : String} {turns : List ToldTurn}
    {ending : List TraceEvent} {reports : List (Nat × TraceEvent)}
    (htold : reports.map Prod.snd = toldFrom id 1 turns ++ ending)
    (hending : ∀ event ∈ ending, ∃ outcome, event = .finish id outcome) :
    ∀ report ∈ reports, report.2.traceId = id ∧
      ∀ other invocation, report.2 ≠ .start other invocation := by
  intro report hreport
  have hmem : report.2 ∈ toldFrom id 1 turns ++ ending := htold ▸ List.mem_map_of_mem hreport
  rcases List.mem_append.1 hmem with hmem | hmem
  · exact traceId_of_mem_toldFrom hmem
  · obtain ⟨outcome, houtcome⟩ := hending _ hmem
    rw [houtcome]
    exact ⟨rfl, fun _ _ => TraceEvent.noConfusion⟩

/-- A recorder that follows a run with an id of its own has kept one trace of it, made of the turns
that were told. -/
theorem TraceRecorder.exists_trace_of_told (r : TraceRecorder) (epoch : Timestamp) {j : Journal}
    {id invocation : String} {turns : List ToldTurn} {ending : List TraceEvent}
    (hnew : ∀ t ∈ r.traces, t.id ≠ id)
    (htold : j.told = .start id invocation :: (toldFrom id 1 turns ++ ending))
    (hending : ∀ event ∈ ending, ∃ outcome, event = .finish id outcome) :
    ∃ t, (r.follow epoch j).find? id = some t ∧ t.Follows turns := by
  rw [Journal.told_eq_map] at htold
  obtain ⟨⟨time, event⟩, reports, hreports, rfl, hrest⟩ := List.map_eq_cons_iff.1 htold
  exact ⟨_, r.find?_follow epoch hnew hreports (traceId_of_told hrest hending),
    LoopTrace.follows_begin epoch hrest hending invocation _⟩

end AgentLoop
