import AgentLoop.Proofs.Retention
import Mathlib.Data.List.Chain

/-!
# Totals survive eviction

The totals of a recorder are counted up report by report, on a way of their own, while the traces
that are reported on may long be gone.  They are nevertheless sums over traces: over all that were
ever started, as they would stand if none had been evicted.

There are four groups.

* Sums.  `TraceTotals.ofTraces` are the sums over some traces, and `ofTraces_cons` adds those of one
  trace to those of the others.
* Reports.  `WellReported` says that reports are about traces that were started, and that no step
  has two model calls.  `callMarks` are the steps and model calls of one trace, and
  `LoopTrace.called` says that the current step of a trace has its call.
* One report.  `ofTraces_record` says that a report adds to the sums of its trace what it adds to
  the totals, and `ofTraces_change` says so of all traces.
* A recorder with room for all traces.  `Keeps` is the invariant, `Keeps.apply` is one report, and
  `keeps_recorded` says that such a recorder keeps every trace.  `sublist_recorded` compares it with
  one that evicts, and `totals_survive_eviction` is the result.
-/

namespace AgentLoop

/-! ## Sums -/

/-- One for a step in which the model was called. -/
def Step.calls (s : Step) : Nat := if s.modelCall.isSome then 1 else 0

/-- The number of actions of a step that did not succeed. -/
def Step.failures (s : Step) : Nat := s.actions.countP fun a => !a.status.isSuccess

namespace LoopTrace

/-- The sum of this over all steps. -/
def sumSteps (g : Step → Nat) (t : LoopTrace) : Nat := (t.steps.map g).sum

theorem modelCallCount_eq_sumSteps (t : LoopTrace) : t.modelCallCount = t.sumSteps Step.calls := by
  rw [modelCallCount, sumSteps]
  induction t.steps with
  | nil => rfl
  | cons s steps ih =>
    rw [List.countP_cons, ih, List.map_cons, List.sum_cons, Nat.add_comm, Step.calls]

theorem totalTokens_eq_sumSteps (t : LoopTrace) : t.totalTokens = t.sumSteps Step.tokens := by
  rw [totalTokens, sumSteps]
  induction t.steps with
  | nil => rfl
  | cons s steps ih => rw [List.map_cons, List.foldr_cons, ih, List.sum_cons]

theorem actionCount_eq_sumSteps (t : LoopTrace) :
    t.actionCount = t.sumSteps fun s => s.actions.length := by
  rw [actionCount, actions, List.length_flatMap, sumSteps]

theorem failedActionCount_eq_sumSteps (t : LoopTrace) :
    t.failedActionCount = t.sumSteps Step.failures := by
  rw [failedActionCount, actions, List.countP_flatMap, sumSteps]
  rfl

/-- The current step: the last one, and before there is any a step zero. -/
def current (t : LoopTrace) (time : Timestamp) : Step := t.steps.getLast?.getD (.empty 0 time)

/-- The current step of the trace has its model call. -/
def called (t : LoopTrace) : Bool := t.steps.getLast?.any fun s => s.modelCall.isSome

theorem isSome_modelCall_current (t : LoopTrace) (time : Timestamp) :
    (t.current time).modelCall.isSome = t.called := by
  rw [called, current]
  cases t.steps.getLast? <;> rfl

theorem modelCall_current {t : LoopTrace} (h : t.called = false) (time : Timestamp) :
    (t.current time).modelCall = none := by
  rw [← Option.isNone_iff_eq_none, ← Option.not_isSome, isSome_modelCall_current, h]
  rfl

/-- What changing the current step adds to this step is added to the sum. -/
theorem sumSteps_changeStep {g : Step → Nat} {f : Step → Step} {time : Timestamp} {t : LoopTrace}
    {n : Nat} (hempty : g (.empty 0 time) = 0)
    (hf : g (f (t.current time)) = g (t.current time) + n) :
    (t.changeStep f time).sumSteps g = t.sumSteps g + n := by
  rw [current] at hf
  rw [sumSteps, sumSteps, changeStep]
  rcases List.eq_nil_or_concat' t.steps with hnil | ⟨earlier, s, hconcat⟩
  · rw [hnil] at hf ⊢
    simpa [changeLast, hempty] using hf
  · rw [hconcat, List.getLast?_concat, Option.getD_some] at hf
    simp only [hconcat, changeLast_concat, List.map_append, List.sum_append, List.map_cons,
      List.map_nil, List.sum_singleton, hf, Nat.add_assoc]

theorem sumSteps_addStep {g : Step → Nat} {iteration : Nat} {time : Timestamp}
    (hempty : g (.empty iteration time) = 0) (t : LoopTrace) :
    (t.addStep iteration time).sumSteps g = t.sumSteps g := by
  simp [sumSteps, addStep, hempty]

theorem called_changeStep (f : Step → Step) (time : Timestamp) (t : LoopTrace) :
    (t.changeStep f time).called = (f (t.current time)).modelCall.isSome := by
  rw [called, current, changeStep]
  rcases List.eq_nil_or_concat' t.steps with hnil | ⟨earlier, s, hconcat⟩
  · simp [hnil, changeLast]
  · simp [hconcat]

end LoopTrace

namespace TraceTotals

instance : Add TraceTotals where
  add a b := ⟨a.traces + b.traces, a.modelCalls + b.modelCalls, a.actions + b.actions,
    a.failedActions + b.failedActions, a.tokens + b.tokens⟩

theorem add_def (a b : TraceTotals) :
    a + b = ⟨a.traces + b.traces, a.modelCalls + b.modelCalls, a.actions + b.actions,
      a.failedActions + b.failedActions, a.tokens + b.tokens⟩ := rfl

/-- The sums over some traces. -/
def ofTraces (traces : List LoopTrace) : TraceTotals where
  traces := traces.length
  modelCalls := (traces.map LoopTrace.modelCallCount).sum
  actions := (traces.map LoopTrace.actionCount).sum
  failedActions := (traces.map LoopTrace.failedActionCount).sum
  tokens := (traces.map LoopTrace.totalTokens).sum

theorem ofTraces_append (traces later : List LoopTrace) :
    ofTraces (traces ++ later) = ofTraces traces + ofTraces later := by
  simp [ofTraces, add_def]

theorem ofTraces_cons (t : LoopTrace) (traces : List LoopTrace) :
    ofTraces (t :: traces) = ofTraces [t] + ofTraces traces :=
  ofTraces_append [t] traces

/-- The sums of one trace are sums over its steps. -/
theorem ofTraces_singleton (t : LoopTrace) :
    ofTraces [t] = ⟨1, t.sumSteps Step.calls, t.sumSteps fun s => s.actions.length,
      t.sumSteps Step.failures, t.sumSteps Step.tokens⟩ := by
  simp only [ofTraces, List.map_cons, List.map_nil, List.sum_singleton, List.length_singleton,
    LoopTrace.modelCallCount_eq_sumSteps, LoopTrace.actionCount_eq_sumSteps,
    LoopTrace.failedActionCount_eq_sumSteps, LoopTrace.totalTokens_eq_sumSteps]

end TraceTotals

namespace TraceRecorder

variable {epoch time : Timestamp} {id invocation : String} {event : TraceEvent} {limit large : Nat}
  {traces : List LoopTrace} {t : LoopTrace} {reports : List (Nat × TraceEvent)}
  {report : Nat × TraceEvent} {r : TraceRecorder}

/-! ## Reports -/

/-- What a report about a trace says about model calls: that there was one, or that the next step
has none yet. -/
def callMark? (id : String) : TraceEvent → Option Bool
  | .step traceId _ => if traceId = id then some false else none
  | .modelCall traceId .. => if traceId = id then some true else none
  | _ => none

/-- The steps and model calls of a trace, in order. -/
def callMarks (id : String) (reports : List (Nat × TraceEvent)) : List Bool :=
  reports.filterMap fun report => callMark? id report.2

/-- Whether the current step of a trace has its model call, by the reports. -/
def calledBy (id : String) (reports : List (Nat × TraceEvent)) : Bool :=
  (callMarks id reports).getLast?.getD false

/-- Reports are only about traces that were started before, and between two model calls of a trace
one of its steps begins. -/
structure WellReported (reports : List (Nat × TraceEvent)) : Prop where
  announced : ∀ n, ∀ h : n < reports.length, reports[n].2.started? = none →
    reports[n].2.traceId ∈ started (reports.take n)
  oneCall : ∀ id ∈ started reports,
    (callMarks id reports).IsChain fun earlier later => earlier = false ∨ later = false

theorem of_callMark? {mark : Bool} (h : callMark? id event = some mark) :
    event.started? = none ∧ event.traceId = id := by
  cases event with
  | step traceId iteration =>
    rw [callMark?] at h
    split at h
    · next hid => exact ⟨rfl, hid⟩
    · cases h
  | modelCall traceId model usage toolCalls =>
    rw [callMark?] at h
    split at h
    · next hid => exact ⟨rfl, hid⟩
    · cases h
  | _ => cases h

theorem callMark?_eq_none (h : event.traceId ≠ id) : callMark? id event = none := by
  by_contra hmark
  obtain ⟨mark, hmark⟩ := Option.ne_none_iff_exists'.1 hmark
  exact h (of_callMark? hmark).2

theorem callMarks_concat : callMarks id (reports ++ [report]) =
    callMarks id reports ++ (callMark? id report.2).toList := by
  rw [callMarks, List.filterMap_append, ← callMarks, List.filterMap_cons]
  cases callMark? id report.2 <;> rfl

theorem calledBy_concat : calledBy id (reports ++ [report]) =
    (callMark? id report.2).getD (calledBy id reports) := by
  rw [calledBy, callMarks_concat]
  cases callMark? id report.2 with
  | none => simp [calledBy]
  | some mark => simp

namespace WellReported

theorem init (h : WellReported (reports ++ [report])) : WellReported reports where
  announced n hn hstart := by
    have hlonger : n < (reports ++ [report]).length := by
      rw [List.length_append]
      omega
    have hsame : (reports ++ [report])[n] = reports[n] := List.getElem_append_left hn
    have htake : (reports ++ [report]).take n = reports.take n :=
      List.take_append_of_le_length (Nat.le_of_lt hn)
    have hmem := h.announced n hlonger (by rw [hsame]; exact hstart)
    rwa [hsame, htake] at hmem
  oneCall id hid := by
    have hchain := h.oneCall id (mem_started_append hid _)
    rw [callMarks_concat] at hchain
    exact hchain.left_of_append

theorem mem_started (h : WellReported (reports ++ [report])) (hstart : report.2.started? = none) :
    report.2.traceId ∈ started reports := by
  have hlast := h.announced reports.length (by simp) (by simpa using hstart)
  simpa using hlast

/-- When a model call is reported, the step that it goes to has none yet. -/
theorem calledBy_eq_false (h : WellReported (reports ++ [report])) (hid : id ∈ started reports)
    (hmark : callMark? id report.2 = some true) : calledBy id reports = false := by
  have hchain := h.oneCall id (mem_started_append hid _)
  rw [callMarks_concat, hmark, List.isChain_append] at hchain
  rw [calledBy]
  cases hlast : (callMarks id reports).getLast? with
  | none => rfl
  | some mark =>
    rcases hchain.2.2 mark hlast true rfl with hfalse | hfalse
    · exact hfalse
    · cases hfalse

/-- Of a trace that was not started nothing is reported. -/
theorem calledBy_of_not_mem (h : WellReported reports) (hid : id ∉ started reports) :
    calledBy id reports = false := by
  have hnil : callMarks id reports = [] := by
    rw [callMarks, List.filterMap_eq_nil_iff]
    intro report hreport
    refine callMark?_eq_none fun htrace => hid ?_
    obtain ⟨n, hn, rfl⟩ := List.getElem_of_mem hreport
    cases hstart : reports[n].2.started? with
    | none =>
      have hmem := mem_started_append (h.announced n hn hstart) (reports.drop n)
      rwa [List.take_append_drop, htrace] at hmem
    | some other =>
      rw [TraceEvent.traceId_of_started? hstart] at htrace
      exact List.mem_filterMap.2 ⟨_, hreport, htrace ▸ hstart⟩
  rw [calledBy, hnil]
  rfl

end WellReported

/-! ## One report -/

/-- Whether the current step of a trace has its call after a report about it. -/
theorem called_record (hstart : event.started? = none) :
    (record time event t).called = (callMark? event.traceId event).getD t.called := by
  cases event with
  | start id invocation => cases hstart
  | step id iteration =>
    simp [record, LoopTrace.addStep, LoopTrace.called, callMark?, TraceEvent.traceId, Step.empty]
  | modelCall id model usage toolCalls =>
    rw [record, LoopTrace.called_changeStep]
    simp [callMark?, TraceEvent.traceId]
  | action id report =>
    rw [record, LoopTrace.called_changeStep, LoopTrace.isSome_modelCall_current]
    rfl
  | finish id outcome => rfl

/-- A report adds to the sums of its trace what it adds to the totals, if a model call that it
reports is the first of its step. -/
theorem ofTraces_record (hstart : event.started? = none)
    (hcall : callMark? event.traceId event = some true → t.called = false) :
    TraceTotals.ofTraces [record time event t] = count (.ofTraces [t]) event := by
  rw [TraceTotals.ofTraces_singleton, TraceTotals.ofTraces_singleton]
  cases event with
  | start id invocation => cases hstart
  | step id iteration =>
    simp only [record, count]
    rw [LoopTrace.sumSteps_addStep rfl, LoopTrace.sumSteps_addStep rfl,
      LoopTrace.sumSteps_addStep rfl, LoopTrace.sumSteps_addStep rfl]
  | modelCall id model usage toolCalls =>
    have hnone := LoopTrace.modelCall_current
      (hcall (by simp [callMark?, TraceEvent.traceId])) time
    simp only [record, count]
    rw [LoopTrace.sumSteps_changeStep (n := 1) rfl (by simp [Step.calls, hnone]),
      LoopTrace.sumSteps_changeStep (n := 0) rfl rfl,
      LoopTrace.sumSteps_changeStep (n := 0) rfl rfl,
      LoopTrace.sumSteps_changeStep (n := tokensOf usage) rfl
        (by simp [Step.tokens, hnone, tokensOf])]
    rfl
  | action id report =>
    simp only [record, count]
    rw [LoopTrace.sumSteps_changeStep (n := 0) rfl rfl,
      LoopTrace.sumSteps_changeStep (n := 1) rfl (by simp),
      LoopTrace.sumSteps_changeStep (n := if report.status.isSuccess then 0 else 1) rfl
        (by cases hstatus : report.status.isSuccess <;>
          simp [Step.failures, Action.ofRecord, hstatus]),
      LoopTrace.sumSteps_changeStep (n := 0) rfl rfl]
    rfl
  | finish id outcome => rfl

theorem count_add_left (hstart : event.started? = none) (a b : TraceTotals) :
    count (a + b) event = count a event + b := by
  cases event with
  | start id invocation => cases hstart
  | modelCall id model usage toolCalls =>
    simp only [count, TraceTotals.add_def, Nat.add_right_comm]
  | action id report => simp only [count, TraceTotals.add_def, Nat.add_right_comm]
  | _ => rfl

theorem count_add_right (hstart : event.started? = none) (a b : TraceTotals) :
    count (a + b) event = a + count b event := by
  cases event with
  | start id invocation => cases hstart
  | modelCall id model usage toolCalls => simp only [count, TraceTotals.add_def, Nat.add_assoc]
  | action id report => simp only [count, TraceTotals.add_def, Nat.add_assoc]
  | _ => rfl

/-- The same of the sums over all traces, if the trace is one of them. -/
theorem ofTraces_change (hstart : event.started? = none)
    (hfind : traces.find? (fun t => t.id == event.traceId) = some t)
    (hcall : callMark? event.traceId event = some true → t.called = false) :
    TraceTotals.ofTraces (change event.traceId (record time event) traces) =
      count (.ofTraces traces) event := by
  induction traces with
  | nil => cases hfind
  | cons u traces ih =>
    rw [change, TraceTotals.ofTraces_cons u]
    by_cases hu : u.id = event.traceId
    · rw [List.find?_cons_of_pos (by simpa using hu)] at hfind
      obtain rfl : u = t := Option.some.inj hfind
      rw [if_pos hu, TraceTotals.ofTraces_cons, ofTraces_record hstart hcall,
        count_add_left hstart]
    · rw [List.find?_cons_of_neg (by simpa using hu)] at hfind
      rw [if_neg hu, TraceTotals.ofTraces_cons, ih hfind, count_add_right hstart]

/-- The trace of an id is the one that is changed. -/
theorem find?_change_self {f : LoopTrace → LoopTrace} (hf : (f t).id = t.id)
    (h : traces.find? (fun t => t.id == id) = some t) :
    (change id f traces).find? (fun t => t.id == id) = some (f t) := by
  induction traces with
  | nil => cases h
  | cons u traces ih =>
    rw [change]
    by_cases hu : u.id = id
    · rw [List.find?_cons_of_pos (by simpa using hu)] at h
      obtain rfl : u = t := Option.some.inj h
      rw [if_pos hu, List.find?_cons_of_pos (by simpa [hf] using hu)]
    · rw [List.find?_cons_of_neg (by simpa using hu)] at h
      rw [if_neg hu, List.find?_cons_of_neg (by simpa using hu)]
      exact ih h

theorem find?_change_other {f : LoopTrace → LoopTrace} (hf : ∀ t, (f t).id = t.id) {other : String}
    (hne : other ≠ id) :
    (change id f traces).find? (fun t => t.id == other) =
      traces.find? fun t => t.id == other := by
  induction traces with
  | nil => rfl
  | cons u traces ih =>
    rw [change]
    by_cases hu : u.id = id
    · have hother : u.id ≠ other := fun heq => hne (heq.symm.trans hu)
      rw [if_pos hu, List.find?_cons_of_neg (by simpa [hf] using hother),
        List.find?_cons_of_neg (by simpa using hother)]
    · rw [if_neg hu, List.find?_cons, List.find?_cons, ih]

/-! ## A recorder with room for all traces -/

/-- The recorder has all traces that were started, its totals are sums over them, and their current
steps have a model call just where the reports say so. -/
structure Keeps (epoch : Timestamp) (reports : List (Nat × TraceEvent)) (r : TraceRecorder) :
    Prop where
  origins_eq : r.traces.map LoopTrace.origin = origins epoch reports
  totals_eq : r.totals = .ofTraces r.traces
  called_eq : ∀ id t, r.find? id = some t → t.called = calledBy id reports

theorem map_origins (epoch : Timestamp) (reports : List (Nat × TraceEvent)) :
    (origins epoch reports).map Prod.fst = started reports := by
  rw [origins, started, List.map_filterMap]
  congr
  funext report
  cases report.2 <;> rfl

theorem length_traces_le (limit : Nat) (epoch : Timestamp) (reports : List (Nat × TraceEvent)) :
    (recorded limit epoch reports).traces.length ≤ (started reports).length := by
  have hlength := (sublist_origins limit epoch reports).length_le
  rwa [List.length_map, ← List.length_map Prod.fst, map_origins] at hlength

theorem Keeps.map_id (h : r.Keeps epoch reports) : r.traces.map LoopTrace.id = started reports := by
  rw [← map_origins epoch, ← h.origins_eq, List.map_map]
  rfl

/-- Every trace that was started is there. -/
theorem Keeps.exists_find? (h : r.Keeps epoch reports) (hid : id ∈ started reports) :
    ∃ t, r.find? id = some t := by
  rw [← h.map_id] at hid
  obtain ⟨t, ht, rfl⟩ := List.mem_map.1 hid
  exact Option.ne_none_iff_exists'.1 fun hnone => find?_eq_none_iff.1 hnone t ht rfl

theorem Keeps.find?_eq_none (h : r.Keeps epoch reports) (hnone : r.find? id = none) :
    id ∉ started reports := by
  intro hid
  obtain ⟨t, ht⟩ := h.exists_find? hid
  cases ht.symm.trans hnone

/-- A start that finds room. -/
theorem Keeps.start (h : r.Keeps epoch reports) (hreports : WellReported reports)
    (hroom : r.traces.length < r.maxTraces) (time : Nat) (id invocation : String) :
    (r.apply (epoch.addMillis time) (.start id invocation)).Keeps epoch
      (reports ++ [(time, .start id invocation)]) := by
  have htraces : (r.apply (epoch.addMillis time) (.start id invocation)).traces =
      r.traces ++ [.begin id invocation (epoch.addMillis time)] := by
    simp only [apply, prune_of_lt hroom]
  constructor
  · rw [htraces, List.map_append, h.origins_eq, origins, origins, List.filterMap_append]
    rfl
  · rw [htraces, TraceTotals.ofTraces_append, ← h.totals_eq]
    rfl
  · intro other t ht
    rw [calledBy_concat]
    change t.called = calledBy other reports
    rw [find?, htraces, List.find?_append] at ht
    cases hother : r.traces.find? fun t => t.id == other with
    | some u =>
      rw [hother, Option.some_or] at ht
      obtain rfl : u = t := Option.some.inj ht
      exact h.called_eq other u hother
    | none =>
      rw [hother, Option.none_or] at ht
      obtain rfl := List.mem_singleton.1 (List.mem_of_find?_eq_some ht)
      exact (hreports.calledBy_of_not_mem (h.find?_eq_none hother)).symm

/-- Any other report, which is then about a trace that is there. -/
theorem Keeps.other (h : r.Keeps epoch reports) (hreports : WellReported (reports ++ [report]))
    (hstart : report.2.started? = none) :
    (r.apply (epoch.addMillis report.1) report.2).Keeps epoch (reports ++ [report]) := by
  obtain ⟨time, event⟩ := report
  obtain ⟨t, ht⟩ := h.exists_find? (hreports.mem_started hstart)
  constructor
  · rw [map_origin_apply hstart, h.origins_eq, origins, origins, List.filterMap_append,
      List.filterMap_cons, TraceEvent.origin?_eq_none hstart, List.filterMap_nil, List.append_nil]
  · have hcall : callMark? event.traceId event = some true → t.called = false := by
      intro hmark
      rw [h.called_eq _ _ ht]
      exact hreports.calledBy_eq_false (hreports.mem_started hstart) hmark
    rw [traces_apply_of_started?_eq_none hstart, ofTraces_change hstart ht hcall, ← h.totals_eq]
    rfl
  · intro other u hu
    rw [find?, traces_apply_of_started?_eq_none hstart] at hu
    rw [calledBy_concat]
    by_cases hother : other = event.traceId
    · subst hother
      rw [find?_change_self (LoopTrace.id_record _ _ _) ht] at hu
      obtain rfl := Option.some.inj hu
      rw [called_record hstart, h.called_eq _ _ ht]
    · rw [find?_change_other (LoopTrace.id_record _ _) hother] at hu
      rw [callMark?_eq_none (Ne.symm hother), Option.getD_none]
      exact h.called_eq other u hu

/-- A recorder with room for all traces that are started keeps them. -/
theorem keeps_recorded (epoch : Timestamp) (hreports : WellReported reports)
    (hroom : (started reports).length ≤ large) :
    (recorded large epoch reports).Keeps epoch reports := by
  induction reports using List.reverseRecOn with
  | nil => exact ⟨rfl, rfl, fun id t ht => by cases ht⟩
  | append_singleton reports report ih =>
    rw [started_append, List.length_append] at hroom
    have hkeeps := ih hreports.init (by omega)
    rw [recorded_concat]
    cases hstart : report.2.started? with
    | none => exact hkeeps.other hreports hstart
    | some id =>
      obtain ⟨time, event⟩ := report
      obtain ⟨invocation, rfl⟩ := TraceEvent.eq_start_of_started? hstart
      refine hkeeps.start hreports.init ?_ time id invocation
      have hlength := length_traces_le large epoch reports
      rw [maxTraces_recorded]
      have hone : (started [(time, TraceEvent.start id invocation)]).length = 1 := rfl
      omega

/-- Where the ids differ, changing the trace of an id changes every trace of this id. -/
theorem change_eq_map {f : LoopTrace → LoopTrace} (hids : (traces.map LoopTrace.id).Nodup) :
    change id f traces = traces.map fun t => if t.id = id then f t else t := by
  induction traces with
  | nil => rfl
  | cons t traces ih =>
    rw [List.map_cons, List.nodup_cons] at hids
    rw [change, List.map_cons]
    split
    · next ht =>
      have hothers : ∀ u ∈ traces, (if u.id = id then f u else u) = u := by
        intro u hu
        refine if_neg fun hid => hids.1 ?_
        rw [ht, ← hid]
        exact List.mem_map_of_mem hu
      rw [List.map_congr_left hothers, List.map_id']
    · rw [ih hids.2]

/-- What a recorder retains stands as it does in a recorder with room for all traces. -/
theorem sublist_recorded (epoch : Timestamp) (hids : (started reports).Nodup) (limit : Nat)
    (hroom : (started reports).length ≤ large) :
    (recorded limit epoch reports).traces.Sublist (recorded large epoch reports).traces := by
  induction reports using List.reverseRecOn with
  | nil => exact List.Sublist.refl _
  | append_singleton reports report ih =>
    obtain ⟨time, event⟩ := report
    rw [started_append, List.nodup_append] at hids
    rw [started_append, List.length_append] at hroom
    have hsublist := ih hids.1 (by omega)
    rw [recorded_concat, recorded_concat]
    cases hstart : event.started? with
    | none =>
      rw [traces_apply_of_started?_eq_none hstart, traces_apply_of_started?_eq_none hstart,
        change_eq_map (separates_recorded limit hids.1).nodup,
        change_eq_map (separates_recorded large hids.1).nodup]
      exact hsublist.map _
    | some id =>
      obtain ⟨invocation, rfl⟩ := TraceEvent.eq_start_of_started? hstart
      have hroomy : (recorded large epoch reports).traces.length <
          (recorded large epoch reports).maxTraces := by
        have hone : (started [(time, TraceEvent.start id invocation)]).length = 1 := rfl
        have hlength := length_traces_le large epoch reports
        rw [maxTraces_recorded]
        omega
      simp only [apply, prune_of_lt hroomy]
      exact ((prune_sublist _ _ _).trans hsublist).append (List.Sublist.refl _)

/-- The totals of a recorder survive eviction, if every report is about a trace that was started and
no step has two model calls.

* They do not depend on the number of traces that there is room for.
* They are the sums over the traces of a recorder that has room for all that were started.
* That recorder has all of these traces, in order.
* Where every trace is started under an id of its own, the traces that another one retains are among
  them as they are. -/
structure SurviveEviction (limit : Nat) (epoch : Timestamp) (reports : List (Nat × TraceEvent)) :
    Prop where
  independent : ∀ other, (recorded limit epoch reports).totals =
    (recorded other epoch reports).totals
  totals_eq : ∀ large, (started reports).length ≤ large →
    (recorded limit epoch reports).totals = .ofTraces (recorded large epoch reports).traces
  complete : ∀ large, (started reports).length ≤ large →
    (recorded large epoch reports).traces.map LoopTrace.origin = origins epoch reports
  retained : (started reports).Nodup → ∀ large, (started reports).length ≤ large →
    (recorded limit epoch reports).traces.Sublist (recorded large epoch reports).traces

theorem totals_recorded (limit other : Nat) (epoch : Timestamp)
    (reports : List (Nat × TraceEvent)) :
    (recorded limit epoch reports).totals = (recorded other epoch reports).totals := by
  rw [recorded, recorded, totals_take, totals_take]
  rfl

/-- The totals of every recorder are sums over all traces that were started, retained or not. -/
theorem totals_survive_eviction (limit : Nat) (epoch : Timestamp)
    {reports : List (Nat × TraceEvent)} (hreports : WellReported reports) :
    SurviveEviction limit epoch reports where
  independent other := totals_recorded limit other epoch reports
  totals_eq large hroom := by
    rw [totals_recorded limit large, (keeps_recorded epoch hreports hroom).totals_eq]
  complete large hroom := (keeps_recorded epoch hreports hroom).origins_eq
  retained hids large hroom := sublist_recorded epoch hids limit hroom

/-- Reports about two traces.  The first one is evicted at the start of the second one if there is
only room for one, and reported on again after that; the second one has a model call before its
first step. -/
def outlived : List (Nat × TraceEvent) :=
  [(0, .start "a" "first"), (1, .step "a" 1), (2, .modelCall "a" "m" (some ⟨3, 4, 7⟩) 1),
    (3, .start "b" "second"), (4, .modelCall "b" "m" (some ⟨5, 6, 11⟩) 0),
    (5, .action "a" ⟨"call", "tool", .failed, none, 1⟩), (6, .step "a" 2),
    (7, .modelCall "a" "m" none 0), (8, .finish "a" "completed")]

/-- A recorder with room for one trace has only the second one, and counts both. -/
theorem totals_outlived :
    WellReported outlived ∧ (recorded 1 default outlived).traces.map LoopTrace.id = ["b"] ∧
      (recorded 1 default outlived).totals = .ofTraces (recorded 2 default outlived).traces ∧
      (recorded 1 default outlived).totals = ⟨2, 3, 1, 1, 18⟩ := by
  have hreports : WellReported outlived := ⟨by decide, by decide⟩
  have hsurvive := totals_survive_eviction 1 default hreports
  exact ⟨hreports, by decide, hsurvive.totals_eq 2 (by decide), by decide⟩

end TraceRecorder

end AgentLoop
