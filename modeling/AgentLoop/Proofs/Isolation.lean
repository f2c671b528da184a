import AgentLoop.Proofs.Recording
import Mathlib.Data.List.Induction

/-!
# Traces kept apart

A recorder takes reports about many traces in any order and keeps all traces in one list, out of
which it drops some to make room.  A trace that it still has is all the same made of the reports
about it, as if there had been no others.

There are four groups.

* Reports.  `own` are those about one trace, `started` the ids of the traces that were started.
* One trace.  `LoopTrace.MadeOf` says that a trace is what reports about it make from its start on,
  and `find?_of_madeOf` that a recorder that takes only these reports has this trace.
* `LoopTrace.unstamped` is a trace without its id and times, and `unstamped_follow` says that
  neither matters to the rest.
* Many traces.  `Comes` says where a trace comes from that is there after a report.  `Separates` is
  the invariant: the ids of the traces differ, and each trace is made of its own reports.
  `Separates.apply` is one report and `separates_recorded` many of them.  `keepsApart` is the
  result, also on traces that were dropped.
-/

namespace AgentLoop

/-! ## Reports -/

/-- The id of a trace that is started. -/
def TraceEvent.started? : TraceEvent → Option String
  | start id _ => some id
  | _ => none

/-- The same report about the trace of another id. -/
def TraceEvent.withTraceId (id : String) : TraceEvent → TraceEvent
  | start _ invocationId => start id invocationId
  | step _ iteration => step id iteration
  | modelCall _ model usage toolCalls => modelCall id model usage toolCalls
  | action _ record => action id record
  | finish _ outcome => finish id outcome

@[simp] theorem TraceEvent.traceId_withTraceId (id : String) (event : TraceEvent) :
    (event.withTraceId id).traceId = id := by
  cases event <;> rfl

theorem TraceEvent.started?_eq_none_iff {event : TraceEvent} :
    event.started? = none ↔ ∀ id invocation, event ≠ .start id invocation := by
  cases event <;> simp [started?]

theorem TraceEvent.started?_withTraceId_eq_none_iff {id : String} {event : TraceEvent} :
    (event.withTraceId id).started? = none ↔ event.started? = none := by
  cases event <;> simp [started?, withTraceId]

theorem TraceEvent.eq_start_of_started? {id : String} {event : TraceEvent}
    (h : event.started? = some id) : ∃ invocation, event = .start id invocation := by
  cases event <;> simp_all [started?]

theorem TraceEvent.traceId_of_started? {id : String} {event : TraceEvent}
    (h : event.started? = some id) : event.traceId = id := by
  obtain ⟨invocation, rfl⟩ := eq_start_of_started? h
  rfl

namespace TraceRecorder

/-- The reports about a trace, each with the time of the clock at which it came. -/
def own (id : String) (reports : List (Nat × TraceEvent)) : List (Nat × TraceEvent) :=
  reports.filter fun report => report.2.traceId = id

/-- The ids of the traces that were started. -/
def started (reports : List (Nat × TraceEvent)) : List String :=
  reports.filterMap fun report => report.2.started?

variable {epoch : Timestamp} {id : String} {reports early later : List (Nat × TraceEvent)}
  {report : Nat × TraceEvent} {r : TraceRecorder}

theorem own_concat_self (h : report.2.traceId = id) :
    own id (reports ++ [report]) = own id reports ++ [report] := by
  simp [own, h]

theorem own_concat_other (h : report.2.traceId ≠ id) :
    own id (reports ++ [report]) = own id reports := by
  simp [own, h]

theorem traceId_of_mem_own (h : report ∈ own id reports) : report.2.traceId = id := by
  simpa using (List.mem_filter.1 h).2

theorem started_append (reports later : List (Nat × TraceEvent)) :
    started (reports ++ later) = started reports ++ started later :=
  List.filterMap_append

theorem mem_started_append (h : id ∈ started reports) (later : List (Nat × TraceEvent)) :
    id ∈ started (reports ++ later) := by
  rw [started_append]
  exact List.mem_append_left _ h

/-- Where no id is started twice, a trace that is started was not started before. -/
theorem not_mem_started (hids : (started (reports ++ [report])).Nodup)
    (h : report.2.started? = some id) : id ∉ started reports := by
  rw [started_append, List.nodup_append] at hids
  exact fun hmem => hids.2.2 id hmem id (by simp [started, h]) rfl

theorem started_eq_nil_iff :
    started reports = [] ↔ ∀ report ∈ reports, report.2.started? = none := by
  simp [started]

/-- Of the reports about a trace that was not started none is a start. -/
theorem started_own_eq_nil (h : id ∉ started reports) : started (own id reports) = [] := by
  rw [started_eq_nil_iff]
  intro report hreport
  have hid := traceId_of_mem_own hreport
  cases hstarted : report.2.started? with
  | none => rfl
  | some other =>
    have hother := TraceEvent.traceId_of_started? hstarted
    refine absurd (List.mem_filterMap.2 ⟨report, (List.mem_filter.1 hreport).1, ?_⟩) h
    rw [hstarted, ← hother, hid]

theorem take_append (r : TraceRecorder) (reports later : List (Nat × TraceEvent)) :
    r.take epoch (reports ++ later) = (r.take epoch reports).take epoch later :=
  List.foldl_append

/-! ## One trace -/

/-- A report that starts no trace changes the trace that it is about. -/
theorem traces_apply_of_started?_eq_none {time : Timestamp} {event : TraceEvent}
    (h : event.started? = none) :
    (r.apply time event).traces = change event.traceId (record time event) r.traces := by
  cases event with
  | start id invocation => cases h
  | _ => rfl

theorem change_eq_self {f : LoopTrace → LoopTrace} {traces : List LoopTrace}
    (h : ∀ t ∈ traces, t.id ≠ id) : change id f traces = traces := by
  induction traces with
  | nil => rfl
  | cons t traces ih =>
    rw [change, if_neg (h t List.mem_cons_self), ih fun u hu => h u (List.mem_cons_of_mem _ hu)]

/-- Without a start nothing is recorded. -/
theorem traces_take_eq_nil (hr : r.traces = []) (h : started reports = []) :
    (r.take epoch reports).traces = [] := by
  induction reports generalizing r with
  | nil => exact hr
  | cons report reports ih =>
    obtain ⟨hreport, hreports⟩ := List.forall_mem_cons.1 (started_eq_nil_iff.1 h)
    refine ih (r := r.apply (epoch.addMillis report.1) report.2) ?_ (started_eq_nil_iff.2 hreports)
    rw [traces_apply_of_started?_eq_none hreport, hr]
    rfl

end TraceRecorder

namespace LoopTrace

theorem follow_concat (epoch : Timestamp) (t : LoopTrace) (reports : List (Nat × TraceEvent))
    (report : Nat × TraceEvent) :
    t.follow epoch (reports ++ [report]) =
      TraceRecorder.record (epoch.addMillis report.1) report.2 (t.follow epoch reports) := by
  rw [follow_append]
  rfl

/-- The trace is what reports about it make, from its start on; what came before is lost. -/
inductive MadeOf (epoch : Timestamp) : List (Nat × TraceEvent) → LoopTrace → Prop where
  | intro {early later : List (Nat × TraceEvent)} (id : String) (time : Nat) (invocation : String)
      (hearly : TraceRecorder.started early = []) (hlater : TraceRecorder.started later = []) :
      MadeOf epoch (early ++ (time, .start id invocation) :: later)
        (follow epoch (.begin id invocation (epoch.addMillis time)) later)

end LoopTrace

namespace TraceRecorder

variable {epoch : Timestamp} {id : String} {reports early later : List (Nat × TraceEvent)}
  {report : Nat × TraceEvent} {r : TraceRecorder} {t : LoopTrace}

/-- A recorder that is only told of one trace keeps it. -/
theorem find?_take_of_start {time : Nat} {invocation : String} (hr : r.traces = [])
    (hearly : started early = []) (hlater : started later = [])
    (hid : ∀ report ∈ later, report.2.traceId = id) :
    (r.take epoch (early ++ (time, .start id invocation) :: later)).find? id =
      some (.follow epoch (.begin id invocation (epoch.addMillis time)) later) := by
  rw [take_append]
  have hempty : (r.take epoch early).traces = [] := traces_take_eq_nil hr hearly
  generalize r.take epoch early = r at hempty
  have hbegun : (r.apply (epoch.addMillis time) (.start id invocation)).traces =
      [] ++ [.begin id invocation (epoch.addMillis time)] := by
    simp only [apply, hempty]
    rfl
  have hreports : ∀ report ∈ later, report.2.traceId = id ∧
      ∀ other invocation, report.2 ≠ .start other invocation := fun report hreport =>
    ⟨hid report hreport,
      TraceEvent.started?_eq_none_iff.1 (started_eq_nil_iff.1 hlater report hreport)⟩
  have htraces := traces_take epoch (by simp) rfl hreports hbegun
  exact find?_of_traces (by simp) (LoopTrace.id_follow epoch _) htraces

theorem find?_of_madeOf (h : t.MadeOf epoch (own id reports)) (hr : r.traces = []) :
    (r.take epoch (own id reports)).find? id = some t := by
  have hid : ∀ report ∈ own id reports, report.2.traceId = id := fun _ => traceId_of_mem_own
  generalize own id reports = reports at h hid
  obtain ⟨other, time, invocation, hearly, hlater⟩ := h
  obtain rfl : other = id := hid (time, .start other invocation) (by simp)
  exact find?_take_of_start hr hearly hlater fun report hreport => hid report (by simp [hreport])

end TraceRecorder

/-! ## Ids and times struck out -/

/-- The action without its time. -/
def Action.unstamped (a : Action) : Action := { a with recordedAt := default }

/-- The step without its times. -/
def Step.unstamped (s : Step) : Step :=
  { s with startedAt := default, actions := s.actions.map Action.unstamped }

namespace LoopTrace

/-- The trace without its id and its times. -/
def unstamped (t : LoopTrace) : LoopTrace :=
  { t with
    id := ""
    steps := t.steps.map Step.unstamped
    startedAt := default
    endedAt := t.endedAt.map fun _ => default }

@[simp] theorem unstamped_begin (id invocation : String) (time : Timestamp) :
    (LoopTrace.begin id invocation time).unstamped = .begin "" invocation default := rfl

theorem map_unstamped_changeLast {f g : Step → Step}
    (h : ∀ s, (f s).unstamped = g s.unstamped) (time : Timestamp) (steps : List Step) :
    (changeLast f time steps).map Step.unstamped =
      changeLast g default (steps.map Step.unstamped) := by
  induction steps with
  | nil => exact congrArg (fun s => [s]) (h _)
  | cons first steps ih =>
    cases steps with
    | nil => exact congrArg (fun s => [s]) (h first)
    | cons second steps => exact congrArg (first.unstamped :: ·) ih

/-- What a report adds to a trace depends on neither the id nor the times. -/
theorem unstamped_record (time : Timestamp) (event : TraceEvent) (t : LoopTrace) :
    (TraceRecorder.record time event t).unstamped =
      TraceRecorder.record default event t.unstamped := by
  cases event with
  | start id invocation => rfl
  | step id iteration =>
    simp [TraceRecorder.record, addStep, unstamped, Step.unstamped, Step.empty]
  | modelCall id model usage toolCalls =>
    have hsteps := map_unstamped_changeLast
      (f := fun s => { s with modelCall := some ⟨model, usage, toolCalls⟩ })
      (g := fun s => { s with modelCall := some ⟨model, usage, toolCalls⟩ })
      (fun _ => rfl) time t.steps
    simp only [TraceRecorder.record, changeStep, unstamped, hsteps]
  | action id report =>
    have hsteps := map_unstamped_changeLast
      (f := fun s => { s with actions := s.actions ++ [.ofRecord report time] })
      (g := fun s => { s with actions := s.actions ++ [.ofRecord report default] })
      (fun s => by simp [Step.unstamped, Action.unstamped, Action.ofRecord]) time t.steps
    simp only [TraceRecorder.record, changeStep, unstamped, hsteps]
  | finish id outcome => rfl

theorem record_withTraceId (id : String) (time : Timestamp) (event : TraceEvent) (t : LoopTrace) :
    TraceRecorder.record time (event.withTraceId id) t = TraceRecorder.record time event t := by
  cases event <;> rfl

/-- The same reports at other times and about another id make the same trace but for these. -/
theorem unstamped_follow {epoch epoch' : Timestamp} {id : String}
    {reports reports' : List (Nat × TraceEvent)} {t t' : LoopTrace}
    (ht : t'.unstamped = t.unstamped)
    (h : reports'.map Prod.snd = reports.map fun report => report.2.withTraceId id) :
    (t'.follow epoch' reports').unstamped = (t.follow epoch reports).unstamped := by
  induction reports generalizing reports' t t' with
  | nil =>
    obtain rfl : reports' = [] := by simpa using h
    exact ht
  | cons report reports ih =>
    obtain ⟨⟨time, event⟩, reports', rfl, rfl, hrest⟩ := List.map_eq_cons_iff.1 h
    have hstep : (TraceRecorder.record (epoch'.addMillis time)
        (report.2.withTraceId id) t').unstamped =
          (TraceRecorder.record (epoch.addMillis report.1) report.2 t).unstamped := by
      rw [record_withTraceId, unstamped_record, unstamped_record, ht]
    rw [follow, follow, List.foldl_cons, List.foldl_cons]
    exact ih hstep hrest

end LoopTrace

namespace TraceRecorder

variable {epoch : Timestamp} {id : String} {reports : List (Nat × TraceEvent)}
  {report : Nat × TraceEvent} {r : TraceRecorder} {t : LoopTrace}

theorem started_eq_nil_of_map {reports' : List (Nat × TraceEvent)}
    (h : reports'.map Prod.snd = reports.map fun report => report.2.withTraceId id)
    (hstarted : started reports = []) : started reports' = [] := by
  rw [started_eq_nil_iff] at hstarted ⊢
  intro report' hreport'
  obtain ⟨report, hreport, heq⟩ := List.mem_map.1 (h ▸ List.mem_map_of_mem hreport')
  rw [← heq, TraceEvent.started?_withTraceId_eq_none_iff]
  exact hstarted report hreport

/-- A recorder that is told of a trace alone, at other times and under another id, has the same
trace but for these. -/
theorem exists_find?_alone {epoch' : Timestamp} {id' : String} {alone : List (Nat × TraceEvent)}
    (h : t.MadeOf epoch reports) (hr : r.traces = [])
    (halone : alone.map Prod.snd = reports.map fun report => report.2.withTraceId id') :
    ∃ t', (r.take epoch' alone).find? id' = some t' ∧ t'.unstamped = t.unstamped := by
  obtain ⟨id, time, invocation, hearly, hlater⟩ := h
  rw [List.map_append, List.map_cons] at halone
  obtain ⟨early', rest, rfl, hearly', hrest⟩ := List.map_eq_append_iff.1 halone
  obtain ⟨⟨time', event⟩, later', rfl, rfl, hlater'⟩ := List.map_eq_cons_iff.1 hrest
  have hid : ∀ report ∈ later', report.2.traceId = id' := by
    intro report hreport
    obtain ⟨told, -, heq⟩ := List.mem_map.1 (hlater' ▸ List.mem_map_of_mem hreport)
    rw [← heq, TraceEvent.traceId_withTraceId]
  exact ⟨_, find?_take_of_start hr (started_eq_nil_of_map hearly' hearly)
      (started_eq_nil_of_map hlater' hlater) hid, LoopTrace.unstamped_follow (by simp) hlater'⟩

/-! ## Many traces -/

/-- A change keeps of all traces what it keeps of one. -/
theorem map_change {α : Type} {g : LoopTrace → α} {f : LoopTrace → LoopTrace}
    (hf : ∀ t, g (f t) = g t) (traces : List LoopTrace) :
    (change id f traces).map g = traces.map g := by
  induction traces with
  | nil => rfl
  | cons t traces ih =>
    rw [change]
    split
    · rw [List.map_cons, List.map_cons, hf]
    · rw [List.map_cons, List.map_cons, ih]

/-- Where the ids differ, the trace of an id is the only one that is changed. -/
theorem mem_change {f : LoopTrace → LoopTrace} {traces : List LoopTrace}
    (hids : (traces.map LoopTrace.id).Nodup) (h : t ∈ change id f traces) :
    t ∈ traces ∧ t.id ≠ id ∨ ∃ earlier ∈ traces, earlier.id = id ∧ t = f earlier := by
  induction traces with
  | nil => cases h
  | cons u traces ih =>
    rw [List.map_cons, List.nodup_cons] at hids
    rw [change] at h
    split at h
    · next hu =>
      rcases List.mem_cons.1 h with rfl | h
      · exact .inr ⟨u, List.mem_cons_self, hu, rfl⟩
      · refine .inl ⟨List.mem_cons_of_mem _ h, fun ht => hids.1 ?_⟩
        rw [hu, ← ht]
        exact List.mem_map_of_mem h
    · next hu =>
      rcases List.mem_cons.1 h with rfl | h
      · exact .inl ⟨List.mem_cons_self, hu⟩
      · rcases ih hids.2 h with ⟨hmem, hne⟩ | ⟨earlier, hmem, hearlier, rfl⟩
        · exact .inl ⟨List.mem_cons_of_mem _ hmem, hne⟩
        · exact .inr ⟨earlier, List.mem_cons_of_mem _ hmem, hearlier, rfl⟩

/-- Where a trace comes from that is there after a report: it was there before, as it is or without
the report, or the report began it. -/
inductive Comes (r : TraceRecorder) (time : Timestamp) (event : TraceEvent) : LoopTrace → Prop where
  | kept {t : LoopTrace} (h : t ∈ r.traces) (hother : event.started? = none → event.traceId ≠ t.id) :
    Comes r time event t
  | told {t : LoopTrace} (h : t ∈ r.traces) (hid : event.traceId = t.id)
      (hstart : event.started? = none) : Comes r time event (record time event t)
  | begun {id invocation : String} (hstart : event = .start id invocation) :
    Comes r time event (.begin id invocation time)

theorem comes_of_mem_apply {time : Timestamp} {event : TraceEvent}
    (hids : (r.traces.map LoopTrace.id).Nodup) (h : t ∈ (r.apply time event).traces) :
    r.Comes time event t := by
  cases hstart : event.started? with
  | none =>
    rw [traces_apply_of_started?_eq_none hstart] at h
    rcases mem_change hids h with ⟨hmem, hne⟩ | ⟨earlier, hmem, hearlier, rfl⟩
    · exact .kept hmem fun _ => Ne.symm hne
    · exact .told hmem hearlier.symm hstart
  | some id =>
    obtain ⟨invocation, rfl⟩ := TraceEvent.eq_start_of_started? hstart
    rcases List.mem_append.1 h with hkept | hnew
    · exact .kept ((prune_sublist _ _ _).mem hkept) fun hnone => by cases hnone
    · rw [List.mem_singleton.1 hnew]
      exact .begun rfl

/-- The ids of the traces stay different where an id is only started once. -/
theorem nodup_apply {time : Timestamp} {event : TraceEvent}
    (hids : (r.traces.map LoopTrace.id).Nodup)
    (hnew : ∀ t ∈ r.traces, event.started? ≠ some t.id) :
    ((r.apply time event).traces.map LoopTrace.id).Nodup := by
  cases hstart : event.started? with
  | none =>
    rw [traces_apply_of_started?_eq_none hstart, map_change (LoopTrace.id_record _ _)]
    exact hids
  | some id =>
    obtain ⟨invocation, rfl⟩ := TraceEvent.eq_start_of_started? hstart
    have hkept := prune_sublist r.maxTraces r.traces.length r.traces
    simp only [apply, List.map_append, List.nodup_append]
    refine ⟨hids.sublist (hkept.map _), by simp, ?_⟩
    intro other hother begun hbegun heq
    obtain ⟨t, ht, rfl⟩ := List.mem_map.1 hother
    obtain rfl : begun = id := by simpa [LoopTrace.begin] using hbegun
    exact hnew t (hkept.mem ht) (congrArg some heq.symm)

/-- The traces of a recorder have ids of their own, and each is made of the reports about it. -/
structure Separates (epoch : Timestamp) (reports : List (Nat × TraceEvent)) (r : TraceRecorder) :
    Prop where
  nodup : (r.traces.map LoopTrace.id).Nodup
  madeOf : ∀ t ∈ r.traces, t.MadeOf epoch (own t.id reports)

/-- A trace that was made was started. -/
theorem mem_started_of_madeOf (h : t.MadeOf epoch (own t.id reports)) : t.id ∈ started reports := by
  have hown : t.id ∈ started (own t.id reports) := by
    generalize hreports : own t.id reports = own at h ⊢
    obtain ⟨id, time, invocation, -, -⟩ := h
    simp [started, TraceEvent.started?, LoopTrace.begin]
  obtain ⟨report, hreport, hstarted⟩ := List.mem_filterMap.1 hown
  exact List.mem_filterMap.2 ⟨report, (List.mem_filter.1 hreport).1, hstarted⟩

/-- A report about a trace is one more that it is made of. -/
theorem madeOf_record (h : t.MadeOf epoch (own id reports)) (hid : report.2.traceId = id)
    (hstart : report.2.started? = none) :
    (record (epoch.addMillis report.1) report.2 t).MadeOf epoch
      (own id (reports ++ [report])) := by
  rw [own_concat_self hid]
  generalize own id reports = reports at h ⊢
  obtain @⟨early, later, id, time, invocation, hearly, hlater⟩ := h
  have hmore : started (later ++ [report]) = [] := by
    rw [started_append, hlater]
    simp [started, hstart]
  rw [← LoopTrace.follow_concat, List.append_assoc, List.cons_append]
  exact .intro id time invocation hearly hmore

/-- A trace that is started has no reports yet but for those that were lost. -/
theorem madeOf_begin {time : Nat} {invocation : String} (h : id ∉ started reports) :
    (LoopTrace.begin id invocation (epoch.addMillis time)).MadeOf epoch
      (own id (reports ++ [(time, .start id invocation)])) := by
  have hown : own id (reports ++ [(time, .start id invocation)]) =
      own id reports ++ [(time, .start id invocation)] := own_concat_self rfl
  rw [hown]
  exact .intro id time invocation (started_own_eq_nil h) rfl

/-- One report keeps the traces apart. -/
theorem Separates.apply (h : r.Separates epoch reports)
    (hids : (started (reports ++ [report])).Nodup) :
    (r.apply (epoch.addMillis report.1) report.2).Separates epoch (reports ++ [report]) := by
  obtain ⟨time, event⟩ := report
  -- A trace that is there was started before, so none of them is started now.
  have hnew : ∀ t ∈ r.traces, event.started? ≠ some t.id := fun t ht hstart =>
    not_mem_started hids hstart (mem_started_of_madeOf (h.madeOf t ht))
  refine ⟨nodup_apply h.nodup hnew, fun t ht => ?_⟩
  cases comes_of_mem_apply h.nodup ht with
  | kept hmem hother =>
    have hne : event.traceId ≠ t.id := by
      cases hstart : event.started? with
      | none => exact hother hstart
      | some id =>
        rw [TraceEvent.traceId_of_started? hstart]
        exact fun heq => hnew t hmem (hstart.trans (congrArg some heq))
    rw [own_concat_other hne]
    exact h.madeOf t hmem
  | @told earlier hmem hid hstart =>
    rw [LoopTrace.id_record]
    exact madeOf_record (h.madeOf earlier hmem) hid hstart
  | begun hstart =>
    subst hstart
    exact madeOf_begin (not_mem_started hids rfl)

/-- A new recorder after some reports. -/
def recorded (limit : Nat) (epoch : Timestamp) (reports : List (Nat × TraceEvent)) :
    TraceRecorder :=
  (ofLimit limit).take epoch reports

variable {limit : Nat} {before : List (Nat × TraceEvent)}

theorem recorded_concat :
    recorded limit epoch (reports ++ [report]) =
      (recorded limit epoch reports).apply (epoch.addMillis report.1) report.2 :=
  take_append _ _ _

theorem separates_recorded (limit : Nat) (hids : (started reports).Nodup) :
    (recorded limit epoch reports).Separates epoch reports := by
  induction reports using List.reverseRecOn with
  | nil => exact ⟨List.nodup_nil, fun t ht => by cases ht⟩
  | append_singleton reports report ih =>
    have hbefore := hids
    rw [started_append, List.nodup_append] at hbefore
    rw [recorded_concat]
    exact (ih hbefore.1).apply hids

/-! ## Traces that are kept, and traces that are gone -/

theorem Separates.find?_eq_some (h : r.Separates epoch reports) (ht : t ∈ r.traces) :
    r.find? t.id = some t := by
  have hnodup := h.nodup
  rw [find?]
  generalize r.traces = traces at ht hnodup
  induction traces with
  | nil => cases ht
  | cons u traces ih =>
    rw [List.map_cons, List.nodup_cons] at hnodup
    rcases List.mem_cons.1 ht with rfl | ht
    · exact List.find?_cons_of_pos (by simp)
    · have hne : u.id ≠ t.id := fun heq => hnodup.1 (heq ▸ List.mem_map_of_mem ht)
      rw [List.find?_cons_of_neg (by simpa using hne)]
      exact ih ht hnodup.2

theorem mem_of_find? (h : r.find? id = some t) : t ∈ r.traces ∧ t.id = id :=
  ⟨List.mem_of_find?_eq_some h, by simpa using List.find?_some h⟩

theorem find?_eq_none_iff : r.find? id = none ↔ ∀ t ∈ r.traces, t.id ≠ id := by
  simp [find?, List.find?_eq_none]

/-- A trace that a report is not about was there before, as it is. -/
theorem mem_of_mem_apply {time : Timestamp} {event : TraceEvent}
    (hids : (r.traces.map LoopTrace.id).Nodup) (ht : t ∈ (r.apply time event).traces)
    (hother : event.traceId ≠ t.id) : t ∈ r.traces := by
  cases comes_of_mem_apply hids ht with
  | kept hmem _ => exact hmem
  | told hmem hid _ =>
    rw [LoopTrace.id_record] at hother
    exact absurd hid hother
  | begun hstart =>
    subst hstart
    exact absurd rfl hother

/-- A trace that is gone does not come back. -/
theorem find?_recorded_eq_none {later : List (Nat × TraceEvent)}
    (hids : (started (before ++ later)).Nodup) (hid : id ∈ started before)
    (hnone : (recorded limit epoch before).find? id = none) :
    (recorded limit epoch (before ++ later)).find? id = none := by
  induction later using List.reverseRecOn with
  | nil => rwa [List.append_nil]
  | append_singleton later report ih =>
    rw [← List.append_assoc] at hids ⊢
    have hearlier := hids
    rw [started_append, List.nodup_append] at hearlier
    have hgone := find?_eq_none_iff.1 (ih hearlier.1)
    rw [recorded_concat, find?_eq_none_iff]
    intro t ht
    cases comes_of_mem_apply (separates_recorded limit hearlier.1).nodup ht with
    | kept hmem _ => exact hgone t hmem
    | @told earlier hmem _ _ =>
      rw [LoopTrace.id_record]
      exact hgone earlier hmem
    | @begun new invocation hstart =>
      -- Only a start brings a trace in, and this one was started already.
      rintro rfl
      exact not_mem_started hids (congrArg TraceEvent.started? hstart) (mem_started_append hid later)

/-- A recorder that was told of many traces, in any order, keeps them apart.

* A trace that it still has is the one that a recorder has which was told of this trace alone.
* The same holds, but for ids and times, if that recorder was told at other times and under another
  id.
* A report changes no trace that it is not about: after it such a trace is as it was before, or
  gone.
* A trace that is gone stays gone, and a report about it changes no trace at all. -/
structure KeepsApart (limit : Nat) (epoch : Timestamp) (reports : List (Nat × TraceEvent)) :
    Prop where
  alone : ∀ id t, (recorded limit epoch reports).find? id = some t →
    ∀ other, (recorded other epoch (own id reports)).find? id = some t
  restamped : ∀ id t, (recorded limit epoch reports).find? id = some t →
    ∀ other epoch' id' (told : List (Nat × TraceEvent)),
      told.map Prod.snd = (own id reports).map (fun report => report.2.withTraceId id') →
        ∃ t', (recorded other epoch' told).find? id' = some t' ∧ t'.unstamped = t.unstamped
  others : ∀ before report after, reports = before ++ report :: after →
    ∀ id t, report.2.traceId ≠ id →
      (recorded limit epoch (before ++ [report])).find? id = some t →
        (recorded limit epoch before).find? id = some t
  gone : ∀ before middle report after, reports = before ++ (middle ++ report :: after) →
    ∀ id ∈ started before, (recorded limit epoch before).find? id = none →
      (recorded limit epoch (before ++ middle ++ [report])).find? id = none ∧
        (report.2.traceId = id → (recorded limit epoch (before ++ middle ++ [report])).traces =
          (recorded limit epoch (before ++ middle)).traces)

/-- Where every trace is started under an id of its own, a recorder keeps the traces apart. -/
theorem keepsApart (limit : Nat) (epoch : Timestamp) {reports : List (Nat × TraceEvent)}
    (hids : (started reports).Nodup) : KeepsApart limit epoch reports where
  alone id t ht other := by
    obtain ⟨hmem, rfl⟩ := mem_of_find? ht
    exact find?_of_madeOf ((separates_recorded limit hids).madeOf t hmem) rfl
  restamped id t ht other epoch' id' told htold := by
    obtain ⟨hmem, rfl⟩ := mem_of_find? ht
    exact exists_find?_alone ((separates_recorded limit hids).madeOf t hmem) rfl htold
  others before report after hreports id t hother ht := by
    rw [hreports, started_append, List.nodup_append] at hids
    obtain ⟨hmem, rfl⟩ := mem_of_find? ht
    rw [recorded_concat] at hmem
    have hseparates : (recorded limit epoch before).Separates epoch before :=
      separates_recorded limit hids.1
    exact hseparates.find?_eq_some (mem_of_mem_apply hseparates.nodup hmem hother)
  gone before middle report after hreports id hid hnone := by
    have hsplit : reports = (before ++ middle ++ [report]) ++ after := by simp [hreports]
    rw [hsplit, started_append, List.nodup_append] at hids
    have htold := hids.1
    have hmiddle := htold
    rw [started_append, List.nodup_append] at hmiddle
    have hgone := find?_recorded_eq_none hmiddle.1 hid hnone
    constructor
    · rw [List.append_assoc] at htold ⊢
      exact find?_recorded_eq_none htold hid hnone
    · rintro rfl
      have hnot : report.2.started? = none := by
        cases hstart : report.2.started? with
        | none => rfl
        | some id =>
          rw [TraceEvent.traceId_of_started? hstart] at hid
          exact absurd (mem_started_append hid middle) (not_mem_started htold hstart)
      rw [recorded_concat, traces_apply_of_started?_eq_none hnot]
      exact change_eq_self (find?_eq_none_iff.1 hgone)

/-- Reports about three traces, of which the second one is dropped for the third, and reported on
once more after that. -/
def crowded : List (Nat × TraceEvent) :=
  [(0, .start "a" "first"), (1, .start "b" "second"), (2, .step "a" 1), (3, .step "b" 1),
    (4, .finish "b" "completed"), (5, .start "c" "third"), (6, .step "b" 2),
    (7, .action "a" default)]

/-- The first trace is what it would be alone, and the second one is gone. -/
theorem keepsApart_crowded :
    (started crowded).Nodup ∧
      (recorded 2 default crowded).traces.map LoopTrace.id = ["a", "c"] ∧
      (recorded 1 default (own "a" crowded)).find? "a" =
        (recorded 2 default crowded).find? "a" ∧
      (recorded 2 default crowded).find? "b" = none := by
  have hids : (started crowded).Nodup := by decide
  have hapart := keepsApart 2 default hids
  have hwhole : crowded.take 6 ++ [(6, .step "b" 2)] ++ [(7, .action "a" default)] = crowded := rfl
  obtain ⟨t, ht⟩ : ∃ t, (recorded 2 default crowded).find? "a" = some t := ⟨_, rfl⟩
  refine ⟨hids, rfl, ?_, ?_⟩
  · rw [ht]
    exact hapart.alone "a" t ht 1
  · have hgone := (hapart.gone (crowded.take 6) [(6, .step "b" 2)] (7, .action "a" default) [] rfl
      "b" (by decide) rfl).1
    rwa [hwhole] at hgone

end TraceRecorder

end AgentLoop
