import AgentLoop.Proofs.Isolation

/-!
# Which traces a recorder retains

A recorder has room for a fixed number of traces.  Runs end in another order than they began, so a
recorder that makes room may have to take a trace out of the middle of its list.  It takes the one
that began first among the completed ones, and only if there is none the one that began first of
all.

There are five groups.

* Making room.  `Evicts` says which trace is taken out, and `Admits` lists the ways in which a new
  trace comes in.  `admits_prune` says that making room is one of these ways.
* The limit.  `Bounded` is kept by every report, so a recorder never evicts more than one trace at
  a time.
* The order.  `LoopTrace.origin` is what never changes about a trace, and `sublist_origins` says
  that the origins of the retained traces are in the order of their starts.
* The ends.  `change_append` is the trace that a report of an end completes, and
  `exists_finish_of_isComplete` says that no other trace is completed.
* Running traces.  `Runs` says that a trace of some id has not ended.  `Runs.apply` and
  `Bounded.runs_start_or` are one report, and `exists_full_of_lost` leads from a lost trace back to
  the start that has cost it its place.  `retains_recorded` is the result.
-/

namespace AgentLoop

/-- What never changes about a trace: its id, its run and its beginning. -/
def LoopTrace.origin (t : LoopTrace) : String × String × Timestamp :=
  (t.id, t.invocationId, t.startedAt)

/-- The origin of the trace that is started by a report at this time. -/
def TraceEvent.origin? (time : Timestamp) : TraceEvent → Option (String × String × Timestamp)
  | start id invocation => some (id, invocation, time)
  | _ => none

theorem TraceEvent.origin?_eq_none {time : Timestamp} {event : TraceEvent}
    (h : event.started? = none) : event.origin? time = none := by
  cases event with
  | start id invocation => cases h
  | _ => rfl

namespace LoopTrace

theorem origin_record (time : Timestamp) (event : TraceEvent) (t : LoopTrace) :
    (TraceRecorder.record time event t).origin = t.origin := by
  cases event <;> rfl

/-- Only its end completes a trace. -/
theorem isComplete_record {time : Timestamp} {event : TraceEvent} {t : LoopTrace}
    (h : ∀ id outcome, event ≠ .finish id outcome) :
    (TraceRecorder.record time event t).isComplete = t.isComplete := by
  cases event with
  | finish id outcome => exact absurd rfl (h id outcome)
  | _ => rfl

end LoopTrace

namespace TraceRecorder

variable {epoch time : Timestamp} {id invocation : String} {event : TraceEvent} {limit : Nat}
  {traces kept : List LoopTrace} {t victim : LoopTrace} {reports : List (Nat × TraceEvent)}
  {report : Nat × TraceEvent} {r : TraceRecorder}

/-! ## Making room -/

/-- Taking `victim` out of the traces leaves `kept`.  It is the earliest completed trace, or the
earliest of all if none is completed. -/
inductive Evicts : List LoopTrace → LoopTrace → List LoopTrace → Prop where
  | completed {earlier later : List LoopTrace} {victim : LoopTrace}
      (hvictim : victim.isComplete = true) (hearlier : ∀ t ∈ earlier, t.isComplete = false) :
      Evicts (earlier ++ victim :: later) victim (earlier ++ later)
  | earliest {later : List LoopTrace} {victim : LoopTrace}
      (hnone : ∀ t ∈ victim :: later, t.isComplete = false) :
      Evicts (victim :: later) victim later

/-- The ways in which a new trace comes in where there is room for `limit` traces. -/
inductive Admits (limit : Nat) (traces : List LoopTrace) (t : LoopTrace) :
    List LoopTrace → Prop where
  | free (hroom : traces.length < limit) : Admits limit traces t (traces ++ [t])
  | full {victim : LoopTrace} {kept : List LoopTrace} (hfull : traces.length = limit)
      (hevicts : Evicts traces victim kept) : Admits limit traces t (kept ++ [t])

theorem Evicts.length_eq (h : Evicts traces victim kept) : kept.length + 1 = traces.length := by
  cases h with
  | completed hvictim hearlier =>
    simp only [List.length_append, List.length_cons]
    omega
  | earliest hnone => rfl

/-- No other trace than the victim is taken out. -/
theorem Evicts.mem_or_eq (h : Evicts traces victim kept) (ht : t ∈ traces) :
    t ∈ kept ∨ t = victim := by
  cases h with
  | completed hvictim hearlier =>
    simp only [List.mem_append, List.mem_cons] at ht ⊢
    tauto
  | earliest hnone => exact (List.mem_cons.1 ht).symm

/-- A trace that has not ended is only taken out where none has, and then it is the earliest. -/
theorem Evicts.of_not_complete (h : Evicts traces victim kept)
    (hvictim : victim.isComplete = false) :
    (∀ t ∈ traces, t.isComplete = false) ∧ traces.head? = some victim := by
  cases h with
  | completed hcomplete hearlier => cases hvictim.symm.trans hcomplete
  | earliest hnone => exact ⟨hnone, rfl⟩

/-- Dropping a trace takes out the right one. -/
theorem exists_evicts_dropOne (hne : traces ≠ []) :
    ∃ victim, Evicts traces victim (dropOne traces) := by
  rw [dropOne]
  split
  · next hany =>
    obtain ⟨u, hu, hcomplete⟩ := List.any_eq_true.1 hany
    obtain ⟨victim, earlier, later, hearlier, hvictim, rfl, herased⟩ :=
      List.exists_of_eraseP hu hcomplete
    rw [herased]
    exact ⟨victim, .completed hvictim fun t ht => by simpa using hearlier t ht⟩
  · next hany =>
    obtain ⟨victim, later, rfl⟩ := List.exists_cons_of_ne_nil hne
    exact ⟨victim, .earliest fun t ht => by
      simpa using fun hcomplete => hany (List.any_eq_true.2 ⟨t, ht, hcomplete⟩)⟩

theorem prune_of_lt {excess : Nat} (h : traces.length < limit) :
    prune limit excess traces = traces := by
  cases excess with
  | zero => rfl
  | succ excess => rw [prune, if_neg (by omega)]

/-- Where the limit is kept, making room takes out one trace at most. -/
theorem admits_prune (hpos : 1 ≤ limit) (hlength : traces.length ≤ limit) (t : LoopTrace) :
    Admits limit traces t (prune limit traces.length traces ++ [t]) := by
  by_cases hroom : traces.length < limit
  · rw [prune_of_lt hroom]
    exact .free hroom
  · have hfull : traces.length = limit := by omega
    have hne : traces ≠ [] := List.ne_nil_of_length_pos (by omega)
    obtain ⟨victim, hevicts⟩ := exists_evicts_dropOne hne
    have hfewer : (dropOne traces).length < limit := by
      have := hevicts.length_eq
      omega
    obtain ⟨excess, hexcess⟩ : ∃ excess, traces.length = excess + 1 :=
      ⟨traces.length - 1, by omega⟩
    rw [hexcess, prune, if_pos (by omega), prune_of_lt hfewer]
    exact .full hfull hevicts

/-! ## The limit -/

/-- The recorder has room for a trace, and not more traces than it has room for. -/
structure Bounded (r : TraceRecorder) : Prop where
  pos : 1 ≤ r.maxTraces
  length_le : r.traces.length ≤ r.maxTraces

theorem bounded_ofLimit (limit : Nat) : (ofLimit limit).Bounded :=
  ⟨Nat.le_max_right _ _, Nat.zero_le _⟩

/-- A new trace comes in, and makes room for itself. -/
theorem Bounded.admits (h : r.Bounded) (time : Timestamp) (id invocation : String) :
    Admits r.maxTraces r.traces (.begin id invocation time)
      (r.apply time (.start id invocation)).traces :=
  admits_prune h.pos h.length_le _

theorem Admits.length_le (h : Admits limit traces t kept) : kept.length ≤ limit := by
  cases h with
  | free hroom =>
    rw [List.length_append, List.length_singleton]
    omega
  | full hfull hevicts =>
    rw [List.length_append, List.length_singleton, hevicts.length_eq]
    omega

/-- A report that starts no trace keeps the origins of all traces. -/
theorem map_origin_apply (h : event.started? = none) :
    (r.apply time event).traces.map LoopTrace.origin = r.traces.map LoopTrace.origin := by
  rw [traces_apply_of_started?_eq_none h, map_change (LoopTrace.origin_record _ _)]

theorem Bounded.apply (h : r.Bounded) (time : Timestamp) (event : TraceEvent) :
    (r.apply time event).Bounded := by
  refine ⟨h.pos, ?_⟩
  cases hstart : event.started? with
  | none =>
    have hsame : (r.apply time event).traces.length = r.traces.length := by
      rw [← List.length_map LoopTrace.origin, map_origin_apply hstart, List.length_map]
    rw [hsame]
    exact h.length_le
  | some id =>
    obtain ⟨invocation, rfl⟩ := TraceEvent.eq_start_of_started? hstart
    exact (h.admits time id invocation).length_le

theorem maxTraces_take (r : TraceRecorder) (reports : List (Nat × TraceEvent)) :
    (r.take epoch reports).maxTraces = r.maxTraces := by
  induction reports generalizing r with
  | nil => rfl
  | cons report reports ih => exact ih _

theorem Bounded.take (h : r.Bounded) (reports : List (Nat × TraceEvent)) :
    (r.take epoch reports).Bounded := by
  induction reports generalizing r with
  | nil => exact h
  | cons report reports ih => exact ih (h.apply _ _)

/-! ## The order -/

/-- The origins of the traces that were started, in order. -/
def origins (epoch : Timestamp) (reports : List (Nat × TraceEvent)) :
    List (String × String × Timestamp) :=
  reports.filterMap fun report => report.2.origin? (epoch.addMillis report.1)

/-- The retained traces are in the order in which they were started. -/
theorem sublist_origins (limit : Nat) (epoch : Timestamp) (reports : List (Nat × TraceEvent)) :
    ((recorded limit epoch reports).traces.map LoopTrace.origin).Sublist
      (origins epoch reports) := by
  induction reports using List.reverseRecOn with
  | nil => exact List.Sublist.refl _
  | append_singleton reports report ih =>
    obtain ⟨time, event⟩ := report
    rw [recorded_concat, origins, List.filterMap_append, ← origins]
    cases hstart : event.started? with
    | none =>
      rw [map_origin_apply hstart]
      exact ih.trans (List.sublist_append_left _ _)
    | some id =>
      obtain ⟨invocation, rfl⟩ := TraceEvent.eq_start_of_started? hstart
      simp only [apply, List.map_append]
      exact (((prune_sublist _ _ _).map _).trans ih).append (List.Sublist.refl _)

/-! ## The ends -/

/-- The first trace of an id is changed, and the others stay as they are. -/
theorem change_append {f : LoopTrace → LoopTrace} {earlier : List LoopTrace} (hid : t.id = id)
    (hearlier : ∀ u ∈ earlier, u.id ≠ id) (later : List LoopTrace) :
    change id f (earlier ++ t :: later) = earlier ++ f t :: later := by
  induction earlier with
  | nil => exact if_pos hid
  | cons u earlier ih =>
    obtain ⟨hu, hearlier⟩ := List.forall_mem_cons.1 hearlier
    rw [List.cons_append, change, if_neg hu, ih hearlier, List.cons_append]

/-- A report that neither starts nor ends a trace completes none. -/
theorem map_isComplete_apply (hstart : event.started? = none)
    (hfinish : ∀ id outcome, event ≠ .finish id outcome) :
    (r.apply time event).traces.map LoopTrace.isComplete = r.traces.map LoopTrace.isComplete := by
  rw [traces_apply_of_started?_eq_none hstart,
    map_change fun _ => LoopTrace.isComplete_record hfinish]

theorem mem_or_of_mem_change {f : LoopTrace → LoopTrace} (ht : t ∈ change id f traces) :
    t ∈ traces ∨ ∃ u ∈ traces, u.id = id ∧ t = f u := by
  induction traces with
  | nil => cases ht
  | cons u traces ih =>
    rw [change] at ht
    split at ht
    · next hid =>
      rcases List.mem_cons.1 ht with rfl | ht
      · exact .inr ⟨u, List.mem_cons_self, hid, rfl⟩
      · exact .inl (List.mem_cons_of_mem _ ht)
    · rcases List.mem_cons.1 ht with rfl | ht
      · exact .inl List.mem_cons_self
      · rcases ih ht with hkept | ⟨v, hv, hid, rfl⟩
        · exact .inl (List.mem_cons_of_mem _ hkept)
        · exact .inr ⟨v, List.mem_cons_of_mem _ hv, hid, rfl⟩

/-- A completed trace was completed before, or the report is of its end. -/
theorem isComplete_before_or (ht : t ∈ (r.apply time event).traces) (hcomplete : t.isComplete = true) :
    (∃ u ∈ r.traces, u.id = t.id ∧ u.isComplete = true) ∨
      ∃ outcome, event = .finish t.id outcome := by
  cases hstart : event.started? with
  | some id =>
    obtain ⟨invocation, rfl⟩ := TraceEvent.eq_start_of_started? hstart
    rcases List.mem_append.1 ht with hkept | hnew
    · exact .inl ⟨t, (prune_sublist _ _ _).mem hkept, rfl, hcomplete⟩
    · rw [List.mem_singleton.1 hnew] at hcomplete
      cases hcomplete
  | none =>
    rw [traces_apply_of_started?_eq_none hstart] at ht
    rcases mem_or_of_mem_change ht with hkept | ⟨u, hu, hid, rfl⟩
    · exact .inl ⟨t, hkept, rfl, hcomplete⟩
    · rw [LoopTrace.id_record]
      cases event with
      | finish id outcome =>
        rw [hid]
        exact .inr ⟨outcome, rfl⟩
      | start => cases hstart
      | _ => exact .inl ⟨u, hu, rfl, hcomplete⟩

/-- A retained trace is only completed if its end was reported. -/
theorem exists_finish_of_isComplete (ht : t ∈ (recorded limit epoch reports).traces)
    (hcomplete : t.isComplete = true) :
    ∃ report ∈ reports, ∃ outcome, report.2 = .finish t.id outcome := by
  induction reports using List.reverseRecOn generalizing t with
  | nil => cases ht
  | append_singleton reports report ih =>
    rw [recorded_concat] at ht
    rcases isComplete_before_or ht hcomplete with ⟨u, hu, hid, hbefore⟩ | ⟨outcome, hfinish⟩
    · obtain ⟨earlier, hearlier, hended⟩ := ih hu hbefore
      exact ⟨earlier, List.mem_append_left _ hearlier, hid ▸ hended⟩
    · exact ⟨report, List.mem_concat_self, outcome, hfinish⟩

/-! ## Running traces -/

/-- The recorder has a trace of this id that has not ended. -/
def Runs (id : String) (r : TraceRecorder) : Prop :=
  ∃ t ∈ r.traces, t.id = id ∧ t.isComplete = false

/-- There is no room left, all traces are still running, and the earliest one is of this id. -/
structure FullOfRunning (id : String) (r : TraceRecorder) : Prop where
  full : r.traces.length = r.maxTraces
  running : ∀ t ∈ r.traces, t.isComplete = false
  earliest : r.traces.head?.map LoopTrace.id = some id

/-- A trace is changed or stays as it is. -/
theorem mem_change_or {f : LoopTrace → LoopTrace} (ht : t ∈ traces) :
    t ∈ change id f traces ∨ t.id = id ∧ f t ∈ change id f traces := by
  induction traces with
  | nil => cases ht
  | cons u traces ih =>
    rw [change]
    rcases List.mem_cons.1 ht with rfl | ht
    · split
      · next hid => exact .inr ⟨hid, List.mem_cons_self⟩
      · exact .inl List.mem_cons_self
    · split
      · exact .inl (List.mem_cons_of_mem _ ht)
      · exact (ih ht).imp (List.mem_cons_of_mem _) (And.imp_right (List.mem_cons_of_mem _))

/-- A report that neither starts a trace nor ends this one leaves it running. -/
theorem Runs.apply (h : r.Runs id) (hstart : event.started? = none)
    (hfinish : ∀ outcome, event ≠ .finish id outcome) : (r.apply time event).Runs id := by
  obtain ⟨t, ht, rfl, hopen⟩ := h
  rw [Runs, traces_apply_of_started?_eq_none hstart]
  rcases mem_change_or ht with hsame | ⟨hid, hchanged⟩
  · exact ⟨t, hsame, rfl, hopen⟩
  · refine ⟨_, hchanged, LoopTrace.id_record _ _ _, ?_⟩
    rw [LoopTrace.isComplete_record, hopen]
    rintro other outcome rfl
    obtain rfl : t.id = other := hid
    exact hfinish outcome rfl

/-- A start leaves a trace running, or there was no other way to make room. -/
theorem Bounded.runs_start_or (h : r.Bounded) (hruns : r.Runs id) (time : Timestamp)
    (new invocation : String) :
    (r.apply time (.start new invocation)).Runs id ∨ r.FullOfRunning id := by
  obtain ⟨t, ht, rfl, hopen⟩ := hruns
  have hadmits := h.admits time new invocation
  rw [Runs]
  generalize (r.apply time (.start new invocation)).traces = after at hadmits
  cases hadmits with
  | free hroom => exact .inl ⟨t, List.mem_append_left _ ht, rfl, hopen⟩
  | full hfull hevicts =>
    rcases hevicts.mem_or_eq ht with hkept | rfl
    · exact .inl ⟨t, List.mem_append_left _ hkept, rfl, hopen⟩
    · obtain ⟨hrunning, hhead⟩ := hevicts.of_not_complete hopen
      exact .inr ⟨hfull, hrunning, by rw [hhead, Option.map_some]⟩

/-- A running trace that is lost without having ended was the earliest of running traces that left
no room for a new one. -/
theorem exists_full_of_lost (h : r.Bounded) (hruns : r.Runs id)
    (hopen : ∀ report ∈ reports, ∀ outcome, report.2 ≠ .finish id outcome)
    (hlost : (r.take epoch reports).find? id = none) :
    ∃ middle time new invocation rest, reports = middle ++ (time, .start new invocation) :: rest ∧
      (r.take epoch middle).FullOfRunning id := by
  induction reports generalizing r with
  | nil =>
    obtain ⟨t, ht, hid, -⟩ := hruns
    exact absurd hid (find?_eq_none_iff.1 hlost t ht)
  | cons report reports ih =>
    obtain ⟨time, event⟩ := report
    obtain ⟨hfirst, hrest⟩ := List.forall_mem_cons.1 hopen
    have hlater : (r.apply (epoch.addMillis time) event).Runs id →
        ∃ middle time' new invocation rest,
          (time, event) :: reports = middle ++ (time', .start new invocation) :: rest ∧
          (r.take epoch middle).FullOfRunning id := by
      intro hstill
      obtain ⟨middle, time', new, invocation, rest, rfl, hfull⟩ :=
        ih (h.apply _ _) hstill hrest hlost
      exact ⟨(time, event) :: middle, time', new, invocation, rest, rfl, hfull⟩
    cases hstart : event.started? with
    | none => exact hlater (hruns.apply hstart hfirst)
    | some new =>
      obtain ⟨invocation, rfl⟩ := TraceEvent.eq_start_of_started? hstart
      rcases h.runs_start_or hruns (epoch.addMillis time) new invocation with hstill | hfull
      · exact hlater hstill
      · exact ⟨[], time, new, invocation, reports, rfl, hfull⟩

/-! ## What a recorder retains -/

theorem bounded_recorded (limit : Nat) (epoch : Timestamp) (reports : List (Nat × TraceEvent)) :
    (recorded limit epoch reports).Bounded :=
  (bounded_ofLimit limit).take reports

theorem maxTraces_recorded (limit : Nat) (epoch : Timestamp) (reports : List (Nat × TraceEvent)) :
    (recorded limit epoch reports).maxTraces = max limit 1 :=
  maxTraces_take _ _

/-- A recorder that was told of many traces, in any order, retains the latest ones and those that
have not ended.

* It never has more traces than there is room for, and they are in the order of their starts.
* A start evicts nothing as long as there is room, and otherwise the earliest completed trace, or
  the earliest of all if none is completed.  The new trace is the last one.
* Any other report evicts nothing.
* A report of the end of a trace completes the first retained trace of that id, and no other trace.
  Reports that are neither of a start nor of an end complete none; so a retained trace is only
  completed if its end was reported.
* A trace that was started, and not reported to have ended, is only lost at a later start that finds
  no room, none of the retained traces completed, and this trace as the earliest one.
* The recent traces are the last ones, as many as there are and were asked for, newest first. -/
structure Retains (limit : Nat) (epoch : Timestamp) (reports : List (Nat × TraceEvent)) : Prop where
  length_le : (recorded limit epoch reports).traces.length ≤ max limit 1
  ordered : ((recorded limit epoch reports).traces.map LoopTrace.origin).Sublist
    (origins epoch reports)
  start : ∀ time id invocation,
    Admits (max limit 1) (recorded limit epoch reports).traces
      (.begin id invocation (epoch.addMillis time))
      (recorded limit epoch (reports ++ [(time, .start id invocation)])).traces
  others : ∀ report : Nat × TraceEvent, report.2.started? = none →
    (recorded limit epoch (reports ++ [report])).traces.map LoopTrace.origin =
      (recorded limit epoch reports).traces.map LoopTrace.origin
  finished : ∀ time id outcome earlier t later,
    (recorded limit epoch reports).traces = earlier ++ t :: later →
      t.id = id → (∀ u ∈ earlier, u.id ≠ id) →
        ∃ ended : LoopTrace, ended.origin = t.origin ∧ ended.isComplete = true ∧
          (recorded limit epoch (reports ++ [(time, .finish id outcome)])).traces =
            earlier ++ ended :: later
  unfinished : ∀ report : Nat × TraceEvent, report.2.started? = none →
    (∀ id outcome, report.2 ≠ .finish id outcome) →
      (recorded limit epoch (reports ++ [report])).traces.map LoopTrace.isComplete =
        (recorded limit epoch reports).traces.map LoopTrace.isComplete
  completed : ∀ t ∈ (recorded limit epoch reports).traces, t.isComplete = true →
    ∃ report ∈ reports, ∃ outcome, report.2 = .finish t.id outcome
  running : ∀ before time id invocation after,
    reports = before ++ (time, .start id invocation) :: after →
      (∀ report ∈ after, ∀ outcome, report.2 ≠ .finish id outcome) →
        (recorded limit epoch reports).find? id = none →
          ∃ middle time' new invocation' rest,
            after = middle ++ (time', .start new invocation') :: rest ∧
              FullOfRunning id
                (recorded limit epoch (before ++ (time, .start id invocation) :: middle))
  recent : ∀ count,
    ((recorded limit epoch reports).recent count).length =
        min count (recorded limit epoch reports).traces.length ∧
      ((recorded limit epoch reports).recent count).reverse <:+
        (recorded limit epoch reports).traces

/-- Every recorder retains the latest traces and those that have not ended. -/
theorem retains_recorded (limit : Nat) (epoch : Timestamp) (reports : List (Nat × TraceEvent)) :
    Retains limit epoch reports where
  length_le := by
    rw [← maxTraces_recorded limit epoch reports]
    exact (bounded_recorded limit epoch reports).length_le
  ordered := sublist_origins limit epoch reports
  start time id invocation := by
    rw [recorded_concat, ← maxTraces_recorded limit epoch reports]
    exact (bounded_recorded limit epoch reports).admits _ id invocation
  others report hstart := by
    rw [recorded_concat]
    exact map_origin_apply hstart
  finished time id outcome earlier t later htraces hid hearlier := by
    refine ⟨t.finish outcome (epoch.addMillis time), rfl, rfl, ?_⟩
    rw [recorded_concat, traces_apply_of_started?_eq_none rfl, htraces]
    exact change_append hid hearlier later
  unfinished report hstart hfinish := by
    rw [recorded_concat]
    exact map_isComplete_apply hstart hfinish
  completed _ ht hcomplete := exists_finish_of_isComplete ht hcomplete
  running before time id invocation after hreports hopen hlost := by
    have hsplit : ∀ middle, before ++ (time, .start id invocation) :: middle =
        (before ++ [(time, .start id invocation)]) ++ middle := by simp
    subst hreports
    rw [hsplit, recorded, take_append, ← recorded] at hlost
    have hruns : (recorded limit epoch (before ++ [(time, .start id invocation)])).Runs id := by
      rw [recorded_concat]
      exact ⟨.begin id invocation (epoch.addMillis time), List.mem_concat_self, rfl, rfl⟩
    obtain ⟨middle, time', new, invocation', rest, hafter, hfull⟩ :=
      exists_full_of_lost (bounded_recorded _ _ _) hruns hopen hlost
    refine ⟨middle, time', new, invocation', rest, hafter, ?_⟩
    rw [hsplit, recorded, take_append]
    exact hfull
  recent count := by
    rw [recent]
    constructor
    · rw [List.length_take, List.length_reverse]
    · rw [List.take_reverse, List.reverse_reverse]
      exact List.drop_suffix _ _

end TraceRecorder

end AgentLoop
