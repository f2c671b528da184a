import AgentLoop.Proofs.Endings
import AgentLoop.Proofs.Tracing
import Mathlib.Data.List.DropRight

/-!
# Failures in a row

A run counts the failures in a row and stops when there are too many.  The counter is kept in the
state and touched only where a call is dispatched.  Read off the trace it is the number of failures
at the end of the statuses so far, however many turns they come from.

* `failureStreak` is this number, and `EndsInFailures` says that it reaches a threshold.
* `consecutiveErrors_of_reaches` says that the counter of a run is its failure streak.
* `noStreak_of_reaches` says that no streak was completed before any point of a run, and
  `error_iff_of_ends` that a run ends in an error when one is completed.
* `Journal.OnlyReports` is what a run still does after the call that completes a streak:
  `journal_dispatch` shows the stride of a call from both sides of its status.
* `error_iff_endsInFailures` puts them together.
-/

namespace AgentLoop

/-! ## Streaks -/

/-- The failures in a row after a call that ended like this.  A success resets them, and a failure
adds one. -/
def ActionStatus.count (errors : Nat) : ActionStatus → Nat
  | succeeded => 0
  | failed | timedOut | denied | invalidArguments => errors + 1
  | blocked | cancelled => errors

theorem ActionStatus.count_of_isFailure {errors : Nat} {status : ActionStatus}
    (h : status.isFailure = true) : status.count errors = errors + 1 := by
  cases status <;> first | rfl | cases h

/-- The number of failures at the end. -/
def failureStreak (statuses : List ActionStatus) : Nat :=
  (statuses.rtakeWhile ActionStatus.isFailure).length

/-- The last so many calls all ended as failures. -/
def EndsInFailures (n : Nat) (statuses : List ActionStatus) : Prop :=
  ∃ earlier last, statuses = earlier ++ last ∧ last.length = n ∧
    ∀ status ∈ last, status.isFailure = true

@[simp] theorem failureStreak_nil : failureStreak [] = 0 := rfl

/-- A failure makes the streak longer, and anything else ends it. -/
theorem failureStreak_concat (statuses : List ActionStatus) (status : ActionStatus) :
    failureStreak (statuses ++ [status]) =
      if status.isFailure then failureStreak statuses + 1 else 0 := by
  rw [failureStreak, List.rtakeWhile_concat]
  split <;> simp [failureStreak]

theorem endsInFailures_iff {n : Nat} {statuses : List ActionStatus} :
    EndsInFailures n statuses ↔ n ≤ failureStreak statuses := by
  constructor
  · rintro ⟨earlier, last, rfl, rfl, hlast⟩
    rw [failureStreak, List.rtakeWhile, List.reverse_append,
      List.takeWhile_append_of_pos (by simpa using hlast)]
    simp
  · intro h
    obtain ⟨earlier, hearlier⟩ := List.rtakeWhile_suffix ActionStatus.isFailure statuses
    generalize hstreak : statuses.rtakeWhile ActionStatus.isFailure = streak at hearlier
    have hlength : n ≤ streak.length := hstreak ▸ h
    refine ⟨earlier ++ streak.take (streak.length - n), streak.drop (streak.length - n), ?_, ?_, ?_⟩
    · rw [List.append_assoc, List.take_append_drop, hearlier]
    · rw [List.length_drop]
      omega
    · intro status hstatus
      subst hstreak
      exact List.mem_rtakeWhile_imp (List.mem_of_mem_drop hstatus)

theorem not_endsInFailures_nil {n : Nat} (hn : 1 ≤ n) : ¬ EndsInFailures n [] := by
  rw [endsInFailures_iff, failureStreak_nil]
  omega

theorem Journal.isPrefix_statuses {j k : Journal} (h : j <+: k) : j.statuses <+: k.statuses := by
  obtain ⟨rest, rfl⟩ := h
  rw [Journal.statuses_append]
  exact List.prefix_append _ _

/-- What comes after the part that contains an element comes after the element. -/
theorem isSuffix_of_append_eq {α : Type} {before after front back : List α} {a : α}
    (h : before ++ after = front ++ a :: back) (hbefore : ¬ before <+: front) : after <:+ back := by
  rcases List.append_eq_append_iff.1 h with ⟨rest, rfl, -⟩ | ⟨rest, rfl, hrest⟩
  · exact absurd (List.prefix_append _ _) hbefore
  · cases rest with
    | nil =>
      rw [List.append_nil] at hbefore
      exact absurd (List.prefix_refl _) hbefore
    | cons b rest =>
      rw [List.cons_append, List.cons.injEq] at hrest
      exact ⟨rest, hrest.2.symm⟩

/-- What a run only reports: the model, the gate, the budget and the executor are not asked. -/
def Event.isReport : Event → Bool
  | usageRecorded _ | observed _ | traced _ | remarked _ => true
  | _ => false

/-- A journal in which nobody is asked for anything. -/
def Journal.OnlyReports (j : Journal) : Prop := ∀ entry ∈ j, entry.event.isReport = true

theorem Journal.OnlyReports.append {j k : Journal} (hj : j.OnlyReports) (hk : k.OnlyReports) :
    (j ++ k).OnlyReports := by
  intro entry hentry
  rcases List.mem_append.1 hentry with hentry | hentry
  · exact hj entry hentry
  · exact hk entry hentry

namespace Controller

variable {M G B X : Type} (c : Controller M G B X) (inv : Invocation) {s : Stand M G B X}

/-! ## The counter of a run -/

/-- Only the dispatching of a call touches the counter. -/
theorem consecutiveErrors_stride_eq {phase : Phase}
    (hphase : ∀ call calls deferred, phase ≠ .dispatching (call :: calls) deferred) :
    (c.stride inv phase s).1.stand.state.consecutiveErrors = s.state.consecutiveErrors := by
  rcases phase.replied_or with ⟨reply, rfl⟩ | hreply
  · have htakes := c.takes_strideReply inv reply s
    rw [stride]
    generalize c.strideReply inv reply s = taken at htakes ⊢
    cases htakes <;> rfl
  · obtain ⟨t, n, hstate⟩ := c.exists_state_stride inv (s := s) hreply hphase
    rw [hstate]

variable {c inv} {w : World M G B X} {phase : Phase} {past journal : Journal} {flow : Flow}

/-- The counter after a call that did not end the run. -/
theorem Settles.consecutiveErrors_eq {errors errors' : Nat} {status : ActionStatus}
    {statuses : List ActionStatus} (h : c.Settles errors status .goOn errors')
    (hstreak : errors = failureStreak statuses) :
    errors' = failureStreak (statuses ++ [status]) := by
  rw [failureStreak_concat]
  cases h with
  | succeeded => rfl
  | failed hfailure hmore => rw [if_pos hfailure, hstreak]

/-- The counter after a call, however it ended. -/
theorem Settles.eq_count {errors errors' : Nat} {status : ActionStatus}
    (h : c.Settles errors status flow errors') : errors' = status.count errors := by
  cases h with
  | succeeded | blocked | cancelled => rfl
  | failed hfailure | exhausted hfailure => exact (ActionStatus.count_of_isFailure hfailure).symm

/-- A call ends the run in an error when it completes a streak. -/
theorem Settles.error_iff {errors errors' : Nat} {status : ActionStatus}
    {statuses : List ActionStatus} (h : c.Settles errors status flow errors')
    (hstreak : errors = failureStreak statuses) (hthreshold : 1 ≤ c.config.errorThreshold) :
    (∃ output, flow = .stop .error output) ↔
      EndsInFailures c.config.errorThreshold (statuses ++ [status]) := by
  rw [endsInFailures_iff, failureStreak_concat, ← hstreak]
  cases h with
  | failed hfailure hmore => simp [hfailure, hmore]
  | exhausted hfailure hexhausted => simp [hfailure, hexhausted]
  | succeeded | blocked | cancelled =>
    simp [ActionStatus.isFailure, Nat.ne_of_gt (Nat.lt_of_lt_of_le Nat.zero_lt_one hthreshold)]

/-- At every point the counter is the number of failures at the end of the statuses so far. -/
theorem consecutiveErrors_of_reaches (h : c.Reaches inv w phase past s) :
    s.state.consecutiveErrors = failureStreak past.statuses := by
  induction h with
  | begin hadopt => rfl
  | @stride phase past s hpast hflow ih =>
    have hpending := (awaits_of_reaches hpast).pending
    rw [Journal.statuses_append]
    rcases phase.dispatching_or with ⟨call, calls, deferred, rfl⟩ | hphase
    · rw [c.statuses_dispatch inv hpending]
      have hsettles := c.settles_dispatch inv hpending
      rw [hflow] at hsettles
      exact hsettles.consecutiveErrors_eq ih
    · rw [c.statuses_stride_eq_nil inv hpending hphase, List.append_nil,
        c.consecutiveErrors_stride_eq inv hphase, ih]

/-- A stride counts the call that it dispatches, if it dispatches one. -/
theorem consecutiveErrors_stride (h : c.Reaches inv w phase past s) :
    (c.stride inv phase s).1.stand.state.consecutiveErrors =
      (c.stride inv phase s).1.journal.statuses.foldl ActionStatus.count
        s.state.consecutiveErrors := by
  have hpending := (awaits_of_reaches h).pending
  rcases phase.dispatching_or with ⟨call, calls, deferred, rfl⟩ | hphase
  · rw [c.statuses_dispatch inv hpending]
    exact (c.settles_dispatch inv hpending).eq_count
  · rw [c.statuses_stride_eq_nil inv hpending hphase]
    exact c.consecutiveErrors_stride_eq inv hphase

/-- A stride ends a run in an error exactly when it completes a streak. -/
theorem flow_stride_eq_error_iff (hthreshold : 1 ≤ c.config.errorThreshold)
    (h : c.Reaches inv w phase past s)
    (hbefore : ¬ EndsInFailures c.config.errorThreshold past.statuses) :
    (∃ output, (c.stride inv phase s).1.flow = .stop .error output) ↔
      EndsInFailures c.config.errorThreshold
        (past ++ (c.stride inv phase s).1.journal).statuses := by
  have hpending := (awaits_of_reaches h).pending
  have hcounter := consecutiveErrors_of_reaches h
  rw [Journal.statuses_append]
  rcases phase.dispatching_or with ⟨call, calls, deferred, rfl⟩ | hphase
  · rw [c.statuses_dispatch inv hpending]
    exact (c.settles_dispatch inv hpending).error_iff hcounter hthreshold
  · rw [c.statuses_stride_eq_nil inv hpending hphase, List.append_nil]
    refine ⟨fun ⟨output, hflow⟩ => ?_, fun hreached => absurd hreached hbefore⟩
    cases c.stops_of_flow inv hpending hflow with
    | failing => exact absurd rfl (hphase _ _ _)
    | exhausted hexhausted =>
      rw [endsInFailures_iff, ← hcounter] at hbefore
      exact absurd hexhausted hbefore

/-- At every point no streak was completed before. -/
theorem noStreak_of_reaches (hthreshold : 1 ≤ c.config.errorThreshold)
    (h : c.Reaches inv w phase past s) :
    NoPrefix (EndsInFailures c.config.errorThreshold) past.statuses := by
  induction h with
  | begin hadopt => exact .nil (not_endsInFailures_nil hthreshold)
  | @stride phase past s hpast hflow ih =>
    have hpending := (awaits_of_reaches hpast).pending
    have hnot : ¬ EndsInFailures c.config.errorThreshold
        (past ++ (c.stride inv phase s).1.journal).statuses := by
      rw [← flow_stride_eq_error_iff hthreshold hpast ih.self, hflow]
      simp
    rw [Journal.statuses_append] at hnot ⊢
    rcases phase.dispatching_or with ⟨call, calls, deferred, rfl⟩ | hphase
    · rw [c.statuses_dispatch inv hpending] at hnot ⊢
      exact ih.concat hnot
    · rw [c.statuses_stride_eq_nil inv hpending hphase, List.append_nil]
      exact ih

/-! ## The end of a run -/

/-- A run ends in an error exactly when its statuses end in a streak. -/
theorem error_iff_of_ends (hthreshold : 1 ≤ c.config.errorThreshold)
    (h : c.Ends inv w journal s flow) :
    (∃ output, flow = .stop .error output) ↔
      EndsInFailures c.config.errorThreshold journal.statuses := by
  obtain ⟨hpast, hflow⟩ := h
  exact flow_stride_eq_error_iff hthreshold hpast (noStreak_of_reaches hthreshold hpast).self

/-- No call comes after the one that completes a streak. -/
theorem eq_nil_of_ends (hthreshold : 1 ≤ c.config.errorThreshold)
    (h : c.Ends inv w journal s flow) {earlier later : List ActionStatus}
    (hsplit : journal.statuses = earlier ++ later)
    (hreached : EndsInFailures c.config.errorThreshold earlier) : later = [] := by
  obtain @⟨phase, past, s, hpast, hflow⟩ := h
  have hpending := (awaits_of_reaches hpast).pending
  have hnone := noStreak_of_reaches hthreshold hpast
  rw [Journal.statuses_append] at hsplit
  rcases phase.dispatching_or with ⟨call, calls, deferred, rfl⟩ | hphase
  · rw [c.statuses_dispatch inv hpending] at hsplit
    exact hnone.eq_nil_of_append hsplit hreached
  · rw [c.statuses_stride_eq_nil inv hpending hphase, List.append_nil] at hsplit
    exact absurd hreached (hnone earlier ⟨later, hsplit.symm⟩)

variable (c inv)

theorem exists_journal_closeBatch (st : Stretch M G B X) :
    ∃ closed, (c.closeBatch inv st).journal = st.journal ++ closed ∧ closed.OnlyReports := by
  rw [closeBatch]
  split
  · refine ⟨_, rfl, ?_⟩
    simp [Journal.OnlyReports, Stand.entry, Event.isReport]
  · exact ⟨[], (List.append_nil _).symm, by simp [Journal.OnlyReports]⟩

theorem onlyReports_remarks (now : Nat) (remark : Option Remark) :
    (remarks now remark).OnlyReports := by
  cases remark <;> simp [remarks, Journal.OnlyReports, Event.isReport]

theorem onlyReports_farewell (s : Stand M G B X) (flow : Flow) :
    (farewell inv s flow).OnlyReports := by
  rw [farewell]
  split <;> simp [Journal.OnlyReports, Stand.entry, Event.isReport]

/-- A dispatched call as it is told: no status comes before its own, and only reports come
after it. -/
theorem journal_dispatch {call : ToolCall} {calls deferred : List ToolCall}
    (hpending : s.state.transcript.pending = call :: (calls ++ deferred)) :
    ∃ (before after : Journal) (told : Entry),
      (c.stride inv (.dispatching (call :: calls) deferred) s).1.journal =
        before ++ told :: after ∧ before.statuses = [] ∧ after.OnlyReports := by
  have hasked := c.told_judge inv call s.world
  rcases hjudge : c.judge inv call s.world with ⟨fate, w, asked⟩
  rw [hjudge] at hasked
  obtain ⟨closed, hclosed, hreports⟩ := c.exists_journal_closeBatch inv (c.dispatchCall inv call s)
  obtain ⟨noticed, told, hreport, hnoticed⟩ : ∃ noticed told : Entry,
      c.reportCall inv w.now s.state.iterations call fate (w.now - s.world.now) = [noticed, told] ∧
        Journal.told [noticed] = [] := ⟨_, _, rfl, rfl⟩
  refine ⟨asked ++ remarks w.now (fate.remarkBefore call) ++ (c.auditCall inv call fate w).2 ++
    [noticed], remarks w.now (fate.remarkAfter call) ++ closed, told, ?_, ?_,
    (onlyReports_remarks _ _).append hreports⟩
  · rw [stride, hclosed, c.dispatchCall_of_pending inv hpending hjudge, settledEntries, hreport]
    simp
  · simp only [Journal.statuses, Journal.told_append, hasked, told_remarks, told_auditCall,
      hnoticed, List.append_nil, List.filterMap_nil]

variable {c inv}

/-- After the call that completes a streak there is nothing but reports. -/
theorem onlyReports_of_ends (hthreshold : 1 ≤ c.config.errorThreshold)
    (h : c.Ends inv w journal s flow) {before after : Journal}
    (hsplit : (reportOf inv w journal s flow).journal = before ++ after)
    (hreached : EndsInFailures c.config.errorThreshold before.statuses) : after.OnlyReports := by
  have hstatuses : before.statuses <+: journal.statuses := by
    have hprefix := Journal.isPrefix_statuses (List.prefix_append before after)
    rwa [← hsplit, statuses_reportOf] at hprefix
  have hfarewell := onlyReports_farewell inv s flow
  simp only [reportOf] at hsplit
  generalize farewell inv s flow = farewell at hsplit hfarewell
  obtain @⟨phase, past, s, hpast, hflow⟩ := h
  have hpending := (awaits_of_reaches hpast).pending
  have hnew : ¬ before.statuses <+: past.statuses := fun hprefix =>
    noStreak_of_reaches hthreshold hpast _ hprefix hreached
  rcases phase.dispatching_or with ⟨call, calls, deferred, rfl⟩ | hphase
  · obtain ⟨front, back, told, hjournal, hfront, hback⟩ := c.journal_dispatch inv hpending
    have hwhole : before ++ after = (past ++ front) ++ told :: (back ++ farewell) := by
      rw [← hsplit, hjournal]
      simp
    have hbefore : ¬ before <+: past ++ front := fun hprefix => hnew <| by
      simpa [hfront] using Journal.isPrefix_statuses hprefix
    exact fun entry hentry =>
      (hback.append hfarewell) entry ((isSuffix_of_append_eq hwhole hbefore).mem hentry)
  · rw [Journal.statuses_append, c.statuses_stride_eq_nil inv hpending hphase,
      List.append_nil] at hstatuses
    exact absurd hstatuses hnew

variable (c inv)

/-! ## Results -/

/-- A run ends in an error exactly when its last calls are failures, as many as the threshold says.
Wherever so many failures come in a row they are the last calls of the run, and nobody is asked for
anything after them.  The counter of the run is its failure streak.  Only the dispatching of a call
touches it, and a call counts by its status. -/
theorem error_iff_endsInFailures (w : World M G B X) (hthreshold : 1 ≤ c.config.errorThreshold) :
    ((c.run inv w).ending.reason? = some .error ↔
        EndsInFailures c.config.errorThreshold (c.run inv w).journal.statuses) ∧
      (∀ before streak after, (c.run inv w).journal.statuses = before ++ streak ++ after →
        streak.length = c.config.errorThreshold →
        (∀ status ∈ streak, status.isFailure = true) → after = []) ∧
      (∀ before after : Journal, (c.run inv w).journal = before ++ after →
        EndsInFailures c.config.errorThreshold before.statuses → after.OnlyReports) ∧
      ∀ phase past s, c.Reaches inv w phase past s →
        s.state.consecutiveErrors = failureStreak past.statuses ∧
          (c.stride inv phase s).1.stand.state.consecutiveErrors =
            (c.stride inv phase s).1.journal.statuses.foldl ActionStatus.count
              s.state.consecutiveErrors ∧
          ((∀ call calls deferred, phase ≠ .dispatching (call :: calls) deferred) →
            (c.stride inv phase s).1.journal.statuses = []) := by
  have hpoints := fun phase past s (h : c.Reaches inv w phase past s) =>
    And.intro (consecutiveErrors_of_reaches h) <|
      And.intro (consecutiveErrors_stride h) <|
        c.statuses_stride_eq_nil inv (awaits_of_reaches h).pending
  rcases c.run_cases inv w with ⟨error, -, hrun⟩ | ⟨journal, s, flow, hends, hrun⟩
  · have hnone := not_endsInFailures_nil hthreshold
    rw [hrun]
    refine ⟨⟨nofun, fun h => absurd h hnone⟩, ?_, ?_, hpoints⟩
    · intro before streak after hsplit
      exact fun _ _ => (List.append_eq_nil_iff.1 hsplit.symm).2
    · intro before after hsplit
      obtain ⟨rfl, rfl⟩ := List.append_eq_nil_iff.1 hsplit.symm
      exact fun h => absurd h hnone
  · rw [hrun, statuses_reportOf, reason?_reportOf_eq_some_iff]
    refine ⟨error_iff_of_ends hthreshold hends, ?_, ?_, hpoints⟩
    · intro before streak after hsplit hlength hstreak
      exact eq_nil_of_ends hthreshold hends hsplit
        ⟨before, streak, rfl, hlength, hstreak⟩
    · intro before after hsplit hreached
      exact onlyReports_of_ends hthreshold hends hsplit hreached

/-- A controller that stops after two failures, and whose tools always fail. -/
def failingTools : Controller Script Unit Unit Unit :=
  scripted { LoopConfig.default with errorThreshold := 2 } (.failure "down")

/-- Two turns with a call and a text between them. -/
def interrupted : World Script Unit Unit Unit :=
  reciting [callReply "a", .text "Sunny.", callReply "b", .text "Rainy."]

/-- Two failures in different turns, with a text between them, end a run in an error. -/
theorem error_iff_endsInFailures_interrupted :
    (failingTools.run task interrupted).journal.statuses = [.failed, .failed] ∧
      (failingTools.run task interrupted).ending.reason? = some .error := by
  have hstatuses : (failingTools.run task interrupted).journal.statuses = [.failed, .failed] := by
    decide +kernel
  refine ⟨hstatuses, (failingTools.error_iff_endsInFailures task _ (by decide)).1.2 ?_⟩
  rw [hstatuses]
  exact ⟨[], [.failed, .failed], rfl, rfl, by decide⟩

end Controller

end AgentLoop
