import AgentLoop.Proofs.Places
import AgentLoop.Proofs.Spending

/-!
# Limits across runs

Runs that share one enforcer keep within its limits all together, however each of them ends.  The
enforcer counts turns and calls, not requests and executions, and it learns of tokens only when a
reply is taken in; so three facts about a single run are needed.

* `Journal.Granted`: a run asks the model and the executor only for what the enforcer has allowed.
* `tokensReceived_of_reaches`: whenever a turn begins, the enforcer has been told of all tokens that
  the replies took.
* `checkDuration_of_reaches`: at the beginning of every turn but the first the enforcer has just
  granted more time.

`SharedRuns` is a sequence of runs with one enforcer, `WithinLimits` says what its limits mean for
them, and `SharedRuns.withinLimits` that they are kept.
-/

namespace AgentLoop

/-- The tokens that a reply reports. -/
def ModelReply.tokens (reply : ModelReply) : Nat := (reply.usage.map Usage.totalTokens).getD 0

namespace Journal

/-- The tokens that all replies report. -/
def tokensReceived (j : Journal) : Nat := (j.replies.map ModelReply.tokens).sum

@[simp] theorem tokensReceived_append (j k : Journal) :
    (j ++ k).tokensReceived = j.tokensReceived + k.tokensReceived := by
  simp [tokensReceived, replies_append]

theorem onlyCalls_callGranted? : OnlyCalls callGranted? :=
  ⟨⟨fun _ => rfl, fun _ => rfl, fun _ => rfl, fun _ => rfl⟩, fun _ => rfl, fun _ _ => rfl,
    fun _ => rfl, fun _ => rfl⟩

end Journal

/-- The model was asked only for turns that the budget allowed, and the executor only for calls that
it allowed. -/
structure Journal.Granted (j : Journal) : Prop where
  requests : j.requests.length ≤ j.turnsGranted
  executions : List.Sublist (j.executions.map Prod.fst) j.callsGranted

namespace Journal.Granted

variable {j k : Journal}

theorem of_isFrame (h : ∀ e ∈ j, e.event.isFrame = true) : j.Granted where
  requests := by
    rw [requests_eq_pick, pick_of_isFrame (fun _ _ => rfl) (fun _ _ => rfl) (fun _ => rfl) h]
    exact Nat.zero_le _
  executions := by
    rw [executions_eq_pick, pick_of_isFrame (fun _ _ => rfl) (fun _ _ => rfl) (fun _ => rfl) h]
    exact List.nil_sublist _

theorem append (hj : j.Granted) (hk : k.Granted) : (j ++ k).Granted where
  requests := by
    have hrequests := Nat.add_le_add hj.requests hk.requests
    rwa [← turnsGranted_append, ← List.length_append, requests_eq_pick, requests_eq_pick,
      ← pick_append] at hrequests
  executions := by
    have hexecutions := hj.executions.append hk.executions
    rwa [← callsGranted_append, ← List.map_append, executions_eq_pick, executions_eq_pick,
      ← pick_append] at hexecutions

end Journal.Granted

namespace Controller

variable {M G B X : Type} (c : Controller M G B X) (inv : Invocation) {s : Stand M G B X}

/-! ## Only what was granted -/

/-- The model is asked only for a turn that was granted. -/
theorem requests_le_turnsGranted_stride {phase : Phase}
    (hpending : s.state.transcript.pending = phase.open) :
    (c.stride inv phase s).1.journal.requests.length ≤
      (c.stride inv phase s).1.journal.turnsGranted := by
  by_cases hphase : phase = .turn
  · subst hphase
    have hasks := c.asks_askModel inv s
    rw [stride]
    generalize c.askModel inv s = asked at hasks ⊢
    cases hasks with
    | blocked => exact Nat.zero_le _
    | withdrawn => exact Nat.zero_le _
    | cancelled hbudget | stalled hbudget | failed hbudget | replied hbudget =>
      simp [Journal.requests, Journal.turnsGranted, Journal.turnGranted?, turnEntries,
        callingEntry, askedEntry, hbudget]
  · rw [c.requests_stride_eq_nil inv hpending hphase]
    exact Nat.zero_le _

/-- A call reaches the executor only after it was granted. -/
theorem executions_sublist_callsGranted_stride {phase : Phase}
    (hpending : s.state.transcript.pending = phase.open) :
    List.Sublist ((c.stride inv phase s).1.journal.executions.map Prod.fst)
      (c.stride inv phase s).1.journal.callsGranted := by
  rcases phase.dispatching_or with ⟨call, calls, deferred, rfl⟩ | hphase
  · have hexecution := Journal.onlyCalls_execution?.toSkipsReports
    have hgranted := Journal.onlyCalls_callGranted?.toSkipsReports
    rw [Journal.executions_eq_pick, Journal.callsGranted, stride,
      c.pick_dispatch_of_unaudited inv hexecution (fun _ _ _ _ => rfl) hpending,
      c.pick_dispatch_of_unaudited inv hgranted (fun _ _ _ _ => rfl) hpending]
    have hjudges := c.judges_judge inv call s.world
    generalize c.judge inv call s.world = judged at hjudges ⊢
    cases hjudges with
    | unreadable | denied | blocked | withdrawn => exact List.nil_sublist _
    | ended hread hruling hcheck | timedOut hread hruling hcheck
    | cancelled hread hruling hcheck =>
      simp [Journal.execution?, Journal.callGranted?, rulingEntry, checkEntry, executedEntry,
        hcheck]
  · rw [Journal.executions_eq_pick, c.pick_stride_eq_nil inv Journal.onlyCalls_execution? hphase]
    exact List.nil_sublist _

variable {c inv} {w : World M G B X} {past : Journal}

theorem granted_run : (c.run inv w).journal.Granted := by
  refine run_of_strides (fun _ => .of_isFrame) (fun _ _ => .append) fun phase s hpending => ?_
  exact ⟨c.requests_le_turnsGranted_stride inv hpending,
    c.executions_sublist_callsGranted_stride inv hpending⟩

/-! ## The tokens of a run -/

variable (c inv)

theorem tokensRecorded_notedEntries (reply : ModelReply) (s : Stand M G B X) :
    (c.notedEntries inv reply s).tokensRecorded = reply.tokens := by
  rw [notedEntries, recordReply, ModelReply.tokens]
  cases reply.usage <;> rfl

/-- While a call is dispatched the budget is not told of tokens. -/
theorem tokensRecorded_dispatch {call : ToolCall} {rest : List ToolCall}
    (hpending : s.state.transcript.pending = call :: rest) :
    (c.closeBatch inv (c.dispatchCall inv call s)).journal.tokensRecorded = 0 := by
  rcases hjudge : c.judge inv call s.world with ⟨fate, w, asked⟩
  have hasked : asked.tokensRecorded = 0 := by
    have hjudges := c.judges_judge inv call s.world
    rw [hjudge] at hjudges
    cases hjudges <;> rfl
  have haudit : (c.auditCall inv call fate w).2.tokensRecorded = 0 := by
    rw [auditCall]
    split <;> rfl
  have hremarks : ∀ now remark, (remarks now remark).tokensRecorded = 0 := by
    intro now remark
    cases remark <;> rfl
  have hcall : (c.dispatchCall inv call s).journal.tokensRecorded = 0 := by
    rw [c.dispatchCall_of_pending inv hpending hjudge]
    simp only [settledEntries, Journal.tokensRecorded_append, hasked, haudit, hremarks]
    rfl
  rw [closeBatch]
  split
  · rw [Journal.tokensRecorded_append, hcall]
    rfl
  · exact hcall

/-- Only when a reply is taken in is the budget told of tokens, and then of all that the reply
took. -/
theorem tokensRecorded_stride {phase : Phase}
    (hpending : s.state.transcript.pending = phase.open) :
    (c.stride inv phase s).1.journal.tokensRecorded =
      (phase.incoming.map ModelReply.tokens).sum := by
  match phase with
  | .turn =>
    have hasks := c.asks_askModel inv s
    rw [stride]
    generalize c.askModel inv s = asked at hasks ⊢
    cases hasks <;> rfl
  | .replied reply =>
    have hnoted := c.tokensRecorded_notedEntries inv reply s
    have htakes := c.takes_strideReply inv reply s
    rw [stride]
    generalize c.strideReply inv reply s = taken at htakes ⊢
    cases htakes with
    | refused | accepted => simpa [Phase.incoming] using hnoted
    | prompted | calls =>
      rw [Journal.tokensRecorded_append, hnoted]
      rfl
  | .dispatching [] deferred =>
    rw [stride, strideToDeferred]
    simp only
    split <;> rfl
  | .dispatching (call :: calls) deferred => exact c.tokensRecorded_dispatch inv hpending
  | .deferring [] => rfl
  | .deferring (call :: calls) =>
    rw [stride, journal_strideDeferral]
    rfl
  | .closing =>
    rw [stride, closeTurn_eq]
    split <;> rfl

variable {c inv} {phase : Phase} {journal : Journal} {flow : Flow}

theorem tokensReceived_stride (h : c.Reaches inv w phase past s) :
    (c.stride inv phase s).1.journal.tokensReceived =
      ((c.stride inv phase s).2.incoming.map ModelReply.tokens).sum := by
  rw [Journal.tokensReceived, c.replies_stride inv (awaits_of_reaches h).pending]

/-- At every point the budget was told of all tokens but those of the reply that just came in. -/
theorem tokensReceived_of_reaches (h : c.Reaches inv w phase past s) :
    past.tokensReceived = past.tokensRecorded + (phase.incoming.map ModelReply.tokens).sum := by
  induction h with
  | begin hadopt => rfl
  | stride hpast hflow ih =>
    rw [Journal.tokensReceived_append, Journal.tokensRecorded_append, ih,
      tokensReceived_stride hpast, c.tokensRecorded_stride inv (awaits_of_reaches hpast).pending]

theorem tokensReceived_of_ends (h : c.Ends inv w journal s flow) :
    journal.tokensReceived = journal.tokensRecorded := by
  obtain @⟨phase, past, s, hpast, hflow⟩ := h
  rw [Journal.tokensReceived_append, Journal.tokensRecorded_append,
    tokensReceived_of_reaches hpast, tokensReceived_stride hpast, c.incoming_of_ne_goOn inv hflow,
    c.tokensRecorded_stride inv (awaits_of_reaches hpast).pending]
  rfl

/-- The end of a run takes no tokens. -/
theorem tokensRecorded_reportOf :
    (reportOf inv w journal s flow).journal.tokensRecorded = journal.tokensRecorded := by
  have hfarewell : (farewell inv s flow).pick Journal.tokensRecorded? = [] :=
    Journal.pick_of_isFrame (fun _ _ => rfl) (fun _ _ => rfl) (fun _ => rfl)
      fun e he => isFrame_of_mem_farewell he
  rw [Journal.tokensRecorded, reportOf, Journal.pick_append, hfarewell, List.append_nil,
    Journal.tokensRecorded]

/-- When a run is over the budget was told of all tokens that its replies took. -/
theorem tokensReceived_run :
    (c.run inv w).journal.tokensReceived = (c.run inv w).journal.tokensRecorded := by
  rcases c.run_cases inv w with ⟨error, -, hrun⟩ | ⟨journal, s, flow, hends, hrun⟩
  · rw [hrun]
    rfl
  · rw [hrun, tokensRecorded_reportOf, ← tokensReceived_of_ends hends, Journal.tokensReceived,
      Journal.tokensReceived, Journal.replies, pick_reportOf inv Journal.skipsReports_reply?,
      Journal.replies]

/-! ## The time of a run -/

variable {limits : BudgetConfig}

/-- A turn that goes on to the next one was granted more time. -/
theorem durationCheck_of_goOn {c : Controller M G B X} {s : Stand M G B X}
    (hflow : (c.closeTurn s).flow = .goOn) : (c.durationCheck s).1 = .allowed := by
  cases hcheck : (c.durationCheck s).1 with
  | allowed => rfl
  | blocked reason =>
    rw [closeTurn_eq, hcheck] at hflow
    simp only [stopReason?, BudgetDecision.isBlocked, if_true] at hflow
    split at hflow
    · cases hflow
    · next hreason => split at hreason <;> cases hreason

/-- When a turn begins that is not the first one, the enforcer would still grant more time. -/
theorem checkDuration_of_reaches {c : Controller M G Spent X} {w : World M G Spent X}
    {s : Stand M G Spent X} (hbudget : c.budget = limits.tracker)
    (h : c.Reaches inv w .turn past s) (hpast : past.requests ≠ []) :
    s.world.budget.checkDuration limits s.world.now = .allowed := by
  generalize hphase : Phase.turn = next at h
  cases h with
  | begin hadopt => exact absurd rfl hpast
  | @stride phase past s hreaches hflow =>
    have hclosing : phase = .closing := by
      by_contra hne
      have hbegun := c.begun_stride inv hflow hne
      rw [← hphase] at hbegun
      cases hbegun
    subst hclosing
    have hallowed := durationCheck_of_goOn hflow
    have hstand : (c.stride inv .closing s).1.stand = c.durationChecked s := by
      rw [stride, closeTurn_eq]
      split <;> rfl
    rw [hstand]
    rw [durationCheck, hbudget] at hallowed
    rw [durationChecked, durationCheck, hbudget]
    exact hallowed

end Controller

/-! ## Runs with one enforcer -/

/-- A journal of complete runs, one after another: each begins with what the enforcer had counted
when the one before it ended.  Everything else may differ from run to run, and the code of a run
takes no time. -/
inductive SharedRuns (limits : BudgetConfig) : Spent → List Journal → Spent → Prop where
  | nil (spent : Spent) : SharedRuns limits spent [] spent
  | cons {M G X : Type} (c : Controller M G Spent X) (inv : Invocation) (w : World M G Spent X)
      {runs : List Journal} {spent : Spent} (hbudget : c.budget = limits.tracker)
      (hlag : ∀ w, c.lag w = 0)
      (hrest : SharedRuns limits (c.run inv w).world.budget runs spent) :
      SharedRuns limits w.budget ((c.run inv w).journal :: runs) spent

/-- The journals of some runs, one after another. -/
def Journal.ofRuns (runs : List Journal) : Journal := runs.flatten

/-- The entry stands in the run after the runs `earlier`, and `before` is what comes before it in
that run. -/
def StandsAt (runs earlier : List Journal) (before : Journal) (e : Entry) : Prop :=
  ∃ after later, runs = earlier ++ (before ++ e :: after) :: later

/-- At the time `now`, after everything in the journal, a limit on what is checked was reached.  A
limit that is not set never is. -/
def BudgetConfig.Met (limits : BudgetConfig) (made now : Nat) (j : Journal) : BudgetCheck → Prop
  | .iteration =>
    (reached limits.maxTokens j.tokensRecorded).isSome ∨
      (reached limits.maxModelCalls j.turnsGranted).isSome
  | .tool name _ =>
    (reached limits.maxToolCalls j.callsGranted.length).isSome ∨
      (reached (limits.perTool.get? name) (j.callsGranted.count name)).isSome
  | .duration => ∃ secs, limits.maxDurationSecs = some secs ∧ secs * 1000 ≤ now - made

/-- The runs of an enforcer that was made at the time `made` keep within its limits. -/
structure WithinLimits (limits : BudgetConfig) (made : Nat) (runs : List Journal) : Prop where
  requests : ∀ max, limits.maxModelCalls = some max →
    (Journal.ofRuns runs).requests.length ≤ max
  executions : ∀ max, limits.maxToolCalls = some max →
    (Journal.ofRuns runs).executions.length ≤ max
  executionsOf : ∀ tool max, limits.perTool.get? tool = some max →
    ((Journal.ofRuns runs).executions.map Prod.fst).count tool ≤ max
  /-- The model is asked only while the replies of all runs have left some tokens. -/
  tokens : ∀ earlier before time request,
    StandsAt runs earlier before ⟨time, .asked request⟩ →
      ∀ max, limits.maxTokens = some max →
        (Journal.ofRuns earlier).tokensReceived + before.tokensReceived < max
  /-- Only its first request may a run make when the time is up. -/
  duration : ∀ earlier before time request,
    StandsAt runs earlier before ⟨time, .asked request⟩ → before.requests ≠ [] →
      ∀ secs, limits.maxDurationSecs = some secs → time - made < secs * 1000
  /-- A limit that is not set imposes nothing: the enforcer refuses only at a limit. -/
  refused : ∀ earlier before time check reason,
    StandsAt runs earlier before ⟨time, .budgetChecked check (.blocked reason)⟩ →
      limits.Met made time (Journal.ofRuns earlier ++ before) check

namespace SharedRuns

variable {limits : BudgetConfig} {spent spent' : Spent} {runs earlier later : List Journal}
  {run : Journal}

/-- What holds of every run, and is kept when journals are put together, holds of all runs. -/
theorem of_runs {P : Journal → Prop} (hnil : P []) (happend : ∀ j k, P j → P k → P (j ++ k))
    (hrun : ∀ (M G X : Type) (c : Controller M G Spent X) (inv : Invocation)
      (w : World M G Spent X), P (c.run inv w).journal)
    (h : SharedRuns limits spent runs spent') : P (Journal.ofRuns runs) := by
  induction h with
  | nil => exact hnil
  | cons c inv w hbudget hlag hrest ih => exact happend _ _ (hrun _ _ _ _ _ _) ih

theorem keeps (h : SharedRuns limits spent runs spent') :
    Spent.Keeps limits spent (Journal.ofRuns runs) spent' := by
  induction h with
  | nil => rfl
  | cons c inv w hbudget hlag hrest ih =>
    exact Spent.keeps_append_iff.2 ⟨_, Spent.keeps_of_tells hbudget (Controller.tells_run ..), ih⟩

/-- A run among them, with the runs before it. -/
theorem exists_run (h : SharedRuns limits spent (earlier ++ run :: later) spent') :
    ∃ (M G X : Type) (c : Controller M G Spent X) (inv : Invocation) (w : World M G Spent X),
      SharedRuns limits spent earlier w.budget ∧ c.budget = limits.tracker ∧ (∀ w, c.lag w = 0) ∧
        run = (c.run inv w).journal := by
  induction earlier generalizing spent with
  | nil =>
    cases h with
    | cons c inv w hbudget hlag hrest => exact ⟨_, _, _, c, inv, w, .nil _, hbudget, hlag, rfl⟩
  | cons first earlier ih =>
    cases h with
    | cons c inv w hbudget hlag hrest =>
      obtain ⟨M', G', X', c', inv', w', hearlier, hlast⟩ := ih hrest
      exact ⟨M', G', X', c', inv', w', .cons c inv w hbudget hlag hearlier, hlast⟩

theorem granted (h : SharedRuns limits spent runs spent') : (Journal.ofRuns runs).Granted :=
  h.of_runs (.of_isFrame (by simp)) (fun _ _ => .append) fun _ _ _ _ _ _ => Controller.granted_run

/-- The enforcer was told of all tokens that the replies of all runs took. -/
theorem tokensReceived (h : SharedRuns limits spent runs spent') :
    (Journal.ofRuns runs).tokensReceived = (Journal.ofRuns runs).tokensRecorded := by
  refine h.of_runs (P := fun j => j.tokensReceived = j.tokensRecorded) rfl ?_ ?_
  · intro j k hj hk
    rw [Journal.tokensReceived_append, Journal.tokensRecorded_append, hj, hk]
  · intro M G X c inv w
    exact Controller.tokensReceived_run

/-! ## The limits are kept -/

variable {made : Nat}

theorem within (h : SharedRuns limits (.fresh made) runs spent) : spent.Within limits :=
  h.keeps.within (Spent.within_fresh limits made)

/-- The counts of all runs are at most those of the enforcer, which are within the limits. -/
theorem requests_le (h : SharedRuns limits (.fresh made) runs spent) {max : Nat}
    (hmax : limits.maxModelCalls = some max) : (Journal.ofRuns runs).requests.length ≤ max := by
  obtain ⟨hcount, -⟩ := h.keeps.balances.of_fresh
  have hlimit := h.within.modelCalls max hmax
  have hgranted := h.granted.requests
  omega

theorem executions_le (h : SharedRuns limits (.fresh made) runs spent) {max : Nat}
    (hmax : limits.maxToolCalls = some max) : (Journal.ofRuns runs).executions.length ≤ max := by
  obtain ⟨-, hcount, -⟩ := h.keeps.balances.of_fresh
  have hlimit := h.within.toolCalls max hmax
  have hgranted := h.granted.executions.length_le
  rw [List.length_map] at hgranted
  omega

theorem count_executions_le (h : SharedRuns limits (.fresh made) runs spent) {tool : String}
    {max : Nat} (hmax : limits.perTool.get? tool = some max) :
    ((Journal.ofRuns runs).executions.map Prod.fst).count tool ≤ max := by
  obtain ⟨-, -, hcount, -⟩ := h.keeps.balances.of_fresh
  have htool := hcount tool
  have hlimit := h.within.perTool tool max hmax
  have hgranted := h.granted.executions.count_le tool
  omega

/-- The enforcer as it stands when a run asks the model: it has just granted the turn. -/
theorem exists_turn (h : SharedRuns limits (.fresh made) runs spent) {before : Journal}
    {time : Nat} {request : ModelRequest}
    (hplace : StandsAt runs earlier before ⟨time, .asked request⟩) :
    ∃ spent : Spent, spent.started = made ∧
      spent.tokens = (Journal.ofRuns earlier).tokensReceived + before.tokensReceived ∧
      reached limits.maxTokens spent.tokens = none ∧
      (before.requests ≠ [] → spent.checkDuration limits time = .allowed) := by
  obtain ⟨after, later, rfl⟩ := hplace
  obtain ⟨M, G, X, c, inv, w, hearlier, hbudget, hlag, hrun⟩ := h.exists_run
  obtain ⟨past, s, hpast, rfl, hentry, hallowed, -⟩ := Controller.exists_turn_of_asked hrun.symm
  have hbalances := (Spent.keeps_append_iff.2
    ⟨_, hearlier.keeps, Spent.keeps_of_tells hbudget (Controller.tells_of_reaches hpast)⟩).balances
  obtain ⟨-, -, -, htokens, hstarted⟩ := hbalances.of_fresh
  have htime : s.world.now = time := by
    have hasking : (c.asking s).world.now = s.world.now + c.lag (c.begun s).world := rfl
    rw [hlag, Nat.add_zero] at hasking
    rw [← hasking]
    exact congrArg Entry.time hentry
  have hnothing : (c.turnEntries inv s ++ [Controller.callingEntry s]).tokensReceived = 0 := rfl
  refine ⟨s.world.budget, hstarted, ?_, ?_, ?_⟩
  · rw [htokens, Journal.tokensRecorded_append, Journal.tokensReceived_append, hnothing,
      Controller.tokensReceived_of_reaches hpast, hearlier.tokensReceived]
    rfl
  · have hturns := Spent.turns_checkIteration limits s.world.budget
    rw [hbudget] at hallowed
    change (s.world.budget.checkIteration limits).1 = .allowed at hallowed
    generalize s.world.budget.checkIteration limits = answer at hturns hallowed
    cases hturns with
    | refused => cases hallowed
    | granted htokens => exact htokens
  · intro hbefore
    rw [← htime]
    refine Controller.checkDuration_of_reaches hbudget hpast fun hnone => hbefore ?_
    rw [Journal.requests_eq_pick, Journal.pick_append, ← Journal.requests_eq_pick, hnone]
    rfl

/-- The enforcer refuses because a limit was reached. -/
theorem met_of_refused (h : SharedRuns limits (.fresh made) runs spent) {before : Journal}
    {time : Nat} {check : BudgetCheck} {reason : String}
    (hplace : StandsAt runs earlier before ⟨time, .budgetChecked check (.blocked reason)⟩) :
    limits.Met made time (Journal.ofRuns earlier ++ before) check := by
  obtain ⟨after, later, rfl⟩ := hplace
  have hkeeps := h.keeps
  rw [Journal.ofRuns, List.flatten_append, List.flatten_cons, List.append_assoc, List.cons_append,
    ← List.append_assoc] at hkeeps
  obtain ⟨spent, hspent, hanswers⟩ := hkeeps.answers
  obtain ⟨hturns, hcalls, htools, htokens, hstarted⟩ := hspent.balances.of_fresh
  cases check with
  | iteration =>
    have hchecked := Spent.turns_checkIteration limits spent
    change (spent.checkIteration limits).1 = .blocked reason at hanswers
    generalize spent.checkIteration limits = answer at hchecked hanswers
    cases hchecked with
    | refused hreached =>
      rw [htokens, hturns] at hreached
      exact hreached
    | granted => cases hanswers
  | tool name arguments =>
    have hchecked := Spent.calls_checkTool limits spent name
    change (spent.checkTool limits name).1 = .blocked reason at hanswers
    generalize spent.checkTool limits name = answer at hchecked hanswers
    cases hchecked with
    | refused hreached =>
      rw [hcalls, htools] at hreached
      exact hreached
    | granted => cases hanswers
  | duration =>
    change spent.checkDuration limits time = .blocked reason at hanswers
    by_contra hnone
    have hallowed : spent.checkDuration limits time = .allowed := by
      refine (Spent.checkDuration_eq_allowed_iff limits spent time).2 fun secs hsecs => ?_
      rw [hstarted]
      exact Nat.lt_of_not_le fun hlate => hnone ⟨secs, hsecs, hlate⟩
    cases hallowed.symm.trans hanswers

/-- Any number of runs, whatever they are and however they end, keep together within the limits of
the one enforcer that they share: no more requests and no more executions, in all and of each tool,
than it allows; no request once the replies of all runs have used up the tokens; and none after the
first one of a run once the time is up.  And the enforcer refuses nothing but at a limit that is set
and that it has reached. -/
theorem withinLimits (h : SharedRuns limits (.fresh made) runs spent) :
    WithinLimits limits made runs where
  requests _ hmax := h.requests_le hmax
  executions _ hmax := h.executions_le hmax
  executionsOf _ _ hmax := h.count_executions_le hmax
  tokens earlier before time request hplace max hmax := by
    obtain ⟨spent, -, htokens, hreached, -⟩ := h.exists_turn hplace
    rw [← htokens]
    exact reached_eq_none_iff.1 hreached max hmax
  duration earlier before time request hplace hbefore secs hsecs := by
    obtain ⟨spent, hstarted, -, -, hallowed⟩ := h.exists_turn hplace
    rw [← hstarted]
    exact (Spent.checkDuration_eq_allowed_iff limits spent time).1 (hallowed hbefore) secs hsecs
  refused _ _ _ _ _ hplace := h.met_of_refused hplace

/-- A controller whose model follows a script and whose enforcer has these limits. -/
def billed (limits : BudgetConfig) : Controller Script Unit Spent Unit where
  config := .default
  model := Script.client
  gate := Controller.openGate
  budget := limits.tracker
  executor := { execute := fun _ _ _ x => (.now (.success ""), x) }
  resolver := .passThrough
  context := .unrestricted
  epoch := default

/-- Three requests, and one call in all. -/
def thrifty : BudgetConfig := ⟨some 3, some 1, some 100, some 60, [("weather", 1)]⟩

/-- Before a run with a call, a text and its confirmation. -/
def thriftyWorld (spent : Spent) : World Script Unit Spent Unit :=
  ⟨0, .ofReplies [Controller.callReply "a", .text "done", .text "done"], (), spent, ()⟩

def thriftyRun (spent : Spent) : RunReport Script Unit Spent Unit :=
  (billed thrifty).run Controller.task (thriftyWorld spent)

/-- The first run uses up the requests, and the second one makes none. -/
theorem withinLimits_thrifty :
    (thriftyRun (.fresh 0)).journal.requests.length = 3 ∧
      (thriftyRun (thriftyRun (.fresh 0)).world.budget).journal.requests.length = 0 ∧
      WithinLimits thrifty 0
        [(thriftyRun (.fresh 0)).journal,
          (thriftyRun (thriftyRun (.fresh 0)).world.budget).journal] := by
  have hruns : SharedRuns thrifty (.fresh 0)
      [(thriftyRun (.fresh 0)).journal, (thriftyRun (thriftyRun (.fresh 0)).world.budget).journal]
      (thriftyRun (thriftyRun (.fresh 0)).world.budget).world.budget :=
    .cons (billed thrifty) Controller.task (thriftyWorld (.fresh 0)) rfl (fun _ => rfl)
      (.cons (billed thrifty) Controller.task (thriftyWorld _) rfl (fun _ => rfl) (.nil _))
  exact ⟨by decide +kernel, by decide +kernel, hruns.withinLimits⟩

end SharedRuns

end AgentLoop
