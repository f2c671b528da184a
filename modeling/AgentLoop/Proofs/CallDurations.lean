import AgentLoop.Proofs.AuditStory
import AgentLoop.Proofs.FailureStreak
import AgentLoop.Proofs.LeastPrivilege
import AgentLoop.Proofs.Ledgers
import AgentLoop.Proofs.Places
import AgentLoop.Proofs.Replay
import Mathlib.Algebra.GroupWithZero.Nat

/-!
# How long a call takes

A tool that takes too long is not waited for.  So a call takes the time that its tool needs, or the
time that a call may take, and one that is rejected takes none; the action of the call says which.
All this is about runs that take no time by themselves: `lag` is zero.

* `EndsWait` are the ways in which a wait with a limit can end, and `endsWait_await` says that these
  are all.
* `ActionStatus.Lasts` says how long a call takes by its status.  `lasts_judge` is the fate of a
  call, `exists_action_dispatch` the stride that dispatches it.
* `timely_run` says of every action of a run that its duration agrees with its status, and
  `toolTime_run_le` bounds the time of all of them together.
* `toolDelay` is the time that a tool needs in the state that the journal leads to, and
  `exists_records_of_split` says what the action after an execution makes of it.
-/

namespace AgentLoop

/-! ## Waiting with a limit -/

/-- The ways in which a wait with a limit can end: in time, too late, or because it is cut off. -/
inductive EndsWait (limit now : Nat) : Option Nat → Waited → Prop where
  | inTime {d : Nat} (hd : d ≤ limit) : EndsWait limit now (some d) (.done (now + d))
  | tooLate {delay : Option Nat} (hdelay : ∀ d, delay = some d → limit < d) :
      EndsWait limit now delay (.timedOut (now + limit))
  | cutOff {delay : Option Nat} {time : Nat} (hbegun : now ≤ time) (hlimit : time ≤ now + limit) :
      EndsWait limit now delay (.cancelled time)

namespace EndsWait

variable {limit now time : Nat} {delay : Option Nat}

theorem of_done (h : EndsWait limit now delay (.done time)) :
    ∃ d, delay = some d ∧ d ≤ limit ∧ time = now + d := by
  cases h with
  | inTime hd => exact ⟨_, rfl, hd, rfl⟩

theorem of_timedOut (h : EndsWait limit now delay (.timedOut time)) :
    (∀ d, delay = some d → limit < d) ∧ time = now + limit := by
  cases h with
  | tooLate hdelay => exact ⟨hdelay, rfl⟩

theorem of_cancelled (h : EndsWait limit now delay (.cancelled time)) :
    now ≤ time ∧ time ≤ now + limit := by
  cases h with
  | cutOff hbegun hlimit => exact ⟨hbegun, hlimit⟩

end EndsWait

/-- If nobody cancels it, a wait with a limit ends within the limit. -/
theorem exists_finish (limit now : Nat) (delay : Option Nat) :
    ∃ finish, finish ≤ now + limit ∧
      EndsWait limit now delay (awaitUndisturbed (some limit) now delay) ∧
      (awaitUndisturbed (some limit) now delay = .done finish ∨
        awaitUndisturbed (some limit) now delay = .timedOut finish) := by
  have hlate : (∀ d, delay = some d → limit < d) →
      awaitUndisturbed (some limit) now delay = .timedOut (now + limit) := by
    intro h
    cases delay with
    | none => rfl
    | some d => exact if_neg (Nat.not_le.2 (h d rfl))
  by_cases h : ∀ d, delay = some d → limit < d
  · rw [hlate h]
    exact ⟨now + limit, Nat.le_refl _, .tooLate h, .inr rfl⟩
  · simp only [not_forall, Nat.not_lt] at h
    obtain ⟨d, rfl, hd⟩ := h
    have hdone : awaitUndisturbed (some limit) now (some d) = .done (now + d) := if_pos hd
    rw [hdone]
    exact ⟨now + d, Nat.add_le_add_left hd now, .inTime hd, .inl rfl⟩

/-- A wait that begins before the run is cancelled ends in one of these ways. -/
theorem endsWait_await {cancel : Cancellation} {limit now : Nat} {delay : Option Nat}
    (hfired : cancel.fired now = false) :
    EndsWait limit now delay (await cancel (some limit) now delay) := by
  obtain ⟨finish, hfinish, hends, hfree⟩ := exists_finish limit now delay
  cases cancel with
  | none => exact hends
  | some fires =>
    have hbegun : now < fires := by simpa [Cancellation.fired] using hfired
    rcases hfree with hfree | hfree <;>
    · rw [hfree] at hends
      simp only [await, hfree]
      split
      · next hcut => exact .cutOff (Nat.le_of_lt hbegun) (Nat.le_trans hcut hfinish)
      · exact hends

/-! ## One call -/

/-- The time that the dispatched calls of a journal took. -/
def Journal.toolTime (j : Journal) : Nat := (j.actions.map ActionRecord.durationMs).sum

namespace Journal

@[simp] theorem toolTime_append (j k : Journal) :
    (j ++ k).toolTime = j.toolTime + k.toolTime := by
  rw [toolTime, actions_append, List.map_append, List.sum_append, ← toolTime, ← toolTime]

theorem toolTime_eq_zero {j : Journal} (h : j.actions = []) : j.toolTime = 0 := by
  rw [toolTime, h]
  rfl

end Journal

/-- How long a call takes that ends like this; the executor is entered for it once for every delay
in the list. -/
inductive ActionStatus.Lasts (limit : Nat) : ActionStatus → List (Option Nat) → Nat → Prop where
  /-- The call is rejected, or the run is cancelled before the executor is entered. -/
  | unentered {status : ActionStatus}
      (h : status = .denied ∨ status = .invalidArguments ∨ status = .blocked ∨
        status = .cancelled) : Lasts limit status [] 0
  | ended {status : ActionStatus} {d : Nat} (h : status = .succeeded ∨ status = .failed)
      (hlimit : d ≤ limit) : Lasts limit status [some d] d
  | timedOut {delay : Option Nat} (hdelay : ∀ d, delay = some d → limit < d) :
      Lasts limit .timedOut [delay] limit
  | cancelled {delay : Option Nat} {durationMs : Nat} (hlimit : durationMs ≤ limit) :
      Lasts limit .cancelled [delay] durationMs

/-- The duration of a dispatched call agrees with its status. -/
structure ActionRecord.Timely (limit : Nat) (r : ActionRecord) : Prop where
  le : r.durationMs ≤ limit
  rejected : r.status = .denied ∨ r.status = .invalidArguments ∨ r.status = .blocked →
    r.durationMs = 0
  timedOut : r.status = .timedOut → r.durationMs = limit

/-- The call ended as it must if it needed this time, or none would have been enough: it timed out
exactly if that was more than a call may take, and otherwise it took just this time. -/
structure ActionRecord.Took (limit : Nat) (delay : Option Nat) (r : ActionRecord) : Prop where
  timedOut_iff : r.status = .timedOut ↔ ∀ d, delay = some d → limit < d
  durationMs_eq : ∀ d, delay = some d → d ≤ limit → r.durationMs = d

namespace ActionStatus.Lasts

variable {limit durationMs : Nat} {status : ActionStatus} {delays : List (Option Nat)}

theorem le_mul (h : status.Lasts limit delays durationMs) : durationMs ≤ delays.length * limit := by
  cases h with
  | unentered h => exact Nat.zero_le _
  | timedOut hdelay => exact Nat.le_of_eq (Nat.one_mul _).symm
  | ended h hlimit | cancelled hlimit =>
    rw [List.length_singleton, Nat.one_mul]
    exact hlimit

variable {r : ActionRecord}

theorem timely (h : r.status.Lasts limit delays r.durationMs) : r.Timely limit := by
  obtain ⟨callId, toolName, status, detail, durationMs⟩ := r
  cases h with
  | unentered h =>
    refine ⟨Nat.zero_le _, fun _ => rfl, ?_⟩
    rintro rfl
    simp at h
  | ended h hlimit =>
    refine ⟨hlimit, ?_, ?_⟩
    · rintro (rfl | rfl | rfl) <;> simp at h
    · rintro rfl
      simp at h
  | timedOut => exact ⟨Nat.le_refl _, by simp, fun _ => rfl⟩
  | cancelled hlimit => exact ⟨hlimit, by simp, by simp⟩

/-- The executor is entered at most once. -/
theorem took {front back : List (Option Nat)} {delay : Option Nat}
    (h : r.status.Lasts limit (front ++ delay :: back) r.durationMs) :
    front = [] ∧ (r.status ≠ .cancelled → r.Took limit delay) := by
  obtain ⟨callId, toolName, status, detail, durationMs⟩ := r
  generalize hdelays : front ++ delay :: back = delays at h
  have hone : ∀ delay', delays = [delay'] → front = [] ∧ delay = delay' := by
    rintro delay' rfl
    cases front with
    | nil => exact ⟨rfl, (List.cons.inj hdelays).1⟩
    | cons first front => simp at hdelays
  cases h with
  | unentered h => simp at hdelays
  | ended h hlimit =>
    obtain ⟨rfl, rfl⟩ := hone _ rfl
    refine ⟨rfl, fun _ => ⟨iff_of_false ?_ fun hlate => ?_, fun d hd _ => Option.some.inj hd⟩⟩
    · rintro rfl
      simp at h
    · exact Nat.not_lt.2 hlimit (hlate _ rfl)
  | timedOut hdelay =>
    obtain ⟨rfl, rfl⟩ := hone _ rfl
    exact ⟨rfl, fun _ => ⟨iff_of_true rfl hdelay, fun d hd hlimit =>
      absurd hlimit (Nat.not_le.2 (hdelay d hd))⟩⟩
  | cancelled hlimit =>
    obtain ⟨rfl, rfl⟩ := hone _ rfl
    exact ⟨rfl, fun hcancelled => absurd rfl hcancelled⟩

end ActionStatus.Lasts

theorem Fate.status_ended (arguments : JsonObject) (outcome : ToolOutcome) :
    (Fate.ended arguments outcome).status = .succeeded ∨
      (Fate.ended arguments outcome).status = .failed := by
  rw [status]
  split <;> simp

namespace Controller

variable {M G B X : Type} (c : Controller M G B X) (inv : Invocation) {s : Stand M G B X}

/-- The ways in which the wait for a tool can end. -/
theorem endsWait_toolWait (hlag : ∀ w, c.lag w = 0) {call : ToolCall} {arguments : JsonObject}
    {w : World M G B X}
    (hfired : inv.cancel.fired (c.executing inv call arguments w).now = false) :
    EndsWait c.config.toolCallTimeoutMs w.now (c.execution inv call arguments w).1.delay
      (c.toolWait inv call arguments w) := by
  rw [← c.now_executing inv hlag call arguments w]
  exact endsWait_await hfired

/-- The times that the tools need for some executions. -/
def delays (x : X) (executions : List (String × JsonObject × ExecutionContext)) :
    List (Option Nat) :=
  executions.map fun e => (c.executor.execute e.1 e.2.1 e.2.2 x).1.delay

/-- The fate of a call takes as long as its status says. -/
theorem lasts_judge (hlag : ∀ w, c.lag w = 0) (call : ToolCall) (w : World M G B X) :
    w.now ≤ (c.judge inv call w).2.1.now ∧
      (c.judge inv call w).1.status.Lasts c.config.toolCallTimeoutMs
        (c.delays w.tools (c.judge inv call w).2.2.executions)
        ((c.judge inv call w).2.1.now - w.now) := by
  have hatOnce : ∀ {status : ActionStatus}, (status = .denied ∨ status = .invalidArguments ∨
      status = .blocked ∨ status = .cancelled) →
      status.Lasts c.config.toolCallTimeoutMs [] (w.now - w.now) := by
    intro status hstatus
    rw [Nat.sub_self]
    exact .unentered hstatus
  have hjudges := c.judges_judge inv call w
  generalize c.judge inv call w = judged at hjudges ⊢
  cases hjudges with
  | unreadable hread => exact ⟨Nat.le_refl _, hatOnce (.inr (.inl rfl))⟩
  | denied hread hruling => exact ⟨Nat.le_refl _, hatOnce (.inl rfl)⟩
  | blocked hread hruling hcheck => exact ⟨Nat.le_refl _, hatOnce (.inr (.inr (.inl rfl)))⟩
  | @withdrawn arguments hread hruling hcheck hfired =>
    simp only [c.now_executing inv hlag]
    exact ⟨Nat.le_refl _, hatOnce (.inr (.inr (.inr rfl)))⟩
  | @ended arguments time hread hruling hcheck hfired hwait =>
    have hends := c.endsWait_toolWait inv hlag hfired
    rw [hwait] at hends
    obtain ⟨d, hdelay, hd, rfl⟩ := hends.of_done
    refine ⟨Nat.le_add_right _ _, ?_⟩
    change ActionStatus.Lasts _ _ [(c.execution inv call arguments w).1.delay] (w.now + d - w.now)
    rw [hdelay, Nat.add_sub_cancel_left]
    exact .ended (Fate.status_ended _ _) hd
  | @timedOut arguments time hread hruling hcheck hfired hwait =>
    have hends := c.endsWait_toolWait inv hlag hfired
    rw [hwait] at hends
    obtain ⟨hdelay, rfl⟩ := hends.of_timedOut
    refine ⟨Nat.le_add_right _ _, ?_⟩
    change ActionStatus.Lasts _ _ _ (w.now + c.config.toolCallTimeoutMs - w.now)
    rw [Nat.add_sub_cancel_left]
    exact .timedOut hdelay
  | @cancelled arguments time hread hruling hcheck hfired hwait =>
    have hends := c.endsWait_toolWait inv hlag hfired
    rw [hwait] at hends
    obtain ⟨hbegun, hlimit⟩ := hends.of_cancelled
    exact ⟨hbegun, .cancelled (Nat.sub_le_iff_le_add'.2 hlimit)⟩

theorem world_auditCall_now (call : ToolCall) (fate : Fate) (w : World M G B X) :
    (c.auditCall inv call fate w).1.now = w.now := by
  rw [auditCall]
  split <;> rfl

/-- The stride that dispatches a call takes as long as the action says. -/
theorem exists_action_dispatch (hlag : ∀ w, c.lag w = 0) {call : ToolCall}
    {calls deferred : List ToolCall}
    (hpending : s.state.transcript.pending = call :: (calls ++ deferred)) :
    ∃ r, (c.stride inv (.dispatching (call :: calls) deferred) s).1.journal.actions = [r] ∧
      r.toolName = call.name ∧
      r.status.Lasts c.config.toolCallTimeoutMs
        (c.delays s.world.tools
          (c.stride inv (.dispatching (call :: calls) deferred) s).1.journal.executions)
        r.durationMs ∧
      (c.stride inv (.dispatching (call :: calls) deferred) s).1.stand.world.now =
        s.world.now + r.durationMs := by
  obtain ⟨hle, hlasts⟩ := c.lasts_judge inv hlag call s.world
  have hactions := c.actions_dispatch inv hpending
  rcases hjudge : c.judge inv call s.world with ⟨fate, w, asked⟩
  rw [hjudge] at hle hlasts hactions
  have hexecutions := c.executions_dispatch inv hpending
  rw [hjudge] at hexecutions
  refine ⟨_, hactions, rfl, ?_, ?_⟩
  · rw [hexecutions]
    exact hlasts
  · rw [stride, world_closeBatch, c.dispatchCall_of_pending inv hpending hjudge]
    change (c.auditCall inv call fate w).1.now = s.world.now + (w.now - s.world.now)
    rw [world_auditCall_now, Nat.add_sub_cancel' hle]

/-! ## The calls of a run -/

variable {c inv} {w : World M G B X} {phase : Phase} {past : Journal}

/-- An action in a run is that of a call that was dispatched. -/
theorem exists_dispatch_of_mem_actions {r : ActionRecord}
    (hr : r ∈ (c.run inv w).journal.actions) :
    ∃ call calls deferred past s, c.Reaches inv w (.dispatching (call :: calls) deferred) past s ∧
      (c.stride inv (.dispatching (call :: calls) deferred) s).1.journal.actions = [r] := by
  rw [Journal.actions_eq_pick, Journal.pick, List.mem_filterMap] at hr
  obtain ⟨e, he, hevent⟩ := hr
  have hframe : e.event.isFrame = false := by
    revert hevent
    cases e.event with
    | traced event => cases event <;> simp [Journal.action?, Event.isFrame]
    | _ => simp [Journal.action?]
  obtain ⟨before, after, hsplit⟩ := List.append_of_mem he
  obtain ⟨phase, past, s, front, back, hpast, -, hstride⟩ := exists_stride_of_split hframe hsplit
  have hmem : r ∈ (c.stride inv phase s).1.journal.actions := by
    rw [hstride, Journal.actions_eq_pick]
    exact List.mem_filterMap.2 ⟨e, List.mem_append_right _ List.mem_cons_self, hevent⟩
  have hpending := (awaits_of_reaches hpast).pending
  rcases phase.dispatching_or with ⟨call, calls, deferred, rfl⟩ | hcall
  · rw [c.actions_dispatch inv hpending, List.mem_singleton] at hmem
    exact ⟨call, calls, deferred, past, s, hpast, hmem ▸ c.actions_dispatch inv hpending⟩
  · rw [c.actions_stride_eq_nil inv hpending hcall] at hmem
    cases hmem

/-- The actions of every run agree with their statuses. -/
theorem timely_run (hlag : ∀ w, c.lag w = 0) :
    ∀ r ∈ (c.run inv w).journal.actions, r.Timely c.config.toolCallTimeoutMs := by
  intro r hr
  obtain ⟨call, calls, deferred, past, s, hpast, hactions⟩ := exists_dispatch_of_mem_actions hr
  obtain ⟨r', hactions', -, hlasts, -⟩ :=
    c.exists_action_dispatch inv hlag (awaits_of_reaches hpast).pending
  obtain rfl := List.singleton_injective (hactions'.symm.trans hactions)
  exact hlasts.timely

/-- However many tools hang, the calls of a run take no longer than the executor was entered times
the time that a call may take. -/
theorem toolTime_run_le (hlag : ∀ w, c.lag w = 0) :
    (c.run inv w).journal.toolTime ≤
      (c.run inv w).journal.executions.length * c.config.toolCallTimeoutMs := by
  refine run_of_strides
    (P := fun j => j.toolTime ≤ j.executions.length * c.config.toolCallTimeoutMs)
    (fun j hj => ?_) (fun j k hj hk => ?_) (fun phase s hpending => ?_)
  · rw [Journal.toolTime_eq_zero (Journal.actions_of_isFrame hj)]
    exact Nat.zero_le _
  · rw [Journal.toolTime_append, Journal.executions_eq_pick, Journal.pick_append,
      List.length_append, Nat.add_mul]
    exact Nat.add_le_add hj hk
  · rcases phase.dispatching_or with ⟨call, calls, deferred, rfl⟩ | hcall
    · obtain ⟨r, hactions, -, hlasts, -⟩ := c.exists_action_dispatch inv hlag hpending
      rw [Journal.toolTime, hactions, List.map_singleton, List.sum_singleton]
      have hle := hlasts.le_mul
      rwa [delays, List.length_map] at hle
    · rw [Journal.toolTime_eq_zero (c.actions_stride_eq_nil inv hpending hcall)]
      exact Nat.zero_le _

/-! ## What a tool needs -/

variable (c) in
/-- The time that a tool needs for an execution that is begun after a journal. -/
def toolDelay (w : World M G B X) (before : Journal) (tool : String) (arguments : JsonObject)
    (context : ExecutionContext) : Option Nat :=
  (c.executor.execute tool arguments context (before.foldl c.replay w).tools).1.delay

variable (c) in
/-- The execution of a tool that needs this time is recorded by the action that comes next. -/
structure Records (tool : String) (delay : Option Nat) (after : Journal) (r : ActionRecord) :
    Prop where
  next : after.actions.head? = some r
  toolName : r.toolName = tool
  took : r.status ≠ .cancelled → r.Took c.config.toolCallTimeoutMs delay

variable {before after front back : Journal} {time : Nat} {tool : String} {arguments : JsonObject}
  {context : ExecutionContext}

theorem tools_replay (w : World M G B X) {e : Entry} (h : Journal.execution? e.event = none) :
    (c.replay w e).tools = w.tools := by
  rw [replay]
  split
  case h_8 hevent =>
    rw [hevent] at h
    cases h
  all_goals rfl

/-- Nothing but an execution changes what a tool needs. -/
theorem tools_foldl_replay (w : World M G B X) (h : front.executions = []) :
    (front.foldl c.replay w).tools = w.tools := by
  induction front generalizing w with
  | nil => rfl
  | cons e front ih =>
    rw [Journal.executions_eq_pick, Journal.pick_cons, List.append_eq_nil_iff,
      Option.toList_eq_nil_iff] at h
    rw [List.foldl_cons, ih _ h.2, tools_replay w h.1]

theorem toolDelay_of_reaches (h : c.Reaches inv w phase past s) {tool : String}
    {arguments : JsonObject} {context : ExecutionContext} (hfront : front.executions = []) :
    c.toolDelay w (past ++ front) tool arguments context =
      (c.executor.execute tool arguments context s.world.tools).1.delay := by
  obtain ⟨now, hworld⟩ := (tells_of_reaches h).eq_foldl
  rw [toolDelay, List.foldl_append, tools_foldl_replay _ hfront, hworld]

/-- The action of an execution comes after it in the same stride. -/
theorem exists_records_dispatch (hlag : ∀ w, c.lag w = 0) {call : ToolCall}
    {calls deferred : List ToolCall}
    (hpending : s.state.transcript.pending = call :: (calls ++ deferred))
    (hsplit : (c.stride inv (.dispatching (call :: calls) deferred) s).1.journal =
      front ++ ⟨time, .executed tool arguments context⟩ :: back) :
    front.executions = [] ∧
      ∃ r, c.Records tool (c.executor.execute tool arguments context s.world.tools).1.delay
        back r := by
  obtain ⟨r, hactions, hname, hlasts, -⟩ := c.exists_action_dispatch inv hlag hpending
  have hexecutions := c.executions_dispatch inv hpending
  obtain ⟨rest, hjournal⟩ : ∃ rest,
      (c.stride inv (.dispatching (call :: calls) deferred) s).1.journal =
        (c.judge inv call s.world).2.2 ++ rest := by
    obtain ⟨closed, hclosed, -⟩ := c.exists_journal_closeBatch inv (c.dispatchCall inv call s)
    rw [stride, hclosed, c.dispatchCall_of_pending inv hpending rfl, List.append_assoc]
    exact ⟨_, rfl⟩
  rcases exists_split_of_append (hjournal.symm.trans hsplit) with
    ⟨later, hasked⟩ | ⟨earlier, -, hlater⟩
  · have hexecuted : (c.stride inv (.dispatching (call :: calls) deferred) s).1.journal.executions =
        front.executions ++ (tool, arguments, context) :: back.executions := by
      rw [hsplit, Journal.executions_eq_pick, Journal.pick_append, Journal.pick_cons]
      rfl
    have hmem : (tool, arguments, context) ∈
        (c.closeBatch inv (c.dispatchCall inv call s)).journal.executions :=
      hexecuted ▸ List.mem_append_right _ List.mem_cons_self
    have htool : tool = call.name := (ruling_of_mem_dispatch hpending hmem).1
    have hunrecorded : front.actions = [] := by
      have hnone : (c.judge inv call s.world).2.2.actions = [] := by
        rw [Journal.actions, c.told_judge]
        rfl
      rw [hasked, Journal.actions_append, List.append_eq_nil_iff] at hnone
      exact hnone.1
    rw [hexecuted, delays, List.map_append, List.map_cons] at hlasts
    obtain ⟨hfront, htook⟩ := hlasts.took
    refine ⟨List.map_eq_nil_iff.1 hfront, r, ?_, hname.trans htool.symm, htook⟩
    rw [hsplit, Journal.actions_append, hunrecorded, List.nil_append] at hactions
    exact congrArg List.head? hactions
  · have hrest : rest.executions = [] := by
      rw [hjournal, Journal.executions_eq_pick, Journal.pick_append] at hexecutions
      exact List.append_right_eq_self.1 hexecutions
    rw [hlater, Journal.executions_eq_pick, Journal.pick_append, Journal.pick_cons] at hrest
    simp [Journal.execution?] at hrest

/-- Every execution in a run is recorded by the action that comes next. -/
theorem exists_records_of_split (hlag : ∀ w, c.lag w = 0)
    (hsplit : (c.run inv w).journal =
      before ++ ⟨time, .executed tool arguments context⟩ :: after) :
    ∃ r, c.Records tool (c.toolDelay w before tool arguments context) after r := by
  obtain ⟨phase, past, s, front, back, hpast, rfl, hstride⟩ := exists_stride_of_split rfl hsplit
  rcases phase.dispatching_or with ⟨call, calls, deferred, rfl⟩ | hcall
  · obtain ⟨hfront, r, hrecords⟩ :=
      exists_records_dispatch hlag (awaits_of_reaches hpast).pending hstride
    obtain ⟨rest, rfl⟩ := hpast.isPrefix_of_split hsplit hstride
    rw [toolDelay_of_reaches hpast hfront]
    refine ⟨r, ?_, hrecords.toolName, hrecords.took⟩
    rw [Journal.actions_append, List.head?_append, hrecords.next]
    rfl
  · have hnone := c.pick_stride_eq_nil inv (s := s) Journal.onlyCalls_execution? hcall
    rw [hstride, Journal.pick_append, Journal.pick_cons] at hnone
    simp [Journal.execution?] at hnone

end Controller

end AgentLoop
