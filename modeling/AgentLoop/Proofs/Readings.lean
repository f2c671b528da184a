import AgentLoop.Proofs.Course

/-!
# Readings of a journal

A reading picks the events of one kind out of a journal.  What a stretch adds to a reading is found
from its journal, entry by entry; events of other kinds drop out.

Most of what a run writes are reports: what it tells its observer and its tracer, the tokens that
it counts, and its own remarks.  A reading that skips the reports sees of a run only what passes
between it and the model, the gate, the budget and the executor.

* `Journal.pick` is the reading by a function that picks events, `Journal.SkipsReports` says that
  the function picks no report.
* `pick_opening`, `pick_strideReply`, `pick_strideToDeferred` and `pick_farewell` are the parts of
  a run that only report, and `pick_dispatch` says what is left of a dispatched call;
  `pick_dispatch_of_unaudited` is the case that most readings need.
* `Journal.OnlyCalls` says that the function picks nothing but what is done about a call.  By
  `pick_stride_eq_nil` such a reading sees the dispatched calls only.
* `Journal.replies` are the replies of the model, and `replies_stride` says that a stride adds the
  reply of the next phase and nothing else.
-/

namespace AgentLoop

namespace Journal

/-- What a function picks out of a journal. -/
def pick {α : Type} (f : Event → Option α) (j : Journal) : List α :=
  j.filterMap fun entry => f entry.event

variable {α : Type} {f : Event → Option α}

@[simp] theorem pick_nil : pick f [] = [] := rfl

@[simp] theorem pick_cons (entry : Entry) (j : Journal) :
    pick f (entry :: j) = (f entry.event).toList ++ pick f j := by
  rw [pick, List.filterMap_cons]
  cases f entry.event <;> rfl

@[simp] theorem pick_append (j k : Journal) : pick f (j ++ k) = pick f j ++ pick f k :=
  List.filterMap_append

/-- The function picks nothing that a run only reports. -/
structure SkipsReports (f : Event → Option α) : Prop where
  usageRecorded : ∀ usage, f (.usageRecorded usage) = none
  observed : ∀ observation, f (.observed observation) = none
  traced : ∀ event, f (.traced event) = none
  remarked : ∀ remark, f (.remarked remark) = none

/-- The function picks nothing but what is done about a call. -/
structure OnlyCalls (f : Event → Option α) : Prop extends SkipsReports f where
  asked : ∀ request, f (.asked request) = none
  replied : ∀ reply waited, f (.replied reply waited) = none
  iterationChecked : ∀ decision, f (.budgetChecked .iteration decision) = none
  durationChecked : ∀ decision, f (.budgetChecked .duration decision) = none

/-- The execution that an event is. -/
def execution? : Event → Option (String × JsonObject × ExecutionContext)
  | .executed tool arguments context => some (tool, arguments, context)
  | _ => none

theorem executions_eq_pick (j : Journal) : j.executions = j.pick execution? := rfl

theorem onlyCalls_execution? : OnlyCalls execution? :=
  ⟨⟨fun _ => rfl, fun _ => rfl, fun _ => rfl, fun _ => rfl⟩, fun _ => rfl, fun _ _ => rfl,
    fun _ => rfl, fun _ => rfl⟩

/-- The reply of the model that an event is. -/
def reply? : Event → Option ModelReply
  | .replied reply _ => some reply
  | _ => none

/-- The replies of the model, in order. -/
def replies (j : Journal) : List ModelReply := j.pick reply?

theorem replies_append (j k : Journal) : (j ++ k).replies = j.replies ++ k.replies :=
  pick_append j k

theorem skipsReports_reply? : SkipsReports reply? :=
  ⟨fun _ => rfl, fun _ => rfl, fun _ => rfl, fun _ => rfl⟩

end Journal

/-- The reply that a phase is about. -/
def Phase.incoming : Phase → List ModelReply
  | replied reply => [reply]
  | _ => []

theorem Phase.incoming_eq_nil {phase : Phase} (h : ∀ reply, phase ≠ .replied reply) :
    phase.incoming = [] := by
  cases phase with
  | replied reply => exact absurd rfl (h reply)
  | _ => rfl

namespace Controller

variable {M G B X α : Type} (c : Controller M G B X) (inv : Invocation) {f : Event → Option α}

/-! ## Reports -/

theorem pick_remarks (h : Journal.SkipsReports f) (now : Nat) (remark : Option Remark) :
    (remarks now remark).pick f = [] := by
  cases remark with
  | none => rfl
  | some r => simp [remarks, h.remarked]

theorem pick_opening (h : Journal.SkipsReports f) (w : World M G B X) (t : Transcript) :
    (c.opening inv w t).pick f = [] := by
  simp [opening, h.traced, h.remarked]

theorem pick_notedEntries (h : Journal.SkipsReports f) (reply : ModelReply) (s : Stand M G B X) :
    (c.notedEntries inv reply s).pick f = [] := by
  rw [notedEntries, recordReply]
  cases reply.usage <;> simp [Stand.entry, h.usageRecorded, h.observed, h.traced]

theorem pick_takeText (h : Journal.SkipsReports f) (content : String) (s : Stand M G B X) :
    (c.takeText inv content s).journal.pick f = [] := by
  rw [takeText]
  split
  · split <;> simp [Stand.entry, h.remarked]
  · rfl

/-- Taking a reply in is only reported. -/
theorem pick_strideReply (h : Journal.SkipsReports f) (reply : ModelReply) (s : Stand M G B X) :
    (c.strideReply inv reply s).1.journal.pick f = [] := by
  rw [strideReply]
  simp only
  split
  · exact c.pick_notedEntries inv h reply s
  · split
    · simp [Stretch.after, c.pick_notedEntries inv h, c.pick_takeText inv h]
    · simp [c.pick_notedEntries inv h, h.remarked]

/-- Deferring calls is only reported. -/
theorem pick_strideToDeferred (h : Journal.SkipsReports f) (deferred : List ToolCall)
    (s : Stand M G B X) : (c.strideToDeferred deferred s).journal.pick f = [] := by
  rw [strideToDeferred]
  simp only
  split
  · rfl
  · simp [Stand.entry, h.remarked]

@[simp] theorem journal_strideDeferral (call : ToolCall) (s : Stand M G B X) :
    (c.strideDeferral inv call s).journal = [] := by
  rw [strideDeferral]
  split <;> rfl

/-- The end of a run is only reported. -/
theorem pick_farewell (h : Journal.SkipsReports f) (s : Stand M G B X) (flow : Flow) :
    (farewell inv s flow).pick f = [] := by
  rw [farewell]
  split
  · rfl
  · simp [Stand.entry, h.remarked, h.traced]

/-- The report of a run adds nothing but reports to the journal. -/
theorem pick_reportOf (h : Journal.SkipsReports f) (w : World M G B X) (journal : Journal)
    (s : Stand M G B X) (flow : Flow) :
    (reportOf inv w journal s flow).journal.pick f = journal.pick f := by
  rw [reportOf, Journal.pick_append, pick_farewell inv h, List.append_nil]

/-! ## Dispatched calls -/

theorem journal_isPrefix_closeBatch (st : Stretch M G B X) :
    st.journal <+: (c.closeBatch inv st).journal := by
  rw [closeBatch]
  split
  · exact List.prefix_append _ _
  · exact List.prefix_refl _

theorem pick_closeBatch (h : Journal.SkipsReports f) (st : Stretch M G B X) :
    (c.closeBatch inv st).journal.pick f = st.journal.pick f := by
  rw [closeBatch]
  split
  · simp [Stand.entry, h.remarked]
  · rfl

/-- Of a dispatched call a reading sees how its fate was found, and its audit. -/
theorem pick_dispatch (h : Journal.SkipsReports f) {call : ToolCall} {rest : List ToolCall}
    {s : Stand M G B X} {fate : Fate} {w : World M G B X} {asked : Journal}
    (hpending : s.state.transcript.pending = call :: rest)
    (hjudge : c.judge inv call s.world = (fate, w, asked)) :
    (c.closeBatch inv (c.dispatchCall inv call s)).journal.pick f =
      asked.pick f ++ (c.auditCall inv call fate w).2.pick f := by
  rw [c.pick_closeBatch inv h, c.dispatchCall_of_pending inv hpending hjudge]
  simp [settledEntries, reportCall, pick_remarks h, h.observed, h.traced]

/-- If it skips audits as well, it sees only how the fate was found. -/
theorem pick_dispatch_of_unaudited (h : Journal.SkipsReports f)
    (haudited : ∀ tool arguments context outcome,
      f (.audited tool arguments context outcome) = none)
    {call : ToolCall} {rest : List ToolCall} {s : Stand M G B X}
    (hpending : s.state.transcript.pending = call :: rest) :
    (c.closeBatch inv (c.dispatchCall inv call s)).journal.pick f =
      (c.judge inv call s.world).2.2.pick f := by
  have hnone : ∀ fate w, (c.auditCall inv call fate w).2.pick f = [] := by
    intro fate w
    rw [auditCall]
    split
    · rfl
    · simp [haudited]
  rcases hjudge : c.judge inv call s.world with ⟨fate, w, asked⟩
  rw [c.pick_dispatch inv h hpending hjudge, hnone, List.append_nil]

/-- A call is executed while its fate is found. -/
theorem executions_dispatch {call : ToolCall} {calls deferred : List ToolCall} {s : Stand M G B X}
    (hpending : s.state.transcript.pending = call :: (calls ++ deferred)) :
    (c.stride inv (.dispatching (call :: calls) deferred) s).1.journal.executions =
      (c.judge inv call s.world).2.2.executions :=
  c.pick_dispatch_of_unaudited inv Journal.onlyCalls_execution?.toSkipsReports
    (fun _ _ _ _ => rfl) hpending

theorem pick_askModel (h : Journal.OnlyCalls f) (s : Stand M G B X) :
    (c.stride inv .turn s).1.journal.pick f = [] := by
  have hasks := c.asks_askModel inv s
  rw [stride]
  generalize c.askModel inv s = asked at hasks ⊢
  cases hasks <;>
    simp [turnEntries, callingEntry, askedEntry, h.traced, h.remarked, h.asked, h.replied,
      h.iterationChecked]

theorem pick_closeTurn (h : Journal.OnlyCalls f) (s : Stand M G B X) :
    (c.closeTurn s).journal.pick f = [] := by
  rw [closeTurn_eq]
  split <;> simp [durationEntry, h.durationChecked, h.remarked]

/-- Calls are only dealt with where they are dispatched. -/
theorem pick_stride_eq_nil (h : Journal.OnlyCalls f) {phase : Phase} {s : Stand M G B X}
    (hphase : ∀ call calls deferred, phase ≠ .dispatching (call :: calls) deferred) :
    (c.stride inv phase s).1.journal.pick f = [] := by
  match phase with
  | .turn => exact c.pick_askModel inv h s
  | .replied reply => exact c.pick_strideReply inv h.toSkipsReports reply s
  | .dispatching [] deferred => exact c.pick_strideToDeferred h.toSkipsReports deferred s
  | .dispatching (call :: calls) deferred => exact absurd rfl (hphase call calls deferred)
  | .deferring [] => rfl
  | .deferring (call :: calls) =>
    rw [stride, journal_strideDeferral]
    rfl
  | .closing => exact c.pick_closeTurn h s

/-! ## Replies -/

/-- The model does not reply while the fate of a call is found, nor while it is audited. -/
theorem replies_dispatch {call : ToolCall} {rest : List ToolCall} {s : Stand M G B X}
    (hpending : s.state.transcript.pending = call :: rest) :
    (c.closeBatch inv (c.dispatchCall inv call s)).journal.replies = [] := by
  have hjudges := c.judges_judge inv call s.world
  rw [Journal.replies, c.pick_dispatch_of_unaudited inv Journal.skipsReports_reply?
    (fun _ _ _ _ => rfl) hpending]
  generalize c.judge inv call s.world = judged at hjudges ⊢
  cases hjudges <;> rfl

@[simp] theorem incoming_strideReply (reply : ModelReply) (s : Stand M G B X) :
    (c.strideReply inv reply s).2.incoming = [] := by
  rw [strideReply]
  simp only
  split
  · rfl
  · split <;> rfl

/-- A stride adds the reply of the next phase to the replies. -/
theorem replies_stride {phase : Phase} {s : Stand M G B X}
    (hpending : s.state.transcript.pending = phase.open) :
    (c.stride inv phase s).1.journal.replies = (c.stride inv phase s).2.incoming := by
  match phase with
  | .turn =>
    have hasks := c.asks_askModel inv s
    rw [stride]
    generalize c.askModel inv s = asked at hasks ⊢
    cases hasks <;> rfl
  | .replied reply =>
    rw [stride, incoming_strideReply]
    exact c.pick_strideReply inv Journal.skipsReports_reply? reply s
  | .dispatching [] deferred =>
    exact c.pick_strideToDeferred Journal.skipsReports_reply? deferred s
  | .dispatching (call :: calls) deferred => exact c.replies_dispatch inv hpending
  | .deferring [] => rfl
  | .deferring (call :: calls) =>
    rw [stride, journal_strideDeferral]
    rfl
  | .closing =>
    rw [stride, closeTurn_eq]
    split <;> rfl

/-! ## Where the events of a run come from -/

variable {c inv} {w : World M G B X}

theorem mem_pick_of_reaches (h : Journal.SkipsReports f) {phase : Phase} {past : Journal}
    {s : Stand M G B X} (hreaches : c.Reaches inv w phase past s) {a : α} (ha : a ∈ past.pick f) :
    ∃ phase' past' s', c.Reaches inv w phase' past' s' ∧
      a ∈ (c.stride inv phase' s').1.journal.pick f := by
  induction hreaches with
  | begin hadopt =>
    rw [c.pick_opening inv h] at ha
    cases ha
  | stride hpast hflow ih =>
    rw [Journal.pick_append] at ha
    rcases List.mem_append.1 ha with ha | ha
    · exact ih ha
    · exact ⟨_, _, _, hpast, ha⟩

/-- What is read in the journal of a run was written by a stride of the run. -/
theorem mem_pick_run (h : Journal.SkipsReports f) {a : α}
    (ha : a ∈ (c.run inv w).journal.pick f) :
    ∃ phase past s, c.Reaches inv w phase past s ∧
      a ∈ (c.stride inv phase s).1.journal.pick f := by
  rcases c.run_cases inv w with ⟨error, -, hrun⟩ | ⟨journal, s, flow, hends, hrun⟩
  · rw [hrun] at ha
    cases ha
  · obtain @⟨phase, past, s, hpast, hflow⟩ := hends
    rw [hrun, pick_reportOf inv h, Journal.pick_append] at ha
    rcases List.mem_append.1 ha with ha | ha
    · exact mem_pick_of_reaches h hpast ha
    · exact ⟨phase, past, s, hpast, ha⟩

end Controller

end AgentLoop
