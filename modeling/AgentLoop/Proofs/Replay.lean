import AgentLoop.Proofs.Discipline

/-!
# Journals tell the truth

The journal of a run leaves nothing out of what passes between the run and its collaborators, and
what it says was answered was answered.  So the states of the collaborators after a run can be found
by replaying its journal, and what is proved of the journal is proved of them.

* `Controller.replay` is the effect of an entry on the collaborators, `Controller.Answers` says that
  an entry gives the answer of a collaborator as it is.
* `Controller.Tells` says that a journal tells how a world came about from another one.  Times do
  not count: the clock of a world is left open.
* `tells_stride` is one stride, and `tells_run` a whole run.
-/

namespace AgentLoop

namespace Controller

variable {M G B X : Type} (c : Controller M G B X)

/-- The world after an entry, which only changes the collaborator that the entry is about. -/
def replay (w : World M G B X) (e : Entry) : World M G B X :=
  match e.event with
  | .asked request => { w with model := (c.model.ask request w.model).2 }
  | .authorized tool arguments context _ =>
    { w with
      gate := (c.gate.authorize e.time tool arguments context context.autonomy w.gate).2 }
  | .audited tool arguments context outcome =>
    { w with gate := c.gate.audit e.time tool arguments context outcome w.gate }
  | .budgetChecked .iteration _ =>
    { w with budget := (c.budget.checkIteration e.time w.budget).2 }
  | .budgetChecked (.tool tool arguments) _ =>
    { w with budget := (c.budget.checkTool e.time tool arguments w.budget).2 }
  | .budgetChecked .duration _ =>
    { w with budget := (c.budget.checkDuration e.time w.budget).2 }
  | .usageRecorded usage => { w with budget := c.budget.recordUsage usage w.budget }
  | .executed tool arguments context =>
    { w with tools := (c.executor.execute tool arguments context w.tools).2 }
  | .replied .. | .observed _ | .traced _ | .remarked _ => w

/-- The gate or the budget, in the world before an entry, answers what the entry says. -/
def Answers (w : World M G B X) (e : Entry) : Prop :=
  match e.event with
  | .authorized tool arguments context decision =>
    (c.gate.authorize e.time tool arguments context context.autonomy w.gate).1 = decision
  | .budgetChecked .iteration decision =>
    (c.budget.checkIteration e.time w.budget).1 = decision
  | .budgetChecked (.tool tool arguments) decision =>
    (c.budget.checkTool e.time tool arguments w.budget).1 = decision
  | .budgetChecked .duration decision =>
    (c.budget.checkDuration e.time w.budget).1 = decision
  | _ => True

/-- A journal tells how a world came about from another one. -/
def Tells : World M G B X → Journal → World M G B X → Prop
  | w, [], w' => ∃ now, w' = { w with now }
  | w, e :: j, w' => c.Answers w e ∧ Tells (c.replay w e) j w'

variable {c} {w w' w'' : World M G B X} {j k : Journal}

theorem tells_nil (w : World M G B X) : c.Tells w [] w := ⟨w.now, rfl⟩

/-- What a journal tells does not depend on the clock. -/
theorem Tells.of_clock {now : Nat} (h : c.Tells { w with now } j w') : c.Tells w j w' := by
  induction j generalizing w with
  | nil =>
    obtain ⟨later, rfl⟩ := h
    exact ⟨later, rfl⟩
  | cons e j ih =>
    obtain ⟨hanswers, hrest⟩ := h
    have hreplay : c.replay { w with now } e = { c.replay w e with now } := by
      unfold replay
      split <;> rfl
    rw [hreplay] at hrest
    exact ⟨hanswers, ih hrest⟩

theorem Tells.append (h : c.Tells w j w') (h' : c.Tells w' k w'') : c.Tells w (j ++ k) w'' := by
  induction j generalizing w with
  | nil =>
    obtain ⟨now, rfl⟩ := h
    exact h'.of_clock
  | cons e j ih => exact ⟨h.1, ih h.2⟩

/-- The states of the collaborators are found by replaying the journal. -/
theorem Tells.eq_foldl (h : c.Tells w j w') : ∃ now, w' = { j.foldl c.replay w with now } := by
  induction j generalizing w with
  | nil => exact h
  | cons e j ih => exact ih h.2

/-! ## A run tells the truth -/

variable (c) (inv : Invocation) {s : Stand M G B X}

/-- A turn begins. -/
theorem tells_turn :
    c.Tells s.world (c.stride inv .turn s).1.journal (c.stride inv .turn s).1.stand.world := by
  have hasks := c.asks_askModel inv s
  rw [stride]
  generalize c.askModel inv s = asked at hasks ⊢
  cases hasks with
  | blocked hbudget => exact ⟨trivial, rfl, trivial, s.world.now, rfl⟩
  | withdrawn hbudget hfired => exact ⟨trivial, rfl, trivial, (c.asking s).world.now, rfl⟩
  | cancelled hbudget hfired hwait => exact ⟨trivial, rfl, trivial, trivial, _, rfl⟩
  | stalled hbudget hfired hwait => exact ⟨trivial, rfl, trivial, trivial, _, rfl⟩
  | failed hbudget hfired hwait hresult => exact ⟨trivial, rfl, trivial, trivial, _, rfl⟩
  | replied hbudget hfired hwait hresult => exact ⟨trivial, rfl, trivial, trivial, trivial, _, rfl⟩

theorem tells_notedEntries (reply : ModelReply) :
    c.Tells s.world (c.notedEntries inv reply s) (c.noted inv reply s).world := by
  rw [notedEntries, noted, recordReply]
  cases reply.usage with
  | none => exact ⟨trivial, trivial, s.world.now, rfl⟩
  | some usage => exact ⟨trivial, trivial, trivial, s.world.now, rfl⟩

theorem tells_takeText (content : String) (s : Stand M G B X) :
    c.Tells s.world (c.takeText inv content s).journal (c.takeText inv content s).stand.world := by
  rw [takeText]
  split
  · split <;> exact ⟨trivial, s.world.now, rfl⟩
  · exact tells_nil _

/-- A reply is taken in. -/
theorem tells_strideReply (reply : ModelReply) :
    c.Tells s.world (c.strideReply inv reply s).1.journal
      (c.strideReply inv reply s).1.stand.world := by
  have hnoted := c.tells_notedEntries inv (s := s) reply
  rw [strideReply]
  simp only
  split
  · exact hnoted
  · next t hpush =>
    split
    · exact hnoted.append
        (c.tells_takeText inv reply.content ((c.noted inv reply s).withTranscript t))
    · exact hnoted.append ⟨trivial, _, rfl⟩

/-- The fate of a call is found. -/
theorem tells_judge (call : ToolCall) (w : World M G B X) :
    c.Tells w (c.judge inv call w).2.2 (c.judge inv call w).2.1 := by
  have hjudges := c.judges_judge inv call w
  generalize c.judge inv call w = judged at hjudges ⊢
  cases hjudges with
  | unreadable hread => exact tells_nil w
  | denied hread hruling => exact ⟨rfl, w.now, rfl⟩
  | blocked hread hruling hcheck => exact ⟨rfl, rfl, w.now, rfl⟩
  | withdrawn hread hruling hcheck hfired => exact ⟨rfl, rfl, _, rfl⟩
  | ended hread hruling hcheck hfired hwait => exact ⟨rfl, rfl, trivial, _, rfl⟩
  | timedOut hread hruling hcheck hfired hwait => exact ⟨rfl, rfl, trivial, _, rfl⟩
  | cancelled hread hruling hcheck hfired hwait => exact ⟨rfl, rfl, trivial, _, rfl⟩

/-- A call is audited. -/
theorem tells_auditCall (call : ToolCall) (fate : Fate) (w : World M G B X) :
    c.Tells w (c.auditCall inv call fate w).2 (c.auditCall inv call fate w).1 := by
  rw [auditCall]
  split
  · exact tells_nil w
  · exact ⟨trivial, w.now, rfl⟩

theorem tells_remarks (now : Nat) (remark : Option Remark) (w : World M G B X) :
    c.Tells w (remarks now remark) w := by
  cases remark with
  | none => exact tells_nil w
  | some r => exact ⟨trivial, w.now, rfl⟩

/-- A call is settled. -/
theorem tells_settledEntries (started iteration : Nat) (call : ToolCall) (fate : Fate)
    (w : World M G B X) :
    c.Tells w (c.settledEntries inv started iteration call fate w)
      (c.auditCall inv call fate w).1 := by
  have hreport : ∀ w' : World M G B X,
      c.Tells w' (c.reportCall inv w.now iteration call fate (w.now - started)) w' :=
    fun w' => ⟨trivial, trivial, w'.now, rfl⟩
  exact (((c.tells_remarks _ _ w).append (c.tells_auditCall inv call fate w)).append
    (hreport _)).append (c.tells_remarks _ _ _)

/-- Closing the calls of a batch is only remarked. -/
theorem tells_closeBatch {w : World M G B X} {st : Stretch M G B X}
    (h : c.Tells w st.journal st.stand.world) :
    c.Tells w (c.closeBatch inv st).journal (c.closeBatch inv st).stand.world := by
  rw [closeBatch]
  split
  · exact h.append ⟨trivial, st.stand.world.now, rfl⟩
  · exact h

/-- A call is dispatched. -/
theorem tells_dispatch {call : ToolCall} {rest : List ToolCall}
    (hpending : s.state.transcript.pending = call :: rest) :
    c.Tells s.world (c.closeBatch inv (c.dispatchCall inv call s)).journal
      (c.closeBatch inv (c.dispatchCall inv call s)).stand.world := by
  have hjudge := c.tells_judge inv call s.world
  refine c.tells_closeBatch inv ?_
  rw [c.dispatchCall_of_pending inv hpending rfl]
  exact hjudge.append (c.tells_settledEntries inv _ _ call _ _)

/-- Every stride tells the truth. -/
theorem tells_stride {phase : Phase} (hpending : s.state.transcript.pending = phase.open) :
    c.Tells s.world (c.stride inv phase s).1.journal (c.stride inv phase s).1.stand.world := by
  match phase with
  | .turn => exact c.tells_turn inv
  | .replied reply => exact c.tells_strideReply inv reply
  | .dispatching [] deferred =>
    rw [stride, strideToDeferred]
    simp only
    split
    · exact tells_nil _
    · exact ⟨trivial, s.world.now, rfl⟩
  | .dispatching (call :: calls) deferred => exact c.tells_dispatch inv hpending
  | .deferring [] => exact tells_nil _
  | .deferring (call :: calls) =>
    rw [stride, strideDeferral]
    split <;> exact tells_nil _
  | .closing =>
    rw [stride, closeTurn_eq]
    split
    · exact ⟨rfl, trivial, s.world.now, rfl⟩
    · exact ⟨rfl, s.world.now, rfl⟩

variable {c inv} {phase : Phase} {past : Journal}

theorem tells_of_reaches (h : c.Reaches inv w phase past s) : c.Tells w past s.world := by
  induction h with
  | begin hadopt => exact ⟨trivial, trivial, w.now, rfl⟩
  | stride hpast hflow ih => exact ih.append (c.tells_stride inv (awaits_of_reaches hpast).pending)

variable (c inv)

theorem tells_farewell (s : Stand M G B X) (flow : Flow) :
    c.Tells s.world (farewell inv s flow) s.world := by
  rw [farewell]
  split
  · exact tells_nil _
  · exact ⟨trivial, trivial, s.world.now, rfl⟩

/-- The journal of a run tells how the world after it came about from the world before it. -/
theorem tells_run (w : World M G B X) :
    c.Tells w (c.run inv w).journal (c.run inv w).world := by
  rcases c.run_cases inv w with ⟨error, -, hrun⟩ | ⟨journal, s, flow, hends, hrun⟩
  · rw [hrun]
    exact tells_nil w
  · rw [hrun]
    obtain @⟨phase, past, s, hpast, hflow⟩ := hends
    have hpending := (awaits_of_reaches hpast).pending
    exact ((tells_of_reaches hpast).append (c.tells_stride inv hpending)).append
      (c.tells_farewell inv _ _)

end Controller

end AgentLoop
