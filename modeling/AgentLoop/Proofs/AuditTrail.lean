import AgentLoop.Proofs.Replay

/-!
# The audit trail of a run

Whatever the gate, the model and the tools do, a run deals with the gate in hearings.  A hearing is
about one call: the gate is asked, and if it allows the call it is told exactly once what became of
it, before it is asked about anything else.  A call is only ever executed within its hearing.

There are three groups.

* `Hearing` is one hearing and `Hearing.events` what it looks like in a journal.
  `Journal.Records` says that a journal records hearings, one after another, and nothing else that
  concerns the gate or the executor.
* `issuedCalls` are the calls that the model issued, and `Phase.unheard` those of them that a phase
  may still hear.
* `records_dispatch` is one call, `records_stride` one stride, and `records_run` a whole run.
  `hearings_of_run` is the result.
-/

namespace AgentLoop

/-! ## Hearings -/

/-- What became of a call that the gate was asked about. -/
inductive Verdict where
  | denied (reason : String)
  /-- The gate allowed the call, but it was not executed. -/
  | withheld (outcome : ToolOutcome)
  | executed (outcome : ToolOutcome)
  deriving DecidableEq, Repr

/-- A call that the gate was asked about, with the arguments that were read from it. -/
structure Hearing where
  call : ToolCall
  arguments : JsonObject
  verdict : Verdict
  deriving DecidableEq, Repr

/-- What a hearing looks like in a journal.  Tool, arguments and context are the same throughout. -/
def Hearing.events (contexts : ToolCall → ExecutionContext) (h : Hearing) : List Event :=
  let context := contexts h.call
  match h.verdict with
  | .denied reason => [.authorized h.call.name h.arguments context (.denied reason)]
  | .withheld outcome =>
    [.authorized h.call.name h.arguments context .allowed,
      .audited h.call.name h.arguments context outcome]
  | .executed outcome =>
    [.authorized h.call.name h.arguments context .allowed,
      .executed h.call.name h.arguments context,
      .audited h.call.name h.arguments context outcome]

namespace Journal

/-- An event that concerns the gate or the executor. -/
def governed? : Event → Option Event
  | .authorized tool arguments context decision =>
    some (.authorized tool arguments context decision)
  | .audited tool arguments context outcome => some (.audited tool arguments context outcome)
  | .executed tool arguments context => some (.executed tool arguments context)
  | _ => none

/-- All that passes between a run and the gate or the executor, in order. -/
def governed (j : Journal) : List Event := j.pick governed?

theorem onlyCalls_governed? : OnlyCalls governed? :=
  ⟨⟨fun _ => rfl, fun _ => rfl, fun _ => rfl, fun _ => rfl⟩, fun _ => rfl, fun _ _ => rfl,
    fun _ => rfl, fun _ => rfl⟩

/-- A journal records these hearings, one after another. -/
structure Records (contexts : ToolCall → ExecutionContext) (j : Journal) (hearings : List Hearing) :
    Prop where
  events : j.governed = hearings.flatMap (Hearing.events contexts)
  read : ∀ h ∈ hearings, Arguments.read h.call.arguments = .ok h.arguments

variable {contexts : ToolCall → ExecutionContext} {j k : Journal} {first second : List Hearing}

theorem records_nil (h : j.governed = []) : j.Records contexts [] :=
  ⟨h, fun _ hmem => absurd hmem List.not_mem_nil⟩

theorem records_singleton {hearing : Hearing} (h : j.governed = hearing.events contexts)
    (hread : Arguments.read hearing.call.arguments = .ok hearing.arguments) :
    j.Records contexts [hearing] := by
  refine ⟨by rw [h, List.flatMap_singleton], ?_⟩
  intro other hmem
  rw [List.mem_singleton.1 hmem]
  exact hread

theorem Records.append (hfirst : j.Records contexts first) (hsecond : k.Records contexts second) :
    (j ++ k).Records contexts (first ++ second) := by
  constructor
  · rw [governed, pick_append, List.flatMap_append, ← hfirst.events, ← hsecond.events]
    rfl
  · intro h hmem
    rcases List.mem_append.1 hmem with hmem | hmem
    · exact hfirst.read h hmem
    · exact hsecond.read h hmem

end Journal

/-! ## Issued calls -/

/-- The calls of replies, with the ids that they are given, when the first one is the reply of this
turn. -/
def issuedFrom (iteration : Nat) : List ModelReply → List ToolCall
  | [] => []
  | reply :: replies =>
    normalizeCalls iteration reply.toolCalls ++ issuedFrom (iteration + 1) replies

/-- The calls of all replies of a run, in the order of issue. -/
def issuedCalls (replies : List ModelReply) : List ToolCall := issuedFrom 1 replies

theorem issuedFrom_append (iteration : Nat) (replies later : List ModelReply) :
    issuedFrom iteration (replies ++ later) =
      issuedFrom iteration replies ++ issuedFrom (iteration + replies.length) later := by
  induction replies generalizing iteration with
  | nil => rfl
  | cons reply replies ih =>
    have hnext : iteration + 1 + replies.length = iteration + (replies.length + 1) := by omega
    simp only [List.cons_append, issuedFrom, ih, List.append_assoc, List.length_cons, hnext]

/-- The calls that may still be heard in a phase of this turn. -/
def Phase.unheard (iteration : Nat) : Phase → List ToolCall
  | replied reply => normalizeCalls iteration reply.toolCalls
  | dispatching calls deferred => calls ++ deferred
  | deferring calls => calls
  | turn | closing => []

/-- The call that the stride from a phase dispatches. -/
def Phase.dispatched : Phase → List ToolCall
  | dispatching (call :: _) _ => [call]
  | _ => []

theorem Phase.dispatched_eq_nil {phase : Phase}
    (h : ∀ call calls deferred, phase ≠ .dispatching (call :: calls) deferred) :
    phase.dispatched = [] := by
  cases phase with
  | dispatching calls deferred =>
    cases calls with
    | nil => rfl
    | cons call calls => exact absurd rfl (h call calls deferred)
  | _ => rfl

namespace Controller

variable {M G B X : Type} (c : Controller M G B X) (inv : Invocation) {s : Stand M G B X}

/-! ## A run in hearings -/

/-- A dispatched call has at most one hearing. -/
theorem records_dispatch {call : ToolCall} {rest : List ToolCall}
    (hpending : s.state.transcript.pending = call :: rest) :
    ∃ heard : List Hearing,
      (c.closeBatch inv (c.dispatchCall inv call s)).journal.Records (c.callContext inv) heard ∧
        (heard.map Hearing.call).Sublist [call] := by
  rcases hjudge : c.judge inv call s.world with ⟨fate, w, asked⟩
  have hevents := c.pick_dispatch inv Journal.onlyCalls_governed?.toSkipsReports hpending hjudge
  have hhearing : ∀ arguments verdict, Arguments.read call.arguments = .ok arguments →
      asked.governed ++ (c.auditCall inv call fate w).2.governed =
        Hearing.events (c.callContext inv) ⟨call, arguments, verdict⟩ →
      ∃ heard : List Hearing,
        (c.closeBatch inv (c.dispatchCall inv call s)).journal.Records (c.callContext inv) heard ∧
          (heard.map Hearing.call).Sublist [call] :=
    fun arguments verdict hread hverdict => ⟨[⟨call, arguments, verdict⟩],
      Journal.records_singleton (hevents.trans hverdict) hread, List.Sublist.refl _⟩
  have hjudges := c.judges_judge inv call s.world
  rw [hjudge] at hjudges
  cases hjudges with
  | unreadable hread => exact ⟨[], Journal.records_nil hevents, List.nil_sublist _⟩
  | @denied arguments reason hread hruling =>
    refine hhearing arguments (.denied reason) hread ?_
    rw [rulingEntry, hruling]
    rfl
  | @blocked arguments reason hread hruling hcheck =>
    refine hhearing arguments (.withheld (.failure s!"not executed: {reason}")) hread ?_
    rw [rulingEntry, hruling]
    rfl
  | @withdrawn arguments hread hruling hcheck hfired =>
    refine hhearing arguments (.withheld .cancelled) hread ?_
    rw [rulingEntry, hruling]
    rfl
  | @ended arguments time hread hruling hcheck hfired hwait =>
    refine hhearing arguments (.executed (c.execution inv call arguments s.world).1.result) hread ?_
    rw [rulingEntry, hruling]
    rfl
  | @timedOut arguments time hread hruling hcheck hfired hwait =>
    refine hhearing arguments (.executed (.failure
      s!"tool '{call.name}' timed out after {c.config.toolCallTimeoutMs}ms")) hread ?_
    rw [rulingEntry, hruling]
    rfl
  | @cancelled arguments time hread hruling hcheck hfired hwait =>
    refine hhearing arguments (.executed .cancelled) hread ?_
    rw [rulingEntry, hruling]
    rfl

/-- The calls of a reply that may still be heard after it was taken in. -/
theorem unheard_strideReply (reply : ModelReply) (n : Nat) :
    ((c.strideReply inv reply s).2.unheard n).Sublist (callsOf reply s) := by
  rw [strideReply]
  simp only
  split
  · exact List.nil_sublist _
  · split
    · exact List.nil_sublist _
    · simp only [Phase.unheard, List.take_append_drop]
      exact List.Sublist.refl _

/-- A stride takes the call that it dispatches from those that could still be heard.  Afterwards
the others may be heard, and the calls of the reply that came in. -/
theorem unheard_stride (phase : Phase) (s : Stand M G B X) :
    (phase.dispatched ++ (c.stride inv phase s).2.unheard
      (s.state.iterations + (c.stride inv phase s).2.incoming.length)).Sublist
      (phase.unheard s.state.iterations ++
        issuedFrom (s.state.iterations + 1) (c.stride inv phase s).2.incoming) := by
  match phase with
  | .turn =>
    have hasks := c.asks_askModel inv s
    rw [stride]
    generalize c.askModel inv s = asked at hasks ⊢
    cases hasks with
    | replied => simp [Phase.dispatched, Phase.unheard, Phase.incoming, issuedFrom]
    | _ => exact List.Sublist.refl _
  | .replied reply =>
    rw [stride, incoming_strideReply, issuedFrom, List.append_nil]
    exact c.unheard_strideReply inv reply _
  | .dispatching [] deferred => simp [stride, Phase.dispatched, Phase.unheard]
  | .dispatching (call :: calls) deferred =>
    simp [stride, Phase.dispatched, Phase.unheard, Phase.incoming, issuedFrom]
  | .deferring [] => exact List.Sublist.refl _
  | .deferring (call :: calls) => simp [stride, Phase.dispatched, Phase.unheard]
  | .closing => exact List.Sublist.refl _

/-- A stride records at most one hearing, of the call that it dispatches. -/
theorem records_stride {phase : Phase} (hpending : s.state.transcript.pending = phase.open) :
    ∃ heard : List Hearing,
      (c.stride inv phase s).1.journal.Records (c.callContext inv) heard ∧
        (heard.map Hearing.call).Sublist phase.dispatched := by
  by_cases hphase : ∃ call calls deferred, phase = .dispatching (call :: calls) deferred
  · obtain ⟨call, calls, deferred, rfl⟩ := hphase
    exact c.records_dispatch inv hpending
  · refine ⟨[], Journal.records_nil ?_, List.nil_sublist _⟩
    exact c.pick_stride_eq_nil inv Journal.onlyCalls_governed? fun call calls deferred h =>
      hphase ⟨call, calls, deferred, h⟩

variable {c inv} {w : World M G B X} {phase : Phase} {past : Journal}

/-- Calls of which the run has dispatched some in order, and the call of one stride more. -/
theorem sublist_issued_stride (hpast : c.Reaches inv w phase past s) {calls : List ToolCall}
    (hissued : (calls ++ phase.unheard s.state.iterations).Sublist (issuedCalls past.replies)) :
    (calls ++ phase.dispatched ++ (c.stride inv phase s).2.unheard
      (s.state.iterations + (c.stride inv phase s).2.incoming.length)).Sublist
      (issuedCalls (past ++ (c.stride inv phase s).1.journal).replies) := by
  rw [replies_of_reaches_stride hpast, issuedCalls, issuedFrom_append,
    length_replies_of_reaches hpast, Nat.add_comm 1, List.append_assoc]
  refine ((List.Sublist.refl _).append (c.unheard_stride inv phase s)).trans ?_
  rw [← List.append_assoc]
  exact hissued.append (List.Sublist.refl _)

/-- One stride more: the hearings before it and those within it. -/
theorem exists_records_stride (hpast : c.Reaches inv w phase past s) {hearings : List Hearing}
    (hrecords : past.Records (c.callContext inv) hearings)
    (hissued : (hearings.map Hearing.call ++ phase.unheard s.state.iterations).Sublist
      (issuedCalls past.replies)) :
    ∃ later : List Hearing,
      (past ++ (c.stride inv phase s).1.journal).Records (c.callContext inv) later ∧
        (later.map Hearing.call ++ (c.stride inv phase s).2.unheard
          (s.state.iterations + (c.stride inv phase s).2.incoming.length)).Sublist
          (issuedCalls (past ++ (c.stride inv phase s).1.journal).replies) := by
  obtain ⟨heard, hheard, hsublist⟩ := c.records_stride inv (awaits_of_reaches hpast).pending
  refine ⟨hearings ++ heard, hrecords.append hheard, ?_⟩
  rw [List.map_append]
  exact (((List.Sublist.refl _).append hsublist).append (List.Sublist.refl _)).trans
    (sublist_issued_stride hpast hissued)

/-- At every point the journal records hearings of issued calls, and the calls that may still be
heard were issued after them. -/
theorem records_of_reaches (h : c.Reaches inv w phase past s) :
    ∃ hearings : List Hearing, past.Records (c.callContext inv) hearings ∧
      (hearings.map Hearing.call ++ phase.unheard s.state.iterations).Sublist
        (issuedCalls past.replies) := by
  induction h with
  | begin hadopt => exact ⟨[], Journal.records_nil rfl, List.nil_sublist _⟩
  | stride hpast hflow ih =>
    obtain ⟨hearings, hrecords, hissued⟩ := ih
    rw [c.iterations_stride inv hflow]
    exact exists_records_stride hpast hrecords hissued

variable (c inv)

/-- The journal of a run records hearings, one after another, of calls that the model issued, in the
order in which it issued them. -/
theorem records_run (w : World M G B X) :
    ∃ hearings : List Hearing,
      (c.run inv w).journal.Records (c.callContext inv) hearings ∧
        (hearings.map Hearing.call).Sublist (issuedCalls (c.run inv w).journal.replies) := by
  rcases c.run_cases inv w with ⟨error, -, hrun⟩ | ⟨journal, s, flow, hends, hrun⟩
  · rw [hrun]
    exact ⟨[], Journal.records_nil rfl, List.nil_sublist _⟩
  · rw [hrun, Journal.replies, pick_reportOf inv Journal.skipsReports_reply?]
    obtain @⟨phase, past, s, hpast, hflow⟩ := hends
    obtain ⟨hearings, hrecords, hissued⟩ := records_of_reaches hpast
    obtain ⟨all, hall, hsublist⟩ := exists_records_stride hpast hrecords hissued
    refine ⟨all, ?_, (List.sublist_append_left _ _).trans hsublist⟩
    have hreported := hall.append (Journal.records_nil
      (pick_farewell inv Journal.onlyCalls_governed?.toSkipsReports (c.stride inv phase s).1.stand
        (c.stride inv phase s).1.flow))
    rwa [List.append_nil] at hreported

/-- Whatever the gate decides, a run deals with it in hearings of calls that the model issued, one
after another.  The journal that records them tells the truth about gate and executor. -/
theorem hearings_of_run (w : World M G B X) :
    c.Tells w (c.run inv w).journal (c.run inv w).world ∧
      ∃ hearings : List Hearing,
        (c.run inv w).journal.Records (c.callContext inv) hearings ∧
          (hearings.map Hearing.call).Sublist (issuedCalls (c.run inv w).journal.replies) :=
  ⟨c.tells_run inv w, c.records_run inv w⟩

end Controller

end AgentLoop
