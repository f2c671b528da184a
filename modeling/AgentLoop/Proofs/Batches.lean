import AgentLoop.Proofs.Visits

/-!
# The fates of the calls of a reply

The calls of a reply are split by their positions.  The first ones are dispatched, one after the
other, until the cap is reached or one of them ends the batch.  All others get the same answer: they
are deferred if nothing ended the batch, and not executed if something did.

* `Dispatches` takes the dispatched part of a batch apart into visits, and what holds of all visits
  together is proved by induction on it.  `Successive` says that they are made one at a time.
* `dispatchBatch_eq` puts the deferred part after it, and `exists_dispatchBatch_eq` says what the
  whole batch comes to.
* `dispatchBatch_withResolver`: a resolver that says the same about the dispatched calls makes the
  same batch.
* `Halts` says how a batch ends.  `Batch` says all of this of a batch, and
  `every_call_has_one_fate` of every reply.
-/

namespace AgentLoop

namespace Journal

/-- A reading that skips remarks does not see remarks around a journal. -/
theorem pick_between_remarks {α : Type} {f : Event → Option α} {before j after : Journal}
    (hremarks : ∀ entry ∈ before ++ after, ∃ remark, entry.event = .remarked remark)
    (hf : ∀ remark, f (.remarked remark) = none) :
    (before ++ (j ++ after)).pick f = j.pick f := by
  have hnone : (before ++ after).pick f = [] := by
    refine List.filterMap_eq_nil_iff.2 fun entry hentry => ?_
    obtain ⟨remark, hremark⟩ := hremarks entry hentry
    rw [hremark, hf]
  rw [pick_append, List.append_eq_nil_iff] at hnone
  rw [pick_append, pick_append, hnone.1, hnone.2, List.nil_append, List.append_nil]

end Journal

namespace Stretch

variable {M G B X : Type} {first : Stretch M G B X} {next : Stand M G B X → Stretch M G B X}

theorem andThen_of_goOn (h : first.flow = .goOn) :
    first.andThen next = (next first.stand).after first.journal := by
  rw [andThen, h]
  rfl

theorem andThen_of_ne_goOn (h : first.flow ≠ .goOn) : first.andThen next = first := by
  rw [andThen]
  split
  · next hflow => exact absurd hflow h
  · rfl

end Stretch

namespace Controller

variable {M G B X : Type} (c : Controller M G B X) (inv : Invocation)

/-! ## Calls in order -/

/-- From a stand on calls are dispatched one after the other, until the run does not go on. -/
inductive Dispatches :
    List ToolCall → Stand M G B X → List (Visit M G B X) → Stretch M G B X → Prop where
  | none {s : Stand M G B X} : Dispatches [] s [] ⟨s, [], .goOn⟩
  /-- A call ends the batch. -/
  | last {call : ToolCall} {calls : List ToolCall} {s : Stand M G B X}
      (hflow : (c.visit inv ⟨call, s⟩).flow ≠ .goOn) :
      Dispatches (call :: calls) s [⟨call, s⟩] (c.visit inv ⟨call, s⟩)
  | next {call : ToolCall} {calls : List ToolCall} {s : Stand M G B X}
      {visits : List (Visit M G B X)} {st : Stretch M G B X}
      (hflow : (c.visit inv ⟨call, s⟩).flow = .goOn)
      (hrest : Dispatches calls (c.visit inv ⟨call, s⟩).stand visits st) :
      Dispatches (call :: calls) s (⟨call, s⟩ :: visits) (st.after (c.visit inv ⟨call, s⟩).journal)

/-- The dispatched part of a batch begins with a visit. -/
theorem closeBatch_dispatchEach_cons (call : ToolCall) (calls : List ToolCall)
    (s : Stand M G B X) :
    c.closeBatch inv (c.dispatchEach inv (call :: calls) s) =
      (c.visit inv ⟨call, s⟩).andThen fun s => c.closeBatch inv (c.dispatchEach inv calls s) :=
  c.closeBatch_andThen inv _ _

/-- The dispatched part of a batch is made of visits. -/
theorem exists_dispatches (calls : List ToolCall) (s : Stand M G B X) :
    ∃ visits, c.Dispatches inv calls s visits (c.closeBatch inv (c.dispatchEach inv calls s)) := by
  induction calls generalizing s with
  | nil => exact ⟨[], .none⟩
  | cons call calls ih =>
    rw [closeBatch_dispatchEach_cons]
    by_cases hflow : (c.visit inv ⟨call, s⟩).flow = .goOn
    · obtain ⟨visits, hrest⟩ := ih (c.visit inv ⟨call, s⟩).stand
      rw [Stretch.andThen_of_goOn hflow]
      exact ⟨_, .next hflow hrest⟩
    · rw [Stretch.andThen_of_ne_goOn hflow]
      exact ⟨_, .last hflow⟩

/-- These calls are dispatched one at a time: the first where the batch begins, every other one
where the one before it leads to.  Where the last one leads to, only the conversation goes on. -/
inductive Successive : Stand M G B X → List (Visit M G B X) → Stand M G B X → Prop where
  | nil {s : Stand M G B X} (t : Transcript) : Successive s [] (s.withTranscript t)
  | cons {call : ToolCall} {s next last : Stand M G B X} {visits : List (Visit M G B X)}
      (hleads : c.LeadsTo inv ⟨call, s⟩ next) (hrest : Successive next visits last) :
      Successive s (⟨call, s⟩ :: visits) last

variable {c inv} {calls deferred : List ToolCall} {s : Stand M G B X}
  {visits : List (Visit M G B X)} {st : Stretch M G B X}

theorem Successive.withTranscript {last : Stand M G B X} (h : c.Successive inv s visits last)
    (t : Transcript) : c.Successive inv s visits (last.withTranscript t) := by
  induction h with
  | nil => exact .nil t
  | cons hleads hrest ih => exact .cons hleads ih

namespace Dispatches

theorem isPrefix (h : c.Dispatches inv calls s visits st) :
    visits.map Visit.call <+: calls := by
  induction h with
  | none => exact List.prefix_refl _
  | last => exact ⟨_, rfl⟩
  | next hflow hrest ih => exact List.cons_prefix_cons.2 ⟨rfl, ih⟩

/-- If nothing ends the batch, all calls are dispatched. -/
theorem length_of_goOn (h : c.Dispatches inv calls s visits st) (hgoOn : st.flow = .goOn) :
    visits.length = calls.length := by
  induction h with
  | none => rfl
  | last hflow => exact absurd hgoOn hflow
  | next hflow hrest ih => exact congrArg (· + 1) (ih hgoOn)

theorem journal_eq (h : c.Dispatches inv calls s visits st) :
    st.journal = c.entries inv visits := by
  induction h with
  | none => rfl
  | last => exact (List.append_nil _).symm
  | next hflow hrest ih =>
    rw [Stretch.after, ih]
    rfl

/-- The run goes on after every call, or the last one ends the batch. -/
theorem goOn_or_last (h : c.Dispatches inv calls s visits st) :
    (st.flow = .goOn ∧ ∀ v ∈ visits, (c.visit inv v).flow = .goOn) ∨
      ∃ earlier v, visits = earlier ++ [v] ∧ (c.visit inv v).flow = st.flow ∧ st.flow ≠ .goOn ∧
        ∀ u ∈ earlier, (c.visit inv u).flow = .goOn := by
  induction h with
  | none => exact .inl ⟨rfl, by simp⟩
  | last hflow => exact .inr ⟨[], _, rfl, rfl, hflow, by simp⟩
  | next hflow hrest ih =>
    rcases ih with ⟨hgoOn, hall⟩ | ⟨earlier, v, rfl, hlast, hends, hall⟩
    · exact .inl ⟨hgoOn, List.forall_mem_cons.2 ⟨hflow, hall⟩⟩
    · exact .inr ⟨_ :: earlier, v, rfl, hlast, hends, List.forall_mem_cons.2 ⟨hflow, hall⟩⟩

/-- Each call is dispatched when it is next in turn. -/
theorem isNext (h : c.Dispatches inv calls s visits st)
    (hpending : s.state.transcript.pending = calls ++ deferred) : ∀ v ∈ visits, v.IsNext := by
  induction h with
  | none => simp
  | last hflow => exact List.forall_mem_singleton.2 ⟨_, hpending⟩
  | next hflow hrest ih =>
    obtain ⟨m, htranscript, -⟩ := c.exists_answer_visit inv hpending hflow
    exact List.forall_mem_cons.2 ⟨⟨_, hpending⟩, ih (congrArg Transcript.pending htranscript)⟩

theorem successive (h : c.Dispatches inv calls s visits st)
    (hpending : s.state.transcript.pending = calls ++ deferred) :
    c.Successive inv s visits st.stand := by
  induction h with
  | none => exact .nil _
  | last hflow => exact .cons (c.leadsTo_visit inv hpending) (.nil _)
  | next hflow hrest ih =>
    obtain ⟨m, htranscript, -⟩ := c.exists_answer_visit inv hpending hflow
    exact .cons (c.leadsTo_visit inv hpending) (ih (congrArg Transcript.pending htranscript))

/-- If nothing ends the batch, every dispatched call is answered and the deferred ones are open. -/
theorem exists_answers_of_goOn (h : c.Dispatches inv calls s visits st)
    (hpending : s.state.transcript.pending = calls ++ deferred) (hgoOn : st.flow = .goOn) :
    ∃ given, st.stand.state.transcript = ⟨s.state.transcript.messages ++ given, deferred⟩ ∧
      c.Tell inv given visits ∧ c.answeredOf inv visits = visits := by
  induction h with
  | none =>
    refine ⟨[], ?_, List.Forall₂.nil, rfl⟩
    rw [List.append_nil]
    exact congrArg (Transcript.mk _) hpending
  | last hflow => exact absurd hgoOn hflow
  | next hflow hrest ih =>
    obtain ⟨m, htranscript, hm, hblocked⟩ := c.exists_answer_visit inv hpending hflow
    obtain ⟨given, hlast, hgiven, hanswered⟩ := ih (congrArg Transcript.pending htranscript) hgoOn
    refine ⟨m :: given, ?_, List.rel_append hm hgiven, ?_⟩
    · rw [Stretch.after, hlast, htranscript, List.append_assoc]
      rfl
    · rw [answeredOf, List.filter_cons_of_pos (by simpa using hblocked), ← answeredOf, hanswered]

/-- If a call ends the batch, it leaves no call open. -/
theorem exists_answers_of_ne_goOn (h : c.Dispatches inv calls s visits st)
    (hpending : s.state.transcript.pending = calls ++ deferred) (hstop : st.flow ≠ .goOn) :
    ∃ given left, st.stand.state.transcript =
        ⟨s.state.transcript.messages ++ (given ++ left), []⟩ ∧
      c.Tell inv given (c.answeredOf inv visits) ∧
      List.Forall₂
        (Message.AnswersWith (leftoverText c.config.maxToolCallsPerIteration st.flow)) left
        ((calls ++ deferred).drop (c.answeredOf inv visits).length) := by
  induction h with
  | none => exact absurd rfl hstop
  | last hflow =>
    exact c.exists_answers_visit inv hpending ((c.stopsWith_visit_iff inv hpending).2 ⟨rfl, hflow⟩)
  | next hflow hrest ih =>
    obtain ⟨m, htranscript, hm, hblocked⟩ := c.exists_answer_visit inv hpending hflow
    obtain ⟨given, left, hlast, hgiven, hleft⟩ := ih (congrArg Transcript.pending htranscript) hstop
    rw [answeredOf, List.filter_cons_of_pos (by simpa using hblocked), ← answeredOf]
    refine ⟨m :: given, left, ?_, List.rel_append hm hgiven, hleft⟩
    rw [Stretch.after, hlast, htranscript, List.append_assoc]
    rfl

/-- If nothing ends the batch, the calls beyond the cap are left over. -/
theorem drop_answeredOf
    (h : c.Dispatches inv (calls.take c.config.maxToolCallsPerIteration) s visits st)
    (hanswered : c.answeredOf inv visits = visits) (hgoOn : st.flow = .goOn) :
    calls.drop (c.answeredOf inv visits).length =
      calls.drop c.config.maxToolCallsPerIteration := by
  rw [hanswered, h.length_of_goOn hgoOn, List.length_take, List.drop_eq_drop_iff]
  omega

end Dispatches

/-! ## A whole batch -/

variable (c inv)

/-- The part of a batch in which calls are dispatched. -/
def dispatched (calls : List ToolCall) (s : Stand M G B X) : Stretch M G B X :=
  c.closeBatch inv (c.dispatchEach inv (calls.take c.config.maxToolCallsPerIteration) s)

/-- The part of a batch in which calls are deferred. -/
def deferral (iteration : Nat) (deferred : List ToolCall) (s : Stand M G B X) :
    Stretch M G B X :=
  (c.deferEach inv deferred s).after
    (if deferred.isEmpty then []
    else
      [s.entry (.remarked
        (.limitReached iteration deferred.length c.config.maxToolCallsPerIteration))])

/-- The entry that announces a batch. -/
def batchEntry (calls : List ToolCall) (s : Stand M G B X) : Entry :=
  s.entry (.remarked (.executingCalls s.state.iterations calls.length
    (calls.drop c.config.maxToolCallsPerIteration).length))

/-- A batch is announced, and then it has two parts. -/
theorem dispatchBatch_eq (calls : List ToolCall) (s : Stand M G B X) :
    c.dispatchBatch inv calls s =
      ((c.dispatched inv calls s).andThen (c.deferral inv s.state.iterations
        (calls.drop c.config.maxToolCallsPerIteration))).after [c.batchEntry calls s] :=
  rfl

/-- The next open call can be deferred. -/
theorem exists_strideDeferral_eq {call : ToolCall}
    (hpending : s.state.transcript.pending = call :: calls) :
    ∃ m, c.strideDeferral inv call s =
        ⟨s.withTranscript ⟨s.state.transcript.messages ++ [m], calls⟩, [], .goOn⟩ ∧
      m.AnswersWith (deferralText c.config.maxToolCallsPerIteration) call := by
  rw [strideDeferral, Transcript.pushToolResult_of_pending hpending]
  exact ⟨_, rfl, _, rfl⟩

/-- Open calls can be deferred, and nothing else is done about them. -/
theorem exists_deferEach_eq (hpending : s.state.transcript.pending = calls) :
    ∃ left, c.deferEach inv calls s =
        ⟨s.withTranscript ⟨s.state.transcript.messages ++ left, []⟩, [], .goOn⟩ ∧
      List.Forall₂
        (Message.AnswersWith (deferralText c.config.maxToolCallsPerIteration)) left calls := by
  induction calls generalizing s with
  | nil =>
    refine ⟨[], ?_, .nil⟩
    rw [List.append_nil]
    exact congrArg (fun pending => Stretch.mk (s.withTranscript ⟨_, pending⟩) [] .goOn) hpending
  | cons call calls ih =>
    obtain ⟨m, hfirst, hm⟩ := c.exists_strideDeferral_eq inv hpending
    obtain ⟨left, hrest, hleft⟩ :=
      ih (s := s.withTranscript ⟨s.state.transcript.messages ++ [m], calls⟩) rfl
    refine ⟨m :: left, ?_, .cons hm hleft⟩
    rw [deferEach_cons, hfirst, Stretch.andThen_of_goOn rfl, hrest, Stand.transcript_withTranscript,
      List.append_assoc]
    rfl

/-- A batch adds remarks to its dispatched part, and leaves no call open: what the dispatched calls
have not answered is answered alike. -/
theorem exists_dispatchBatch_eq
    (h : c.Dispatches inv (calls.take c.config.maxToolCallsPerIteration) s visits
      (c.dispatched inv calls s))
    (hpending : s.state.transcript.pending = calls) :
    ∃ given left before after, c.dispatchBatch inv calls s =
        ⟨(c.dispatched inv calls s).stand.withTranscript
            ⟨s.state.transcript.messages ++ (given ++ left), []⟩,
          before ++ ((c.dispatched inv calls s).journal ++ after),
          (c.dispatched inv calls s).flow⟩ ∧
      c.Tell inv given (c.answeredOf inv visits) ∧
      List.Forall₂ (Message.AnswersWith (leftoverText c.config.maxToolCallsPerIteration
        (c.dispatched inv calls s).flow)) left (calls.drop (c.answeredOf inv visits).length) ∧
      ∀ entry ∈ before ++ after, ∃ remark, entry.event = .remarked remark := by
  have hsplit : s.state.transcript.pending = calls.take c.config.maxToolCallsPerIteration ++
      calls.drop c.config.maxToolCallsPerIteration := by
    rw [hpending, List.take_append_drop]
  rw [dispatchBatch_eq]
  by_cases hgoOn : (c.dispatched inv calls s).flow = .goOn
  · obtain ⟨given, htranscript, hgiven, hanswered⟩ := h.exists_answers_of_goOn hsplit hgoOn
    obtain ⟨left, hdefer, hleft⟩ :=
      c.exists_deferEach_eq inv (congrArg Transcript.pending htranscript)
    rw [Stretch.andThen_of_goOn hgoOn, deferral, hdefer, htranscript, List.append_assoc,
      h.drop_answeredOf hanswered hgoOn, hanswered, hgoOn]
    refine ⟨given, left, _, _, rfl, hgiven, hleft, ?_⟩
    cases (calls.drop c.config.maxToolCallsPerIteration).isEmpty <;>
      simp [batchEntry, Stand.entry, Stretch.after]
  · obtain ⟨given, left, htranscript, hgiven, hleft⟩ := h.exists_answers_of_ne_goOn hsplit hgoOn
    rw [List.take_append_drop] at hleft
    rw [Stretch.andThen_of_ne_goOn hgoOn]
    refine ⟨given, left, [c.batchEntry calls s], [], ?_, hgiven, hleft, ?_⟩
    · rw [List.append_nil, ← htranscript]
      rfl
    · simp [batchEntry, Stand.entry]

/-! ## What a resolver sees -/

variable {resolver : Resolver}

theorem deferEach_withResolver (calls : List ToolCall) (s : Stand M G B X) :
    (c.withResolver resolver).deferEach inv calls s = c.deferEach inv calls s := by
  induction calls generalizing s with
  | nil => rfl
  | cons call calls ih =>
    rw [deferEach_cons, deferEach_cons, funext ih]
    rfl

variable {c}

theorem Dispatches.eq_withResolver (h : c.Dispatches inv calls s visits st)
    (hsame : ∀ v ∈ visits,
      resolver v.call (c.contextOf inv) = c.resolver v.call (c.contextOf inv)) :
    (c.withResolver resolver).closeBatch inv ((c.withResolver resolver).dispatchEach inv calls s) =
      st := by
  induction h with
  | none => rfl
  | last hflow =>
    have hfirst := c.visit_withResolver inv (hsame _ List.mem_cons_self)
    rw [closeBatch_dispatchEach_cons, hfirst, Stretch.andThen_of_ne_goOn hflow]
  | next hflow hrest ih =>
    have hfirst := c.visit_withResolver inv (hsame _ List.mem_cons_self)
    rw [closeBatch_dispatchEach_cons, hfirst, Stretch.andThen_of_goOn hflow,
      ih fun v hv => hsame v (List.mem_cons_of_mem _ hv)]

/-- A batch depends only on what the resolver says about the dispatched calls. -/
theorem dispatchBatch_withResolver
    (h : c.Dispatches inv (calls.take c.config.maxToolCallsPerIteration) s visits
      (c.dispatched inv calls s))
    (hsame : ∀ v ∈ visits,
      resolver v.call (c.contextOf inv) = c.resolver v.call (c.contextOf inv)) :
    (c.withResolver resolver).dispatchBatch inv calls s = c.dispatchBatch inv calls s := by
  have hdispatched : (c.withResolver resolver).dispatched inv calls s = c.dispatched inv calls s :=
    h.eq_withResolver inv hsame
  have hdeferral : ∀ n deferred,
      (c.withResolver resolver).deferral inv n deferred = c.deferral inv n deferred := by
    intro n deferred
    funext s'
    rw [deferral, deferEach_withResolver]
    rfl
  rw [dispatchBatch_eq, dispatchBatch_eq, hdispatched, hdeferral]
  rfl

/-! ## The end of a batch -/

variable (c)

/-- How a batch ends in which so many calls could be dispatched at most. -/
structure Halts (most : Nat) (visits : List (Visit M G B X)) (flow : Flow) : Prop where
  /-- No dispatched call but the last one can end the batch. -/
  goes_on : ∀ v ∈ visits.dropLast, ∀ flow, ¬ c.StopsWith inv v flow
  /-- Calls are left over that could have been dispatched, or the run does not go on, exactly when
  the last dispatched call ends the batch. -/
  stopped_iff : visits.length < most ∨ flow ≠ .goOn ↔
    ∃ v ∈ visits.getLast?, ∃ flow, c.StopsWith inv v flow
  flow_eq : ∀ v ∈ visits.getLast?, ∀ flow', c.StopsWith inv v flow' → flow = flow'
  length_eq : flow = .goOn → visits.length = most

variable {c}

theorem Dispatches.halts (h : c.Dispatches inv calls s visits st)
    (hnext : ∀ v ∈ visits, v.IsNext) : c.Halts inv calls.length visits st.flow := by
  have hstops : ∀ v ∈ visits, ∀ flow,
      c.StopsWith inv v flow ↔ (c.visit inv v).flow = flow ∧ flow ≠ .goOn := by
    intro v hv flow
    obtain ⟨rest, hpending⟩ := hnext v hv
    exact c.stopsWith_visit_iff inv hpending
  have hnone : ∀ v ∈ visits, (c.visit inv v).flow = .goOn → ∀ flow, ¬ c.StopsWith inv v flow := by
    intro v hv hgoOn flow hstop
    obtain ⟨rfl, hne⟩ := (hstops v hv flow).1 hstop
    exact hne hgoOn
  rcases h.goOn_or_last with ⟨hgoOn, hall⟩ | ⟨earlier, v, rfl, hlast, hends, hall⟩
  · have hlength := h.length_of_goOn hgoOn
    refine ⟨?_, iff_of_false ?_ ?_, ?_, fun _ => hlength⟩
    · intro v hv
      have hv := (List.dropLast_sublist visits).subset hv
      exact hnone v hv (hall v hv)
    · simp [hlength, hgoOn]
    · rintro ⟨v, hv, flow, hstop⟩
      have hv := List.mem_of_getLast? hv
      exact hnone v hv (hall v hv) flow hstop
    · intro v hv flow hstop
      have hv := List.mem_of_getLast? hv
      exact absurd hstop (hnone v hv (hall v hv) flow)
  · have hmem : v ∈ earlier ++ [v] := List.mem_append_right _ List.mem_cons_self
    have hstop : c.StopsWith inv v st.flow := (hstops v hmem _).2 ⟨hlast, hends⟩
    refine ⟨?_, iff_of_true (.inr hends) ⟨v, by simp, _, hstop⟩, ?_, fun h => absurd h hends⟩
    · intro u hu
      rw [List.dropLast_concat] at hu
      exact hnone u (List.mem_append_left _ hu) (hall u hu)
    · intro u hu flow hother
      rw [List.getLast?_concat] at hu
      obtain rfl := Option.some.inj hu
      exact hstop.eq_ending.trans hother.eq_ending.symm

/-! ## The fates of all calls -/

variable (c)

/-- What becomes of the calls of a reply in a batch that began at the stand `s`; the visits are
those of the dispatched calls. -/
structure Batch (calls : List ToolCall) (s : Stand M G B X) (visits : List (Visit M G B X))
    (st : Stretch M G B X) : Prop where
  /-- The first calls are dispatched, in the order of issue, and not more than the cap allows. -/
  dispatched : visits.map Visit.call = calls.take visits.length
  length_le : visits.length ≤ min calls.length c.config.maxToolCallsPerIteration
  halts : c.Halts inv (min calls.length c.config.maxToolCallsPerIteration) visits st.flow
  /-- They are dispatched one at a time, and they alone are counted. -/
  successive : c.Successive inv s visits st.stand
  /-- Gate, budget and executor only deal with them, call by call. -/
  dealings : ∃ stories, st.journal.dealings = stories.flatten ∧
    List.Forall₂ (fun story v => c.Consults inv v.call (c.fate inv v) story) stories visits
  /-- What the resolver says about other calls makes no difference. -/
  resolver : ∀ resolver : Resolver,
    (∀ v ∈ visits, resolver v.call (c.contextOf inv) = c.resolver v.call (c.contextOf inv)) →
      (c.withResolver resolver).dispatchBatch inv calls s = st
  /-- The tracer is told of each of them once, and the observer is told the same. -/
  told : st.journal.told = visits.map fun v => .action inv.traceId (c.record inv v)
  observed : List.Forall₂ Observation.Mirrors st.journal.observations st.journal.told
  /-- Every call is answered: a dispatched one by what became of it, unless the budget blocked it,
  and all others alike. -/
  answers : ∃ given left,
    st.stand.state.transcript = ⟨s.state.transcript.messages ++ (given ++ left), []⟩ ∧
      c.Tell inv given (c.answeredOf inv visits) ∧
      List.Forall₂
        (Message.AnswersWith (leftoverText c.config.maxToolCallsPerIteration st.flow)) left
        (calls.drop (c.answeredOf inv visits).length)
  /-- If nothing ends the batch, those beyond the cap are left over. -/
  leftover : st.flow = .goOn → calls.drop (c.answeredOf inv visits).length =
    calls.drop c.config.maxToolCallsPerIteration

/-- The calls of a reply are open when the batch begins, and then it is such a batch. -/
theorem exists_batch (hpending : s.state.transcript.pending = calls) :
    ∃ visits, c.Batch inv calls s visits (c.dispatchBatch inv calls s) := by
  obtain ⟨visits, h⟩ :=
    c.exists_dispatches inv (calls.take c.config.maxToolCallsPerIteration) s
  change c.Dispatches inv _ s visits (c.dispatched inv calls s) at h
  have hsplit : s.state.transcript.pending = calls.take c.config.maxToolCallsPerIteration ++
      calls.drop c.config.maxToolCallsPerIteration := by
    rw [hpending, List.take_append_drop]
  have hnext := h.isNext hsplit
  obtain ⟨given, left, before, after, hbatch, hgiven, hleft, hremarks⟩ :=
    c.exists_dispatchBatch_eq inv h hpending
  rw [h.journal_eq] at hbatch
  -- A reading that skips remarks sees of the batch what it sees of the dispatched calls.
  have hpick : ∀ {α : Type} (f : Event → Option α), (∀ remark, f (.remarked remark) = none) →
      (c.dispatchBatch inv calls s).journal.pick f = (c.entries inv visits).pick f := by
    intro α f hf
    rw [hbatch]
    exact Journal.pick_between_remarks hremarks hf
  refine ⟨visits, ?_⟩
  constructor
  case dispatched =>
    have hprefix : visits.map Visit.call <+: calls := h.isPrefix.trans (List.take_prefix _ _)
    rw [List.prefix_iff_eq_take.1 hprefix, List.length_map]
  case length_le =>
    have hlength := h.isPrefix.length_le
    rwa [List.length_map, List.length_take, Nat.min_comm] at hlength
  case halts =>
    have hhalts := h.halts inv hnext
    rw [hbatch]
    rwa [List.length_take, Nat.min_comm] at hhalts
  case successive =>
    rw [hbatch]
    exact (h.successive hsplit).withTranscript _
  case dealings =>
    obtain ⟨stories, hstories, hall⟩ := c.exists_dealings_visits inv hnext
    exact ⟨stories, (hpick _ fun _ => rfl).trans hstories, hall⟩
  case resolver =>
    intro resolver hsame
    exact dispatchBatch_withResolver inv h hsame
  case told => exact (hpick _ fun _ => rfl).trans (c.told_visits inv hnext)
  case observed =>
    rw [Journal.observations_eq_pick, hpick _ fun _ => rfl, Journal.told, hpick _ fun _ => rfl]
    exact c.observed_visits inv hnext
  case answers =>
    rw [hbatch]
    exact ⟨given, left, rfl, hgiven, hleft⟩
  case leftover =>
    rw [hbatch]
    intro hgoOn
    obtain ⟨-, -, -, hanswered⟩ := h.exists_answers_of_goOn hsplit hgoOn
    exact h.drop_answeredOf hanswered hgoOn

/-- Every call of a reply has one fate, and its position decides which.  A batch that begins when the
calls are open dispatches the first ones, one after the other, until the cap is reached or a call
ends the batch: it was blocked or cancelled, or it failed and too many have failed in a row.  Gate,
budget and executor deal with the dispatched calls only, in the order of issue, and what the
resolver says about others makes no difference.  Each of them is told and observed once, and they
alone are counted.  In the end no call is open: a dispatched call is answered by what became of it,
unless the budget blocked it, and all others alike.  The calls of a reply that is taken in are open,
so this is what becomes of them. -/
theorem every_call_has_one_fate :
    (∀ (calls : List ToolCall) (s : Stand M G B X), s.state.transcript.pending = calls →
      ∃ visits, c.Batch inv calls s visits (c.dispatchBatch inv calls s)) ∧
    ∀ (reply : ModelReply) (s : Stand M G B X) (t : Transcript), reply.toolCalls ≠ [] →
      s.state.transcript.pushAssistant (c.replyMessage inv reply s) = .ok t →
        (c.dispatchStand inv reply s t).state.transcript.pending = callsOf reply s ∧
          c.takeReply inv reply s =
            (c.dispatchBatch inv (callsOf reply s) (c.dispatchStand inv reply s t)).after
              (c.notedEntries inv reply s) := by
  constructor
  · intro calls s hpending
    exact c.exists_batch inv hpending
  · intro reply s t hcalls hpush
    obtain ⟨-, -, -, rfl⟩ := Transcript.pushAssistant_eq_ok_iff.1 hpush
    have hnonempty : (callsOf reply s).isEmpty = false := by
      simpa using fun h => hcalls (callsOf_eq_nil_iff.1 h)
    refine ⟨rfl, ?_⟩
    rw [takeReply_eq, hpush]
    simp only [hnonempty, Bool.false_eq_true, if_false]

/-- The sparing controller, with a cap of two calls. -/
def cappedTools : Controller Script Unit Nat Unit :=
  { sparingTools with config := { LoopConfig.default with maxToolCallsPerIteration := 2 } }

/-- A reply with three calls. -/
def greedyReply : ModelReply :=
  .calls "" [⟨"a", "weather", ""⟩, ⟨"b", "weather", ""⟩, ⟨"c", "weather", ""⟩]

/-- The stand of a task when the reply comes in. -/
def greedyStand : Stand Script Unit Nat Unit := ⟨.begin ⟨task.seed, []⟩, greedy⟩

/-- The stand when the calls of the reply are dispatched. -/
def greedyDispatch : Stand Script Unit Nat Unit :=
  cappedTools.dispatchStand task greedyReply greedyStand
    (cappedTools.withReply task greedyReply greedyStand)

/-- The second call is the last one below the cap, and the budget blocks it: it is dispatched, but
it shares its answer with the third one. -/
theorem every_call_has_one_fate_cappedTools :
    (∃ visits,
      cappedTools.Batch task (callsOf greedyReply greedyStand) greedyDispatch visits
        (cappedTools.dispatchBatch task (callsOf greedyReply greedyStand) greedyDispatch) ∧
      visits.length = 2) ∧
    (cappedTools.takeReply task greedyReply greedyStand).flow = .stop .budgetExceeded [] ∧
    ((cappedTools.takeReply task greedyReply greedyStand).stand.state.transcript.messages.drop 3).map
        Message.content =
      ["done", "Tool call not executed: loop terminated (budget_exceeded)",
        "Tool call not executed: loop terminated (budget_exceeded)"] := by
  obtain ⟨hbatches, hreplies⟩ := cappedTools.every_call_has_one_fate task
  have hpush : greedyStand.state.transcript.pushAssistant
      (cappedTools.replyMessage task greedyReply greedyStand) =
        .ok (cappedTools.withReply task greedyReply greedyStand) := by
    rfl
  have hcalls : greedyReply.toolCalls ≠ [] := List.cons_ne_nil _ _
  obtain ⟨hpending, htaken⟩ := hreplies greedyReply greedyStand _ hcalls hpush
  obtain ⟨visits, hbatch⟩ := hbatches _ greedyDispatch hpending
  refine ⟨⟨visits, hbatch, ?_⟩, ?_, ?_⟩
  · have htold : (cappedTools.dispatchBatch task (callsOf greedyReply greedyStand)
        greedyDispatch).journal.told.length = 2 := by
      decide +kernel
    rw [hbatch.told, List.length_map] at htold
    exact htold
  · rw [htaken]
    decide +kernel
  · rw [htaken]
    decide +kernel

end Controller

end AgentLoop
