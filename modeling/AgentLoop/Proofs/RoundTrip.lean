import AgentLoop.Proofs.Records
import AgentLoop.Wire.Governance
import AgentLoop.Wire.Observation
import AgentLoop.Wire.Run
import AgentLoop.Wire.Trace

/-!
# What is written is read back

Messages, traces, audit entries, observations, contexts and what a cancelled run had come to are
written as JSON.  Whoever reads the text as the same type gets the same value, so a field that is
left out is told from one that is empty.

* `Message.restores`, `LoopTrace.restores`, … go through the records.  Each says that a value is
  restored from what is written of it, provided it is in range.
* `InRange` is what the type itself promises: integers of 32 or 64 bits, sets and mappings in order,
  and in free-form values integers of 64 bits; and years have four digits.
* `written_is_read_back` is the result for texts.
-/

namespace AgentLoop

open RecordView

/-! ## Messages -/

theorem Role.restores (r : Role) : Restores Role.ofTree r.toJson r := by
  refine ⟨trivial, ?_⟩
  cases r <;> rfl

theorem ToolCall.restores (c : ToolCall) : Restores ToolCall.ofTree c.toJson c := by
  refine Tree.restores_record (by simp) ?_
  exact (((finds_required (by simp) (Tree.restores_text c.id)).map _).seq
    (finds_required (by simp) (Tree.restores_text c.name))).seq
    (finds_defaulted "" (by simp) (Tree.restores_text c.arguments))

/-- The time of the message can be written. -/
def Message.InRange (m : Message) : Prop := m.timestamp.FourDigit

theorem Message.restores {m : Message} (h : m.InRange) : Restores Message.ofTree m.toJson m := by
  have hcalls : Restores (Tree.toList ToolCall.ofTree) (.list ToolCall.toJson m.toolCalls)
      m.toolCalls :=
    Tree.restores_list fun c _ => c.restores
  refine Tree.restores_record (by simp [m.role.restores.whole, hcalls.whole]) ?_
  exact (((((((finds_required (by simp) (Tree.restores_text m.id)).map _).seq
    (finds_required (by simp) m.role.restores)).seq
    (finds_defaulted "" (by simp) (Tree.restores_text m.content))).seq
    (finds_unlessEmpty (by simp) hcalls)).seq
    (finds_ifAny (by simp) (fun id _ => Tree.restores_text id) (by simp))).seq
    (finds_ifAny (by simp) (fun name _ => Tree.restores_text name) (by simp))).seq
    (finds_required (by simp) (Tree.restores_timestamp h))

/-- The numbers and times of what a run had come to can be written. -/
structure LoopProgress.InRange (p : LoopProgress) : Prop where
  iterations : p.iterations < 0x100000000
  tokensUsed : p.tokensUsed < 0x10000000000000000
  toolCallsMade : p.toolCallsMade < 0x100000000
  transcript : ∀ m ∈ p.transcript, m.InRange

theorem LoopProgress.restores {p : LoopProgress} (h : p.InRange) :
    Restores LoopProgress.ofTree p.toJson p := by
  have hiterations := Tree.restores_nat32 h.iterations
  have htokens := Tree.restores_nat64 h.tokensUsed
  have hcalls := Tree.restores_nat32 h.toolCallsMade
  have htools := Tree.restores_strings p.toolsUsed
  have hmessages : Restores (Tree.toList Message.ofTree) (.list Message.toJson p.transcript)
      p.transcript :=
    Tree.restores_list fun m hm => Message.restores (h.transcript m hm)
  refine Tree.restores_record
    (by simp [hiterations.whole, htokens.whole, hcalls.whole, htools.whole, hmessages.whole]) ?_
  exact ((((((finds_required (by simp) (Tree.restores_text p.invocationId)).map _).seq
    (finds_required (by simp) hiterations)).seq
    (finds_required (by simp) htokens)).seq
    (finds_required (by simp) hcalls)).seq
    (finds_required (by simp) htools)).seq
    (finds_required (by simp) hmessages)

/-! ## Traces -/

theorem ActionStatus.restores (s : ActionStatus) : Restores ActionStatus.ofTree s.toJson s := by
  refine ⟨trivial, ?_⟩
  cases s <;> rfl

/-- The numbers of a usage have 32 bits. -/
structure Usage.InRange (u : Usage) : Prop where
  promptTokens : u.promptTokens < 0x100000000
  completionTokens : u.completionTokens < 0x100000000
  totalTokens : u.totalTokens < 0x100000000

theorem Usage.restores {u : Usage} (h : u.InRange) : Restores Usage.ofTree u.toJson u := by
  have hprompt := Tree.restores_nat32 h.promptTokens
  have hcompletion := Tree.restores_nat32 h.completionTokens
  have htotal := Tree.restores_nat32 h.totalTokens
  refine Tree.restores_record (by simp [hprompt.whole, hcompletion.whole, htotal.whole]) ?_
  exact (((finds_required (by simp) hprompt).map _).seq
    (finds_required (by simp) hcompletion)).seq (finds_required (by simp) htotal)

/-- The duration and the time of an action can be written. -/
structure Action.InRange (a : Action) : Prop where
  durationMs : a.durationMs < 0x10000000000000000
  recordedAt : a.recordedAt.FourDigit

theorem Action.restores {a : Action} (h : a.InRange) : Restores Action.ofTree a.toJson a := by
  have hduration := Tree.restores_nat64 h.durationMs
  refine Tree.restores_record (by simp [a.status.restores.whole, hduration.whole]) ?_
  exact ((((((finds_required (by simp) (Tree.restores_text a.callId)).map _).seq
    (finds_required (by simp) (Tree.restores_text a.toolName))).seq
    (finds_required (by simp) a.status.restores)).seq
    (finds_ifAny (by simp) (fun detail _ => Tree.restores_text detail) (by simp))).seq
    (finds_required (by simp) hduration)).seq
    (finds_required (by simp) (Tree.restores_timestamp h.recordedAt))

/-- The numbers of a call of the model can be written. -/
structure ModelCall.InRange (c : ModelCall) : Prop where
  usage : ∀ u ∈ c.usage, u.InRange
  toolCalls : c.toolCalls < 0x10000000000000000

theorem ModelCall.restores {c : ModelCall} (h : c.InRange) :
    Restores ModelCall.ofTree c.toJson c := by
  have husage : ∀ u ∈ c.usage, Restores Usage.ofTree u.toJson u :=
    fun u hu => Usage.restores (h.usage u hu)
  have hcalls := Tree.restores_nat64 h.toolCalls
  refine Tree.restores_record (by simpa [hcalls.whole] using fun u hu => (husage u hu).whole) ?_
  exact (((finds_required (by simp) (Tree.restores_text c.model)).map _).seq
    (finds_ifAny (by simp) husage (by simp [Usage.toJson]))).seq
    (finds_required (by simp) hcalls)

/-- The numbers and times of a step can be written. -/
structure Step.InRange (s : Step) : Prop where
  iteration : s.iteration < 0x100000000
  startedAt : s.startedAt.FourDigit
  modelCall : ∀ c ∈ s.modelCall, c.InRange
  actions : ∀ a ∈ s.actions, a.InRange

theorem Step.restores {s : Step} (h : s.InRange) : Restores Step.ofTree s.toJson s := by
  have hiteration := Tree.restores_nat32 h.iteration
  have hcall : ∀ c ∈ s.modelCall, Restores ModelCall.ofTree c.toJson c :=
    fun c hc => ModelCall.restores (h.modelCall c hc)
  have hactions : Restores (Tree.toList Action.ofTree) (.list Action.toJson s.actions) s.actions :=
    Tree.restores_list fun a ha => Action.restores (h.actions a ha)
  refine Tree.restores_record
    (by simpa [hiteration.whole, hactions.whole] using fun c hc => (hcall c hc).whole) ?_
  exact ((((finds_required (by simp) hiteration).map _).seq
    (finds_required (by simp) (Tree.restores_timestamp h.startedAt))).seq
    (finds_ifAny (by simp) hcall (by simp [ModelCall.toJson]))).seq
    (finds_defaulted [] (by simp) hactions)

/-- The numbers and times of a trace can be written. -/
structure LoopTrace.InRange (t : LoopTrace) : Prop where
  steps : ∀ s ∈ t.steps, s.InRange
  startedAt : t.startedAt.FourDigit
  endedAt : ∀ time ∈ t.endedAt, time.FourDigit

theorem LoopTrace.restores {t : LoopTrace} (h : t.InRange) :
    Restores LoopTrace.ofTree t.toJson t := by
  have hsteps : Restores (Tree.toList Step.ofTree) (.list Step.toJson t.steps) t.steps :=
    Tree.restores_list fun s hs => Step.restores (h.steps s hs)
  have hended : Restores (Tree.toOption Tree.toTimestamp) (.ofOption .timestamp t.endedAt)
      t.endedAt :=
    Tree.restores_ofOption (fun time htime => Tree.restores_timestamp (h.endedAt time htime))
      (by simp [Json.timestamp])
  have houtcome : Restores (Tree.toOption Tree.toText) (.ofOption .str t.outcome) t.outcome :=
    Tree.restores_ofOption (fun outcome _ => Tree.restores_text outcome) (by simp)
  refine Tree.restores_record (by simp [hsteps.whole, hended.whole, houtcome.whole]) ?_
  exact ((((((finds_required (by simp) (Tree.restores_text t.id)).map _).seq
    (finds_required (by simp) (Tree.restores_text t.invocationId))).seq
    (finds_required (by simp) hsteps)).seq
    (finds_required (by simp) (Tree.restores_timestamp h.startedAt))).seq
    (finds_optional (by simp) hended)).seq
    (finds_optional (by simp) houtcome)

/-! ## Audit entries -/

theorem AuditEvent.restores (e : AuditEvent) : Restores AuditEvent.ofTree e.toJson e := by
  cases e with
  | toolExecution name => exact ⟨by simp [toJson, Json.Whole, Json.WholeFields], rfl⟩
  | toolDenied name => exact ⟨by simp [toJson, Json.Whole, Json.WholeFields], rfl⟩

theorem AuditOutcome.restores (o : AuditOutcome) : Restores AuditOutcome.ofTree o.toJson o := by
  refine ⟨trivial, ?_⟩
  cases o <;> rfl

/-- The time of the entry can be written. -/
def AuditEntry.InRange (e : AuditEntry) : Prop := e.timestamp.FourDigit

theorem AuditEntry.restores {e : AuditEntry} (h : e.InRange) :
    Restores AuditEntry.ofTree e.toJson e := by
  have hdetails : Restores (Tree.toOption Tree.toText) (.ofOption .str e.details) e.details :=
    Tree.restores_ofOption (fun detail _ => Tree.restores_text detail) (by simp)
  refine Tree.restores_record
    (by simp [e.event.restores.whole, e.outcome.restores.whole, hdetails.whole]) ?_
  exact ((((((finds_required (by simp) (Tree.restores_timestamp h)).map _).seq
    (finds_required (by simp) e.event.restores)).seq
    (finds_required (by simp) (Tree.restores_text e.actor))).seq
    (finds_required (by simp) (Tree.restores_text e.target))).seq
    (finds_required (by simp) e.outcome.restores)).seq
    (finds_optional (by simp) hdetails)

/-! ## Observations and contexts -/

theorem ObservationKind.restores (k : ObservationKind) :
    Restores ObservationKind.ofTree k.toJson k := by
  refine ⟨trivial, ?_⟩
  cases k <;> rfl

/-- The fields are a mapping of free-form values whose numbers are integers. -/
structure JsonObject.InRange (fields : JsonObject) : Prop where
  canonical : (Json.obj fields).Canonical
  integersOnly : (Json.obj fields).IntegersOnly

theorem JsonObject.restores {fields : JsonObject} (h : JsonObject.InRange fields) :
    Restores Tree.toJsonObject (.obj fields) fields :=
  Tree.restores_object h.canonical h.integersOnly

/-- The time of the observation and its metadata can be written. -/
structure Observation.InRange (o : Observation) : Prop where
  timestamp : o.timestamp.FourDigit
  metadata : JsonObject.InRange o.metadata

theorem Observation.restores {o : Observation} (h : o.InRange) :
    Restores Observation.ofTree o.toJson o := by
  have hmetadata := JsonObject.restores h.metadata
  refine Tree.restores_record (by simp [o.kind.restores.whole, hmetadata.whole]) ?_
  exact ((((finds_required (by simp) o.kind.restores).map _).seq
    (finds_required (by simp) (Tree.restores_text o.content))).seq
    (finds_defaulted [] (by simp) hmetadata)).seq
    (finds_required (by simp) (Tree.restores_timestamp h.timestamp))

theorem AutonomyLevel.restores (l : AutonomyLevel) :
    Restores AutonomyLevel.ofTree l.toJson l := by
  refine ⟨trivial, ?_⟩
  cases l <;> rfl

/-- The allow-list is a set, and the metadata can be written. -/
structure ExecutionContext.InRange (c : ExecutionContext) : Prop where
  allowedTools : ∀ allowed ∈ c.allowedTools, NameSet.Sorted allowed
  metadata : JsonObject.InRange c.metadata

theorem ExecutionContext.restores {c : ExecutionContext} (h : c.InRange) :
    Restores ExecutionContext.ofTree c.toJson c := by
  have hallowed : ∀ allowed ∈ c.allowedTools,
      Restores Tree.toNameSet (.strings allowed) allowed :=
    fun allowed hmem => Tree.restores_nameSet (h.allowedTools allowed hmem)
  have hmetadata := JsonObject.restores h.metadata
  refine Tree.restores_record ?_ ?_
  · simpa [c.autonomy.restores.whole, hmetadata.whole] using
      fun allowed hmem => (hallowed allowed hmem).whole
  exact (((((finds_defaulted "" (by simp) (Tree.restores_text c.invocationId)).map _).seq
    (finds_defaulted "" (by simp) (Tree.restores_text c.caller))).seq
    (finds_defaulted AutonomyLevel.supervised (by simp) c.autonomy.restores)).seq
    (finds_ifAny (by simp) hallowed (by simp [Json.strings]))).seq
    (finds_unlessEmpty (by simp) hmetadata)

/-! ## Texts -/

/-- Values in range, nested no deeper than a text may be, are read back from their texts: from the
compact one, and a trace also from the one over lines that a recorder exports. -/
theorem written_is_read_back :
    (∀ m : Message, m.InRange → m.toJson.depth ≤ Build.depthLimit →
      Json.readAs Message.ofTree m.toJson.compact = .ok m) ∧
    (∀ p : LoopProgress, p.InRange → p.toJson.depth ≤ Build.depthLimit →
      Json.readAs LoopProgress.ofTree p.toJson.compact = .ok p) ∧
    (∀ t : LoopTrace, t.InRange → t.toJson.depth ≤ Build.depthLimit →
      Json.readAs LoopTrace.ofTree t.toJson.compact = .ok t ∧
        ∀ (r : TraceRecorder) (id : String), r.find? id = some t →
          ∃ text, r.export? id = some text ∧ Json.readAs LoopTrace.ofTree text = .ok t) ∧
    (∀ e : AuditEntry, e.InRange → e.toJson.depth ≤ Build.depthLimit →
      Json.readAs AuditEntry.ofTree e.toJson.compact = .ok e) ∧
    (∀ o : Observation, o.InRange → o.toJson.depth ≤ Build.depthLimit →
      Json.readAs Observation.ofTree o.toJson.compact = .ok o) ∧
    (∀ c : ExecutionContext, c.InRange → c.toJson.depth ≤ Build.depthLimit →
      Json.readAs ExecutionContext.ofTree c.toJson.compact = .ok c) := by
  refine ⟨fun m h hdepth => (Message.restores h).readAs_compact hdepth,
    fun p h hdepth => (LoopProgress.restores h).readAs_compact hdepth, ?_,
    fun e h hdepth => (AuditEntry.restores h).readAs_compact hdepth,
    fun o h hdepth => (Observation.restores h).readAs_compact hdepth,
    fun c h hdepth => (ExecutionContext.restores h).readAs_compact hdepth⟩
  intro t h hdepth
  refine ⟨(LoopTrace.restores h).readAs_compact hdepth, fun r id hfind => ?_⟩
  refine ⟨t.toJson.pretty, ?_, (LoopTrace.restores h).readAs_pretty hdepth⟩
  rw [TraceRecorder.export?, hfind, Option.map_some]

/-- The last instant of the leap second at the end of 2016. -/
def leapInstant : Timestamp := ⟨1483228799, 1999999999⟩

theorem fourDigit_leapInstant : leapInstant.FourDigit where
  valid := ⟨by decide, by decide⟩
  year_nonneg := by decide
  year_le := by decide

/-- Free-form metadata with the least and the largest integer. -/
def extremes : JsonObject :=
  [("\n\"key\"", .arr [.int (-0x8000000000000000), .nat 0xffffffffffffffff, .null]), ("é", .obj [])]

theorem inRange_extremes : JsonObject.InRange extremes where
  canonical := by
    have hsorted : Keyed.Sorted extremes := by decide
    refine ⟨hsorted, ?_⟩
    simp [extremes, Json.Canonical, Json.CanonicalFields, Json.CanonicalItems, Json.int, Json.nat,
      JsonNumber.Representable, Keyed.Sorted]
  integersOnly := by
    simp [extremes, Json.IntegersOnly, Json.IntegersOnlyFields, Json.IntegersOnlyItems, Json.int,
      Json.nat]

/-- A message with characters that are escaped, a call and an empty name of a tool. -/
def leapMessage : Message :=
  ⟨"m1", .assistant, "\x01\t\\ \"😀\"", [⟨"c1", "clock", ""⟩], none, some "", leapInstant⟩

/-- What a run had come to that used up its tokens. -/
def leapProgress : LoopProgress := ⟨"run", 2, 0xffffffffffffffff, 1, ["clock"], [leapMessage]⟩

/-- A trace that goes on, with an action that has an empty detail. -/
def leapTrace : LoopTrace :=
  ⟨"t1", "run", [⟨1, leapInstant, some ⟨"model", some ⟨0, 7, 0xffffffff⟩, 1⟩,
    [⟨"c1", "clock", .failed, some "", 0, leapInstant⟩]⟩, .empty 2 leapInstant], leapInstant, none,
    none⟩

/-- A recorder that keeps this trace. -/
def leapRecorder : TraceRecorder := ⟨1, [leapTrace], ⟨1, 1, 1, 1, 7⟩⟩

/-- An entry with these details. -/
def leapEntry (details : Option String) : AuditEntry :=
  ⟨leapInstant, .toolDenied "clock", "user", "clock", .denied, details⟩

/-- An observation in the leap second. -/
def leapObservation : Observation := ⟨.toolCall, "", extremes, leapInstant⟩

/-- A context with this allow-list. -/
def extremeContext (allowed : Option NameSet) : ExecutionContext :=
  ⟨"run", "", .readOnly, allowed, extremes⟩

theorem inRange_leapMessage : leapMessage.InRange := fourDigit_leapInstant

theorem inRange_leapProgress : leapProgress.InRange where
  iterations := by decide
  tokensUsed := by decide
  toolCallsMade := by decide
  transcript := by simp [leapProgress, inRange_leapMessage]

theorem inRange_leapTrace : leapTrace.InRange where
  steps := by
    have hcall : ModelCall.InRange ⟨"model", some ⟨0, 7, 0xffffffff⟩, 1⟩ :=
      ⟨by simpa using ⟨by decide, by decide, by decide⟩, by decide⟩
    have haction : Action.InRange ⟨"c1", "clock", .failed, some "", 0, leapInstant⟩ :=
      ⟨by decide, fourDigit_leapInstant⟩
    simp only [leapTrace, List.mem_cons, List.not_mem_nil, or_false, forall_eq_or_imp, forall_eq]
    exact ⟨⟨by decide, fourDigit_leapInstant, by simpa using hcall, by simpa using haction⟩,
      ⟨by decide, fourDigit_leapInstant, by simp [Step.empty], by simp [Step.empty]⟩⟩
  startedAt := fourDigit_leapInstant
  endedAt := by simp [leapTrace]

/-- Absent and empty details and allow-lists are told apart. -/
theorem written_is_read_back_leap :
    Json.readAs Message.ofTree leapMessage.toJson.compact = .ok leapMessage ∧
      Json.readAs LoopProgress.ofTree leapProgress.toJson.compact = .ok leapProgress ∧
      (∃ text, leapRecorder.export? "t1" = some text ∧
        Json.readAs LoopTrace.ofTree text = .ok leapTrace) ∧
      Json.readAs AuditEntry.ofTree (leapEntry none).toJson.compact = .ok (leapEntry none) ∧
      Json.readAs AuditEntry.ofTree (leapEntry (some "")).toJson.compact =
        .ok (leapEntry (some "")) ∧
      Json.readAs Observation.ofTree leapObservation.toJson.compact = .ok leapObservation ∧
      Json.readAs ExecutionContext.ofTree (extremeContext none).toJson.compact =
        .ok (extremeContext none) ∧
      Json.readAs ExecutionContext.ofTree (extremeContext (some [])).toJson.compact =
        .ok (extremeContext (some [])) := by
  obtain ⟨hmessage, hprogress, htrace, hentry, hobservation, hcontext⟩ := written_is_read_back
  exact ⟨hmessage leapMessage inRange_leapMessage (by decide),
    hprogress leapProgress inRange_leapProgress (by decide),
    (htrace leapTrace inRange_leapTrace (by decide)).2 leapRecorder "t1" (by decide),
    hentry (leapEntry none) fourDigit_leapInstant (by decide),
    hentry (leapEntry (some "")) fourDigit_leapInstant (by decide),
    hobservation leapObservation ⟨fourDigit_leapInstant, inRange_extremes⟩ (by decide),
    hcontext (extremeContext none) ⟨by simp [extremeContext], inRange_extremes⟩ (by decide),
    hcontext (extremeContext (some []))
      ⟨by simp [extremeContext, NameSet.Sorted], inRange_extremes⟩ (by decide)⟩

end AgentLoop
