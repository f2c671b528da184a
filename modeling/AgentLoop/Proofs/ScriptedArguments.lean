import AgentLoop.Proofs.Deliveries
import AgentLoop.Proofs.Exhaustion
import AgentLoop.Proofs.WrittenArguments

/-!
# Scripted arguments reach the tools

In a replay gate, budget and executor are given the arguments that the script holds.  An object
arrives as the very value that it is; a text that stands for arguments arrives as the object that it
encodes, and nothing at all as the empty object.  No other value arrives.

* `Json.Delivered` says how a scripted value is handed over, and `delivered_of_brought` that its text
  is handed over like this.
* `scriptedCalls` are the calls of a script up to the cap, and `map_dispatchableFrom` says that they
  are those that a run of the script dispatches.
* `Session.Delivers` is what a replay hands over of its script: each call of it by its position, and
  nothing else.  `exists_delivers_interrupted` says that every replay does, even if it is
  interrupted, and `scripted_arguments_arrive` puts the parts together.
-/

namespace AgentLoop

/-! ## Scripted values -/

/-- The ways in which a scripted value is handed over. -/
inductive Json.Delivered (cancel : Cancellation) (tool : String) : Json → Journal → Prop where
  /-- An object arrives as it is. -/
  | object {fields : JsonObject} {story : Journal} (hplain : (Json.obj fields).Plain)
      (hhanded : Handed cancel tool fields story) : Delivered cancel tool (.obj fields) story
  /-- Of an object that cannot be read back arrives what is read of its text. -/
  | irregular {fields : JsonObject} {story : Journal} (hplain : ¬ (Json.obj fields).Plain)
      (hbrought : Brought cancel tool (Arguments.write (.obj fields)) story) :
      Delivered cancel tool (.obj fields) story
  | nothing {story : Journal} (hhanded : Handed cancel tool [] story) :
      Delivered cancel tool .null story
  /-- A text arrives as what it encodes. -/
  | text {text : String} {story : Journal} (hbrought : Brought cancel tool text story) :
      Delivered cancel tool (.str text) story
  /-- Any other value is handed to nobody. -/
  | unfit {value : Json} (hunfit : value.Unfit) : Delivered cancel tool value []

/-- What is read of a text is handed over. -/
theorem Brought.handed_of_ok {cancel : Cancellation} {tool text : String} {story : Journal}
    {arguments : JsonObject} (h : Brought cancel tool text story)
    (hread : Arguments.read text = .ok arguments) : Handed cancel tool arguments story := by
  cases h with
  | unreadable herror => cases hread.symm.trans herror
  | handed hsame hhanded =>
    obtain rfl := Except.ok.inj (hread.symm.trans hsame)
    exact hhanded

theorem Brought.eq_nil_of_error {cancel : Cancellation} {tool text : String} {story : Journal}
    {error : ArgumentsError} (h : Brought cancel tool text story)
    (hread : Arguments.read text = .error error) : story = [] := by
  cases h with
  | unreadable => rfl
  | handed hsame => cases hread.symm.trans hsame

/-- A value whose text is handed over is handed over itself. -/
theorem Json.delivered_of_brought {cancel : Cancellation} {tool : String} {value : Json}
    {story : Journal} (h : Brought cancel tool (Arguments.write value) story) :
    value.Delivered cancel tool story := by
  have hunfit : value.Unfit → value.Delivered cancel tool story := by
    intro hunfit
    obtain ⟨error, hread⟩ := Arguments.exists_read_write_eq_error hunfit
    rw [h.eq_nil_of_error hread]
    exact .unfit hunfit
  cases value with
  | null => exact .nothing (h.handed_of_ok Arguments.read_write_null)
  | str text => exact .text h
  | obj fields =>
    by_cases hplain : (Json.obj fields).Plain
    · exact .object hplain (h.handed_of_ok (Arguments.read_write_plain hplain))
    · exact .irregular hplain h
  | _ => exact hunfit trivial

/-! ## Scripted calls -/

/-- The calls of scripted turns up to the cap in each turn. -/
def scriptedCalls (cap : Nat) (turns : List ScriptedTurn) : List ScriptedCall :=
  turns.flatMap fun turn => turn.calls.take cap

/-- They are those that are dispatched, by their positions. -/
theorem map_dispatchableFrom (cap iteration : Nat) (turns : List ScriptedTurn) :
    (dispatchableFrom cap iteration (turns.map ScriptedTurn.toReply)).map
        (fun call => (call.name, call.arguments)) =
      (scriptedCalls cap turns).map
        fun scripted => (scripted.name, Arguments.write scripted.arguments) := by
  induction turns generalizing iteration with
  | nil => rfl
  | cons turn turns ih =>
    rw [scriptedCalls, List.flatMap_cons, ← scriptedCalls, List.map_append, ← ih, List.map_cons,
      dispatchableFrom, List.map_append, List.map_take, map_normalizeCalls, List.map_take]
    simp only [ScriptedTurn.toReply, List.map_map]
    rfl

theorem length_dispatchable (cap : Nat) (turns : List ScriptedTurn) :
    (dispatchable cap (turns.map ScriptedTurn.toReply)).length =
      (scriptedCalls cap turns).length := by
  have hlength := congrArg List.length (map_dispatchableFrom cap 1 turns)
  rwa [List.length_map, List.length_map] at hlength

/-- Calls that are dispatched in order are calls of the script in order. -/
theorem exists_scripted_of_isPrefix {cap : Nat} {turns : List ScriptedTurn}
    {dispatched : List ToolCall}
    (h : dispatched <+: dispatchable cap (turns.map ScriptedTurn.toReply)) :
    ∃ calls : List ScriptedCall, calls <+: scriptedCalls cap turns ∧
      dispatched.map (fun call => (call.name, call.arguments)) =
        calls.map fun scripted => (scripted.name, Arguments.write scripted.arguments) := by
  apply List.prefix_map_iff.1
  rw [← map_dispatchableFrom cap 1]
  exact h.map _

/-- What is handed over of the calls that are dispatched is handed over of the calls of the script. -/
theorem forall₂_delivered {cancel : Cancellation} {dispatched : List ToolCall}
    {calls : List ScriptedCall} {stories : List Journal}
    (hcalls : dispatched.map (fun call => (call.name, call.arguments)) =
      calls.map fun scripted => (scripted.name, Arguments.write scripted.arguments))
    (h : List.Forall₂ (fun (call : ToolCall) (story : Journal) =>
      Brought cancel call.name call.arguments story) dispatched stories) :
    List.Forall₂ (fun (call : ScriptedCall) (story : Journal) =>
      call.arguments.Delivered cancel call.name story) calls stories := by
  have hbrought : List.Forall₂ (fun (given : String × String) (story : Journal) =>
      Brought cancel given.1 given.2 story)
      (dispatched.map fun call => (call.name, call.arguments)) stories :=
    List.forall₂_map_left_iff.2 h
  rw [hcalls, List.forall₂_map_left_iff] at hbrought
  exact hbrought.imp fun _ _ => Json.delivered_of_brought

theorem scriptedCalls_isPrefix (cap : Nat) {turns more : List ScriptedTurn} (h : turns <+: more) :
    scriptedCalls cap turns <+: scriptedCalls cap more := by
  obtain ⟨later, rfl⟩ := h
  rw [scriptedCalls, scriptedCalls, List.flatMap_append]
  exact List.prefix_append _ _

namespace Session

/-- What a replay of a script hands over to gate, budget and executor. -/
structure Delivers (s : Session) (config : AppConfig) (epoch : Timestamp) (cancel : Cancellation)
    (r : RunReport Script PolicyState Spent Unit) (calls : List ScriptedCall)
    (stories : List Journal) : Prop where
  /-- What the journal says of gate, budget and executor is true. -/
  truthful : (s.controller config epoch).Tells s.world r.journal r.world
  /-- The calls are handed over one after another, and nothing else is. -/
  handings : r.journal.handings = stories.flatten
  /-- Each call delivers its own value. -/
  delivered : List.Forall₂ (fun (call : ScriptedCall) (story : Journal) =>
    call.arguments.Delivered cancel call.name story) calls stories
  /-- They are the calls that the run dispatched. -/
  actions : r.journal.actions.map ActionRecord.toolName = calls.map ScriptedCall.name
  /-- They are the calls of the script in order, up to the cap in each turn. -/
  inOrder : calls <+: scriptedCalls config.agentLoop.maxToolCallsPerIteration
    (s.turns.take r.journal.replies.length)
  /-- No call of a turn before the last one is missing. -/
  earlier : scriptedCalls config.agentLoop.maxToolCallsPerIteration
    (s.turns.take (r.journal.replies.length - 1)) <+: calls
  /-- If no call was left behind, none is missing. -/
  whole : r.ending.leavesCalls = false →
    calls = scriptedCalls config.agentLoop.maxToolCallsPerIteration
      (s.turns.take r.journal.replies.length)

variable (s : Session) (config : AppConfig) (epoch : Timestamp) (ids : IdSupply)
  (cancel : Cancellation)

/-- The replies of a replay are the first ones of the script. -/
theorem replies_interrupted_isPrefix :
    (s.interrupted config epoch ids cancel).journal.replies <+: s.replies := by
  rcases Controller.talk_run (c := s.controller config epoch)
    { s.invocation epoch ids with cancel } s.world rfl with ⟨-, hreplies, -⟩ | ⟨-, hreplies, -⟩
  · exact hreplies
  · exact hreplies ▸ List.prefix_refl _

/-- A replay hands over the values of its script, even if it is interrupted. -/
theorem exists_delivers_interrupted :
    ∃ (calls : List ScriptedCall) (stories : List Journal),
      s.Delivers config epoch cancel (s.interrupted config epoch ids cancel) calls stories := by
  have hscript := s.replies_interrupted_isPrefix config epoch ids cancel
  have htells := (s.controller config epoch).tells_run { s.invocation epoch ids with cancel } s.world
  obtain ⟨dispatched, stories, hhands, hearlier, hinOrder, hwhole⟩ :=
    Controller.exists_handsOver_run (c := s.controller config epoch) (fun _ => rfl)
      { s.invocation epoch ids with cancel } s.world
  rw [interrupted] at hscript ⊢
  generalize (s.controller config epoch).run { s.invocation epoch ids with cancel } s.world = r at *
  have hlast := map_toReply_take hscript
  have hbefore := map_toReply_take ((List.dropLast_prefix _).trans hscript)
  rw [List.length_dropLast] at hbefore
  rw [← hlast] at hinOrder
  obtain ⟨calls, hprefix, hcalls⟩ := exists_scripted_of_isPrefix hinOrder
  have hlength : dispatched.length = calls.length := by
    simpa only [List.length_map] using congrArg List.length hcalls
  have hnames := congrArg (List.map Prod.fst) hcalls
  rw [List.map_map, List.map_map] at hnames
  exact ⟨calls, stories,
    { truthful := htells
      handings := hhands.handings
      delivered := forall₂_delivered hcalls hhands.brought
      actions := hhands.actions.trans hnames
      inOrder := hprefix
      earlier := by
        -- Both are the first calls of the script, so it is enough to count them.
        rw [← hbefore] at hearlier
        have hfewer := hearlier.length_le
        rw [length_dispatchable, hlength] at hfewer
        apply List.prefix_of_prefix_length_le (scriptedCalls_isPrefix _ ?_) hprefix hfewer
        exact List.take_prefix_take_left (Nat.sub_le r.journal.replies.length 1)
      whole := by
        intro hending
        apply hprefix.eq_of_length
        rw [← hlength, hwhole hending, ← length_dispatchable, hlast] }⟩

end Session

/-- Scripted arguments survive the trip to the tool.  An object is read back from its text, be it read
as arguments or as a final answer, and whatever blanks stand around it.  A value that is structured
but no object is refused, and for its kind unless its text cannot be read; and `null` stands for the
empty object.  So in a replay, be it interrupted or not, the calls of the script deliver their own
values one after another to gate, budget and executor, each as far as it gets, and nothing else is
handed over. -/
theorem scripted_arguments_arrive :
    (∀ (fields : JsonObject) (before after : String), (Json.obj fields).Plain →
      Text.allBlank before = true → Text.allBlank after = true →
        Arguments.read (before ++ Arguments.write (.obj fields) ++ after) = .ok fields ∧
          Answer.read (before ++ Arguments.write (.obj fields) ++ after) = fields) ∧
      (∀ value : Json, value.Unfit →
        ∃ e, Arguments.read (Arguments.write value) = .error e ∧
          (value.Plain → e.message = "expected a JSON object, got " ++ value.kind)) ∧
      Arguments.read (Arguments.write .null) = .ok [] ∧
      ∀ (s : Session) (config : AppConfig) (epoch : Timestamp) (ids : IdSupply),
        (∃ (calls : List ScriptedCall) (stories : List Journal),
          s.Delivers config epoch none (s.replay config epoch ids) calls stories) ∧
          ∀ cancel : Cancellation, ∃ (calls : List ScriptedCall) (stories : List Journal),
            s.Delivers config epoch cancel (s.interrupted config epoch ids cancel) calls stories := by
  constructor
  · intro fields before after hplain hbefore hafter
    exact ⟨Arguments.read_write_object hplain hbefore hafter,
      Arguments.answer_write_object hplain hbefore hafter⟩
  constructor
  · intro value hunfit
    obtain ⟨e, he⟩ := Arguments.exists_read_write_eq_error hunfit
    refine ⟨e, he, fun hplain => ?_⟩
    have hkind := Except.error.inj (he.symm.trans (Arguments.read_write_of_unfit hunfit hplain))
    rw [hkind]
    rfl
  constructor
  · exact Arguments.read_write_null
  intro s config epoch ids
  refine ⟨?_, s.exists_delivers_interrupted config epoch ids⟩
  rw [← Session.interrupted_none]
  exact s.exists_delivers_interrupted config epoch ids none

/-- The arguments of a call. -/
def osloTomorrow : JsonObject := [("city", .str "Oslo"), ("days", .int 1)]

theorem plain_osloTomorrow : (Json.obj osloTomorrow).Plain := by
  have hsorted : Keyed.Sorted osloTomorrow := by decide
  have hrange : (JsonNumber.int 1).Representable := ⟨by decide, by decide⟩
  exact ⟨⟨hsorted, trivial, hrange, trivial⟩, ⟨trivial, trivial, trivial⟩, by decide⟩

/-- A script in which a tool is called with an object, and then with an array. -/
def forecastSession : Session :=
  { system := "s"
    user := "u"
    caller := none
    autonomy := none
    allowedTools := none
    turns :=
      [⟨"", [⟨"c1", "forecast", .obj osloTomorrow⟩, ⟨"c2", "forecast", .arr [.bool true]⟩], none⟩]
    tools := [("forecast", ⟨"", some "sunny", none, true, 0⟩)] }

/-- The object is read back, the array is refused, and only the object is handed over, up to the
executor. -/
theorem scripted_arguments_arrive_forecast :
    Arguments.read ("\n" ++ Arguments.write (.obj osloTomorrow) ++ " ") = .ok osloTomorrow ∧
      (∃ e, Arguments.read (Arguments.write (.arr [.bool true])) = .error e ∧
        e.message = "expected a JSON object, got an array") ∧
      (forecastSession.replay .default default default).journal.executions.map
        (fun execution => (execution.1, execution.2.1)) = [("forecast", osloTomorrow)] ∧
      Handed none "forecast" osloTomorrow
        (forecastSession.replay .default default default).journal.handings := by
  obtain ⟨hobject, hunfit, -, hsessions⟩ := scripted_arguments_arrive
  have hread := (hobject osloTomorrow "\n" " " plain_osloTomorrow (by decide) (by decide)).1
  have hplain : (Json.arr [.bool true]).Plain := ⟨⟨trivial, trivial⟩, ⟨trivial, trivial⟩, by decide⟩
  obtain ⟨e, he, hkind⟩ := hunfit (.arr [.bool true]) trivial
  refine ⟨hread, ⟨e, he, hkind hplain⟩, by decide +kernel, ?_⟩
  obtain ⟨calls, stories, hdelivers⟩ := (hsessions forecastSession .default default default).1
  have hreplies : (forecastSession.replay .default default default).journal.replies.length = 1 := by
    decide +kernel
  have hcalls : calls = [⟨"c1", "forecast", .obj osloTomorrow⟩,
      ⟨"c2", "forecast", .arr [.bool true]⟩] := by
    rw [hdelivers.whole (by decide +kernel), hreplies]
    rfl
  have hdelivered := hdelivers.delivered
  rw [hcalls] at hdelivered
  obtain ⟨story, rest, hfirst, hrest, hstories⟩ := List.forall₂_cons_left_iff.1 hdelivered
  obtain ⟨last, nothing, hsecond, hnothing, rfl⟩ := List.forall₂_cons_left_iff.1 hrest
  obtain rfl := List.forall₂_nil_left_iff.1 hnothing
  rw [hdelivers.handings, hstories]
  cases hsecond with
  | unfit =>
    simp only [List.flatten_cons, List.flatten_nil, List.append_nil]
    cases hfirst with
    | object hplain hhanded => exact hhanded
    | irregular hplain => exact absurd plain_osloTomorrow hplain
    | unfit hunfit => exact hunfit.elim

end AgentLoop
