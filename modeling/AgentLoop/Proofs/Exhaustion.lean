import AgentLoop.Command.Replay
import AgentLoop.Proofs.Loading
import AgentLoop.Proofs.Nesting
import AgentLoop.Proofs.Recital
import Mathlib.Data.List.Forall2

/-!
# When a script runs dry

A scripted model answers at once.  So in a replay every question to the model is followed by the next
reply of the script, and when the script has none left the replay fails.  A run asks once in a turn;
so a script with as many turns as the run may have does not run dry.

* `Journal.talk` is what passes between a run and its model, and `turnByTurn` a talk in which every
  question is followed by a reply.
* `Script.rest` has the error that a script gives in the end.  No step changes it
  (`runsDryWith_stride`).
* `talk_stride` says what one step adds to the talk, `talk_of_reaches` and `talk_of_ends` what a run
  has said before a step and in the end.
* `Session.Recited` is what a replay has of its script, and `replay_recites_script` says that every
  replay has it, even if it is interrupted.
-/

namespace AgentLoop

/-! ## Talks -/

/-- A question to the model, or a reply of it. -/
inductive Utterance where
  | question
  | reply (reply : ModelReply)
  deriving DecidableEq, Repr

/-- A talk in which every question is followed by a reply. -/
def turnByTurn (replies : List ModelReply) : List Utterance :=
  replies.flatMap fun reply => [.question, .reply reply]

theorem turnByTurn_append (replies more : List ModelReply) :
    turnByTurn (replies ++ more) = turnByTurn replies ++ turnByTurn more :=
  List.flatMap_append

namespace Journal

/-- The question or the reply that an event is. -/
def utterance? : Event → Option Utterance
  | .asked _ => some .question
  | .replied reply _ => some (.reply reply)
  | _ => none

/-- What passes between a run and its model. -/
def talk (j : Journal) : List Utterance := j.pick utterance?

theorem talk_append (j k : Journal) : (j ++ k).talk = j.talk ++ k.talk :=
  pick_append j k

theorem skipsReports_utterance? : SkipsReports utterance? :=
  ⟨fun _ => rfl, fun _ => rfl, fun _ => rfl, fun _ => rfl⟩

theorem talk_eq_nil {j : Journal} (hrequests : j.requests = []) (hreplies : j.replies = []) :
    j.talk = [] := by
  rw [requests_eq_pick, pick, List.filterMap_eq_nil_iff] at hrequests
  rw [replies, pick, List.filterMap_eq_nil_iff] at hreplies
  rw [talk, pick, List.filterMap_eq_nil_iff]
  intro e he
  have hrequest := hrequests e he
  have hreply := hreplies e he
  cases hevent : e.event with
  | asked request => simp [hevent, request?] at hrequest
  | replied reply took => simp [hevent, reply?] at hreply
  | _ => rfl

end Journal

/-! ## Scripts -/

/-- A script keeps the error that it gives in the end. -/
theorem Script.rest_next (script : Script) : script.next.2.rest.2 = script.rest.2 := by
  rcases script with ⟨_ | ⟨first, left⟩, served⟩
  · rfl
  · simp only [next, rest, List.length_cons]
    rw [Nat.add_right_comm, Nat.add_assoc]

/-- A script fails when it has no reply left, and with the error that it gives from then on. -/
theorem Script.next_eq_error {script : Script} {error : ModelError}
    (h : script.next.1 = .error error) : script.left = [] ∧ error = script.rest.2 := by
  rcases script with ⟨_ | ⟨first, left⟩, served⟩
  · cases h
    exact ⟨rfl, rfl⟩
  · cases h

namespace Controller

variable {G B X : Type} {c : Controller Script G B X} {inv : Invocation}
  {w : World Script G B X} {s : Stand Script G B X} {phase : Phase} {past journal : Journal}
  {flow : Flow}

/-! ## Runs of a script -/

/-- A scripted model answers at once. -/
theorem modelWait_client (hmodel : c.model = Script.client)
    (hfired : inv.cancel.fired (c.asking s).world.now = false) :
    c.modelWait inv s = .done (c.asking s).world.now := by
  rw [modelWait, modelAnswer, hmodel]
  exact await_at_once hfired none

/-- A stride keeps the error that the script gives in the end. -/
theorem runsDryWith_stride (hmodel : c.model = Script.client)
    (hpending : s.state.transcript.pending = phase.open) :
    (c.stride inv phase s).1.stand.world.model.rest.2 = s.world.model.rest.2 := by
  by_cases hturn : phase = .turn
  · subst hturn
    have hasks := c.asks_askModel inv s
    have hheard : ∀ time, (c.heard inv s time).world.model.rest.2 = s.world.model.rest.2 := by
      intro time
      simp only [heard, modelAnswer, hmodel]
      exact Script.rest_next _
    rw [stride]
    generalize c.askModel inv s = asked at hasks ⊢
    cases hasks with
    | blocked | withdrawn => rfl
    | cancelled | stalled | failed | replied => exact hheard _
  · rw [(c.tells_stride inv hpending).model_eq (c.requests_stride_eq_nil inv hpending hturn)]

/-- A stride asks nothing, or it asks and gets the reply that comes next, and the model does not
fail; or the script has run dry, and the run fails with it. -/
theorem talk_stride (hmodel : c.model = Script.client)
    (hpending : s.state.transcript.pending = phase.open) :
    ((c.stride inv phase s).1.journal.talk = turnByTurn (c.stride inv phase s).2.incoming ∧
        ∀ error, (c.stride inv phase s).1.flow ≠ .failed (.model error)) ∨
      phase = .turn ∧ (c.stride inv phase s).1.journal.talk = [.question] ∧
        s.world.model.left = [] ∧
        (c.stride inv phase s).1.flow = .failed (.model s.world.model.rest.2) := by
  by_cases hturn : phase = .turn
  · subst hturn
    have hasks := c.asks_askModel inv s
    have hdone : inv.cancel.fired (c.asking s).world.now = false →
        c.modelWait inv s = .done (c.asking s).world.now :=
      modelWait_client hmodel
    rw [stride]
    generalize c.askModel inv s = asked at hasks ⊢
    cases hasks with
    | blocked | withdrawn => exact .inl ⟨rfl, by simp⟩
    | cancelled hbudget hfired hwait | stalled hbudget hfired hwait =>
      cases (hdone hfired).symm.trans hwait
    | @failed time error hbudget hfired hwait hresult =>
      rw [modelAnswer, hmodel] at hresult
      obtain ⟨hleft, rfl⟩ := Script.next_eq_error hresult
      exact .inr ⟨rfl, rfl, hleft, rfl⟩
    | replied => exact .inl ⟨rfl, by simp⟩
  · refine .inl ⟨?_, fun error hflow => hturn (c.eq_turn_of_model_failed inv hpending hflow)⟩
    have hincoming : (c.stride inv phase s).2.incoming = [] := c.incoming_stride_eq_nil inv hturn
    have hreplies := (c.replies_stride inv hpending).trans hincoming
    rw [hincoming, Journal.talk_eq_nil (c.requests_stride_eq_nil inv hpending hturn) hreplies]
    rfl

theorem runsDryWith_of_reaches (hmodel : c.model = Script.client)
    (h : c.Reaches inv w phase past s) : s.world.model.rest.2 = w.model.rest.2 := by
  induction h with
  | begin hadopt => rfl
  | stride hpast hflow ih =>
    rw [runsDryWith_stride hmodel (awaits_of_reaches hpast).pending, ih]

/-- Up to here every question was followed by a reply. -/
theorem talk_of_reaches (hmodel : c.model = Script.client) (h : c.Reaches inv w phase past s) :
    past.talk = turnByTurn past.replies := by
  induction h with
  | begin hadopt =>
    rw [Journal.talk, Journal.replies, c.pick_opening inv Journal.skipsReports_utterance?,
      c.pick_opening inv Journal.skipsReports_reply?]
    rfl
  | stride hpast hflow ih =>
    rcases talk_stride hmodel (awaits_of_reaches hpast).pending with
      ⟨htalk, -⟩ | ⟨-, -, -, hfailed⟩
    · rw [Journal.talk_append, ih, htalk, replies_of_reaches_stride hpast, turnByTurn_append]
    · cases hflow.symm.trans hfailed

/-- When a script has run dry, the run may have one more turn than there were replies. -/
theorem length_lt_turnLimit_of_reaches (hmodel : c.model = Script.client)
    (h : c.Reaches inv w .turn past s) (hleft : s.world.model.left = []) :
    past.replies = w.model.left ∧ w.model.left.length < c.turnLimit := by
  have hall := recited_of_reaches hmodel h
  rw [hleft, List.append_nil] at hall
  have hturns := (iterations_of_reaches h).2
  rw [← length_replies_of_reaches h, hall] at hturns
  exact ⟨hall, hturns⟩

/-- In the end every question was followed by a reply, and the model has not failed; or the replies
were all given, and the run asked once more. -/
theorem talk_of_ends (hmodel : c.model = Script.client) (h : c.Ends inv w journal s flow) :
    (journal.talk = turnByTurn journal.replies ∧ journal.replies <+: w.model.left ∧
        ∀ error, flow ≠ .failed (.model error)) ∨
      journal.talk = turnByTurn journal.replies ++ [.question] ∧ journal.replies = w.model.left ∧
        w.model.left.length < c.turnLimit ∧ flow = .failed (.model w.model.rest.2) := by
  obtain @⟨phase, past, s, hpast, hflow⟩ := h
  have hincoming := c.incoming_of_ne_goOn inv hflow
  rw [Journal.talk_append, talk_of_reaches hmodel hpast, replies_of_reaches_stride hpast, hincoming,
    List.append_nil]
  rcases talk_stride hmodel (awaits_of_reaches hpast).pending with
    ⟨htalk, hanswered⟩ | ⟨rfl, htalk, hleft, hfailed⟩
  · left
    rw [htalk, hincoming]
    exact ⟨List.append_nil _, replies_isPrefix_of_reaches hmodel hpast, hanswered⟩
  · right
    obtain ⟨hall, hlimit⟩ := length_lt_turnLimit_of_reaches hmodel hpast hleft
    rw [htalk, hfailed, runsDryWith_of_reaches hmodel hpast]
    exact ⟨rfl, hall, hlimit, rfl⟩

/-- A run gets its replies from the script, one for each question, and it fails in the model only
when the script has run dry. -/
theorem talk_run (inv : Invocation) (w : World Script G B X) (hmodel : c.model = Script.client) :
    ((c.run inv w).journal.talk = turnByTurn (c.run inv w).journal.replies ∧
        (c.run inv w).journal.replies <+: w.model.left ∧
        ∀ error, (c.run inv w).ending ≠ .failed (.model error)) ∨
      (c.run inv w).journal.talk = turnByTurn (c.run inv w).journal.replies ++ [.question] ∧
        (c.run inv w).journal.replies = w.model.left ∧ w.model.left.length < c.turnLimit ∧
        (c.run inv w).ending = .failed (.model w.model.rest.2) := by
  rcases c.run_cases inv w with ⟨error, -, hrun⟩ | ⟨journal, s, flow, hends, hrun⟩
  · rw [hrun]
    exact .inl ⟨rfl, List.nil_prefix, by simp⟩
  · rw [hrun, Journal.talk, Journal.replies, pick_reportOf inv Journal.skipsReports_utterance?,
      pick_reportOf inv Journal.skipsReports_reply?]
    rcases talk_of_ends hmodel hends with
      ⟨htalk, hreplies, hanswered⟩ | ⟨htalk, hreplies, hlimit, rfl⟩
    · exact .inl ⟨htalk, hreplies, fun error hfailed =>
        hanswered error (flow_eq_of_model_failed hfailed)⟩
    · exact .inr ⟨htalk, hreplies, hlimit, rfl⟩

end Controller

/-! ## Replays -/

/-- A reply says what a scripted turn says.  Its usage has a total that stays at the largest count of
32 bits. -/
structure ModelReply.Recites (reply : ModelReply) (turn : ScriptedTurn) : Prop where
  content : reply.content = turn.content
  calls : List.Forall₂
    (fun (call : ToolCall) (scripted : ScriptedCall) =>
      call = ⟨scripted.id, scripted.name, Arguments.write scripted.arguments⟩)
    reply.toolCalls turn.calls
  usage : reply.usage = turn.usage.map fun u =>
    ⟨u.promptTokens, u.completionTokens, min (u.promptTokens + u.completionTokens) 0xffffffff⟩
  finishReason : reply.finishReason = .stop
  model : reply.model = "replay"

theorem ScriptedTurn.recites_toReply (turn : ScriptedTurn) : turn.toReply.Recites turn where
  content := rfl
  calls := List.forall₂_map_left_iff.2 (List.forall₂_same.2 fun _ _ => rfl)
  usage := rfl
  finishReason := rfl
  model := rfl

namespace Session

/-- A replay that is interrupted, if it lasts until then. -/
def interrupted (s : Session) (config : AppConfig) (epoch : Timestamp) (ids : IdSupply)
    (cancel : Cancellation) : RunReport Script PolicyState Spent Unit :=
  (s.controller config epoch).run { s.invocation epoch ids with cancel } s.world

/-- What a run that may have so many turns has of its script. -/
structure Recited (s : Session) (limit : Nat) (r : RunReport Script PolicyState Spent Unit) :
    Prop where
  /-- The replies are the first turns of the script, in order. -/
  inOrder : List.Forall₂ ModelReply.Recites r.journal.replies
    (s.turns.take r.journal.replies.length)
  /-- There is one reply to every question, if the script does not run dry. -/
  answered : (∀ k, r.ending ≠ .failed (.model (.exhausted k))) →
    r.journal.talk = turnByTurn r.journal.replies
  /-- It runs dry when all turns were given, and the run asks once more. -/
  exhausted : ∀ k, r.ending = .failed (.model (.exhausted k)) →
    k = s.turns.length ∧ r.journal.replies.length = s.turns.length ∧
      r.journal.talk = turnByTurn r.journal.replies ++ [.question]
  /-- It does not run dry if it has as many turns as the run may have. -/
  enough : limit ≤ s.turns.length → ∀ k, r.ending ≠ .failed (.model (.exhausted k))

/-- Replies that come from the script in order are its first turns. -/
theorem map_toReply_take {s : Session} {replies : List ModelReply} (h : replies <+: s.replies) :
    (s.turns.take replies.length).map ScriptedTurn.toReply = replies := by
  rw [List.map_take]
  exact (List.prefix_iff_eq_take.1 h).symm

theorem recites_of_isPrefix {s : Session} {replies : List ModelReply} (h : replies <+: s.replies) :
    List.Forall₂ ModelReply.Recites replies (s.turns.take replies.length) := by
  have hrecites : List.Forall₂ ModelReply.Recites
      ((s.turns.take replies.length).map ScriptedTurn.toReply) (s.turns.take replies.length) :=
    List.forall₂_map_left_iff.2 (List.forall₂_same.2 fun turn _ => turn.recites_toReply)
  rwa [map_toReply_take h] at hrecites

theorem interrupted_none (s : Session) (config : AppConfig) (epoch : Timestamp) (ids : IdSupply) :
    s.interrupted config epoch ids none = s.replay config epoch ids :=
  rfl

theorem recited_interrupted (s : Session) {config : AppConfig} (hvalid : config.Valid)
    (epoch : Timestamp) (ids : IdSupply) (cancel : Cancellation) :
    s.Recited config.agentLoop.maxIterations (s.interrupted config epoch ids cancel) := by
  have hlimit : (s.controller config epoch).turnLimit = config.agentLoop.maxIterations :=
    Nat.max_eq_right hvalid.maxIterations
  have hlength : s.world.model.left.length = s.turns.length := List.length_map _
  have hrest : s.world.model.rest.2 = .exhausted s.turns.length := by
    rw [Script.rest, hlength]
    exact congrArg ModelError.exhausted (Nat.zero_add _)
  rcases Controller.talk_run (c := s.controller config epoch)
    { s.invocation epoch ids with cancel } s.world rfl with
    ⟨htalk, hreplies, hanswered⟩ | ⟨htalk, hreplies, hturns, hfailed⟩
  · exact
      { inOrder := recites_of_isPrefix hreplies
        answered := fun _ => htalk
        exhausted := fun k hk => absurd hk (hanswered _)
        enough := fun _ k => hanswered _ }
  · rw [hrest] at hfailed
    rw [hlimit, hlength] at hturns
    exact
      { inOrder := recites_of_isPrefix (hreplies ▸ List.prefix_refl _)
        answered := fun hnot => absurd hfailed (hnot _)
        exhausted := by
          intro k hk
          cases hfailed.symm.trans hk
          exact ⟨rfl, (congrArg List.length hreplies).trans hlength, htalk⟩
        enough := fun henough => absurd hturns (Nat.not_lt.2 henough) }

/-- A replay recites its script, be it interrupted or not.  Every question to the model is followed
by the next turn of the script; a replay for which the script runs dry has been given all turns, and
asked once more; and a script with as many turns as the run may have does not run dry. -/
theorem replay_recites_script (s : Session) {config merged : AppConfig} {options : ReplayOptions}
    (hmerged : config.withOptions options = .ok merged) (epoch : Timestamp) (ids : IdSupply) :
    s.Recited merged.agentLoop.maxIterations (s.replay merged epoch ids) ∧
      ∀ cancel : Cancellation,
        s.Recited merged.agentLoop.maxIterations (s.interrupted merged epoch ids cancel) := by
  obtain ⟨hvalid, rfl⟩ := AppConfig.checked_eq_ok_iff.1 hmerged
  refine ⟨?_, s.recited_interrupted hvalid epoch ids⟩
  rw [← interrupted_none]
  exact s.recited_interrupted hvalid epoch ids none

/-- A script of one turn, which calls the weather and has used a great many tokens. -/
def weatherSession : Session :=
  { system := "s"
    user := "u"
    caller := none
    autonomy := none
    allowedTools := none
    turns := [⟨"", [⟨"c1", "weather", .obj [("city", .str "Oslo")]⟩], some ⟨4294967290, 10⟩⟩]
    tools := [("weather", ⟨"", some "sunny", none, true, 0⟩)] }

/-- The default configuration with so many turns. -/
def weatherConfig (turns : Nat) : AppConfig :=
  { AppConfig.default with agentLoop := { LoopConfig.default with maxIterations := turns } }

/-- The script runs dry in the second turn of a run, but not in a run of one turn. -/
theorem replay_recites_script_weather :
    AppConfig.default.withOptions ⟨false, some 2⟩ = .ok (weatherConfig 2) ∧
      (weatherSession.replay (weatherConfig 2) default default).ending =
        .failed (.model (.exhausted 1)) ∧
      (weatherSession.replay (weatherConfig 2) default default).journal.talk =
        [.question, .reply ⟨"", [⟨"c1", "weather", "\x7b\"city\":\"Oslo\"\x7d"⟩], .stop,
          some ⟨4294967290, 10, 4294967295⟩, "replay"⟩, .question] ∧
      weatherSession.Recited 2
        (weatherSession.replay (weatherConfig 2) default default) ∧
      AppConfig.default.withOptions ⟨false, some 1⟩ = .ok (weatherConfig 1) ∧
      ∀ k, (weatherSession.replay (weatherConfig 1) default default).ending ≠
        .failed (.model (.exhausted k)) := by
  have htwo : AppConfig.default.withOptions ⟨false, some 2⟩ = .ok (weatherConfig 2) := by
    decide +kernel
  have hone : AppConfig.default.withOptions ⟨false, some 1⟩ = .ok (weatherConfig 1) := by
    decide +kernel
  have hdry := (weatherSession.replay_recites_script htwo default default).1
  have henough := (weatherSession.replay_recites_script hone default default).1.enough
  exact ⟨htwo, by decide +kernel, by decide +kernel, hdry, hone, henough (Nat.le_refl 1)⟩

end Session

end AgentLoop
