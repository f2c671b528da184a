import AgentLoop.Proofs.Replay
import AgentLoop.Proofs.Turns

/-!
# A script is recited in order

A run against a scripted model gets the replies of the script one after another.  At every point of
the run the replies so far, and then those that the script has left, are the replies that it had at
first.

* `Tells.model_eq`: the model only changes when it is asked.
* `recited_of_reaches` is the invariant, and `replies_isPrefix_of_reaches` what it says of the
  replies.
-/

namespace AgentLoop

/-- A reply that a script gives was the first one that it had left. -/
theorem Script.cons_left_next {script : Script} {reply : ModelReply}
    (h : script.next.1 = .ok reply) : reply :: script.next.2.left = script.left := by
  rcases script with ⟨_ | ⟨first, left⟩, served⟩
  · cases h
  · cases h
    rfl

namespace Controller

section

variable {M G B X : Type} {c : Controller M G B X} {w w' : World M G B X} {j : Journal}

/-- The model only changes when it is asked. -/
theorem Tells.model_eq (h : c.Tells w j w') (hasked : j.requests = []) : w'.model = w.model := by
  induction j generalizing w with
  | nil =>
    obtain ⟨now, rfl⟩ := h
    rfl
  | cons e j ih =>
    have hsame : (c.replay w e).model = w.model := by
      unfold replay
      split
      · next request he => simp [Journal.requests, he] at hasked
      all_goals rfl
    rw [← hsame]
    refine ih h.2 ?_
    rw [Journal.requests_eq_pick, Journal.pick_cons, List.append_eq_nil_iff] at hasked
    exact hasked.2

end

variable {G B X : Type} {c : Controller Script G B X} {inv : Invocation}
  {w : World Script G B X} {s : Stand Script G B X} {phase : Phase} {past : Journal}

/-- A stride with which the run goes on takes a reply from the script or leaves the script alone. -/
theorem recited_stride (hmodel : c.model = Script.client)
    (hpending : s.state.transcript.pending = phase.open)
    (hflow : (c.stride inv phase s).1.flow = .goOn) :
    (c.stride inv phase s).2.incoming ++ (c.stride inv phase s).1.stand.world.model.left =
      s.world.model.left := by
  by_cases hturn : phase = .turn
  · subst hturn
    have hasks := c.asks_askModel inv s
    rw [stride] at hflow ⊢
    generalize c.askModel inv s = asked at hasks hflow ⊢
    cases hasks with
    | @replied time reply hbudget hfired hwait hresult =>
      rw [modelAnswer, hmodel] at hresult
      have hnext : reply :: s.world.model.next.2.left = s.world.model.left :=
        Script.cons_left_next hresult
      simp only [heard, modelAnswer, hmodel]
      exact hnext
    | _ => cases hflow
  · have hmodel := (c.tells_stride inv hpending).model_eq
      (c.requests_stride_eq_nil inv hpending hturn)
    rw [c.incoming_stride_eq_nil inv hturn, hmodel]
    rfl

/-- The replies so far are followed by those that the script has left. -/
theorem recited_of_reaches (hmodel : c.model = Script.client) (h : c.Reaches inv w phase past s) :
    past.replies ++ s.world.model.left = w.model.left := by
  induction h with
  | begin hadopt =>
    rw [Journal.replies, c.pick_opening inv Journal.skipsReports_reply?]
    rfl
  | stride hpast hflow ih =>
    rw [replies_of_reaches_stride hpast, List.append_assoc,
      recited_stride hmodel (awaits_of_reaches hpast).pending hflow, ih]

theorem replies_isPrefix_of_reaches (hmodel : c.model = Script.client)
    (h : c.Reaches inv w phase past s) : past.replies <+: w.model.left :=
  ⟨_, recited_of_reaches hmodel h⟩

end Controller

end AgentLoop
