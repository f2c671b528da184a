import AgentLoop.Proofs.RateLimit

/-!
# What a rate decision does not depend on

A call that is denied, or that is for another tool, leaves its mark on a gate all the same: it may
drop expired admissions from a queue, and make a queue where there was none.  No later decision on
a tool can tell.

There are three groups.

* `Policy.CountsAlike` relates two gates that count the same admissions of a tool now and at every
  later time.  It is kept when only one of them is asked about a call that is denied or is for
  another tool (`CountsAlike.of_unheard`), and two gates that count alike decide alike
  (`CountsAlike.verdict`).
* `Thins` says that of the inquiries on record some were dropped, all of them denied or for other
  tools.
* `answersFor_of_thins` is the result: a gate that is only asked what is left gives the same
  answers.
-/

namespace AgentLoop

/-- What a weaker condition drops from the front may be dropped in two steps. -/
theorem dropWhile_dropWhile_of_imp {α : Type} {p q : α → Bool} (h : ∀ a, p a = true → q a = true)
    (l : List α) : (l.dropWhile p).dropWhile q = l.dropWhile q := by
  induction l with
  | nil => rfl
  | cons a l ih =>
    cases hp : p a with
    | true => rw [List.dropWhile_cons_of_pos hp, ih, List.dropWhile_cons_of_pos (h a hp)]
    | false => rw [List.dropWhile_cons_of_neg (by simp [hp])]

namespace Policy

variable {policy : Policy} {tool : String} {now later : Nat} {a b : Admissions} {q : Inquiry}
  {state state' : PolicyState} {qs : List Inquiry}

/-! ## Gates that count alike -/

/-- What has expired at some time may be forgotten then: it is not missed later. -/
theorem inWindow_inWindow (h : now ≤ later) (times : List Nat) :
    policy.inWindow later (policy.inWindow now times) = policy.inWindow later times := by
  refine dropWhile_dropWhile_of_imp (fun time hexpired => ?_) times
  simp only [decide_eq_true_eq] at hexpired ⊢
  omega

/-- From this time on the same admissions of a tool are counted. -/
def CountsAlike (policy : Policy) (tool : String) (now : Nat) (a b : Admissions) : Prop :=
  ∀ later, now ≤ later →
    policy.inWindow later (a.getD tool []) = policy.inWindow later (b.getD tool [])

namespace CountsAlike

theorem refl (policy : Policy) (tool : String) (now : Nat) (a : Admissions) :
    policy.CountsAlike tool now a a :=
  fun _ _ => rfl

theorem symm (h : policy.CountsAlike tool now a b) : policy.CountsAlike tool now b a :=
  fun time htime => (h time htime).symm

theorem mono (h : policy.CountsAlike tool now a b) (hle : now ≤ later) :
    policy.CountsAlike tool later a b :=
  fun time htime => h time (Nat.le_trans hle htime)

/-- A call that is denied, or that is for another tool, makes no difference to what is counted. -/
theorem of_unheard {decision : Option Refusal × Admissions}
    (h : policy.CountsAlike tool q.now a b) (hdecides : policy.Decides a q decision)
    (hunheard : q.tool ≠ tool ∨ decision.1 ≠ none) :
    policy.CountsAlike tool q.now decision.2 b := by
  cases hdecides with
  | refused => exact h
  | unlimited => exact h
  | limited hstatic hlimit hfull =>
    intro time htime
    rw [Keyed.getD_insert]
    split
    · next htool => rw [← htool, recent, inWindow_inWindow htime, htool, h time htime]
    · exact h time htime
  | admitted hstatic hlimit hroom =>
    have htool : q.tool ≠ tool := hunheard.resolve_right fun hdenied => hdenied rfl
    intro time htime
    rw [Keyed.getD_insert, if_neg htool]
    exact h time htime

/-- Gates with the same queue of a tool count it alike. -/
theorem of_insert (times : List Nat) :
    policy.CountsAlike tool now (a.insert tool times) (b.insert tool times) := by
  intro time _
  rw [Keyed.getD_insert, Keyed.getD_insert, if_pos rfl, if_pos rfl]

/-- Gates that count a tool alike decide alike on its calls, and count alike after it. -/
theorem verdict (h : policy.CountsAlike tool now a b) (context : ExecutionContext)
    (autonomy : AutonomyLevel) :
    (policy.verdict a tool context autonomy now).1 =
        (policy.verdict b tool context autonomy now).1 ∧
      policy.CountsAlike tool now (policy.verdict a tool context autonomy now).2
        (policy.verdict b tool context autonomy now).2 := by
  rw [Policy.verdict, Policy.verdict]
  cases policy.staticRefusal? tool context autonomy with
  | some refusal => exact ⟨rfl, h⟩
  | none =>
    simp only [rate]
    cases policy.rateLimits.get? tool with
    | none => exact ⟨rfl, h⟩
    | some limit =>
      simp only [h now (Nat.le_refl now)]
      split <;> exact ⟨rfl, of_insert _⟩

end CountsAlike

/-- The same for answers. -/
theorem answer_of_countsAlike
    (h : policy.CountsAlike q.tool q.now state.admissions state'.admissions) :
    (policy.answer state q).1 = (policy.answer state' q).1 ∧
      policy.CountsAlike q.tool q.now (policy.answer state q).2.admissions
        (policy.answer state' q).2.admissions := by
  obtain ⟨hdecision, hafter⟩ := h.verdict q.context q.autonomy
  rw [admissions_answer, admissions_answer, answer_fst, answer_fst, decision, decision, hdecision]
  exact ⟨rfl, hafter⟩

theorem countsAlike_answer_of_unheard
    (h : policy.CountsAlike tool q.now state.admissions state'.admissions)
    (hunheard : q.tool ≠ tool ∨ (policy.answer state q).1 ≠ .allowed) :
    policy.CountsAlike tool q.now (policy.answer state q).2.admissions state'.admissions := by
  rw [admissions_answer]
  rw [ne_eq (policy.answer state q).1, answer_eq_allowed_iff] at hunheard
  exact h.of_unheard (policy.decides_decision state q) hunheard

/-! ## Records that are thinned out -/

/-- The inquiries about a tool, with the answers to them. -/
def answersFor (tool : String) (entries : List (Inquiry × Authorization)) :
    List (Inquiry × Authorization) :=
  entries.filter fun entry => entry.1.tool = tool

/-- Some entries of a record were dropped, each of which is a denial or is about another tool. -/
inductive Thins (tool : String) :
    List (Inquiry × Authorization) → List (Inquiry × Authorization) → Prop where
  | nil : Thins tool [] []
  | keep {entries kept : List (Inquiry × Authorization)} (entry : Inquiry × Authorization)
      (h : Thins tool entries kept) : Thins tool (entry :: entries) (entry :: kept)
  | drop {entries kept : List (Inquiry × Authorization)} {entry : Inquiry × Authorization}
      (hunheard : entry.1.tool ≠ tool ∨ entry.2 ≠ .allowed) (h : Thins tool entries kept) :
      Thins tool (entry :: entries) kept

/-- Two gates that count a tool alike, of which the second is only asked what is left of the
record of the first. -/
theorem answersFor_record {remaining : List (Inquiry × Authorization)}
    (halike : policy.CountsAlike tool now state.admissions state'.admissions)
    (hclock : (now :: qs.map Inquiry.now).Pairwise (· ≤ ·))
    (h : Thins tool (policy.record state qs) remaining) :
    answersFor tool (policy.record state' (remaining.map Prod.fst)) =
      answersFor tool remaining := by
  induction qs generalizing now state state' remaining with
  | nil =>
    cases h
    rfl
  | cons q qs ih =>
    obtain ⟨hnow, hlater⟩ := List.pairwise_cons.1 hclock
    have halike := halike.mono (hnow q.now List.mem_cons_self)
    cases h with
    | drop hunheard h => exact ih (countsAlike_answer_of_unheard halike hunheard) hlater h
    | keep entry h =>
      rw [List.map_cons, record, answersFor, List.filter_cons, answersFor, List.filter_cons]
      by_cases htool : q.tool = tool
      · subst htool
        obtain ⟨hanswer, halike⟩ := answer_of_countsAlike halike
        simp only [decide_true, if_true, hanswer]
        exact congrArg _ (ih halike hlater h)
      · -- The gates may answer this call differently, but it is not about the tool.
        have halike := countsAlike_answer_of_unheard halike (.inl htool)
        have halike := (countsAlike_answer_of_unheard halike.symm (.inl htool)).symm
        simp only [htool, decide_false, Bool.false_eq_true, if_false]
        exact ih halike hlater h

/-- Denied calls and calls for other tools never matter to a decision on a tool.  If some of them
are dropped from calls in the order of time, the answers to the remaining calls for the tool, with
the reasons of denials, stay the same. -/
theorem answersFor_of_thins {config : GovernanceConfig} {tool : String} {calls : List Inquiry}
    (hclock : (calls.map Inquiry.now).Pairwise (· ≤ ·))
    {remaining : List (Inquiry × Authorization)}
    (h : Thins tool ((ofConfig config).record .empty calls) remaining) :
    answersFor tool ((ofConfig config).record .empty (remaining.map Prod.fst)) =
      answersFor tool remaining :=
  answersFor_record (.refl _ tool 0 _) (List.pairwise_cons.2 ⟨by simp, hclock⟩) h

/-- Calls of a tool that may be called once a second, some of which are denied for the limit or for
their autonomy, and a call of a tool that is blocked. -/
def busySecond : List Inquiry :=
  [weatherAt 0, { weatherAt 10 with tool := "shell" }, weatherAt 999,
    { weatherAt 1000 with autonomy := .readOnly }, weatherAt 1000, weatherAt 1500]

/-- Without the calls that did not count, the second call is still allowed and the third one still
denied for the limit. -/
theorem answersFor_of_thins_busySecond :
    answersFor "weather" ((ofConfig oncePerSecond).record .empty
        [weatherAt 0, weatherAt 1000, weatherAt 1500]) =
      [(weatherAt 0, .allowed), (weatherAt 1000, .allowed),
        (weatherAt 1500, .denied ((Refusal.rateLimited 1 1).message "weather"))] := by
  have hthins : Thins "weather" ((ofConfig oncePerSecond).record .empty busySecond)
      [(weatherAt 0, .allowed), (weatherAt 1000, .allowed),
        (weatherAt 1500, .denied ((Refusal.rateLimited 1 1).message "weather"))] :=
    .keep _ (.drop (.inl (by decide)) (.drop (.inr (by decide)) (.drop (.inr (by decide))
      (.keep _ (.keep _ .nil)))))
  exact answersFor_of_thins (show (busySecond.map Inquiry.now).Pairwise (· ≤ ·) by decide) hthins

end Policy

end AgentLoop
