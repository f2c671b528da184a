import AgentLoop.Proofs.Policy
import Mathlib.Data.List.Induction

/-!
# Rate limits

A tool with a limit may be called only so many times within a window that slides with the clock.
The gate keeps a queue for each such tool and drops from its front what has left the window, but
only when it is asked about the tool again.  What it answers is the same as if it remembered every
call that it ever allowed.

There are three groups.

* `within` are the times of a list that a window still holds.
* `Policy.Remembers` is the invariant: of the times at which calls of a tool were allowed, the gate
  has forgotten only such as have left the window.  `Remembers.decides` is one answer and
  `remembers_after` many of them.
* `length_betweenFrom_le` bounds the calls that are allowed in any interval as long as the window,
  and `rate_limit_slides` is the result.
-/

namespace AgentLoop

/-- If a predicate holds of everything that comes before something that it holds of, then what it
holds of is dropped from the front. -/
theorem dropWhile_eq_filter_of_pairwise {α : Type} {p : α → Bool} {l : List α}
    (h : l.Pairwise fun a b => p b = true → p a = true) :
    l.dropWhile p = l.filter fun a => !p a := by
  induction l with
  | nil => rfl
  | cons a l ih =>
    obtain ⟨hhead, htail⟩ := List.pairwise_cons.1 h
    cases hp : p a with
    | true => rw [List.dropWhile_cons_of_pos hp, List.filter_cons_of_neg (by simp [hp]), ih htail]
    | false =>
      have hrest : ∀ b ∈ l, p b = false := by
        intro b hb
        cases hpb : p b with
        | true => exact absurd (hhead b hb hpb) (by simp [hp])
        | false => rfl
      rw [List.dropWhile_cons_of_neg (by simp [hp]), List.filter_cons_of_pos (by simp [hp]),
        List.filter_eq_self.2]
      intro b hb
      rw [hrest b hb]
      rfl

/-! ## Times within a window -/

/-- The times that a window of this length holds when it ends with the time `now`, which it
includes. -/
def within (window now : Nat) (times : List Nat) : List Nat :=
  times.filter fun t => now < t + window ∧ t ≤ now

/-- The times of an interval of this length that includes its start. -/
def betweenFrom (start length : Nat) (times : List Nat) : List Nat :=
  times.filter fun t => start ≤ t ∧ t < start + length

theorem within_append (window now : Nat) (times later : List Nat) :
    within window now (times ++ later) = within window now times ++ within window now later :=
  List.filter_append _ _

theorem betweenFrom_append (start length : Nat) (times later : List Nat) :
    betweenFrom start length (times ++ later) =
      betweenFrom start length times ++ betweenFrom start length later :=
  List.filter_append _ _

/-- An interval that reaches beyond the time `now` is covered, up to `now`, by the window that ends
there. -/
theorem length_betweenFrom_le_within {window start now : Nat} {times : List Nat}
    (hpast : ∀ t ∈ times, t ≤ now) (hreaches : now < start + window) :
    (betweenFrom start window times).length ≤ (within window now times).length := by
  rw [betweenFrom, within, ← List.countP_eq_length_filter, ← List.countP_eq_length_filter]
  refine List.countP_mono_left fun t ht hbetween => ?_
  have := hpast t ht
  simp only [decide_eq_true_eq] at hbetween ⊢
  omega

theorem within_eq_nil {window now : Nat} {times : List Nat}
    (h : ∀ t ∈ times, t + window ≤ now) : within window now times = [] := by
  rw [within, List.filter_eq_nil_iff]
  intro t ht
  have := h t ht
  simp only [decide_eq_true_eq]
  omega

namespace Policy

variable {policy : Policy} {admissions admissions' : Admissions} {tool : String} {limit now : Nat}
  {times : List Nat} {q : Inquiry} {qs : List Inquiry}

/-- Of times in order, none of them later than now, those inside the window are left. -/
theorem inWindow_eq_within (hsorted : times.Pairwise (· ≤ ·)) (hpast : ∀ t ∈ times, t ≤ now) :
    policy.inWindow now times = within policy.window now times := by
  rw [inWindow, dropWhile_eq_filter_of_pairwise, within]
  · refine List.filter_congr fun t ht => ?_
    have := hpast t ht
    rw [Bool.eq_iff_iff]
    simp only [Bool.not_eq_true', decide_eq_false_iff_not, decide_eq_true_eq]
    omega
  · refine hsorted.imp fun {a b} hab => ?_
    simp only [decide_eq_true_eq]
    omega

/-! ## What a gate remembers -/

/-- The queue of a tool holds these times, but for some that had left the window by the time
`now`. -/
def Remembers (policy : Policy) (admissions : Admissions) (tool : String) (times : List Nat)
    (now : Nat) : Prop :=
  ∃ expired, times = expired ++ admissions.getD tool [] ∧ ∀ t ∈ expired, t + policy.window ≤ now

theorem Remembers.mono {later : Nat} (h : policy.Remembers admissions tool times now)
    (hle : now ≤ later) : policy.Remembers admissions tool times later := by
  obtain ⟨expired, htimes, hexpired⟩ := h
  exact ⟨expired, htimes, fun t ht => Nat.le_trans (hexpired t ht) hle⟩

/-- The times that a gate counts are those inside the window. -/
theorem Remembers.inWindow_eq (h : policy.Remembers admissions tool times now)
    (hsorted : times.Pairwise (· ≤ ·)) (hpast : ∀ t ∈ times, t ≤ now) :
    policy.inWindow now (admissions.getD tool []) = within policy.window now times := by
  obtain ⟨expired, rfl, hexpired⟩ := h
  rw [within_append, within_eq_nil hexpired, List.nil_append]
  exact inWindow_eq_within (List.pairwise_append.1 hsorted).2.1
    fun t ht => hpast t (List.mem_append_right _ ht)

/-- What is dropped from the front of the queue has left the window. -/
theorem Remembers.drop (h : policy.Remembers admissions tool times now)
    (hpast : ∀ t ∈ times, t ≤ now) :
    ∃ expired, times = expired ++ policy.inWindow now (admissions.getD tool []) ∧
      ∀ t ∈ expired, t + policy.window ≤ now := by
  obtain ⟨expired, rfl, hexpired⟩ := h
  refine ⟨expired ++ (admissions.getD tool []).takeWhile fun t => policy.window ≤ now - t, ?_, ?_⟩
  · rw [List.append_assoc, inWindow, List.takeWhile_append_dropWhile]
  · intro t ht
    rcases List.mem_append.1 ht with ht | ht
    · exact hexpired t ht
    · have hold := List.all_eq_true.1 List.all_takeWhile t ht
      have hle := hpast t (List.mem_append_right _ ((List.takeWhile_sublist _).mem ht))
      simp only [decide_eq_true_eq] at hold
      omega

/-- A gate that decides on a call forgets nothing that is inside the window, and remembers the call
if it allows it. -/
theorem Remembers.decides {decision : Option Refusal × Admissions}
    (h : policy.Remembers admissions tool times q.now) (hpast : ∀ t ∈ times, t ≤ q.now)
    (hlimit : policy.rateLimits.get? tool = some limit)
    (hdecides : policy.Decides admissions q decision) :
    policy.Remembers decision.2 tool
      (times ++ if q.tool = tool ∧ decision.1 = none then [q.now] else []) q.now := by
  cases hdecides with
  | refused hstatic => simpa using h
  | unlimited hstatic hunlimited =>
    have hne : q.tool ≠ tool := fun e => by simp [e, hlimit] at hunlimited
    simpa [hne] using h
  | limited hstatic hlimited hfull =>
    obtain ⟨expired, htimes, hexpired⟩ := h.drop hpast
    by_cases htool : q.tool = tool
    · exact ⟨expired, by simpa [htool, recent] using htimes, hexpired⟩
    · simpa [Remembers, htool] using h
  | admitted hstatic hlimited hroom =>
    obtain ⟨expired, htimes, hexpired⟩ := h.drop hpast
    by_cases htool : q.tool = tool
    · refine ⟨expired, ?_, hexpired⟩
      simp only [htool, and_self, if_true, Keyed.getD_insert, recent]
      rw [← List.append_assoc, ← htimes]
    · simpa [Remembers, htool] using h

/-- After calls in the order of time a gate remembers when calls of a tool with a limit were
allowed. -/
theorem remembers_after (hlimit : policy.rateLimits.get? tool = some limit)
    (hclock : (qs.map Inquiry.now).Pairwise (· ≤ ·)) (hpast : ∀ t ∈ qs.map Inquiry.now, t ≤ now) :
    policy.Remembers (policy.after .empty qs).admissions tool
      (allowedTimes tool (policy.record .empty qs)) now := by
  induction qs using List.reverseRecOn generalizing now with
  | nil => exact ⟨[], rfl, by simp⟩
  | append_singleton qs q ih =>
    rw [List.map_append, List.pairwise_append] at hclock
    obtain ⟨hbefore, -, hlast⟩ := hclock
    have hpastq : ∀ t ∈ qs.map Inquiry.now, t ≤ q.now := fun t ht => hlast t ht q.now (by simp)
    have hremembers := ih hbefore hpastq
    have hallowed : ∀ t ∈ allowedTimes tool (policy.record .empty qs), t ≤ q.now :=
      fun t ht => hpastq t ((allowedTimes_sublist policy tool .empty qs).mem ht)
    have hnext := hremembers.decides hallowed hlimit
      (policy.decides_decision (policy.after .empty qs) q)
    rw [← admissions_answer, ← after_concat] at hnext
    simp only [← answer_eq_allowed_iff, ← allowedTimes_record_concat] at hnext
    exact hnext.mono (hpast q.now (by simp))

/-- The calls that a gate counts are those that it allowed within the window. -/
theorem recent_eq_within (hlimit : policy.rateLimits.get? q.tool = some limit)
    (hclock : ((qs ++ [q]).map Inquiry.now).Pairwise (· ≤ ·)) :
    policy.recent (policy.after .empty qs).admissions q =
      within policy.window q.now (allowedTimes q.tool (policy.record .empty qs)) := by
  rw [List.map_append, List.pairwise_append] at hclock
  obtain ⟨hbefore, -, hlast⟩ := hclock
  have hpast : ∀ t ∈ qs.map Inquiry.now, t ≤ q.now := fun t ht => hlast t ht q.now (by simp)
  have hsublist := allowedTimes_sublist policy q.tool .empty qs
  exact (remembers_after hlimit hbefore hpast).inWindow_eq (hbefore.sublist hsublist)
    fun t ht => hpast t (hsublist.mem ht)

/-- A call of a tool with a limit is allowed if no other rule is against it and there is room for it
in the window. -/
theorem decision_eq_none_iff (hlimit : policy.rateLimits.get? q.tool = some limit)
    (hclock : ((qs ++ [q]).map Inquiry.now).Pairwise (· ≤ ·)) :
    (policy.decision (policy.after .empty qs) q).1 = none ↔
      policy.staticRefusal? q.tool q.context q.autonomy = none ∧
        (within policy.window q.now
          (allowedTimes q.tool (policy.record .empty qs))).length < limit := by
  rw [← recent_eq_within hlimit hclock]
  have hdecides := policy.decides_decision (policy.after .empty qs) q
  generalize policy.decision (policy.after .empty qs) q = decided at hdecides ⊢
  cases hdecides with
  | refused hstatic => simp [hstatic]
  | unlimited hstatic hunlimited => simp [hlimit] at hunlimited
  | limited hstatic hlimited hfull =>
    cases hlimit.symm.trans hlimited
    simpa [hstatic] using hfull
  | admitted hstatic hlimited hroom =>
    cases hlimit.symm.trans hlimited
    simpa [hstatic] using hroom

/-! ## Intervals as long as the window -/

/-- Calls that are allowed within an interval as long as the window are no more than the limit. -/
theorem length_betweenFrom_le (hlimit : policy.rateLimits.get? tool = some limit)
    (hclock : (qs.map Inquiry.now).Pairwise (· ≤ ·)) (start : Nat) :
    (betweenFrom start policy.window
      (allowedTimes tool (policy.record .empty qs))).length ≤ limit := by
  induction qs using List.reverseRecOn with
  | nil => exact Nat.zero_le _
  | append_singleton qs q ih =>
    have hall := hclock
    rw [List.map_append, List.pairwise_append] at hclock
    obtain ⟨hbefore, -, hlast⟩ := hclock
    rw [allowedTimes_record_concat, betweenFrom_append, List.length_append]
    split
    · next hallowed =>
      obtain ⟨rfl, hallowed⟩ := hallowed
      by_cases hinside : start ≤ q.now ∧ q.now < start + policy.window
      · -- The interval ends within the window of the last call, which had room for it.
        have hroom := ((decision_eq_none_iff hlimit hall).1 (answer_eq_allowed_iff.1 hallowed)).2
        have hpast : ∀ t ∈ allowedTimes q.tool (policy.record .empty qs), t ≤ q.now := fun t ht =>
          hlast t ((allowedTimes_sublist policy q.tool .empty qs).mem ht) q.now (by simp)
        have hle := length_betweenFrom_le_within hpast hinside.2
        have hone : (betweenFrom start policy.window [q.now]).length ≤ 1 :=
          List.length_filter_le _ _
        omega
      · have hnone : betweenFrom start policy.window [q.now] = [] := by simp [betweenFrom, hinside]
        rw [hnone]
        exact ih hbefore
    · simpa [betweenFrom] using ih hbefore

/-- A window that ends at any time holds no more calls that were allowed than the limit. -/
theorem length_within_le (hlimit : policy.rateLimits.get? tool = some limit)
    (hclock : (qs.map Inquiry.now).Pairwise (· ≤ ·)) (now : Nat) :
    (within policy.window now (allowedTimes tool (policy.record .empty qs))).length ≤ limit := by
  refine Nat.le_trans ?_ (length_betweenFrom_le hlimit hclock (now + 1 - policy.window))
  rw [betweenFrom, within, ← List.countP_eq_length_filter, ← List.countP_eq_length_filter]
  refine List.countP_mono_left fun t _ hwithin => ?_
  simp only [decide_eq_true_eq] at hwithin ⊢
  omega

/-! ## The rate limit of a configuration -/

/-- A refusal by any other rule has another wording. -/
theorem message_ne_of_staticRefusal? {refusal : Refusal} {context : ExecutionContext}
    {autonomy : AutonomyLevel} (h : policy.staticRefusal? tool context autonomy = some refusal)
    (limit secs : Nat) : refusal.message tool ≠ (Refusal.rateLimited limit secs).message tool := by
  intro hmessage
  have hfirst := congrArg (fun text => text.toList.head?) hmessage
  have htool : (toString "tool '").toList.head? = some 't' := rfl
  have hrate : (toString "rate limit for '").toList.head? = some 'r' := rfl
  cases refusal with
  | rateLimited limit secs =>
    unfold staticRefusal? at h
    cases autonomy <;> simp only at h <;> (repeat' split at h) <;> cases h
  | _ =>
    unfold Refusal.message at hfirst
    simp only [String.toList_append, List.head?_append, htool, hrate, Option.some_or,
      Option.some.injEq] at hfirst
    cases hfirst

/-- A call of a tool with a limit is refused for its limit if no other rule is against it and there
is no room for it in the window. -/
theorem answer_eq_rateLimited_iff (hlimit : policy.rateLimits.get? q.tool = some limit)
    (hclock : ((qs ++ [q]).map Inquiry.now).Pairwise (· ≤ ·)) :
    (policy.answer (policy.after .empty qs) q).1 =
        .denied ((Refusal.rateLimited limit (policy.window / 1000)).message q.tool) ↔
      policy.staticRefusal? q.tool q.context q.autonomy = none ∧
        limit ≤ (within policy.window q.now
          (allowedTimes q.tool (policy.record .empty qs))).length := by
  rw [← recent_eq_within hlimit hclock, answer_fst]
  have hdecides := policy.decides_decision (policy.after .empty qs) q
  generalize policy.decision (policy.after .empty qs) q = decided at hdecides ⊢
  cases hdecides with
  | refused hstatic => simp [hstatic, message_ne_of_staticRefusal? hstatic]
  | unlimited hstatic hunlimited => simp [hlimit] at hunlimited
  | limited hstatic hlimited hfull =>
    cases hlimit.symm.trans hlimited
    simpa [hstatic] using hfull
  | admitted hstatic hlimited hroom =>
    cases hlimit.symm.trans hlimited
    simpa [hstatic] using hroom

/-- The rate limit of a tool is a window that slides with the clock.  Of calls in the order of time,
one that meets the other rules is allowed if fewer calls of the tool than its limit were allowed
within the window that ends with it, and is refused for the limit otherwise.  So no interval as long
as the window holds more calls that were allowed, whichever of its two ends it includes. -/
theorem rate_limit_slides {config : GovernanceConfig} {tool : String} {limit : Nat}
    (hlimit : config.rateLimits.get? tool = some limit) {calls : List Inquiry}
    (hclock : (calls.map Inquiry.now).Pairwise (· ≤ ·)) :
    let policy := ofConfig config
    let window := config.rateWindowSecs * 1000
    (∀ earlier q later, calls = earlier ++ q :: later → q.tool = tool →
      let answer := (policy.answer (policy.after .empty earlier) q).1
      let counted := within window q.now (allowedTimes tool (policy.record .empty earlier))
      (answer = .allowed ↔ q.MeetsRules config ∧ counted.length < limit) ∧
        (answer = .denied ((Refusal.rateLimited limit config.rateWindowSecs).message tool) ↔
          q.MeetsRules config ∧ limit ≤ counted.length)) ∧
    ∀ time,
      (betweenFrom time window (allowedTimes tool (policy.record .empty calls))).length ≤ limit ∧
        (within window time (allowedTimes tool (policy.record .empty calls))).length ≤ limit := by
  intro policy window
  have hlimited : policy.rateLimits.get? tool = some limit := hlimit
  refine ⟨?_, fun time => ⟨length_betweenFrom_le hlimited hclock time,
    length_within_le hlimited hclock time⟩⟩
  rintro earlier q later rfl rfl
  have hbefore : ((earlier ++ [q]).map Inquiry.now).Pairwise (· ≤ ·) := by
    refine hclock.sublist (List.Sublist.map _ ?_)
    simp
  have hsecs : policy.window / 1000 = config.rateWindowSecs := Nat.mul_div_cancel _ (by decide)
  rw [← hsecs, ← staticRefusal?_eq_none_iff_meetsRules]
  exact ⟨answer_eq_allowed_iff.trans (decision_eq_none_iff hlimited hbefore),
    answer_eq_rateLimited_iff hlimited hbefore⟩

/-- A configuration that admits one call of a tool per second. -/
def oncePerSecond : GovernanceConfig :=
  { GovernanceConfig.default with rateWindowSecs := 1, rateLimits := [("weather", 1)] }

/-- A call of this tool at a time. -/
def weatherAt (now : Nat) : Inquiry := ⟨"weather", .unrestricted, .supervised, now, default⟩

/-- After one call a second is refused within the second, and admitted again at its end. -/
theorem rate_limit_slides_oncePerSecond :
    (((ofConfig oncePerSecond).record .empty [weatherAt 0, weatherAt 999, weatherAt 1000]).map
        (·.2.isAllowed) = [true, false, true]) ∧
      (weatherAt 1000).MeetsRules oncePerSecond ∧
      (within 1000 1000 (allowedTimes "weather"
        ((ofConfig oncePerSecond).record .empty [weatherAt 0, weatherAt 999]))).length < 1 := by
  have hslides := rate_limit_slides (show oncePerSecond.rateLimits.get? "weather" = some 1 from rfl)
    (show ([weatherAt 0, weatherAt 999, weatherAt 1000].map Inquiry.now).Pairwise (· ≤ ·) by decide)
  have hlast := hslides.1 [weatherAt 0, weatherAt 999] (weatherAt 1000) [] rfl rfl
  exact ⟨by decide, hlast.1.1 (by decide)⟩

end Policy

end AgentLoop
