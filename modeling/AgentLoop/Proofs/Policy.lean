import AgentLoop.Governance.Policy

/-!
# What the policy gate answers

A gate is asked about one call after another, and its answer to a call may depend on the answers
that it gave before.  The memory of these answers is what it keeps of the rate rule.

There are three groups.

* The rules that do not look at the clock.  `Inquiry.MeetsRules` lists them for a configuration, and
  `staticRefusal?_eq_none_iff_meetsRules` says that a policy refuses exactly the calls that do not
  meet them.
* One answer.  `Policy.Decides` are the ways in which a gate can decide, with what it remembers
  afterwards, and `decides_decision` says that these are all.
* Many answers.  `Policy.after` is the gate after some inquiries, `Policy.record` are the inquiries
  with the answers, and `allowedTimes` reads off when calls of a tool were allowed.
-/

namespace AgentLoop

/-- What a gate is asked: may this tool be called in this context, at this level and time? -/
structure Inquiry where
  tool : String
  context : ExecutionContext
  autonomy : AutonomyLevel
  /-- The clock of the gate. -/
  now : Nat
  /-- The time that goes into the audit trail. -/
  time : Timestamp
  deriving DecidableEq, Repr

/-! ## Rules that do not look at the clock -/

/-- A policy refuses a call, whatever the time, exactly when one of its rules is against it. -/
theorem Policy.staticRefusal?_eq_none_iff {policy : Policy} {tool : String}
    {context : ExecutionContext} {autonomy : AutonomyLevel} :
    policy.staticRefusal? tool context autonomy = none ↔
      tool ∉ policy.denied ∧ context.permits tool = true ∧
        (autonomy = .readOnly → tool ∈ policy.readOnly) ∧
        (autonomy = .supervised → tool ∉ policy.supervisedBlocked) := by
  unfold Policy.staticRefusal?
  by_cases hdenied : tool ∈ policy.denied
  · simp [hdenied]
  · by_cases hpermits : context.permits tool = true
    · cases autonomy <;> simp [hdenied, hpermits]
    · simp [hdenied, hpermits]

/-- Deny list, allow-list of the caller and level of autonomy have nothing against the call. -/
structure Inquiry.MeetsRules (config : GovernanceConfig) (q : Inquiry) : Prop where
  notDenied : q.tool ∉ config.deniedTools
  byCaller : q.context.permits q.tool = true
  readOnly : q.autonomy = .readOnly → q.tool ∈ config.readOnlyTools
  supervised : q.autonomy = .supervised → q.tool ∉ config.supervisedBlockedTools

theorem Policy.staticRefusal?_eq_none_iff_meetsRules {config : GovernanceConfig} {q : Inquiry} :
    (Policy.ofConfig config).staticRefusal? q.tool q.context q.autonomy = none ↔
      q.MeetsRules config := by
  rw [Policy.staticRefusal?_eq_none_iff]
  simp only [Policy.ofConfig, NameSet.mem_ofList]
  constructor
  · rintro ⟨hdenied, hcaller, hreadOnly, hsupervised⟩
    exact ⟨hdenied, hcaller, hreadOnly, hsupervised⟩
  · intro h
    exact ⟨h.notDenied, h.byCaller, h.readOnly, h.supervised⟩

namespace Policy

variable (policy : Policy)

/-! ## One answer -/

/-- The answer of a gate, and the gate after it. -/
def answer (state : PolicyState) (q : Inquiry) : Authorization × PolicyState :=
  policy.authorize state q.tool q.context q.autonomy q.now q.time

/-- The admissions of the tool that a gate still counts when it is asked. -/
def recent (admissions : Admissions) (q : Inquiry) : List Nat :=
  policy.inWindow q.now (admissions.getD q.tool [])

/-- The ways in which a gate can decide, with the admissions that it remembers afterwards. -/
inductive Decides (admissions : Admissions) (q : Inquiry) : Option Refusal × Admissions → Prop where
  /-- A rule that does not look at the clock is against the call. -/
  | refused {refusal : Refusal}
      (hstatic : policy.staticRefusal? q.tool q.context q.autonomy = some refusal) :
      Decides admissions q (some refusal, admissions)
  /-- The tool has no limit. -/
  | unlimited (hstatic : policy.staticRefusal? q.tool q.context q.autonomy = none)
      (hlimit : policy.rateLimits.get? q.tool = none) : Decides admissions q (none, admissions)
  /-- The tool was called too often within the window. -/
  | limited {limit : Nat} (hstatic : policy.staticRefusal? q.tool q.context q.autonomy = none)
      (hlimit : policy.rateLimits.get? q.tool = some limit)
      (hfull : limit ≤ (policy.recent admissions q).length) :
      Decides admissions q (some (.rateLimited limit (policy.window / 1000)),
        admissions.insert q.tool (policy.recent admissions q))
  /-- The call is admitted within its limit. -/
  | admitted {limit : Nat} (hstatic : policy.staticRefusal? q.tool q.context q.autonomy = none)
      (hlimit : policy.rateLimits.get? q.tool = some limit)
      (hroom : (policy.recent admissions q).length < limit) :
      Decides admissions q (none,
        admissions.insert q.tool (policy.recent admissions q ++ [q.now]))

/-- What a gate decides on a call, with the admissions that it remembers afterwards. -/
def decision (state : PolicyState) (q : Inquiry) : Option Refusal × Admissions :=
  policy.verdict state.admissions q.tool q.context q.autonomy q.now

/-- A gate decides in one of these ways. -/
theorem decides_decision (state : PolicyState) (q : Inquiry) :
    policy.Decides state.admissions q (policy.decision state q) := by
  rw [decision, verdict]
  cases hstatic : policy.staticRefusal? q.tool q.context q.autonomy with
  | some refusal => exact .refused hstatic
  | none =>
    simp only [rate]
    cases hlimit : policy.rateLimits.get? q.tool with
    | none => exact .unlimited hstatic hlimit
    | some limit =>
      simp only
      split
      · next hfull => exact .limited hstatic hlimit hfull
      · next hroom => exact .admitted hstatic hlimit (Nat.not_le.1 hroom)

/-- An answer is a decision put into words. -/
theorem answer_fst (state : PolicyState) (q : Inquiry) :
    (policy.answer state q).1 =
      match (policy.decision state q).1 with
      | none => .allowed
      | some refusal => .denied (refusal.message q.tool) := by
  rw [answer, authorize, decision]
  split <;> next hverdict => rw [hverdict]

theorem admissions_answer (state : PolicyState) (q : Inquiry) :
    (policy.answer state q).2.admissions = (policy.decision state q).2 := by
  rw [answer, authorize, decision]
  split <;> next hverdict => rw [hverdict]

theorem answer_eq_allowed_iff {policy : Policy} {state : PolicyState} {q : Inquiry} :
    (policy.answer state q).1 = .allowed ↔ (policy.decision state q).1 = none := by
  rw [answer_fst]
  split <;> next hdecision => simp [hdecision]

/-! ## Many answers -/

/-- A gate after some inquiries. -/
def after (state : PolicyState) : List Inquiry → PolicyState
  | [] => state
  | q :: qs => after (policy.answer state q).2 qs

/-- The inquiries with the answers to them. -/
def record (state : PolicyState) : List Inquiry → List (Inquiry × Authorization)
  | [] => []
  | q :: qs => (q, (policy.answer state q).1) :: record (policy.answer state q).2 qs

/-- When calls of a tool were allowed, earliest first. -/
def allowedTimes (tool : String) (entries : List (Inquiry × Authorization)) : List Nat :=
  entries.filterMap fun (q, answer) =>
    if q.tool = tool ∧ answer = .allowed then some q.now else none

variable {policy} {tool : String} {state : PolicyState} {qs : List Inquiry} {q : Inquiry}

theorem after_concat :
    policy.after state (qs ++ [q]) = (policy.answer (policy.after state qs) q).2 := by
  induction qs generalizing state with
  | nil => rfl
  | cons r qs ih => exact ih

theorem record_append (rs : List Inquiry) :
    policy.record state (qs ++ rs) =
      policy.record state qs ++ policy.record (policy.after state qs) rs := by
  induction qs generalizing state with
  | nil => rfl
  | cons q qs ih => exact congrArg _ ih

theorem allowedTimes_record_concat :
    allowedTimes tool (policy.record state (qs ++ [q])) =
      allowedTimes tool (policy.record state qs) ++
        if q.tool = tool ∧ (policy.answer (policy.after state qs) q).1 = .allowed then [q.now]
        else [] := by
  rw [record_append, allowedTimes, List.filterMap_append]
  congr 1
  rw [record, record, List.filterMap_cons]
  simp only
  split <;> split <;> simp_all

/-- Calls are only ever allowed at the times of inquiries, and in their order. -/
theorem allowedTimes_sublist (policy : Policy) (tool : String) (state : PolicyState)
    (qs : List Inquiry) :
    (allowedTimes tool (policy.record state qs)).Sublist (qs.map Inquiry.now) := by
  induction qs generalizing state with
  | nil => exact List.Sublist.refl _
  | cons q qs ih =>
    rw [record, allowedTimes, List.filterMap_cons, List.map_cons]
    split
    · exact (ih _).cons _
    · next now hnow =>
      simp only [Option.ite_none_right_eq_some, Option.some.injEq] at hnow
      rw [← hnow.2]
      exact (ih _).cons_cons _

end Policy

end AgentLoop
