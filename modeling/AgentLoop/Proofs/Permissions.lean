import AgentLoop.Proofs.Policy

/-!
# What a level of autonomy permits

The gate decides on the lowest level of autonomy by one list and on the middle level by another, and
nothing ties the two lists together.  A call that is allowed at the middle level is allowed at the
highest one.  A call that is allowed at the lowest level is allowed at the highest one too, but at
the middle level it may need an escalation.

* `AllowsAt` says that a gate would allow a call at a level, and `allowsAt_iff` takes its answer
  apart: only the rules that do not look at the clock look at the level.
* `allowsAt_full` and `allowsAt_supervised_iff` compare two levels, `allowsAt_by_level` puts them
  together.
-/

namespace AgentLoop.Policy

/-- The gate would allow the call if it were made at this level. -/
def AllowsAt (policy : Policy) (state : PolicyState) (q : Inquiry) (level : AutonomyLevel) : Prop :=
  (policy.answer state { q with autonomy := level }).1 = .allowed

instance (policy : Policy) (state : PolicyState) (q : Inquiry) (level : AutonomyLevel) :
    Decidable (policy.AllowsAt state q level) :=
  inferInstanceAs (Decidable (_ = _))

variable {policy : Policy} {config : GovernanceConfig} {state : PolicyState} {q : Inquiry}
  {level : AutonomyLevel}

/-- A call is allowed if no rule is against it, neither those that do not look at the clock nor the
rate rule.  The rate rule does not look at the level. -/
theorem allowsAt_iff :
    policy.AllowsAt state q level ↔
      policy.staticRefusal? q.tool q.context level = none ∧
        (policy.rate state.admissions q.tool q.now).1 = none := by
  rw [AllowsAt, answer_eq_allowed_iff, decision, verdict]
  cases policy.staticRefusal? q.tool q.context level <;> simp

/-- The same for the rules of a configuration. -/
theorem allowsAt_ofConfig_iff :
    (ofConfig config).AllowsAt state q level ↔
      Inquiry.MeetsRules config { q with autonomy := level } ∧
        ((ofConfig config).rate state.admissions q.tool q.now).1 = none := by
  rw [allowsAt_iff, ← staticRefusal?_eq_none_iff_meetsRules]

/-- What is allowed at some level is allowed at the highest one. -/
theorem allowsAt_full (h : (ofConfig config).AllowsAt state q level) :
    (ofConfig config).AllowsAt state q .full := by
  rw [allowsAt_ofConfig_iff] at h ⊢
  obtain ⟨hrules, hrate⟩ := h
  exact ⟨⟨hrules.notDenied, hrules.byCaller, AutonomyLevel.noConfusion, AutonomyLevel.noConfusion⟩,
    hrate⟩

/-- What is allowed at some level is allowed at the middle one, unless it needs an escalation
there. -/
theorem allowsAt_supervised_iff (h : (ofConfig config).AllowsAt state q level) :
    (ofConfig config).AllowsAt state q .supervised ↔ q.tool ∉ config.supervisedBlockedTools := by
  rw [allowsAt_ofConfig_iff] at h ⊢
  obtain ⟨hrules, hrate⟩ := h
  constructor
  · rintro ⟨hsupervised, -⟩
    exact hsupervised.supervised rfl
  · intro hblocked
    exact ⟨⟨hrules.notDenied, hrules.byCaller, AutonomyLevel.noConfusion, fun _ => hblocked⟩, hrate⟩

/-- More autonomy means more permissions but for one case: a call that is allowed at the lowest level
is allowed at the middle one exactly if it does not need an escalation there.  From the middle level
to the highest, and from the lowest to the highest, no permission is lost. -/
theorem allowsAt_by_level (config : GovernanceConfig) (state : PolicyState) (q : Inquiry) :
    ((ofConfig config).AllowsAt state q .readOnly →
        ((ofConfig config).AllowsAt state q .supervised ↔
          q.tool ∉ config.supervisedBlockedTools)) ∧
      ((ofConfig config).AllowsAt state q .supervised →
        (ofConfig config).AllowsAt state q .full) ∧
      ((ofConfig config).AllowsAt state q .readOnly →
        (ofConfig config).AllowsAt state q .full) :=
  ⟨allowsAt_supervised_iff, allowsAt_full, allowsAt_full⟩

/-- A configuration in which a tool that needs an escalation is known to be harmless. -/
def harmlessShell : GovernanceConfig := { GovernanceConfig.default with readOnlyTools := ["shell"] }

/-- The question whether an unnamed caller may call this tool. -/
def shellInquiry : Inquiry := ⟨"shell", .unrestricted, .supervised, 0, default⟩

/-- The tool may be called at the lowest level, and at the middle one it may not. -/
theorem allowsAt_harmlessShell :
    (ofConfig harmlessShell).AllowsAt .empty shellInquiry .readOnly ∧
      ¬ (ofConfig harmlessShell).AllowsAt .empty shellInquiry .supervised := by
  decide

/-- A tool that needs no escalation and is known to be harmless may be called at every level. -/
theorem allowsAt_by_level_weather :
    (ofConfig { harmlessShell with readOnlyTools := ["weather"] }).AllowsAt .empty
        { shellInquiry with tool := "weather" } .supervised ∧
      (ofConfig { harmlessShell with readOnlyTools := ["weather"] }).AllowsAt .empty
        { shellInquiry with tool := "weather" } .full := by
  obtain ⟨hsupervised, hfull, -⟩ := allowsAt_by_level
    { harmlessShell with readOnlyTools := ["weather"] } .empty { shellInquiry with tool := "weather" }
  have hallowed := (hsupervised (by decide)).2 (by decide)
  exact ⟨hallowed, hfull hallowed⟩

end AgentLoop.Policy
