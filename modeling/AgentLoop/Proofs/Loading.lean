import AgentLoop.Config.File
import Mathlib.Logic.Basic

/-!
# Loading a configuration

What a configuration file says has to be valid on its own.  Then the environment may replace three of
its fields, and what comes of it has to be valid once more.

* `AppConfig.Valid` says when a configuration is valid, and `checked_eq_ok_iff` that only such a
  configuration passes the check.
* `IsCount` and `AutonomyLevel.words` are what the environment may say, and `Environment.Says` that
  it says so.
* `AppConfig.merge` is a configuration with what the environment says.  `override_eq_iff` is what the
  environment does to a configuration, and `load_eq_ok_iff` what a file and the environment give.
-/

namespace AgentLoop

/-! ## Valid configurations -/

/-- A configuration under which a run can do something. -/
structure AppConfig.Valid (c : AppConfig) : Prop where
  maxIterations : 1 ≤ c.agentLoop.maxIterations
  maxToolCalls : 1 ≤ c.agentLoop.maxToolCallsPerIteration
  errorThreshold : 1 ≤ c.agentLoop.errorThreshold
  toolCallTimeout : 1 ≤ c.agentLoop.toolCallTimeoutMs
  temperature : c.agentLoop.temperature.within 2 = true
  rateWindow : c.governance.rateLimits ≠ [] → 1 ≤ c.governance.rateWindowSecs
  maxTraces : 1 ≤ c.telemetry.maxTraces

theorem LoopConfig.unfit?_eq_none_iff {c : LoopConfig} :
    c.unfit? = none ↔ 1 ≤ c.maxIterations ∧ 1 ≤ c.maxToolCallsPerIteration ∧
      1 ≤ c.errorThreshold ∧ 1 ≤ c.toolCallTimeoutMs ∧ c.temperature.within 2 = true := by
  simp [unfit?, ite_eq_iff, maxTemperature, Nat.one_le_iff_ne_zero]

namespace AppConfig

variable {c c' : AppConfig}

/-- A configuration that breaks no rule is valid. -/
theorem unfit?_eq_none_iff : c.unfit? = none ↔ c.Valid := by
  rw [unfit?]
  constructor
  · intro h
    cases hloop : c.agentLoop.unfit? with
    | some unfit => simp [hloop] at h
    | none =>
      obtain ⟨hiterations, hcalls, herrors, htimeout, htemperature⟩ :=
        LoopConfig.unfit?_eq_none_iff.1 hloop
      simp only [hloop, ite_eq_iff, reduceCtorEq, and_false, false_or, and_true] at h
      exact ⟨hiterations, hcalls, herrors, htimeout, htemperature,
        fun hlimits => Nat.one_le_iff_ne_zero.2 fun hwindow => h.1 ⟨hwindow, hlimits⟩,
        Nat.one_le_iff_ne_zero.2 h.2⟩
  · intro h
    rw [LoopConfig.unfit?_eq_none_iff.2 ⟨h.maxIterations, h.maxToolCalls, h.errorThreshold,
      h.toolCallTimeout, h.temperature⟩]
    simp only [ite_eq_iff, reduceCtorEq, and_false, false_or, and_true]
    exact ⟨fun ⟨hwindow, hlimits⟩ => Nat.one_le_iff_ne_zero.1 (h.rateWindow hlimits) hwindow,
      Nat.one_le_iff_ne_zero.1 h.maxTraces⟩

theorem checked_eq_ok_iff : c.checked = .ok c' ↔ c.Valid ∧ c' = c := by
  rw [checked, ← unfit?_eq_none_iff]
  cases c.unfit? with
  | none => simp [eq_comm]
  | some unfit => simp

end AppConfig

/-! ## What the environment may say -/

theorem readDigits?_eq_some_iff {digits : List Char} {n : Nat} :
    readDigits? digits = some n ↔
      digits ≠ [] ∧ (∀ d ∈ digits, d.isDigit = true) ∧ n = Nat.ofDigitChars 10 digits 0 := by
  simp [readDigits?, ite_eq_iff, and_assoc, eq_comm (a := n)]

theorem readUnsigned?_eq_some_iff {text : String} {n : Nat} :
    readUnsigned? text = some n ↔ ∃ sign digits, text.toList = sign ++ digits ∧
      (sign = [] ∨ sign = ['+']) ∧ readDigits? digits = some n := by
  rw [readUnsigned?]
  split
  · next digits htext =>
    rw [htext]
    constructor
    · intro h
      exact ⟨['+'], digits, rfl, .inr rfl, h⟩
    · rintro ⟨sign, rest, hsplit, rfl | rfl, h⟩
      · -- A plus sign is no digit.
        rw [List.nil_append] at hsplit
        subst hsplit
        cases (readDigits?_eq_some_iff.1 h).2.1 '+' List.mem_cons_self
      · cases hsplit
        exact h
  · next hplain =>
    constructor
    · intro h
      exact ⟨[], _, rfl, .inl rfl, h⟩
    · rintro ⟨sign, rest, hsplit, rfl | rfl, h⟩
      · exact hsplit ▸ h
      · exact absurd hsplit (hplain rest)

/-- The text denotes a number of 32 bits: there are digits in it, at least one, and there may be a
plus sign before them. -/
def IsCount (text : String) (n : Nat) : Prop :=
  (∃ sign digits, text.toList = sign ++ digits ∧ (sign = [] ∨ sign = ['+']) ∧
    digits ≠ [] ∧ (∀ d ∈ digits, d.isDigit = true) ∧ n = Nat.ofDigitChars 10 digits 0) ∧
  n < 0x100000000

theorem readCount?_eq_some_iff {text : String} {n : Nat} :
    readCount? text = some n ↔ IsCount text n := by
  rw [readCount?, Option.filter_eq_some_iff, readUnsigned?_eq_some_iff, decide_eq_true_eq]
  constructor
  · rintro ⟨⟨sign, digits, htext, hsign, hdigits⟩, hsmall⟩
    exact ⟨⟨sign, digits, htext, hsign, readDigits?_eq_some_iff.1 hdigits⟩, hsmall⟩
  · rintro ⟨⟨sign, digits, htext, hsign, hdigits⟩, hsmall⟩
    exact ⟨⟨sign, digits, htext, hsign, readDigits?_eq_some_iff.2 hdigits⟩, hsmall⟩

namespace AutonomyLevel

/-- The words for a level of autonomy. -/
def words : AutonomyLevel → List String
  | readOnly => ["read_only", "readonly"]
  | supervised => ["supervised"]
  | full => ["full"]

theorem read_eq_ok_iff {text : String} {level : AutonomyLevel} :
    read text = .ok level ↔ Text.lowerAscii (Text.trim text) ∈ level.words := by
  rw [read]
  generalize Text.lowerAscii (Text.trim text) = word
  split
  · next h => rcases h with rfl | rfl <;> cases level <;> simp [words]
  · next hreadOnly =>
    split
    · next h =>
      subst h
      cases level <;> simp [words]
    · next hsupervised =>
      split
      · next h =>
        subst h
        cases level <;> simp [words]
      · next hfull =>
        rw [not_or] at hreadOnly
        cases level <;> simp [words, hreadOnly, hsupervised, hfull]

end AutonomyLevel

/-- Only nothing goes with nothing. -/
theorem exists_rel_none_iff {α β : Type} {r : α → β → Prop} {p : Option β → Prop} :
    (∃ o, Option.Rel r none o ∧ p o) ↔ p none := by
  constructor
  · rintro ⟨_, ⟨⟩, h⟩
    exact h
  · exact fun h => ⟨none, .none, h⟩

/-- What goes with something is something that is related to it. -/
theorem exists_rel_some_iff {α β : Type} {r : α → β → Prop} {p : Option β → Prop} {a : α} :
    (∃ o, Option.Rel r (some a) o ∧ p o) ↔ ∃ b, r a b ∧ p (some b) := by
  constructor
  · rintro ⟨_, @⟨_, b, hr⟩, h⟩
    exact ⟨b, hr, h⟩
  · rintro ⟨b, hr, h⟩
    exact ⟨some b, .some hr, h⟩

/-- What the environment says instead of a configuration. -/
structure Overrides where
  maxIterations : Option Nat
  autonomy : Option AutonomyLevel
  model : Option String
  deriving DecidableEq, Repr

/-- Of the three variables those are set for which there is a value, and each to a text for it. -/
structure Environment.Says (env : Environment) (o : Overrides) : Prop where
  maxIterations : Option.Rel (fun text n => IsCount (Text.trim text) n)
    (env "TOOLLOOP_MAX_ITERATIONS") o.maxIterations
  autonomy : Option.Rel (fun text level => Text.lowerAscii (Text.trim text) ∈ level.words)
    (env "TOOLLOOP_AUTONOMY") o.autonomy
  model : env "TOOLLOOP_MODEL" = o.model

namespace AppConfig

variable {env : Environment} {c c' : AppConfig}

/-! ## What the environment does -/

/-- The configuration with what the environment says instead. -/
def merge (c : AppConfig) (o : Overrides) : AppConfig :=
  { c with
    agentLoop :=
      { c.agentLoop with
        maxIterations := o.maxIterations.getD c.agentLoop.maxIterations
        model := o.model.getD c.agentLoop.model }
    governance :=
      { c.governance with autonomy := o.autonomy.getD c.governance.autonomy } }

theorem overrideIterations_eq_ok_iff :
    c.overrideIterations env = .ok c' ↔
      ∃ n, Option.Rel (fun text n => IsCount (Text.trim text) n)
        (env "TOOLLOOP_MAX_ITERATIONS") n ∧ c.merge ⟨n, none, none⟩ = c' := by
  rw [overrideIterations]
  split
  · next hunset =>
    rw [hunset, exists_rel_none_iff, Except.ok.injEq]
    rfl
  · next text hset =>
    rw [hset, exists_rel_some_iff]
    simp only [← readCount?_eq_some_iff]
    cases readCount? (Text.trim text) with
    | none => simp
    | some n => simp [merge]

theorem overrideAutonomy_eq_ok_iff :
    c.overrideAutonomy env = .ok c' ↔
      ∃ level, Option.Rel (fun text level => Text.lowerAscii (Text.trim text) ∈ level.words)
        (env "TOOLLOOP_AUTONOMY") level ∧ c.merge ⟨none, level, none⟩ = c' := by
  rw [overrideAutonomy]
  split
  · next hunset =>
    rw [hunset, exists_rel_none_iff, Except.ok.injEq]
    rfl
  · next text hset =>
    rw [hset, exists_rel_some_iff]
    simp only [← AutonomyLevel.read_eq_ok_iff]
    cases AutonomyLevel.read text with
    | error word => simp
    | ok level => simp [merge]

theorem overrideModel_eq : c.overrideModel env = c.merge ⟨none, none, env "TOOLLOOP_MODEL"⟩ := by
  rw [overrideModel]
  cases env "TOOLLOOP_MODEL" <;> rfl

/-- The environment has its way exactly when all that it says can be read. -/
theorem override_eq_iff : c.override env = (c', none) ↔ ∃ o, env.Says o ∧ c' = c.merge o := by
  rw [override]
  constructor
  · intro h
    split at h
    · cases h
    · next hiterations =>
      split at h
      · cases h
      · next hautonomy =>
        obtain ⟨n, hn, rfl⟩ := overrideIterations_eq_ok_iff.1 hiterations
        obtain ⟨level, hlevel, rfl⟩ := overrideAutonomy_eq_ok_iff.1 hautonomy
        cases h
        rw [overrideModel_eq]
        exact ⟨⟨n, level, env "TOOLLOOP_MODEL"⟩, ⟨hn, hlevel, rfl⟩, rfl⟩
  · rintro ⟨o, hsays, rfl⟩
    have hiterations : c.overrideIterations env = .ok (c.merge ⟨o.maxIterations, none, none⟩) :=
      overrideIterations_eq_ok_iff.2 ⟨_, hsays.maxIterations, rfl⟩
    have hautonomy : ∀ c : AppConfig,
        c.overrideAutonomy env = .ok (c.merge ⟨none, o.autonomy, none⟩) :=
      fun _ => overrideAutonomy_eq_ok_iff.2 ⟨_, hsays.autonomy, rfl⟩
    simp only [hiterations, hautonomy, overrideModel_eq, hsays.model]
    rfl

theorem overridden_eq_ok_iff :
    c.overridden env = .ok c' ↔ c'.Valid ∧ ∃ o, env.Says o ∧ c' = c.merge o := by
  rw [overridden, ← override_eq_iff]
  split
  · next hread => simp [hread]
  · next c₁ hread =>
    rw [checked_eq_ok_iff, hread, Prod.mk.injEq]
    constructor
    · rintro ⟨hvalid, rfl⟩
      exact ⟨hvalid, rfl, rfl⟩
    · rintro ⟨hvalid, rfl, -⟩
      exact ⟨hvalid, rfl⟩

/-- A configuration that is loaded is valid, wherever it comes from. -/
theorem valid_of_load {path : String} {file : FileContent} (h : load env path file = .ok c) :
    c.Valid := by
  rw [load] at h
  cases hfile : ofFile path file with
  | error error =>
    rw [hfile] at h
    cases h
  | ok f =>
    rw [hfile] at h
    exact (overridden_eq_ok_iff.1 h).1

/-- A file that says something loads exactly to what it says, merged with what the environment says:
if the one is valid, the other can be read, and what comes of both is valid again.  A configuration
that is loaded is valid in any case. -/
theorem load_eq_ok_iff {text : String} {f : AppConfig}
    (hread : (Toml.read text).bind ofToml = some f) (env : Environment) (path : String) :
    (∀ c, load env path (.text text) = .ok c ↔
      f.Valid ∧ c.Valid ∧ ∃ o, env.Says o ∧ c = f.merge o) ∧
    ∀ file c, load env path file = .ok c → c.Valid := by
  refine ⟨fun c => ?_, fun file c => valid_of_load⟩
  have hfile : ofFile path (.text text) = f.checked := by
    rw [ofFile, hread]
  rw [load, hfile]
  constructor
  · intro h
    cases hchecked : f.checked with
    | error error =>
      rw [hchecked] at h
      cases h
    | ok f' =>
      obtain ⟨hvalid, rfl⟩ := checked_eq_ok_iff.1 hchecked
      rw [hchecked] at h
      exact ⟨hvalid, overridden_eq_ok_iff.1 h⟩
  · rintro ⟨hvalid, hmerged⟩
    rw [checked_eq_ok_iff.2 ⟨hvalid, rfl⟩]
    exact overridden_eq_ok_iff.2 hmerged

/-- The text of a file about seven turns. -/
def sevenTurnsText : String := "[agent_loop]\nmax_iterations = 7\n"

/-- The configuration in this file. -/
def sevenTurns : AppConfig :=
  { default with agentLoop := { LoopConfig.default with maxIterations := 7 } }

/-- An environment in which all three variables are set. -/
def nineTurns : Environment := fun name =>
  if name = "TOOLLOOP_MAX_ITERATIONS" then some " +9 "
  else if name = "TOOLLOOP_AUTONOMY" then some "FULL"
  else if name = "TOOLLOOP_MODEL" then some "small"
  else none

/-- The file loads, with what the environment says in three of its fields. -/
theorem load_eq_ok_iff_nineTurns :
    (Toml.read sevenTurnsText).bind ofToml = some sevenTurns ∧ sevenTurns.Valid ∧
      load nineTurns "config.toml" (.text sevenTurnsText) =
        .ok (sevenTurns.merge ⟨some 9, some .full, some "small"⟩) ∧
      (sevenTurns.merge ⟨some 9, some .full, some "small"⟩).Valid := by
  have hread : (Toml.read sevenTurnsText).bind ofToml = some sevenTurns := by decide +kernel
  have hvalid : sevenTurns.Valid := unfit?_eq_none_iff.1 (by decide +kernel)
  have hmerged : (sevenTurns.merge ⟨some 9, some .full, some "small"⟩).Valid :=
    unfit?_eq_none_iff.1 (by decide +kernel)
  have hsays : nineTurns.Says ⟨some 9, some .full, some "small"⟩ :=
    { maxIterations := .some (readCount?_eq_some_iff.1 (by decide +kernel))
      autonomy := .some (by decide +kernel)
      model := by decide +kernel }
  obtain ⟨hload, hloaded⟩ := load_eq_ok_iff hread nineTurns "config.toml"
  have hgives := (hload _).2 ⟨hvalid, hmerged, _, hsays, rfl⟩
  exact ⟨hread, hvalid, hgives, hloaded _ _ hgives⟩

end AppConfig

end AgentLoop
