import AgentLoop.Command.Configuration
import AgentLoop.Proofs.Loading
import AgentLoop.Proofs.TomlRecords

/-!
# A configuration that is shown can be loaded again

* `InRange` is what the types of the fields promise, and that TOML can hold the integers.
* `LoopConfig.restores`, `GovernanceConfig.restores`, … go through the sections, and
  `AppConfig.restores` puts them together.  An entry that is left out has the default that it stands
  for; an empty list is written as such.
* `AppConfig.ofFile_shown` is the result: what was printed, saved to a file, is loaded as the
  configuration.
-/

namespace AgentLoop

theorem AutonomyLevel.restores_name (depth : Nat) (level : AutonomyLevel) :
    Toml.Restores depth (Toml.toNamed AutonomyLevel.byName) (.text level.name) level := by
  refine ⟨Toml.legible_text _ _, rfl, ?_⟩
  cases level <;> rfl

/-! ## Sections of the configuration -/

/-- The numbers are those of their types, and none is larger than TOML can hold. -/
structure LoopConfig.InRange (c : LoopConfig) : Prop where
  maxIterations : c.maxIterations < 0x100000000
  maxToolCalls : c.maxToolCallsPerIteration ≤ 0x7fffffffffffffff
  errorThreshold : c.errorThreshold < 0x100000000
  toolCallTimeout : c.toolCallTimeoutMs ≤ 0x7fffffffffffffff
  temperature : binary32.Represents c.temperature
  maxTokens : ∀ n ∈ c.maxTokens, n < 0x100000000

theorem LoopConfig.restores {c : LoopConfig} (h : c.InRange)
    (hfinite : c.temperature.isFinite = true) :
    Toml.Restores 1 LoopConfig.ofToml c.toToml c := by
  have hiterations := Toml.restores_nat32 2 h.maxIterations
  have hcalls := Toml.restores_nat64 2 h.maxToolCalls
  have hthreshold := Toml.restores_nat32 2 h.errorThreshold
  have htimeout := Toml.restores_nat64 2 h.toolCallTimeout
  have hmodel := Toml.restores_text 2 c.model
  have hdouble := Toml.restores_bool 2 c.doubleConfirmation
  have htemperature := Toml.restores_binary32 2 h.temperature hfinite
  have htokens := fun n hn => Toml.restores_nat32 2 (h.maxTokens n hn)
  have hvalues : Toml.Writes 1 false _ _ :=
    (((((((Toml.writes_entry "max_iterations" hiterations rfl).append
    (Toml.writes_entry "max_tool_calls_per_iteration" hcalls rfl)).append
    (Toml.writes_entry "enable_double_confirmation" hdouble rfl)).append
    (Toml.writes_entry "error_threshold" hthreshold rfl)).append
    (Toml.writes_entry "tool_call_timeout_ms" htimeout rfl)).append
    (Toml.writes_entry "model" hmodel rfl)).append
    (Toml.writes_entry "temperature" htemperature rfl)).append
    (Toml.writes_entryIfAny "max_tokens" .nat htokens (fun _ => rfl))
  refine Toml.restores_record (Toml.regular_record (by decide) (by decide) hvalues
    (Toml.writes_nil []) (List.append_nil _)) ?_
  simp only [ofToml, Toml.toRecord, Option.bind_eq_bind, Option.bind_some]
  rw [Toml.get_eq ?_ hiterations, Toml.get_eq ?_ hcalls, Toml.get_eq ?_ hdouble,
    Toml.get_eq ?_ hthreshold, Toml.get_eq ?_ htimeout, Toml.get_eq ?_ hmodel,
    Toml.get_eq ?_ htemperature, Toml.get?_eq ?_ htokens]
  · rfl
  all_goals simp [List.lookup_append, Toml.lookup_entry, Toml.lookup_entryIfAny]

/-- The numbers are those of their types, none is larger than TOML can hold, and the limits are in
order. -/
structure GovernanceConfig.InRange (c : GovernanceConfig) : Prop where
  rateWindow : c.rateWindowSecs ≤ 0x7fffffffffffffff
  sorted : Keyed.Sorted c.rateLimits
  rateLimits : ∀ entry ∈ c.rateLimits, entry.2 < 0x100000000

theorem GovernanceConfig.restores {c : GovernanceConfig} (h : c.InRange) :
    Toml.Restores 1 GovernanceConfig.ofToml c.toToml c := by
  have hautonomy := AutonomyLevel.restores_name 2 c.autonomy
  have hdenied := Toml.restores_texts 2 c.deniedTools
  have hreadOnly := Toml.restores_texts 2 c.readOnlyTools
  have hblocked := Toml.restores_texts 2 c.supervisedBlockedTools
  have hwindow := Toml.restores_nat64 2 h.rateWindow
  have hlimits := Toml.restores_counts 2 (by decide) h.sorted h.rateLimits
  have hvalues : Toml.Writes 1 false _ _ := ((((Toml.writes_entry "autonomy" hautonomy rfl).append
    (Toml.writes_entry "denied_tools" hdenied rfl)).append
    (Toml.writes_entry "read_only_tools" hreadOnly rfl)).append
    (Toml.writes_entry "supervised_blocked_tools" hblocked rfl)).append
    (Toml.writes_entry "rate_window_secs" hwindow rfl)
  have htables : Toml.Writes 1 true _ _ := Toml.writes_entry "rate_limits" hlimits rfl
  refine Toml.restores_record (Toml.regular_record (by decide) (by decide) hvalues htables rfl) ?_
  simp only [ofToml, Toml.toRecord, Option.bind_eq_bind, Option.bind_some]
  rw [Toml.get_eq ?_ hautonomy, Toml.get_eq ?_ hdenied, Toml.get_eq ?_ hreadOnly,
    Toml.get_eq ?_ hblocked, Toml.get_eq ?_ hwindow, Toml.get_eq ?_ hlimits]
  · rfl
  all_goals simp [Toml.lookup_cons]

/-- The numbers are those of their types, none is larger than TOML can hold, and the limits of the
tools are in order. -/
structure BudgetConfig.InRange (c : BudgetConfig) : Prop where
  maxModelCalls : ∀ n ∈ c.maxModelCalls, n < 0x100000000
  maxToolCalls : ∀ n ∈ c.maxToolCalls, n < 0x100000000
  maxTokens : ∀ n ∈ c.maxTokens, n ≤ 0x7fffffffffffffff
  maxDuration : ∀ n ∈ c.maxDurationSecs, n ≤ 0x7fffffffffffffff
  sorted : Keyed.Sorted c.perTool
  perTool : ∀ entry ∈ c.perTool, entry.2 < 0x100000000

theorem BudgetConfig.restores {c : BudgetConfig} (h : c.InRange) :
    Toml.Restores 1 BudgetConfig.ofToml c.toToml c := by
  have hmodel := fun n hn => Toml.restores_nat32 2 (h.maxModelCalls n hn)
  have htool := fun n hn => Toml.restores_nat32 2 (h.maxToolCalls n hn)
  have htokens := fun n hn => Toml.restores_nat64 2 (h.maxTokens n hn)
  have hduration := fun n hn => Toml.restores_nat64 2 (h.maxDuration n hn)
  have hlimits := Toml.restores_counts 2 (by decide) h.sorted h.perTool
  have hvalues : Toml.Writes 1 false _ _ :=
    (((Toml.writes_entryIfAny "max_llm_calls" .nat hmodel (fun _ => rfl)).append
    (Toml.writes_entryIfAny "max_tool_calls" .nat htool (fun _ => rfl))).append
    (Toml.writes_entryIfAny "max_tokens" .nat htokens (fun _ => rfl))).append
    (Toml.writes_entryIfAny "max_duration_secs" .nat hduration (fun _ => rfl))
  have htables : Toml.Writes 1 true ["per_tool"]
      (if c.perTool.isEmpty then [] else Toml.entry "per_tool" (.counts c.perTool)) := by
    split
    · exact Toml.writes_nil _
    · exact Toml.writes_entry "per_tool" hlimits rfl
  refine Toml.restores_record (Toml.regular_record (by decide) (by decide) hvalues htables rfl) ?_
  simp only [ofToml, Toml.toRecord, Option.bind_eq_bind, Option.bind_some]
  rw [Toml.get?_eq ?_ hmodel, Toml.get?_eq ?_ htool, Toml.get?_eq ?_ htokens,
    Toml.get?_eq ?_ hduration]
  · by_cases hempty : c.perTool.isEmpty = true
    · rw [Toml.get_of_absent]
      · simp only [Option.bind_some, Option.pure_def, ← List.isEmpty_iff.1 hempty]
      · simp [List.lookup_append, Toml.lookup_entryIfAny, hempty]
    · rw [Toml.get_eq ?_ hlimits]
      · rfl
      · simp [List.lookup_append, Toml.lookup_entry, Toml.lookup_entryIfAny, hempty]
  all_goals split <;> simp [List.lookup_append, Toml.lookup_entry, Toml.lookup_entryIfAny]

theorem TelemetryConfig.restores {c : TelemetryConfig} (h : c.maxTraces ≤ 0x7fffffffffffffff) :
    Toml.Restores 1 TelemetryConfig.ofToml c.toToml c := by
  have htracing := Toml.restores_bool 2 c.tracingEnabled
  have htraces := Toml.restores_nat64 2 h
  have hvalues : Toml.Writes 1 false _ _ :=
    (Toml.writes_entry "tracing_enabled" htracing rfl).append
    (Toml.writes_entry "max_traces" htraces rfl)
  refine Toml.restores_record (Toml.regular_record (by decide) (by decide) hvalues
    (Toml.writes_nil []) rfl) ?_
  simp only [ofToml, Toml.toRecord, Option.bind_eq_bind, Option.bind_some]
  rw [Toml.get_eq ?_ htracing, Toml.get_eq ?_ htraces]
  · rfl
  all_goals simp [Toml.lookup_cons]

/-! ## The configuration -/

namespace AppConfig

/-- The numbers are those of their types, none is larger than TOML can hold, and mappings are in
order. -/
structure InRange (c : AppConfig) : Prop where
  agentLoop : c.agentLoop.InRange
  governance : c.governance.InRange
  budget : ∀ budget ∈ c.budget, budget.InRange
  maxTraces : c.telemetry.maxTraces ≤ 0x7fffffffffffffff

/-- The configuration can be written, and what is written denotes it. -/
theorem restores {c : AppConfig} (h : c.InRange)
    (hfinite : c.agentLoop.temperature.isFinite = true) :
    ((Toml.table c.toToml).Regular 0 ∧ (Toml.table c.toToml).writable = true) ∧
      ofToml c.toToml = some c := by
  have hloop := LoopConfig.restores h.agentLoop hfinite
  have hgovernance := GovernanceConfig.restores h.governance
  have hbudget := fun budget hbudget => BudgetConfig.restores (h.budget budget hbudget)
  have htelemetry := TelemetryConfig.restores h.maxTraces
  have htables : Toml.Writes 0 true _ _ :=
    (((Toml.writes_entry "agent_loop" hloop rfl).append
    (Toml.writes_entry "governance" hgovernance rfl)).append
    (Toml.writes_entryIfAny "budget" BudgetConfig.toToml hbudget (fun _ => rfl))).append
    (Toml.writes_entry "telemetry" htelemetry rfl)
  refine ⟨Toml.regular_record (by decide) (by decide) (Toml.writes_nil []) htables rfl, ?_⟩
  simp only [ofToml, toToml, Option.bind_eq_bind]
  rw [Toml.get_eq ?_ hloop, Toml.get_eq ?_ hgovernance, Toml.get?_eq ?_ hbudget,
    Toml.get_eq ?_ htelemetry]
  · rfl
  all_goals simp [List.lookup_append, Toml.lookup_entry, Toml.lookup_entryIfAny]

theorem isFinite_of_within {x : Binary} {limit : Nat} (h : x.within limit = true) :
    x.isFinite = true := by
  cases x with
  | finite negative m e => rfl
  | _ => contradiction

/-- The bytes of a text are this text. -/
theorem ofBytes_toUTF8 (text : String) : FileContent.ofBytes text.toUTF8 = .text text := by
  have hread : String.fromUTF8? text.toUTF8 = some text := dif_pos text.isValidUTF8
  rw [FileContent.ofBytes, hread]

/-- A configuration that is shown is loaded from what was printed: the text is all there, and it is
read as the configuration. -/
theorem ofFile_shown {c : AppConfig} (hvalid : c.Valid) (hrange : c.InRange) (path : String) :
    ∃ text, Configuration.shown (.ok c) = .printed text ∧
      ofFile path (.ofBytes text.toUTF8) = .ok c := by
  obtain ⟨⟨hregular, hwritable⟩, hread⟩ := restores hrange (isFinite_of_within hvalid.temperature)
  have hwrite : c.write = some (String.ofList (Toml.document c.toToml)) := if_pos hwritable
  have htext : String.ofList (Toml.document c.toToml) ++ "\n" =
      String.ofList (Toml.document c.toToml ++ ['\n']) := by
    rw [String.ofList_append]
  refine ⟨String.ofList (Toml.document c.toToml ++ ['\n']), ?_, ?_⟩
  · rw [Configuration.shown]
    simp only [hwrite, htext]
  · rw [ofBytes_toUTF8, ofFile, Toml.read_document hregular, Option.bind_some, hread]
    exact checked_eq_ok_iff.2 ⟨hvalid, rfl⟩

/-- A configuration in which each list and mapping differs from its default, with names that need
quotes, escapes or more than one line, a budget without a ceiling, and the temperature `0.7`. -/
def unusual : AppConfig :=
  { agentLoop :=
      { LoopConfig.default with
        model := "größe \"3\"\n"
        temperature := .finite false 11744051 (-24)
        maxTokens := some 4096 }
    governance :=
      { autonomy := .full
        deniedTools := ["rm '-rf'", "\t"]
        readOnlyTools := ["読む"]
        supervisedBlockedTools := []
        rateWindowSecs := 1
        rateLimits := [("", 0), ("\\ \"", 7), ("a.b", 3), ("größe", 4294967295)] }
    budget := some .unlimited
    telemetry := ⟨false, 0x7fffffffffffffff⟩ }

theorem ofFile_shown_unusual : unusual.Valid ∧ unusual.InRange ∧
    ∃ text, Configuration.shown (.ok unusual) = .printed text ∧
      ofFile "config.toml" (.ofBytes text.toUTF8) = .ok unusual := by
  have hvalid : unusual.Valid := ⟨by decide, by decide, by decide, by decide, by decide,
    fun _ => by decide, by decide⟩
  have hfits : binary32.Fits 11744051 (-24) :=
    ⟨by decide, by decide, by decide, by decide, by decide⟩
  have hbudget : BudgetConfig.unlimited.InRange :=
    ⟨by decide, by decide, by decide, by decide, by decide, by decide⟩
  have hrange : unusual.InRange :=
    ⟨⟨by decide, by decide, by decide, by decide, .inr hfits, by decide⟩,
      ⟨by decide, by decide, by decide⟩, by rintro _ ⟨⟩; exact hbudget, by decide⟩
  exact ⟨hvalid, hrange, ofFile_shown hvalid hrange "config.toml"⟩

end AppConfig

end AgentLoop
