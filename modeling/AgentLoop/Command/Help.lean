import AgentLoop.Command.Line

/-!
# What the program says about itself

* `helpText` is printed when help is asked for, `versionText` when the version is.
* `refusalText` is printed when a command line is refused.
-/

namespace AgentLoop

/-- The name of the program. -/
def programName : String := "toolloop"

/-- The version of the program. -/
def versionText : String := s!"{programName} 0.1.0\n"

/-- How the program is called. -/
def usageText : String := s!"Usage: {programName} [OPTIONS] <COMMAND>\n"

/-- The commands and options. -/
def helpText : String :=
  "toolloop: iterative tool-use execution loop for LLM agents\n\n" ++ usageText ++
    "\nCommands:\n" ++
    "  replay <SESSION>  Run the loop against a scripted session\n" ++
    "  config show       Print the effective configuration\n" ++
    "  config validate   Validate the configuration and report warnings\n" ++
    "  config path       Print the config file path\n" ++
    "  config init       Write the default configuration\n" ++
    "  help              Print help\n" ++
    "\nOptions of every command:\n" ++
    "  -v, --verbose                  Enable verbose logging\n" ++
    "      --log-format <LOG_FORMAT>  Log output format: text or json\n" ++
    "      --config <CONFIG>          Config file (defaults to ~/.toolloop/config.toml)\n" ++
    "  -h, --help                     Print help\n" ++
    "  -V, --version                  Print version\n" ++
    "\nOptions of replay:\n" ++
    "      --no-confirm                      Accept the first text answer without a confirmation turn\n" ++
    "      --max-iterations <MAX_ITERATIONS>  Override agent_loop.max_iterations\n"

/-- What is said about a command line that is refused. -/
def refusalText : String :=
  "error: the command line is not understood\n\n" ++ usageText ++
    "\nFor more information, try '--help'.\n"

/-- What is printed as the result, and what beside it, when a command line is not carried out. -/
def LineStop.texts : LineStop → String × String
  | help => (helpText, "")
  | version => (versionText, "")
  | refused => ("", refusalText)

end AgentLoop
