import PowerShare.Command.Arguments

/-!
# Pages of help

What the program says about itself. The wording of options is kept here and nowhere else.
-/

namespace PowerShare

/-- The program and its version. -/
def versionLine : String := "ampere 0.1.0"

/-- The lines of a page of help. -/
def HelpPage.lines : HelpPage → List String
  | .overview =>
    ["Ampere - component power attribution",
      "",
      "Usage: ampere <COMMAND>",
      "",
      "Commands:",
      "  attribute  Attribute component usage to its consumers",
      "  profile    Show power profile constants",
      "  help       Print this message or the help of the given subcommand(s)",
      "",
      "Options:",
      "  -h, --help     Print help",
      "  -V, --version  Print version"]
  | .attribution =>
    ["Attribute component usage to its consumers",
      "",
      "Usage: ampere attribute [OPTIONS] --snapshot <SNAPSHOT>",
      "",
      "Options:",
      "  -s, --snapshot <SNAPSHOT>    Snapshot file (JSON)",
      "  -c, --config <CONFIG>        Engine configuration file (TOML)",
      "      --component <COMPONENT>  Component the snapshot belongs to. " ++
        "Without it the snapshot must map component names to activity",
      "      --per-state              Split each consumer's power by execution state",
      "      --force-profile          Ignore reported power and estimate from the profile",
      "      --json <JSON>            Write the reports as JSON",
      "      --wire <WIRE>            Write the reports as length-prefixed bincode envelopes",
      "      --legacy                 Also print the legacy system usage entry",
      "      --metrics                Print diagnostics counters in Prometheus text format",
      "  -n, --top <TOP>              Number of consumers to show per component [default: 10]",
      "  -v, --verbose                Verbose logging",
      "  -h, --help                   Print help"]
  | .profile =>
    ["Show power profile constants",
      "",
      "Usage: ampere profile [OPTIONS]",
      "",
      "Options:",
      "  -c, --config <CONFIG>  Engine configuration file (TOML)",
      "      --toml             Print the effective profile as TOML",
      "  -v, --verbose          Verbose logging",
      "  -h, --help             Print help"]
  | .help =>
    ["Print this message or the help of the given subcommand(s)",
      "",
      "Usage: ampere help [COMMAND]...",
      "",
      "Arguments:",
      "  [COMMAND]...  Print help for the subcommand(s)"]

end PowerShare
