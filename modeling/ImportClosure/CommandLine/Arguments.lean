import ImportClosure.Configuration.File
import ImportClosure.Options.Help
/-!
The command line of the program.
-/

namespace ImportClosure

/-- How the files of a run are shown. -/
inductive OutputFormat where
  /-- A JSON object with the contents. -/
  | json
  /-- The paths, a line each. -/
  | paths
deriving DecidableEq

/-- What the program is asked to do. -/
structure Arguments where
  /-- The file to start at. -/
  entrypoint : Text
  /-- Further packages that are there. -/
  allow : List Text
  /-- The configuration file. -/
  config : Option Text
  /-- How the files are shown. -/
  format : OutputFormat
  /-- The file that takes the output. -/
  output : Option Text
  /-- The directory for log files. -/
  logDirectory : Option Text
  /-- Progress is reported. -/
  verbose : Bool

namespace CommandLine

/-- The option that names the configuration file. -/
def configOption : OptionSpec where
  names := ["--config"]
  arity := .one
  argumentName := "CONFIG"
  choices := []
  help := "Configuration file (default: ./" ++ Config.fileName ++ ")"

/-- The arguments of the program. -/
def program : ProgramSpec where
  name := "check-deps"
  description := "Resolve every local file and package a check entrypoint depends on."
  options :=
    [⟨["--allow"], .many, "NAME", [], "Additional package names available in the runtime"⟩,
      configOption,
      ⟨["-f", "--format"], .one, "\x7bjson,paths\x7d", ["json", "paths"],
        "Output format (default: json)"⟩,
      ⟨["-o", "--output"], .one, "OUTPUT", [], "Output file (default: stdout)"⟩,
      ⟨["--log-dir"], .one, "LOG_DIR", [],
        "Directory for structured JSON logs (default: no log file)"⟩,
      ⟨["-v", "--verbose"], .zero, [], [], "Log progress to stderr"⟩]
  operand := some ("entrypoint", "Entrypoint file (.js or .ts)")
  epilog :=
    ["Examples:",
      "  check-deps checks/home.spec.js                  # JSON file set on stdout",
      "  check-deps checks/api.check.ts --allow axios    # Permit an extra package",
      "  check-deps checks/home.spec.js -f paths         # Only list resolved paths",
      "        "]

/-- What the given options ask for. -/
def ofGiven (g : Given) : Arguments where
  entrypoint := g.operand.getD []
  allow := (g.last? "--allow").getD []
  config := (g.argument? "--config").map Path.clean
  format := if g.argument? "--format" = some (Text.ofString "paths") then .paths else .json
  output := (g.argument? "--output").map Path.clean
  logDirectory := (g.argument? "--log-dir").map Path.clean
  verbose := g.isGiven "--verbose"

end CommandLine

end ImportClosure
