import ImportClosure.Json.Basic
/-!
Log records.

What a run reports is data: each step of the tool returns the records it makes, in order, and a
sink decides which of them are written and how. A record has a level, the name of the part that
made it, a message, and optionally the text of an exception and further fields.
-/

namespace ImportClosure

/-- The weight of a log record. -/
abbrev LogLevel := Int

namespace LogLevel

/-- Details. -/
def debug : LogLevel := 10
/-- Progress. -/
def info : LogLevel := 20
/-- Something is not as it should be, but the run goes on. -/
def warning : LogLevel := 30
/-- Something failed. -/
def error : LogLevel := 40
/-- The run cannot go on. -/
def critical : LogLevel := 50

/-- The name of a level; a level between the named ones goes by its number. -/
def name (level : LogLevel) : Text :=
  if level = 0 then "NOTSET"
  else if level = debug then "DEBUG"
  else if level = info then "INFO"
  else if level = warning then "WARNING"
  else if level = error then "ERROR"
  else if level = critical then "CRITICAL"
  else "Level " ++ Text.ofInt level

end LogLevel

/-- One report of a run. -/
structure LogRecord where
  /-- How much it weighs. -/
  level : LogLevel
  /-- The part that made it. -/
  source : Text
  /-- What it says. -/
  message : Text
  /-- The exception it is about, in words. -/
  exception : Option Text := none
  /-- Further fields. -/
  extra : List (Text × Json) := []

/-! ## The parts that report -/

namespace LogSource

/-- The top of the hierarchy. -/
def root : Text := "root"
/-- Configuration. -/
def config : Text := "check_deps.config"
/-- File access. -/
def storage : Text := "check_deps.storage"
/-- Grammars. -/
def grammar : Text := "check_deps.extractors.base"
/-- The registry of extractors. -/
def registry : Text := "check_deps.extractors.registry"
/-- The collector of findings. -/
def collector : Text := "check_deps.collector"
/-- The walk over the import graph. -/
def resolver : Text := "check_deps.resolver"
/-- The command line. -/
def commandLine : Text := "check_deps.cli"

end LogSource

end ImportClosure
