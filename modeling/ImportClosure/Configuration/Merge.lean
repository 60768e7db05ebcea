import ImportClosure.Configuration.Basic
import ImportClosure.Log.Record
import ImportClosure.Value.Printer
/-!
Configurations from mappings.

Every entry of the mapping is taken on its own: one with an unknown key or a value that its
parameter does not accept is reported and otherwise has no effect. A report shows the key or the
value, so merging breaks off at an entry whose report would show a number that cannot be written
out.
-/

namespace ImportClosure.Config

/-- A report about a configuration. -/
def warning (message : Text) : LogRecord := ⟨.warning, LogSource.config, message, none, []⟩

/-- A report that cannot be made: it would show a number that cannot be written out. -/
structure Unwritable where
  /-- What was reported before. -/
  before : List LogRecord

/-- The reports with one more, which shows a value. -/
def report (log : List LogRecord) (shown : Value) (message : Text) :
    Except Unwritable (List LogRecord) :=
  if shown.isWritable then .ok (log ++ [warning message]) else .error ⟨log⟩

/-- What is said of an unknown key. -/
def unknownKey (key : Value) : Text :=
  "Unknown configuration parameter '" ++ key.plain ++ "', ignoring"

/-- What is said of a value that its parameter does not accept. -/
def invalidValue (p : Parameter) (v : Value) : Text :=
  "Invalid value for '" ++ p.name ++ "': " ++ v.plain ++ ", using default " ++ (standard.get p).plain

/-- The configuration after one entry, and what is reported up to then. -/
def mergeEntry (c : Config) (log : List LogRecord) (entry : Value × Value) :
    Except Unwritable (Config × List LogRecord) :=
  match Parameter.ofKey? entry.1 with
  | none => (report log entry.1 (unknownKey entry.1)).map fun log => (c, log)
  | some p =>
    match c.set? entry.2 p with
    | some c => .ok (c, log)
    | none => (report log entry.2 (invalidValue p entry.2)).map fun log => (c, log)

/-- The configuration after some entries, and what is reported up to then. -/
def merge (c : Config) (log : List LogRecord) :
    List (Value × Value) → Except Unwritable (Config × List LogRecord)
  | [] => .ok (c, log)
  | entry :: entries =>
    match c.mergeEntry log entry with
    | .error why => .error why
    | .ok (c, log) => merge c log entries

/-- The configuration that a value spells, and what is reported about it, if it is a mapping. -/
def ofValue? : Value → Option (Except Unwritable (Config × List LogRecord))
  | .mapping entries => some (standard.merge [] entries)
  | _ => none

/-- What is said of a value that spells no configuration. -/
def notAMapping (v : Value) : Text :=
  "Configuration must be a dictionary, got " ++ v.typeName

end ImportClosure.Config
