import ImportClosure.Resolution.Walk
/-!
The log of a run.

Every record is made from an event of the run's trace; a storage adds what it notes about the
paths it is asked for, and a grammar is reported as loaded when it is first needed.
-/

namespace ImportClosure

namespace Event

/-- What is reported about an event, the loading of grammars apart. -/
def records (r : Reader) : Event → List LogRecord
  | asked path => r.notes path
  | absent path => [⟨.debug, LogSource.resolver, "No readable file at " ++ path, none, []⟩]
  | entryUnreadable path why =>
    [⟨.error, LogSource.resolver, "Cannot read entrypoint " ++ path ++ ": " ++ why.message,
      none, []⟩]
  | started entry =>
    [⟨.info, LogSource.resolver, "Resolving dependencies of " ++ entry, none, []⟩]
  | extracting _ _ => []
  | refused path reason =>
    [⟨.warning, LogSource.collector, "⚠️ Could not parse " ++ path ++ ": " ++ reason, none, []⟩]
  | clean entry =>
    [⟨.debug, LogSource.collector, "No errors recorded for " ++ entry, none, []⟩]
  | finished count entry =>
    [⟨.info, LogSource.resolver,
      "Resolved " ++ Text.ofNat count ++ " file(s) for " ++ entry, none, []⟩]

end Event

namespace Resolution

/-- The log of a trace; `loading` is what is reported when a grammar is first needed, `loaded`
are the grammars that were needed before. -/
def logOf (r : Reader) (loading : Variant → List LogRecord) (loaded : List Variant) :
    List Event → List LogRecord
  | [] => []
  | .extracting _ v :: events =>
    (if v ∈ loaded then [] else loading v) ++ logOf r loading (v :: loaded) events
  | event :: events => event.records r ++ logOf r loading loaded events

/-- The log of a run. -/
def log (r : Reader) (loading : Variant → List LogRecord) (run : Resolution) : List LogRecord :=
  logOf r loading [] run.trace

end Resolution

end ImportClosure
