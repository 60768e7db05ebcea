import ImportClosure.Log.Line
import ImportClosure.Storage.Disk
/-!
Where log records go.

Setting up a log replaces all sinks. A record is written by every sink whose level it reaches,
provided that it reaches the level of the log as a whole; a level of zero or less is never
written. Without any sink, warnings and worse are written bare to the error output.
-/

namespace ImportClosure

/-- A receiver of log records. -/
inductive Sink where
  /-- The end of a file. -/
  | file (path : Text) (level : LogLevel)
  /-- The error output. -/
  | console (level : LogLevel)
  /-- Nothing. -/
  | silent

namespace Sink

/-- The least level that is written. -/
def level : Sink → LogLevel
  | file _ level => level
  | console level => level
  | silent => 0

end Sink

/-- A log: its level and its sinks. -/
structure Logging where
  /-- The least level of a record. -/
  level : LogLevel
  /-- The receivers. -/
  sinks : List Sink

/-- What can be changed by writing: a disk, and the error output. -/
structure Surroundings where
  /-- The disk. -/
  disk : Disk
  /-- What was written to the error output. -/
  errors : Text

namespace Surroundings

/-- The surroundings after a line was written to the error output. -/
def complain (s : Surroundings) (line : Text) : Surroundings :=
  { s with errors := s.errors ++ line ++ "\n" }

end Surroundings

namespace Logging

/-- A log that was not set up. -/
def initial : Logging := ⟨.warning, []⟩

/-! ## Writing -/

/-- A record reaches the level of a log. -/
def isEnabled (l : Logging) (r : LogRecord) : Bool := decide (0 < r.level ∧ l.level ≤ r.level)

/-- The surroundings after a sink received a record. -/
def receive (now : Moment) (r : LogRecord) (s : Surroundings) (sink : Sink) : Surroundings :=
  if r.level < sink.level then s
  else match sink with
    | .file path _ =>
      match s.disk.append path (Utf8.encodeAll (r.fileLine now ++ "\n")) with
      | .ok disk => { s with disk := disk }
      | .error _ => s
    | .console _ => s.complain (r.consoleLine now)
    | .silent => s

/-- The surroundings after a record was written. -/
def write (l : Logging) (now : Moment) (s : Surroundings) (r : LogRecord) : Surroundings :=
  if !l.isEnabled r then s
  else match l.sinks with
    | [] => if r.level < LogLevel.warning then s else s.complain r.bareLine
    | sinks => sinks.foldl (receive now r) s

/-- The surroundings after records were written. -/
def writeAll (l : Logging) (now : Moment) (s : Surroundings) (rs : List LogRecord) :
    Surroundings :=
  rs.foldl (l.write now) s

/-! ## Setting up -/

/-- The path of the file in a directory that takes the records of a day. -/
def filePath (directory : Text) (now : Moment) : Text :=
  let name : Text := "check_deps_" ++ now.date.joined [] ++ ".log"
  if Path.clean directory = [Path.dot] then name else Path.join (Path.clean directory) name

/-- The disk with the directory and the file of a log; or the path at which that fails, and
why. -/
def openFile (d : Disk) (directory : Text) (now : Moment) : Except (DiskFault × Text) Disk := do
  let d ← d.ensureDirectory (Path.clean directory)
  let path := filePath directory now
  match d.append path [] with
  | .ok d => pure d
  | .error fault => .error (fault, d.absolutePath path)

/-- What setting up a log leads to: the log, the surroundings, and the path of the file if there
is one; or the failure. -/
structure SetUp where
  /-- The log. -/
  logging : Logging
  /-- The surroundings. -/
  surroundings : Surroundings
  /-- The path of the file if there is one, or where it fails, and why. -/
  outcome : Except (DiskFault × Text) (Option Text)

/-- Sets up a log with a file in a directory, on the console or both. A failure leaves a log
without sinks. -/
def setUp (directory : Option Text) (level : LogLevel) (onConsole : Bool) (now : Moment)
    (s : Surroundings) : SetUp :=
  let console := if onConsole then [Sink.console level] else []
  match directory with
  | none => ⟨⟨level, if onConsole then console else [.silent]⟩, s, .ok none⟩
  | some directory =>
    match openFile s.disk directory now with
    | .error e => ⟨⟨level, []⟩, s, .error e⟩
    | .ok disk =>
      let path := filePath directory now
      let l : Logging := ⟨level, .file path level :: console⟩
      let first : LogRecord := ⟨.info, LogSource.root,
        "Logging initialized. Log file: " ++ path, none, []⟩
      ⟨l, l.write now { s with disk := disk } first, .ok (some path)⟩

end Logging

end ImportClosure
