import ImportClosure.CommandLine.Arguments
import ImportClosure.Configuration.File
import ImportClosure.Log.Sink
import ImportClosure.Resolution.Configured
/-!
What the program does.

The program sets up its log, loads the configuration, resolves the entrypoint and writes the
files. A run is a function of the words on the command line, the moment and the disk, and gives
the disk afterwards together with what was written, so that nothing but reading and writing is
left to the outside. Who loads the configuration and who reads the specifiers off a source is up
to whoever runs the program.
-/

namespace ImportClosure.CommandLine

/-- Why a run breaks off. -/
inductive Crash where
  /-- The log file cannot be opened. -/
  | log (fault : DiskFault) (path : Text)
  /-- The configuration cannot be made. -/
  | config (why : ConfigFailure)
  /-- A text cannot be written as bytes. -/
  | unencodable (why : Text.Unencodable)
  /-- A path holds U+0000. -/
  | nullInPath
  /-- The walk does not end within what the disk lists. -/
  | unfinished

/-- How a run ends. -/
inductive Ending where
  /-- The program has run, with this status. -/
  | ran (status : Nat)
  /-- The command line asks for help or is refused. -/
  | notRun (status : Nat)
  /-- The program breaks off. -/
  | crashed (why : Crash)

/-- What a run leads to. -/
structure Outcome where
  /-- The disk, and what was written to the error output. -/
  surroundings : Surroundings
  /-- What was written to the output. -/
  output : Text
  /-- How the run ends. -/
  ending : Ending
  /-- The paths that were looked at or written. -/
  touched : List Text

namespace Crash

/-- The failure in words. -/
def message : Crash → Text
  | log fault path => fault.message path
  | config why => why.message
  | unencodable why => why.message
  | nullInPath => "embedded null byte"
  | unfinished => "more files than the disk lists"

/-- Why a path cannot be handed to the disk at all, if that is so. -/
def ofPath? (path : Text) : Option Crash :=
  match Utf8.encode path with
  | .error why => some (unencodable why)
  | .ok _ => if CodePoint.ofNat 0 ∈ path then some nullInPath else none

end Crash

/-- The files as they are shown, without the last line end. -/
def render (format : OutputFormat) (entrypoint : Text) (files : OrderedMap Text Text) : Text :=
  match format with
  | .paths => Text.joinWith "\n" (TextSet.ofList files.keys).toList
  | .json =>
    (Json.object [("entrypoint", .text entrypoint),
      ("files", .object (files.entries.map fun f => (f.1, .text f.2)))]).print (some 2)

/-- A failure as it is shown, without the last line end. -/
def renderError (format : OutputFormat) (e : ResolutionError) : Text :=
  match format with
  | .paths => e.report
  | .json => e.toJson.print (some 2)

/-- Writes the files to the output, or to a file. -/
def deliver (a : Arguments) (l : Logging) (now : Moment) (s : Surroundings) (text : Text) :
    Surroundings × Text × Ending :=
  match a.output with
  | none => (s, text ++ "\n", .ran 0)
  | some path =>
    match Crash.ofPath? path with
    | some why => (s, [], .crashed why)
    | none =>
      match Utf8.encode (text ++ "\n") with
      | .error why => (s, [], .crashed (.unencodable why))
      | .ok bytes =>
        match s.disk.write path bytes with
        | .error fault => (s.complain ("Error writing output: " ++ fault.message path), [], .ran 1)
        | .ok disk =>
          let note : LogRecord :=
            ⟨.info, LogSource.commandLine, "Output written to: " ++ path, none, []⟩
          (l.write now { s with disk := disk } note, [], .ran 0)

/-- The paths that a run asked the storage for. -/
def askedPaths (trace : List Event) : List Text :=
  trace.filterMap fun e => match e with
    | .asked path => some path
    | _ => none

/-- Runs the program by its arguments. -/
def runWith (loader : Loader) (extractors : List Extractor) (a : Arguments) (now : Moment)
    (disk : Disk) : Outcome :=
  let level := if a.verbose then LogLevel.debug else LogLevel.warning
  let made := Logging.setUp a.logDirectory level a.verbose now ⟨disk, []⟩
  let own := (a.logDirectory.map fun d => Logging.filePath d now).toList
    ++ [a.config.getD Config.fileName] ++ a.output.toList
  match made.outcome with
  | .error (fault, path) => ⟨made.surroundings, [], .crashed (.log fault path), own⟩
  | .ok _ =>
    match Config.loadWith loader made.surroundings.disk a.config with
    | .error why =>
      ⟨made.logging.writeAll now made.surroundings why.log, [], .crashed (.config why), own⟩
    | .ok (c, log) =>
      let c := c.withAllowedPackages a.allow
      let s := made.logging.writeAll now made.surroundings log
      let (run, log) := c.resolve extractors (c.diskReader s.disk) a.entrypoint
      let s := made.logging.writeAll now s log
      let touched := own ++ askedPaths run.trace
      match run.outcome with
      | .error (.reported e) =>
        ⟨s.complain (renderError a.format e), [], .ran 1, touched⟩
      | .error (.unencodable why) => ⟨s, [], .crashed (.unencodable why), touched⟩
      | .error .unfinished => ⟨s, [], .crashed .unfinished, touched⟩
      | .ok files =>
        let (s, output, ending) :=
          deliver a made.logging now s (render a.format a.entrypoint files)
        ⟨s, output, ending, touched⟩

/-- Runs the program on the words of a command line. -/
def execute (loader : Loader) (extractors : List Extractor) (words : List Text) (now : Moment)
    (disk : Disk) : Outcome :=
  match program.read words with
  | .error fault => ⟨⟨disk, program.refusal fault⟩, [], .notRun 2, []⟩
  | .ok .help => ⟨⟨disk, []⟩, program.help, .notRun 0, []⟩
  | .ok (.run given) => runWith loader extractors (ofGiven given) now disk

end ImportClosure.CommandLine
