import ImportClosure.Configuration.Loader
import ImportClosure.Configuration.Merge
import ImportClosure.Storage.Disk
/-!
Configurations from files.

A file that is not there, that cannot be opened, that the loader refuses, that is empty or that
holds something else than a mapping is reported, and the defaults are used. Four things are not
taken for a damaged file and end the program: bytes that are no text, if the loader comes to them, a
path that is too long, a value that cannot be made, such as a day that no month has, and a report
that cannot be written.
-/

namespace ImportClosure

/-- Why there is no configuration. -/
inductive ConfigFailure where
  /-- The path is longer than any name on a disk. -/
  | nameTooLong (path : Text)
  /-- The bytes of the file are no text. -/
  | undecodable (why : Utf8.IllFormed)
  /-- A value cannot be made; the failure has a kind and a message of its own. -/
  | unmakeable (kind message : Text)
  /-- A report cannot be written. -/
  | unwritable (why : Config.Unwritable)

namespace ConfigFailure

/-- What was reported before the failure. -/
def log : ConfigFailure → List LogRecord
  | unwritable why => why.before
  | _ => []

/-- The failure in words. -/
def message : ConfigFailure → Text
  | nameTooLong path => DiskFault.nameTooLong.message path
  | undecodable e => e.message
  | unmakeable _ message => message
  | unwritable _ => Value.tooManyDigits

end ConfigFailure

namespace Config

/-- The name of the file in the working directory that is used if no other one is given. -/
def fileName : Text := ".check_deps.yml"

/-- A text in which every line end is a line feed. -/
def withLineFeeds : Text → Text
  | [] => []
  | c :: cs =>
    if c = '\r' then
      match cs with
      | [] => ['\n']
      | d :: ds => if d = '\n' then '\n' :: withLineFeeds ds else '\n' :: withLineFeeds (d :: ds)
    else c :: withLineFeeds cs

/-- The text of a file's bytes. A sequence that the end of the file breaks off is looked at apart
from what stands before it, so its position is counted from its own start. -/
def decode (content : Bytes) : Except ConfigFailure Text :=
  match Utf8.decode content with
  | .ok t => .ok (withLineFeeds t)
  | .error e =>
    .error (.undecodable (if e.fault = .truncated then { e with first := 0 } else e))

/-- A report about the file at a path, after which the defaults are used. -/
def usingDefaults (message : Text) : Config × List LogRecord :=
  (standard, [warning (message ++ ", using defaults")])

/-- What is said of a file that the loader refuses. -/
def refusedFile (path why : Text) : Text :=
  "Error parsing configuration file " ++ path ++ ": " ++ why

/-- What a failure of the loader leads to: only a file that it refuses leaves the defaults. -/
def ofFailure (path : Text) : LoadFailure → Except ConfigFailure (Config × List LogRecord)
  | .refused why => .ok (usingDefaults (refusedFile path why))
  | .unmakeable kind message => .error (.unmakeable kind message)

/-- The configuration that a text spells, and what is reported about it. -/
def ofText (loader : Loader) (path t : Text) : Except ConfigFailure (Config × List LogRecord) :=
  match loader.load path t with
  | .error failure => ofFailure path failure
  | .ok .null => .ok (usingDefaults "Configuration file is empty")
  | .ok v =>
    match ofValue? v with
    | some (.ok result) => .ok result
    | some (.error why) => .error (.unwritable why)
    | none =>
      .ok (usingDefaults ("Configuration file must contain a YAML dictionary, got "
        ++ v.typeName))

/-- The configuration in the file at a path. -/
def ofFile (loader : Loader) (d : Disk) (path : Text) :
    Except ConfigFailure (Config × List LogRecord) :=
  match d.find path with
  | .error .nameTooLong => .error (.nameTooLong path)
  | .error _ =>
    .ok (standard, [⟨.info, LogSource.config,
      "Configuration file not found at " ++ path ++ ", using defaults", none, []⟩])
  | .ok .directory =>
    .ok (usingDefaults ("Error reading configuration file " ++ path ++ ": "
      ++ DiskFault.isADirectory.message path))
  | .ok (.file content) =>
    match decode content with
    | .ok t => ofText loader path t
    | .error why =>
      match loader.early? path content with
      | some failure => ofFailure path failure
      | none => .error why

/-- The configuration in the file at a path, or in the one of the working directory. -/
def loadWith (loader : Loader) (d : Disk) (path : Option Text) :
    Except ConfigFailure (Config × List LogRecord) :=
  match path with
  | some path => ofFile loader d (Path.clean path)
  | none => ofFile loader d (d.absolutePath fileName)

end Config

end ImportClosure
