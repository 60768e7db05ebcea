import ImportClosure.Resolution.Error
/-!
The findings of one run.

The collector holds the files visited, which are also the result, and the three categories of
faults. Everything is only ever added: the first content of a file stays, the last message about
a file counts, and lists of names or referrers grow by what is not in them yet.
-/

namespace ImportClosure

/-- The list with those of the `names` that are not in it yet, each once, at its end. -/
def appendNew (known : List Text) (names : List Text) : List Text :=
  names.foldl (fun known name => if name ∈ known then known else known ++ [name]) known

/-- The findings of one run. -/
structure Collector where
  /-- The file the run started from. -/
  entrypoint : Text
  /-- The files visited, with their contents. -/
  files : OrderedMap Text Text
  /-- Each path that could not be found, with the files that refer to it. -/
  missing : OrderedMap Text (List Text)
  /-- Each file that could not be parsed, with the reason. -/
  unparsed : OrderedMap Text Text
  /-- Each file that uses packages that are not provided, with their names. -/
  unsupported : OrderedMap Text (List Text)

namespace Collector

/-- The findings at the start: the entrypoint's content. -/
def start (entrypoint content : Text) : Collector where
  entrypoint := entrypoint
  files := (∅ : OrderedMap Text Text).insert entrypoint content
  missing := ∅
  unparsed := ∅
  unsupported := ∅

/-- Adds a file, unless it was visited before. -/
def addFile (c : Collector) (path content : Text) : Collector :=
  { c with files := c.files.insertIfNew path content }

/-- The file was visited. -/
def hasFile (c : Collector) (path : Text) : Bool := c.files.contains path

/-- The number of files visited. -/
def size (c : Collector) : Nat := c.files.size

/-- Records that a file could not be parsed. -/
def addUnparsed (c : Collector) (path message : Text) : Collector :=
  { c with unparsed := c.unparsed.insert path message }

/-- Records packages that a file uses and that are not provided. -/
def addUnsupported (c : Collector) (path : Text) (names : List Text) : Collector :=
  match appendNew ((c.unsupported.get? path).getD []) names with
  | [] => c
  | recorded => { c with unsupported := c.unsupported.insert path recorded }

/-- Records a path that could not be found, and a file that refers to it. -/
def addMissing (c : Collector) (path : Text) (referrer : Option Text) : Collector :=
  { c with
    missing := c.missing.insert path (appendNew ((c.missing.get? path).getD []) referrer.toList) }

/-- Some fault was recorded. -/
def hasFaults (c : Collector) : Bool :=
  !(c.missing.isEmpty && c.unparsed.isEmpty && c.unsupported.isEmpty)

/-- All faults recorded. -/
def faultReport (c : Collector) : FaultReport where
  entrypoint := c.entrypoint
  missing := c.missing
  unparsed := c.unparsed
  unsupported := c.unsupported

/-- Fails with every fault recorded, if there are any. -/
def validate (c : Collector) : Except ResolutionError Unit :=
  if c.hasFaults then .error (.faulty c.faultReport) else .ok ()

end Collector

end ImportClosure
