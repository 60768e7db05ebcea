import ImportClosure.Resolution.Candidate
import ImportClosure.Resolution.Collector
import ImportClosure.Specifier
import ImportClosure.Text.Utf8
/-!
The walk over the import graph.

Vertices are source files, edges are local specifiers. Starting from the entrypoint, files are
taken from a queue in the order in which they were found; the specifiers of each are resolved in
ascending order, and a file found for the first time is stored and queued. What is wrong with a
file is recorded and the walk goes on, so that one run reports every fault; only a bad entrypoint
and an exceeded limit end it at once.

A file enters the queue when it enters the collector, and every file that enters has a path that
the storage can read. So a run over a storage with `n` readable paths takes at most `n` files
from the queue, which is the bound that `resolve` gives to `run`. Besides its outcome a run
leaves a trace of what it did, from which its log is made.
-/

namespace ImportClosure

/-- What a resolution depends on besides the storage. -/
structure Settings where
  /-- The packages that are provided. -/
  allowed : List Text
  /-- The specifiers of a text in a grammar. -/
  extract : Text → Variant → Except Text.Unencodable Extraction
  /-- The number of files allowed; zero allows any number. -/
  maxFiles : Int

/-- Something a run does. -/
inductive Event where
  /-- The storage is asked for a path. -/
  | asked (path : Text)
  /-- A path asked for has no text. -/
  | absent (path : Text)
  /-- The entrypoint cannot be read. -/
  | entryUnreadable (path : Text) (why : ReadFailure)
  /-- The walk starts. -/
  | started (entry : Text)
  /-- The specifiers of a file are asked for. -/
  | extracting (path : Text) (variant : Variant)
  /-- A file is not accepted. -/
  | refused (path : Text) (reason : Text)
  /-- The queue is empty and no fault was recorded. -/
  | clean (entry : Text)
  /-- The walk succeeds. -/
  | finished (count : Nat) (entry : Text)
deriving DecidableEq

/-- Why a resolution gives no files. -/
inductive Failure where
  /-- The error is about the files. -/
  | reported (error : ResolutionError)
  /-- A text cannot be handed to its parser, which reads bytes. -/
  | unencodable (why : Text.Unencodable)
  /-- The storage holds more than it lists. -/
  | unfinished

/-- The outcome of a run, and what it did. -/
structure Resolution where
  /-- The files needed with their texts, or why there are none. -/
  outcome : Except Failure (OrderedMap Text Text)
  /-- What was done, in order. -/
  trace : List Event

namespace Resolution

/-! ## One file -/

/-- What one file contributes. -/
structure Examination where
  /-- Why it is not accepted. -/
  fault : Option Text := none
  /-- The packages it uses that are not provided, ascending. -/
  unsupported : List Text := []
  /-- The candidates of its specifiers that lead nowhere. -/
  missing : List Text := []
  /-- The files its specifiers lead to. -/
  found : List SourceFile := []
  /-- What was done to find out. -/
  trace : List Event := []

/-- What is done to look a candidate up. -/
def lookupTrace (r : Reader) : List Text → List Event
  | [] => []
  | path :: paths =>
    match r.read path with
    | .ok _ => [.asked path]
    | .error _ => .asked path :: .absent path :: lookupTrace r paths

/-- A file that is not accepted. -/
def Examination.refused (path reason : Text) (before : List Event) : Examination :=
  { fault := some reason, trace := before ++ [.refused path reason] }

/-- The candidates of a file's specifiers, in the order of the specifiers. -/
def candidates (path : Text) (specifiers : Specifiers) : List Text :=
  specifiers.files.toList.map (Candidate.ofSpecifier (Path.directory path))

/-- A file whose specifiers are known. -/
def Examination.accepted (s : Settings) (r : Reader) (path : Text) (v : Variant)
    (specifiers : Specifiers) (before : List Event) : Examination where
  unsupported := specifiers.packages.filter (fun name => !s.allowed.contains name)
  missing := (candidates path specifiers).filter (fun c => (Candidate.find? r v c).isNone)
  found := (candidates path specifiers).filterMap (Candidate.find? r v)
  trace := before
    ++ (candidates path specifiers).flatMap (fun c => lookupTrace r (Candidate.attempts v c))

/-- Looks at one file. -/
def examine (s : Settings) (r : Reader) (file : SourceFile) :
    Except Text.Unencodable Examination :=
  match file.variant with
  | none => .ok (.refused file.path (ResolutionError.unsupportedExtension file.path) [])
  | some v =>
    match s.extract file.content v with
    | .error why => .error why
    | .ok x =>
      match x.fault with
      | some reason => .ok (.refused file.path reason [.extracting file.path v])
      | none => .ok (.accepted s r file.path v x.specifiers [.extracting file.path v])

/-- The findings with what one file contributes, the files found apart. -/
def record (path : Text) (x : Examination) (c : Collector) : Collector :=
  let c := match x.fault with
    | some reason => c.addUnparsed path reason
    | none => c
  x.missing.foldl (fun c candidate => c.addMissing candidate (some path))
    (if x.unsupported = [] then c else c.addUnsupported path x.unsupported)

/-! ## The walk -/

/-- A walk that is under way. -/
structure Walk where
  /-- What was found so far. -/
  findings : Collector
  /-- The files still to be looked at. -/
  queue : List SourceFile
  /-- What was done so far. -/
  trace : List Event

/-- The limit is exceeded by so many files. -/
def exceeds (limit : Int) (count : Nat) : Bool := limit != 0 && limit < count

/-- Stores and queues the files that were not visited before, unless they are too many. -/
def enqueue (limit : Int) : List SourceFile → Walk → Except Failure Walk
  | [], w => .ok w
  | f :: fs, w =>
    if w.findings.hasFile f.path then enqueue limit fs w
    else
      let findings := w.findings.addFile f.path f.content
      if exceeds limit findings.size then
        .error (.reported (.limitExceeded findings.entrypoint limit))
      else enqueue limit fs { w with findings, queue := w.queue ++ [f] }

/-- A walk that failed, and what it had done. -/
structure Stop where
  /-- Why it failed. -/
  failure : Failure
  /-- What was done. -/
  trace : List Event

/-- Takes one file from the queue, which goes on as `rest`. -/
def step (s : Settings) (r : Reader) (w : Walk) (file : SourceFile) (rest : List SourceFile) :
    Except Stop Walk :=
  match examine s r file with
  | .error why =>
    .error ⟨.unencodable why, w.trace ++ (file.variant.toList.map (.extracting file.path ·))⟩
  | .ok x =>
    let trace := w.trace ++ x.trace
    match enqueue s.maxFiles x.found ⟨record file.path x w.findings, rest, trace⟩ with
    | .error failure => .error ⟨failure, trace⟩
    | .ok w => .ok w

/-- The end of a walk whose queue is empty. -/
def finish (w : Walk) : Resolution :=
  match w.findings.validate with
  | .error e => ⟨.error (.reported e), w.trace⟩
  | .ok () =>
    ⟨.ok w.findings.files, w.trace ++ [.clean w.findings.entrypoint,
      .finished w.findings.size w.findings.entrypoint]⟩

/-- Takes at most `fuel` files from the queue, and then needs it to be empty. -/
def run (s : Settings) (r : Reader) : Nat → Walk → Resolution
  | fuel, w =>
    match w.queue, fuel with
    | [], _ => finish w
    | _ :: _, 0 => ⟨.error .unfinished, w.trace⟩
    | file :: rest, fuel + 1 =>
      match step s r w file rest with
      | .error stop => ⟨.error stop.failure, stop.trace⟩
      | .ok w => run s r fuel w

/-- The walk at its start. -/
def start (entry : SourceFile) : Walk where
  findings := .start entry.path entry.content
  queue := [entry]
  trace := [.asked entry.path, .started entry.path]

end Resolution

/-- The files an entrypoint needs. -/
def resolve (s : Settings) (r : Reader) (entrypoint : Text) : Resolution :=
  let path := Path.normalize entrypoint
  match Variant.ofPath? path with
  | none => ⟨.error (.reported (.unsupportedEntrypoint entrypoint)), []⟩
  | some v =>
    match r.read path with
    | .error why =>
      ⟨.error (.reported (.unreadableEntrypoint entrypoint (some why.message))),
        [.asked path, .entryUnreadable path why]⟩
    | .ok content =>
      Resolution.run s r r.paths.length (Resolution.start ⟨path, content, some v⟩)

end ImportClosure
