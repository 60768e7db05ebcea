import ImportClosure.OrderedMap
import ImportClosure.Path
import ImportClosure.Storage.Reader
import ImportClosure.Text.Utf8
/-!
A disk.

A disk is a map from lists of components, counted from the root, to directories and files. A path
is looked up component by component from the root or from the working directory, so `a/../b`
needs a directory `a`, and what may go wrong shows at the first component that is not a
directory. A change gives a new disk, so what a run changed can be seen by comparing the two.
-/

namespace ImportClosure

/-- What a name on a disk stands for. -/
inductive DiskEntry where
  /-- A directory. -/
  | directory
  /-- A regular file. -/
  | file (content : Bytes)
deriving DecidableEq

/-- Why something cannot be done on a disk. -/
inductive DiskFault where
  /-- There is no such file or directory. -/
  | absent
  /-- There is something already. -/
  | present
  /-- A component within the path is no directory. -/
  | notADirectory
  /-- There is a directory where a file is needed. -/
  | isADirectory
  /-- The path or a component of it is longer than any name. -/
  | nameTooLong
deriving DecidableEq

namespace DiskFault

/-- The number and the words of a fault. -/
def reason : DiskFault → Nat × String
  | absent => (2, "No such file or directory")
  | present => (17, "File exists")
  | notADirectory => (20, "Not a directory")
  | isADirectory => (21, "Is a directory")
  | nameTooLong => (36, "File name too long")

/-- The fault at a path in words. -/
def message (fault : DiskFault) (path : Text) : Text :=
  "[Errno " ++ Text.ofNat fault.reason.1 ++ "] " ++ Text.ofString fault.reason.2 ++ ": "
    ++ path.quoted

end DiskFault

/-- The directories and files of a disk. -/
structure Disk where
  /-- The components of the working directory. -/
  working : List Text
  /-- The entries by their components. -/
  entries : OrderedMap (List Text) DiskEntry

namespace Disk

/-! ## Places -/

/-- The disk with a directory or a file at a place. -/
def put (d : Disk) (place : List Text) (e : DiskEntry) : Disk :=
  { d with entries := d.entries.insert place e }

/-- The disk with an entry and with the directories above it, as far as they are missing. -/
def putDeep (d : Disk) (place : List Text) (e : DiskEntry) : Disk :=
  let addMissing (d : Disk) (n : Nat) : Disk :=
    if d.entries.contains (place.take n) then d else d.put (place.take n) .directory
  ((List.range place.length).foldl addMissing d).put place e

/-- A disk with nothing but the working directory. -/
def ofWorking (working : List Text) : Disk := putDeep ⟨working, ∅⟩ working .directory

/-- The longest path and the longest component, in bytes. -/
def longest : Nat × Nat := (4095, 255)

/-- A text that can be part of a name. -/
def isNamable (t : Text) : Bool := t.all (fun c => c.val ≠ 0 && !c.isSurrogate)

/-- Goes along components from a directory, to a place where there need not be anything. Above
the root is the root. -/
def follow (d : Disk) (place : List Text) : List Text → Except DiskFault (List Text)
  | [] => .ok place
  | name :: names =>
    if name = Text.ofString ".." then d.follow place.dropLast names
    else if longest.2 < (Utf8.encodeAll name).length then .error .nameTooLong
    else
      match d.entries.get? (place ++ [name]), names with
      | _, [] => .ok (place ++ [name])
      | some .directory, names => d.follow (place ++ [name]) names
      | some (.file _), _ => .error .notADirectory
      | none, _ => .error .absent

/-- The components of a path, empty ones and dots apart. -/
def components (path : Text) : List Text :=
  (Text.splitOn Path.slash path).filter (fun c => c ≠ [] && c ≠ [Path.dot])

/-- The place of a path, where there need not be anything. -/
def locate (d : Disk) (path : Text) : Except DiskFault (List Text) :=
  if !isNamable path then .error .absent
  else if longest.1 < (Utf8.encodeAll path).length then .error .nameTooLong
  else d.follow (if path.head? = some Path.slash then [] else d.working) (components path)

/-- What there is at a path. -/
def find (d : Disk) (path : Text) : Except DiskFault DiskEntry :=
  match d.locate path with
  | .error fault => .error fault
  | .ok place =>
    match d.entries.get? place with
    | some e => .ok e
    | none => .error .absent

/-- The path of a place from the root. -/
def absolute (place : List Text) : Text := Path.render 1 place

/-- The normal form of a path seen from the root. -/
def absolutePath (d : Disk) (path : Text) : Text :=
  Path.normalize (Path.join (absolute d.working) path)

/-! ## Changes -/

/-- The disk with a file that has this content, if one can be there. -/
def write (d : Disk) (path : Text) (content : Bytes) : Except DiskFault Disk :=
  match d.locate path with
  | .error fault => .error fault
  | .ok place =>
    match d.entries.get? place with
    | some .directory => .error .isADirectory
    | _ => .ok (d.put place (.file content))

/-- The disk with bytes added at the end of a file, which is made if it is not there. -/
def append (d : Disk) (path : Text) (content : Bytes) : Except DiskFault Disk :=
  match d.locate path with
  | .error fault => .error fault
  | .ok place =>
    match d.entries.get? place with
    | some .directory => .error .isADirectory
    | some (.file before) => .ok (d.put place (.file (before ++ content)))
    | none => .ok (d.put place (.file content))

/-- The disk with a directory at a path, one that is there counting as made. -/
def ensure (d : Disk) (path : Text) : Except DiskFault Disk :=
  match d.locate path with
  | .error fault => .error fault
  | .ok place =>
    match d.entries.get? place with
    | some .directory => .ok d
    | some (.file _) => .error .present
    | none => .ok (d.put place .directory)

/-- The disk with a directory at a path of these components, last first, and with the directories
above it; or the path at which that fails, and why. -/
def ensureAll (d : Disk) (slashes : Nat) : List Text → Except (DiskFault × Text) Disk
  | [] => .ok d
  | name :: names =>
    let path := Path.render slashes (name :: names).reverse
    match d.ensure path with
    | .ok d => .ok d
    | .error .absent =>
      match d.ensureAll slashes names with
      | .error e => .error e
      | .ok d =>
        match d.ensure path with
        | .ok d => .ok d
        | .error fault => .error (fault, path)
    | .error fault => .error (fault, path)

/-- The disk with a directory at a path and with the directories above it; or the path at which
that fails, and why. -/
def ensureDirectory (d : Disk) (path : Text) : Except (DiskFault × Text) Disk :=
  d.ensureAll (Path.rootSlashes path) (components path).reverse

/-- The entries of a disk that another one does not have. -/
def changesFrom (d before : Disk) : List (List Text × DiskEntry) :=
  d.entries.entries.filter (fun e => before.entries.get? e.1 ≠ some e.2)

/-! ## Reading sources -/

/-- The size of the largest source file that is read, unless another one is given. -/
def standardLimit : Int := 1024 * 1024

/-- A report of the storage. -/
def note (message : Text) : LogRecord := ⟨.warning, LogSource.storage, message, none, []⟩

/-- The text of a regular file that is not too large, and what is reported about it: a file that
is not UTF-8 is read as Latin-1. -/
def readSource (d : Disk) (limit : Option Int) (path : Text) :
    Except ReadFailure Text × List LogRecord :=
  match d.find (Path.clean path) with
  | .error .nameTooLong => (.error (.nameTooLong (Path.clean path)), [])
  | .error _ => (.error (.noSuchFile path), [])
  | .ok .directory => (.error (.noSuchFile path), [])
  | .ok (.file content) =>
    let size := content.length
    match limit.filter (fun n => n < (size : Int)) with
    | some n =>
      (.error (.tooLarge path size n),
        [note ("⚠️ Refusing to read " ++ path ++ ": " ++ Text.ofNat size
          ++ " bytes exceeds limit (" ++ Text.ofInt n ++ ")")])
    | none =>
      match Utf8.decode content with
      | .ok t => (.ok t, [])
      | .error _ =>
        (.ok (Latin1.decode content),
          [note ("⚠️ File " ++ path ++ " is not UTF-8, using latin-1 fallback encoding")])

/-- A path, and the paths that climb to it from one directory further below, and from two, and so
on. -/
def climbing (path : Text) : Nat → List Text
  | 0 => []
  | n + 1 => path :: climbing (".." ++ Path.slash :: path) n

/-- The spellings of a place, up to the length that a path may have: from the root, with one slash
or two, and from the working directory by way of each directory above both, the root itself any
number of times. -/
def spellings (d : Disk) (place : List Text) : List Text :=
  let climbs := (List.range (d.working.length + 1)).filter fun n =>
    (d.working.take (d.working.length - n)).isPrefixOf place
  let overRoot := List.replicate (d.working.length + 1) (Text.ofString "..") ++ place
  [Path.render 1 place, Path.render 2 place]
    ++ (climbs.map fun n =>
      Path.render 0 (List.replicate n (Text.ofString "..")
        ++ place.drop (d.working.length - n)))
    ++ climbing (Path.render 0 overRoot) (longest.1 / 3)

/-- The disk as a storage of sources. -/
def reader (d : Disk) (limit : Option Int) : Reader where
  read := fun path => (d.readSource limit path).1
  paths := d.entries.entries.flatMap fun e =>
    match e.2 with
    | .file _ => d.spellings e.1
    | .directory => []
  notes := fun path => (d.readSource limit path).2

end Disk

end ImportClosure
