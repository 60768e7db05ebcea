import ImportClosure.OrderedMap
import ImportClosure.Path
import ImportClosure.Storage.Reader
/-!
Source text held in memory.

Files are kept under their normalized paths, so every spelling of a path finds the same file.
-/

namespace ImportClosure

/-- Texts by normalized path. -/
structure MemoryFiles where
  /-- The text of each normalized path. -/
  files : OrderedMap Text Text

namespace MemoryFiles

/-- No files. -/
def empty : MemoryFiles := ⟨∅⟩

/-- Adds or replaces a file. -/
def add (m : MemoryFiles) (path content : Text) : MemoryFiles :=
  ⟨m.files.insert (Path.normalize path) content⟩

/-- Adds files one after another. -/
def addAll (m : MemoryFiles) (files : List (Text × Text)) : MemoryFiles :=
  files.foldl (fun m f => m.add f.1 f.2) m

/-- The number of files. -/
def size (m : MemoryFiles) : Nat := m.files.size

/-- The text of a file, under any spelling of its path. -/
def read (m : MemoryFiles) (path : Text) : Except ReadFailure Text :=
  match m.files.get? (Path.normalize path) with
  | some content => .ok content
  | none => .error (.noSuchFile path)

/-- The files as a storage. -/
def reader (m : MemoryFiles) : Reader where
  read := m.read
  paths := m.files.keys
  notes := fun _ => []

end MemoryFiles

end ImportClosure
