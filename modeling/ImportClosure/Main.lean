import ImportClosure.CommandLine.Run
import Std.Time.DateTime.Timestamp
/-!
The program on a real disk.

A run is a function of the disk, but only of the paths that it touches. So the run is repeated on
what is known of the disk until it touches nothing new; then what it wrote is written.
-/

namespace ImportClosure.Main

/-- A text as the system takes it. -/
def plain (t : Text) : String := t.toStringWith fun _ => "\uFFFD"

/-- What there is at a place of the real disk. -/
def probe (place : List Text) : IO (Option DiskEntry) := do
  try
    let content ← IO.FS.readBinFile (plain (Disk.absolute place))
    pure (some (.file content.toList))
  catch
    | .inappropriateType _ 21 _ => pure (some .directory)
    | _ => pure none

/-- Goes along components and notes what there is. -/
def lookFrom (d : Disk) (place : List Text) : List Text → IO Disk
  | [] => pure d
  | name :: names => do
    let next := if name = Text.ofString ".." then place.dropLast else place ++ [name]
    match ← probe next with
    | none => pure d
    | some e => lookFrom (d.put next e) next names

/-- The disk with what there is along a path. -/
def look (d : Disk) (path : Text) : IO Disk :=
  lookFrom d (if path.head? = some Path.slash then [] else d.working) (Disk.components path)

/-- A run on what it touches of the real disk, and that part of the disk. -/
partial def settle (words : List Text) (now : Moment) (d : Disk) (known : List Text) :
    IO (CommandLine.Outcome × Disk) := do
  let outcome := CommandLine.run Registry.standardExtractors words now d
  match (outcome.touched.filter fun p => !known.contains p).eraseDups with
  | [] => pure (outcome, d)
  | new => settle words now (← new.foldlM look d) (new ++ known)

/-- Writes an entry to the real disk. -/
def carryOut (place : List Text) (e : DiskEntry) : IO Unit :=
  let path := plain (Disk.absolute place)
  match e with
  | .directory => IO.FS.createDirAll path
  | .file content => IO.FS.writeBinFile path ⟨content.toArray⟩

/-- The time of the clock. -/
def now : IO Moment := do
  let t ← Std.Time.Timestamp.now
  let nanoseconds := t.toNanosecondsSinceUnixEpoch.val.toNat
  pure (Moment.ofSeconds (nanoseconds / 1000000000) (nanoseconds / 1000 % 1000000))

/-- Runs the program and gives its status. -/
def run (arguments : List String) : IO UInt32 := do
  let working := Disk.components (Text.ofString (← IO.currentDir).toString)
  let (outcome, before) ←
    settle (arguments.map Text.ofString) (← now) (Disk.ofWorking working) []
  for (place, e) in outcome.surroundings.disk.changesFrom before do
    carryOut place e
  IO.eprint (plain outcome.surroundings.errors)
  IO.print (plain outcome.output)
  match outcome.ending with
  | .ran status => pure status.toUInt32
  | .notRun status => pure status.toUInt32
  | .crashed why =>
    IO.eprintln (plain why.message)
    pure 1

end ImportClosure.Main

/-- The program. -/
def main (arguments : List String) : IO UInt32 := ImportClosure.Main.run arguments
