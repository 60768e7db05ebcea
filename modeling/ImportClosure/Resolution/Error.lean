import ImportClosure.Json.Printer
import ImportClosure.OrderedMap
/-!
What a failed resolution says.

Only an entrypoint of an unsupported kind, an unreadable entrypoint and an exceeded limit end a
run at once. Everything else is collected and reported together: a `FaultReport` names the
missing files with the files that refer to them, the files that could not be parsed, and the
packages that are not provided.

An error has three renderings: a summary (`message`), a JSON object whose first three fields are
the same for all errors (`toJson`), and a report for a reader (`report`).
-/

namespace ImportClosure

/-- Everything wrong with the files an entrypoint needs. -/
structure FaultReport where
  /-- The entrypoint of the run. -/
  entrypoint : Text
  /-- Each path that could not be found, with the files that refer to it. -/
  missing : OrderedMap Text (List Text)
  /-- Each file that could not be parsed, with the reason. -/
  unparsed : OrderedMap Text Text
  /-- Each file that uses packages that are not provided, with their names. -/
  unsupported : OrderedMap Text (List Text)

namespace FaultReport

/-- The number of pairs of a file and a package it may not use. -/
def unsupportedCount (r : FaultReport) : Nat :=
  r.unsupported.entries.foldl (fun n e => n + e.2.length) 0

/-- The categories that are not empty, counted. -/
def counts (r : FaultReport) : List Text :=
  (if r.missing.isEmpty then [] else [Text.ofNat r.missing.size ++ " missing file(s)"])
    ++ (if r.unparsed.isEmpty then []
        else [Text.ofNat r.unparsed.size ++ " file(s) with syntax errors"])
    ++ (if r.unsupported.isEmpty then []
        else [Text.ofNat r.unsupportedCount ++ " unsupported dependency(ies)"])

/-- The summary. -/
def message (r : FaultReport) : Text :=
  "Encountered an error parsing check files for " ++ r.entrypoint ++ ": "
    ++ Text.joinWith ", " r.counts

/-- The line for a missing file. -/
def missingLine (e : Text × List Text) : Text :=
  match e.2 with
  | [] => "    - " ++ e.1
  | referrers => "    - " ++ e.1 ++ " (referenced by " ++ Text.joinWith ", " referrers ++ ")"

/-- The line for a file that could not be parsed. -/
def unparsedLine (e : Text × Text) : Text := "    - " ++ e.1 ++ ": " ++ e.2

/-- The line for a file that uses packages that are not provided. -/
def unsupportedLine (e : Text × List Text) : Text :=
  "    - " ++ e.1 ++ ": " ++ Text.joinWith ", " e.2

/-- A category as lines: a heading and a line for each entry, or nothing if there are none. -/
def sectionLines {ν : Type} (heading : Text) (line : Text × ν → Text)
    (m : OrderedMap Text ν) : List Text :=
  if m.isEmpty then [] else heading :: m.entries.map line

/-- The lines below the summary. -/
def detailLines (r : FaultReport) : List Text :=
  sectionLines "  Missing files:" missingLine r.missing
    ++ sectionLines "  Syntax errors:" unparsedLine r.unparsed
    ++ sectionLines "  Unsupported dependencies:" unsupportedLine r.unsupported

/-- The fields that list the faults. -/
def jsonFields (r : FaultReport) : List (Text × Json) :=
  [("missing_files", .list (r.missing.entries.map fun e =>
      .object [("file", .text e.1), ("referenced_by", .texts e.2)])),
    ("parsing_errors", .list (r.unparsed.entries.map fun e =>
      .object [("file", .text e.1), ("error", .text e.2)])),
    ("unsupported_dependencies", .list (r.unsupported.entries.map fun e =>
      .object [("file", .text e.1), ("dependencies", .texts e.2)]))]

end FaultReport

/-- Why a resolution failed. -/
inductive ResolutionError where
  /-- A failure with a summary of its own. -/
  | general (entrypoint message : Text)
  /-- The entrypoint's extension tells no grammar. -/
  | unsupportedEntrypoint (entrypoint : Text)
  /-- The entrypoint cannot be read. -/
  | unreadableEntrypoint (entrypoint : Text) (reason : Option Text)
  /-- More files are needed than allowed. -/
  | limitExceeded (entrypoint : Text) (limit : Int)
  /-- Faults were found in the files needed. -/
  | faulty (report : FaultReport)

namespace ResolutionError

/-- The name of the kind of failure. -/
def kind : ResolutionError → Text
  | general .. => "dependency_resolution"
  | unsupportedEntrypoint .. => "unsupported_entrypoint"
  | unreadableEntrypoint .. => "unreadable_entrypoint"
  | limitExceeded .. => "dependency_limit_exceeded"
  | faulty .. => "dependency_parse"

/-- The entrypoint of the failed run. -/
def entrypoint : ResolutionError → Text
  | general e _ => e
  | unsupportedEntrypoint e => e
  | unreadableEntrypoint e _ => e
  | limitExceeded e _ => e
  | faulty r => r.entrypoint

/-- What an unsupported extension is reported as. -/
def unsupportedExtension (path : Text) : Text := "Unsupported file extension for " ++ path

/-- The summary; an empty reason is no reason. -/
def message : ResolutionError → Text
  | general _ m => m
  | unsupportedEntrypoint e => unsupportedExtension e
  | unreadableEntrypoint e reason =>
    match reason with
    | none | some [] => "Cannot read entrypoint " ++ e
    | some why => "Cannot read entrypoint " ++ e ++ ": " ++ why
  | limitExceeded e limit =>
    "Dependency graph of " ++ e ++ " exceeds the limit of " ++ Text.ofInt limit ++ " files"
  | faulty r => r.message

/-- The fields after the three common ones. -/
def jsonFields : ResolutionError → List (Text × Json)
  | general .. => []
  | unsupportedEntrypoint .. => []
  | unreadableEntrypoint e _ => [("missing_files", .texts [e])]
  | limitExceeded _ limit => [("limit", .int limit)]
  | faulty r => r.jsonFields

/-- The error as a JSON object. -/
def toJson (e : ResolutionError) : Json :=
  .object ([(("type" : Text), Json.text e.kind), ("entrypoint", .text e.entrypoint),
    ("message", .text e.message)] ++ e.jsonFields)

/-- The lines of the report below the first. -/
def detailLines : ResolutionError → List Text
  | faulty r => r.detailLines
  | _ => []

/-- The error for a reader. -/
def report (e : ResolutionError) : Text :=
  Text.joinWith "\n" (("❌ " ++ e.message) :: e.detailLines)

end ResolutionError

end ImportClosure
