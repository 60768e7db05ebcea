import ImportClosure.Configuration.Basic
import ImportClosure.Json.Basic
import ImportClosure.Resolution.Configured
/-!
Resolution as a service to other programs.

A server holds a configuration and a storage, and offers two tools: one resolves an entrypoint,
possibly with further allowed packages, the other lists the allowed names. An answer is a JSON
object; a resolution that fails for its files is a successful call whose answer says so. Which
arguments a call may have is up to the way in which calls arrive (`ArgumentReader`).
-/

namespace ImportClosure

/-- A server: what it is configured to, where the files are, and who reads them. -/
structure ToolServer where
  /-- The configuration. -/
  config : Config
  /-- The files. -/
  reader : Reader
  /-- The extractors. -/
  extractors : List Extractor

/-- From the arguments of a call to the entrypoint and the further packages that they give, if they
are accepted. -/
abbrev ArgumentReader := Json → Option (Text × List Text)

/-- The answer to a call of a tool. -/
structure ToolAnswer where
  /-- The call failed. -/
  isError : Bool
  /-- What was reported during the call: levels and texts. -/
  notes : List (Text × Text)
  /-- The result of a call that did not fail. -/
  result : Option Json

namespace ToolServer

/-- A server that is given no files of its own reads those of a disk. -/
def onDisk (c : Config) (extractors : List Extractor) (d : Disk) : ToolServer :=
  ⟨c, c.diskReader d, extractors⟩

/-! ## Resolving -/

/-- The answer about an entrypoint. -/
def resolution (entrypoint : Text) : Except ResolutionError (OrderedMap Text Text) → Json
  | .error e =>
    .object [("entrypoint", .text entrypoint), ("success", .bool false), ("error", e.toJson)]
  | .ok files =>
    .object [("entrypoint", .text entrypoint), ("success", .bool true),
      ("files", .object (files.entries.map fun f => (f.1, .text f.2)))]

/-- Resolves an entrypoint, with further packages for this one time; the failure of a run that is
not about the files is the failure of the call. -/
def resolve (server : ToolServer) (entrypoint : Text) (packages : List Text) :
    Except Failure (Except ResolutionError (OrderedMap Text Text)) :=
  let c := server.config.withAllowedPackages packages
  match (c.resolve server.extractors server.reader entrypoint).1.outcome with
  | .ok files => .ok (.ok files)
  | .error (.reported e) => .ok (.error e)
  | .error why => .error why

/-! ## Tools -/

/-- The name of the tool that resolves an entrypoint. -/
def resolveTool : Text := "resolve_dependencies"

/-- The name of the tool that lists the allowed names. -/
def allowedModulesTool : Text := "get_allowed_modules"

/-- The tools with their parameters, both ascending. -/
def tools : List (Text × List Text) :=
  [(allowedModulesTool, []), (resolveTool, ["allowed_packages", "entrypoint"])]

/-- A call that fails. -/
def failed (notes : List (Text × Text)) : ToolAnswer := ⟨true, notes, none⟩

/-- The tool that resolves an entrypoint. -/
def callResolve (read : ArgumentReader) (server : ToolServer) (arguments : Json) : ToolAnswer :=
  match read arguments with
  | none => failed []
  | some (entrypoint, packages) =>
    let start : Text × Text := ("info", "Resolving dependencies of " ++ entrypoint)
    match server.resolve entrypoint packages with
    | .error _ => failed [start]
    | .ok outcome =>
      let finish : Text × Text := match outcome with
        | .ok files =>
          ("info", "Resolved " ++ Text.ofNat files.size ++ " file(s) for " ++ entrypoint)
        | .error e => ("error", e.message)
      ⟨false, [start, finish], some (resolution entrypoint outcome)⟩

/-- The tool that lists the allowed names. -/
def callAllowedModules (server : ToolServer) : ToolAnswer :=
  let ascending (names : List Text) : Json :=
    Json.texts (names.mergeSort (fun a b => !Text.isBefore b a))
  ⟨false, [], some (.object [("builtin_modules", ascending server.config.builtinModules),
    ("allowed_packages", ascending server.config.allowedPackages)])⟩

/-- Calls a tool. -/
def callWith (read : ArgumentReader) (server : ToolServer) (tool : Text) (arguments : Json) :
    ToolAnswer :=
  if tool = resolveTool then server.callResolve read arguments
  else if tool = allowedModulesTool then server.callAllowedModules
  else failed []

end ToolServer

end ImportClosure
