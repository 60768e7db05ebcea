import ImportClosure.Text.Set
import ImportClosure.Value.Basic
/-!
Configurations.

A configuration says which external names the check runtime provides and how much a run may
read. Each of its four parameters has a default and a class of values it accepts;
`Config.set?` gives a parameter a value exactly if the value is of that class.
-/

namespace ImportClosure

/-- What a run needs to know. -/
structure Config where
  /-- The modules that the runtime provides by itself. -/
  builtinModules : List Text
  /-- Further packages that are there. -/
  allowedPackages : List Text
  /-- The most files of one run; zero for no limit. -/
  maxFiles : Int
  /-- The size of the largest file that is read, in kilobytes. -/
  maxFileSizeKb : Int
deriving DecidableEq

/-- A parameter of a configuration. -/
inductive Parameter where
  /-- The modules that the runtime provides by itself. -/
  | builtinModules
  /-- Further packages that are there. -/
  | allowedPackages
  /-- The most files of one run. -/
  | maxFiles
  /-- The size of the largest file that is read. -/
  | maxFileSizeKb
deriving DecidableEq

namespace Parameter

/-- All parameters. -/
def all : List Parameter := [builtinModules, allowedPackages, maxFiles, maxFileSizeKb]

/-- The key of a parameter. -/
def name : Parameter → Text
  | builtinModules => "builtin_modules"
  | allowedPackages => "allowed_packages"
  | maxFiles => "max_dependency_files"
  | maxFileSizeKb => "max_file_size_kb"

/-- The parameter that a key names. -/
def ofKey? : Value → Option Parameter
  | .text t => all.find? (fun p => t = p.name)
  | _ => none

end Parameter

namespace Value

/-- The text of a name, which is not empty. -/
def name? : Value → Option Text
  | text t => if t = [] then none else some t
  | _ => none

/-- The names in a list of names. -/
def names? : Value → Option (List Text)
  | list items => items.mapM name?
  | _ => none

/-- A whole number of at least `least`. -/
def atLeast? (least : Int) : Value → Option Int
  | int i => if least ≤ i then some i else none
  | _ => none

/-- A list of texts as a value. -/
def ofTexts (ts : List Text) : Value := list (ts.map text)

end Value

namespace Config

/-- The modules that every check runtime provides. -/
def builtinNames : List Text :=
  ["assert", "buffer", "crypto", "dns", "fs", "path", "querystring", "readline", "stream",
    "string_decoder", "timers", "tls", "url", "util", "zlib"]

/-- The configuration in which every parameter has its default. -/
def standard : Config where
  builtinModules := builtinNames
  allowedPackages := []
  maxFiles := 0
  maxFileSizeKb := 1024

instance : Inhabited Config := ⟨standard⟩

/-- The value of a parameter. -/
def get (c : Config) : Parameter → Value
  | .builtinModules => .ofTexts c.builtinModules
  | .allowedPackages => .ofTexts c.allowedPackages
  | .maxFiles => .int c.maxFiles
  | .maxFileSizeKb => .int c.maxFileSizeKb

/-- The configuration in which a parameter has another value, if it accepts the value: a list of
names, or a number that is not negative, for the size of a file not zero either. -/
def set? (c : Config) (v : Value) : Parameter → Option Config
  | .builtinModules => v.names?.map fun names => { c with builtinModules := names }
  | .allowedPackages => v.names?.map fun names => { c with allowedPackages := names }
  | .maxFiles => (v.atLeast? 0).map fun n => { c with maxFiles := n }
  | .maxFileSizeKb => (v.atLeast? 1).map fun n => { c with maxFileSizeKb := n }

/-! ## Allowed names -/

/-- Adds a name at the end of a list of names unless it is there. -/
def addName (names : List Text) (name : Text) : List Text :=
  if names.contains name then names else names ++ [name]

/-- The configuration with further allowed packages. -/
def withAllowedPackages (c : Config) (names : List Text) : Config :=
  { c with allowedPackages := names.foldl addName c.allowedPackages }

/-- The external names that a file may depend on. -/
def allowedModules (c : Config) : TextSet :=
  .ofList (c.builtinModules ++ c.allowedPackages)

/-- The size of the largest file that is read, in bytes. -/
def maxFileSize (c : Config) : Int := c.maxFileSizeKb * 1024

end Config

end ImportClosure
