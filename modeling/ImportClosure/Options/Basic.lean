import ImportClosure.Text.Quoted
/-!
Options of a program.

An option has one or more names; it takes no argument, one, or as many as follow. A program may
also take one argument that belongs to no option. What was given on a command line is a list of
options with their arguments, in the order in which they were given.
-/

namespace ImportClosure

/-- The number of arguments of an option. -/
inductive Arity where
  /-- None. -/
  | zero
  /-- One. -/
  | one
  /-- At least one. -/
  | many
deriving DecidableEq

/-- An option of a program. -/
structure OptionSpec where
  /-- The names, short ones first. -/
  names : List Text
  /-- The number of arguments. -/
  arity : Arity
  /-- What an argument is called. -/
  argumentName : Text
  /-- The arguments that are allowed; any, if none is listed. -/
  choices : List Text
  /-- What the option is for. -/
  help : Text
deriving DecidableEq

/-- The arguments of a program. -/
structure ProgramSpec where
  /-- The name of the program. -/
  name : Text
  /-- What the program is for. -/
  description : Text
  /-- The options. -/
  options : List OptionSpec
  /-- The argument that belongs to no option, and what it is for. -/
  operand : Option (Text × Text)
  /-- Lines at the end of the help. -/
  epilog : List Text

/-- What was given to a program. -/
structure Given where
  /-- The options in order, with their arguments. -/
  options : List (OptionSpec × List Text)
  /-- The argument that belongs to no option. -/
  operand : Option Text

namespace OptionSpec

/-- The option that asks for help. -/
def help? : OptionSpec where
  names := ["-h", "--help"]
  arity := .zero
  argumentName := []
  choices := []
  help := "show this help message and exit"

/-- All names of an option, as messages give it. -/
def title (o : OptionSpec) : Text := Text.joinWith "/" o.names

end OptionSpec

namespace ProgramSpec

/-- All options, the one that asks for help first. -/
def allOptions (p : ProgramSpec) : List OptionSpec := OptionSpec.help? :: p.options

/-- All names with their options. -/
def names (p : ProgramSpec) : List (Text × OptionSpec) :=
  p.allOptions.flatMap fun o => o.names.map fun name => (name, o)

/-- The option of this name. -/
def find? (p : ProgramSpec) (name : Text) : Option OptionSpec :=
  (p.names.find? (·.1 = name)).map Prod.snd

end ProgramSpec

namespace Given

/-- The arguments of an option where it was last given. -/
def last? (g : Given) (name : Text) : Option (List Text) :=
  (g.options.reverse.find? (fun o => o.1.names.contains name)).map Prod.snd

/-- The argument of an option where it was last given. -/
def argument? (g : Given) (name : Text) : Option Text := (g.last? name).bind List.head?

/-- The option was given. -/
def isGiven (g : Given) (name : Text) : Bool := (g.last? name).isSome

end Given

end ImportClosure
