import ImportClosure.Options.Parser
/-!
The usage and the help of a program, laid out for 78 columns.

The usage lists the options in brackets, each line filled up before the next one begins, and the
operand on a line of its own. The help gives every option an entry whose explanation starts in
column 24, on a line of its own if the names need the room.
-/

namespace ImportClosure

namespace Layout

/-- The number of columns. -/
def width : Nat := 78

/-- The column of explanations. -/
def helpColumn : Nat := 24

/-- So many blanks. -/
def blanks (n : Nat) : Text := List.replicate n (CodePoint.ofChar ' ')

/-- Puts words on lines of at most so many columns, as many as fit; `line` is the line being
filled, `room` what is left of it. -/
def fill (columns : Nat) : List Text → Nat → List Text → List Text
  | line, _, [] => if line = [] then [] else [Text.joinWith " " line.reverse]
  | [], room, w :: ws => fill columns [w] (room - w.length) ws
  | line, room, w :: ws =>
    if w.length + 1 ≤ room then fill columns (w :: line) (room - w.length - 1) ws
    else Text.joinWith " " line.reverse :: fill columns [w] (columns - w.length) ws

end Layout

namespace OptionSpec

/-- The arguments of an option, after its name. -/
def signature (o : OptionSpec) : Text :=
  match o.arity with
  | .zero => []
  | .one => " " ++ o.argumentName
  | .many => " " ++ o.argumentName ++ " [" ++ o.argumentName ++ " ...]"

/-- An option as the usage gives it. -/
def usage (o : OptionSpec) : Text := "[" ++ o.names.headD [] ++ o.signature ++ "]"

/-- All names of an option with its arguments. -/
def heading (o : OptionSpec) : Text :=
  Text.joinWith ", " (o.names.map fun name => name ++ o.signature)

end OptionSpec

namespace ProgramSpec

/-- The usage. -/
def usage (p : ProgramSpec) : Text :=
  let lead : Text := "usage: " ++ p.name ++ " "
  let columns := Layout.width - lead.length
  let lines := Layout.fill columns [] columns (p.allOptions.map OptionSpec.usage)
    ++ (p.operand.map Prod.fst).toList
  lead ++ Text.joinWith ("\n" ++ Layout.blanks lead.length) lines ++ "\n"

/-- An entry of the help. -/
def entry (heading help : Text) : Text :=
  let columns := Layout.width - Layout.helpColumn
  let lines := Layout.fill columns [] columns (Text.splitOn ' ' help)
  let indented := Text.joinWith ("\n" ++ Layout.blanks Layout.helpColumn) lines
  let start : Text := "  " ++ heading
  if start.length + 2 ≤ Layout.helpColumn then
    start ++ Layout.blanks (Layout.helpColumn - start.length) ++ indented ++ "\n"
  else start ++ "\n" ++ Layout.blanks Layout.helpColumn ++ indented ++ "\n"

/-- The help. -/
def help (p : ProgramSpec) : Text :=
  let operand : Text := match p.operand with
    | some (name, help) => "positional arguments:\n" ++ entry name help ++ "\n"
    | none => []
  let options : Text := (p.allOptions.map fun o => entry o.heading o.help).flatten
  let epilog : Text := match p.epilog with
    | [] => []
    | lines => "\n" ++ Text.joinWith "\n" lines ++ "\n"
  p.usage ++ "\n" ++ p.description ++ "\n\n" ++ operand ++ "options:\n" ++ options ++ epilog

/-- What is written about a command line that is refused. -/
def refusal (p : ProgramSpec) (fault : OptionFault) : Text :=
  p.usage ++ p.name ++ ": error: " ++ fault.message ++ "\n"

end ProgramSpec

end ImportClosure
