import ImportClosure.Syntax.Grammar.Statement
import ImportClosure.Syntax.Grammar.Element
/-!
Parsing a source.

The rules of the grammar refer to each other through `Rules`; `Grammar.read` ties the knot. Each
level of nesting costs fuel, and between two levels at least one token is taken except for a
bounded number of steps, so fuel in proportion to the length of the source is enough.

A source that does not parse still gives a tree: its root is marked as holding an error, and below
it stands either a closing bracket that, if supplied, would make the source parse, or the token at
which the source stops making sense.
-/

namespace ImportClosure

namespace Grammar

/-- A construct, with this much fuel for the constructs inside it. -/
def read : Nat → Rules
  | 0, _ => Parser.refuse
  | fuel + 1, category =>
    match category with
    | .statement => statement (read fuel)
    | .expressions g => expressions (read fuel) g
    | .assignment g => assignment (read fuel) g
    | .operand g => operand (read fuel) g
    | .constructed g => constructed (read fuel) g
    | .binding => binding (read fuel)
    | .element => element (read fuel)
    | .type isOpen => typeOf (read fuel) isOpen
    | .primaryType isOpen => primaryType (read fuel) isOpen

/-- The position after the first line, blanks and comments apart, if it names an interpreter. -/
def interpreterLineEnd (s : Source) : Nat :=
  let start := (s.gap true 0).stop
  if s.hasAt start ['#', '!'] then s.spanEnd (fun c => c ≠ '\n' && c ≠ '\x00') (start + 2)
  else 0

/-- All statements of a source. -/
def program : Parser SyntaxNode := do
  let s ← Parser.source
  Parser.advanceTo (interpreterLineEnd s)
  let statements ← Parser.many do
    let _ ← Parser.skipToOperand
    if ← Parser.atEnd then pure none
    else some <$> read (16 * s.size + 64) .statement
  Parser.node "program" 0 statements

/-- A cursor at the start of a source, with a bracket to be supplied. -/
def startCursor (supplied : Option (Nat × String)) : Cursor :=
  ⟨0, 0, 0, 0, supplied, 0⟩

/-- The tree of a source, or the cursor at the place where it stops making sense. -/
def parseWith (s : Source) (supplied : Option (Nat × String)) : Except Cursor SyntaxNode :=
  match program s (startCursor supplied) with
  | .ok n _ => .ok n
  | .error () c => .error c

/-- The brackets of which one may be supplied. -/
def closers : List String := [")", "\x7d", "]", ">"]

/-- The token that begins at a position, as far as one can be told. -/
def tokenAt (s : Source) (i : Nat) : String :=
  match Parser.nameEnd? s i with
  | some j => s.slice i j
  | none =>
    match Parser.operatorAt s i with
    | some mark => mark
    | none => s.slice i (i + 1)

/-- A node that stands for an error at a position. -/
def faultNode (s : Source) (i : Nat) (kind : String) (isMissing : Bool) (text : String) :
    SyntaxNode :=
  let (row, column) := s.places.getD i (0, 0)
  ⟨kind, some text.toUTF8.toList, none, true, isMissing, true, row, column, []⟩

/-- The tree of a source that does not parse. -/
def faultyTree (s : Source) (c : Cursor) : SyntaxNode :=
  let missing := closers.find? fun mark =>
    match parseWith s (some (c.farLast, mark)) with
    | .ok _ => true
    | .error _ => false
  let fault := match missing with
    | some mark => faultNode s c.farLast mark true ""
    | none => faultNode s c.far "ERROR" false (tokenAt s c.far)
  ⟨"program", none, none, true, false, true, 0, 0, [fault]⟩

/-- The tree of a source. -/
def parse (s : Source) : SyntaxNode :=
  match parseWith s none with
  | .ok n => n
  | .error c => faultyTree s c

end Grammar

/-- The syntax tree of a text in a grammar. -/
def SyntaxNode.ofText (v : Variant) (t : Text) : SyntaxNode :=
  Grammar.parse (Source.ofText v t)

end ImportClosure
