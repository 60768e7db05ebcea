import ImportClosure.Syntax.Node
import ImportClosure.Text.Blank
/-!
Naming the first syntax error of a tree.

`SyntaxNode.firstFault?` looks for a node that did not parse or had to be supplied, in document
order, and enters a node only if it is marked as holding an error. `SyntaxNode.describeFault`
words what was found: what is missing, or else the first line of the text that was not
expected, cut to forty code points, and the place, counted from one.
-/

namespace ImportClosure.SyntaxNode

/-- The node itself is an error. -/
def isFault (n : SyntaxNode) : Bool :=
  n.kind = "ERROR" || n.isMissing

/-- The first error while some nodes are pending: the first of these is taken, and if it is marked
as holding an error its parts are put in its place. -/
def firstFaultFrom? : List SyntaxNode → Option SyntaxNode
  | [] => none
  | n :: pending =>
    if n.isFault then some n
    else if n.hasError then firstFaultFrom? (n.children ++ pending)
    else firstFaultFrom? pending
termination_by pending => sizeAmong pending
decreasing_by
  · rw [sizeAmong_append, sizeAmong, size_eq]
    omega
  · rw [sizeAmong, size_eq]
    omega

/-- The first error in document order, as far as the marks lead. -/
def firstFault? (root : SyntaxNode) : Option SyntaxNode := firstFaultFrom? [root]

/-- The place of a node, for a reader. -/
def location (n : SyntaxNode) : Text :=
  "line " ++ Text.ofNat (n.row + 1) ++ ", column " ++ Text.ofNat (n.column + 1)

/-- The beginning of a text that shows what it is: its first line, without blanks around it, up
to forty code points. -/
def snippet (t : Text) : Text :=
  t.strip.firstLine.take 40

/-- The first syntax error of a tree, in words. -/
def describeFault (root : SyntaxNode) : Text :=
  match root.firstFault? with
  | none => "Syntax error"
  | some n =>
    if n.isMissing then
      "Syntax error: missing '" ++ Text.ofString n.kind ++ "' at " ++ n.location
    else
      match snippet n.text with
      | [] => "Syntax error at " ++ n.location
      | token => "Syntax error: unexpected '" ++ token ++ "' at " ++ n.location

end ImportClosure.SyntaxNode
