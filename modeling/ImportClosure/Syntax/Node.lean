import ImportClosure.Text.Utf8
import ImportClosure.Syntax.Literal
/-!
Syntax trees.

A node has a kind, the bytes it covers if it carries them, a place, and children; a child may
play a named part in its parent (its `role`), such as the source of an import. Tokens that only
punctuate are not *named*. A node that had to be supplied to make the text parse is *missing*,
and `hasError` marks the nodes on the way to something that did not parse.
-/

namespace ImportClosure

/-- A node of a syntax tree. -/
structure SyntaxNode where
  /-- The kind of construct. -/
  kind : String
  /-- The bytes covered. -/
  bytes : Option Bytes
  /-- The part played in the parent. -/
  role : Option String
  /-- The node stands for a construct of its own. -/
  isNamed : Bool
  /-- The node was supplied, it is not in the text. -/
  isMissing : Bool
  /-- The node holds something that did not parse. -/
  hasError : Bool
  /-- The number of the line it starts in, from zero. -/
  row : Nat
  /-- The bytes before it in that line. -/
  column : Nat
  /-- The parts. -/
  children : List SyntaxNode
deriving Inhabited

namespace SyntaxNode

/-- The parts that stand for constructs of their own. -/
def namedChildren (n : SyntaxNode) : List SyntaxNode :=
  n.children.filter (·.isNamed)

/-- The first part that plays this role. -/
def child? (role : String) (n : SyntaxNode) : Option SyntaxNode :=
  n.children.find? (fun c => c.role = some role)

/-- The text covered. -/
def text (n : SyntaxNode) : Text :=
  match n.bytes with
  | none => []
  | some bs => Utf8.decodeLossy bs

/-- The value of a string literal: escapes read, quotes dropped. -/
def stringValue (n : SyntaxNode) : Text :=
  Literal.unescape n.text.tail.dropLast

/-- The value of a template literal, unless it interpolates. -/
def templateValue? (n : SyntaxNode) : Option Text :=
  if n.namedChildren.any (fun c => c.kind = "template_substitution") then none
  else some n.stringValue

/-! ## The nodes visited -/

mutual

/-- The number of nodes of a tree. -/
def size : SyntaxNode → Nat
  | ⟨_, _, _, _, _, _, _, _, children⟩ => sizeAmong children + 1

/-- The number of nodes of some trees together. -/
def sizeAmong : List SyntaxNode → Nat
  | [] => 0
  | n :: ns => size n + sizeAmong ns

end

theorem size_eq (n : SyntaxNode) : n.size = sizeAmong n.children + 1 := by
  cases n
  rw [size]

theorem sizeAmong_append (ms ns : List SyntaxNode) :
    sizeAmong (ms ++ ns) = sizeAmong ms + sizeAmong ns := by
  induction ms with
  | nil => exact (Nat.zero_add _).symm
  | cons m ms ih => simp only [List.cons_append, sizeAmong, ih, Nat.add_assoc]

theorem sizeAmong_filter_le (p : SyntaxNode → Bool) (ns : List SyntaxNode) :
    sizeAmong (ns.filter p) ≤ sizeAmong ns := by
  induction ns with
  | nil => exact Nat.le_refl 0
  | cons n ns ih =>
    rw [List.filter_cons]
    split
    · exact Nat.add_le_add_left ih n.size
    · exact Nat.le_trans ih (Nat.le_add_left _ _)

theorem sizeAmong_namedChildren_lt (n : SyntaxNode) : sizeAmong n.namedChildren < n.size := by
  rw [size_eq]
  exact Nat.lt_succ_of_le (sizeAmong_filter_le _ _)

/-- The nodes visited while some are pending: the first of these is taken, and its named parts are
put in its place. -/
def visitedFrom : List SyntaxNode → List SyntaxNode
  | [] => []
  | n :: pending => n :: visitedFrom (n.namedChildren ++ pending)
termination_by pending => sizeAmong pending
decreasing_by
  rw [sizeAmong_append]
  exact Nat.add_lt_add_right (sizeAmong_namedChildren_lt n) _

/-- The nodes visited from a root. -/
def visited (root : SyntaxNode) : List SyntaxNode := visitedFrom [root]

end SyntaxNode

end ImportClosure
