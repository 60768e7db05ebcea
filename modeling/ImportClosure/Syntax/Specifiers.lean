import ImportClosure.Syntax.Fault
import ImportClosure.Specifier
import ImportClosure.Variant
/-!
The specifiers in a syntax tree.

An import or a re-export gives the value of its source string. In plain scripts a call of
`require` or `module.require` gives the value of its first argument that is not a comment, if
that argument is a string or a template without substitutions; other calls give nothing, and
TypeScript sources take no account of calls at all.
-/

namespace ImportClosure.SyntaxNode

/-- The source of an import or re-export. -/
def sourceSpecifier? (n : SyntaxNode) : Option Text :=
  match n.child? "source" with
  | none => none
  | some source => if source.kind = "string" then some source.stringValue else none

/-- The callee is `require` or `module.require`. -/
def isRequire (callee : SyntaxNode) : Bool :=
  if callee.kind = "identifier" then callee.text == Text.ofString "require"
  else if callee.kind = "member_expression" then
    match callee.child? "object", callee.child? "property" with
    | some object, some property =>
      object.kind == "identifier" && object.text == Text.ofString "module"
        && property.text == Text.ofString "require"
    | _, _ => false
  else false

/-- The specifier an argument of `require` spells out. -/
def argumentSpecifier? (argument : SyntaxNode) : Option Text :=
  if argument.kind = "string" then some argument.stringValue
  else if argument.kind = "template_string" then argument.templateValue?
  else none

/-- The specifier of a call of `require`. -/
def callSpecifier? (n : SyntaxNode) : Option Text :=
  match n.child? "arguments", n.child? "function" with
  | some arguments, some callee =>
    if arguments.kind = "arguments" ∧ callee.isRequire then
      match arguments.namedChildren.filter (fun c => c.kind ≠ "comment") with
      | [] => none
      | argument :: _ => argument.argumentSpecifier?
    else none
  | _, _ => none

/-- The specifier that a single node introduces. -/
def specifier? (v : Variant) (n : SyntaxNode) : Option Text :=
  if n.kind = "import_statement" ∨ n.kind = "export_statement" then n.sourceSpecifier?
  else if n.kind = "call_expression" ∧ v = .javascript then n.callSpecifier?
  else none

/-- What a tree gives: its specifiers, or its first error. -/
def extract (v : Variant) (root : SyntaxNode) : Extraction :=
  if root.hasError then .refused root.describeFault
  else .found (Specifiers.none.registerAll (root.visited.map (specifier? v)))

end ImportClosure.SyntaxNode
