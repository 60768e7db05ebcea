import ImportClosure.Syntax.Grammar.Type
/-!
Blocks, functions and classes.
-/

namespace ImportClosure.Grammar

open ImportClosure.Grammar.Parser

/-! ## Blocks and functions -/

/-- Statements up to a closing brace, which is taken. -/
def statementsUntilBrace (rules : Rules) : Parser (List SyntaxNode) :=
  many do
    if ← takes "\x7d" then pure none else some <$> rules .statement

/-- Statements between braces. -/
def block (rules : Rules) : Parser SyntaxNode := do
  skip
  let start := (← get).pos
  want "\x7b"
  node "statement_block" start (← statementsUntilBrace rules)

/-- A function from its star or name on; the word `function` was taken. -/
def functionRest (rules : Rules) (start : Nat) : Parser SyntaxNode := do
  let generator ← takesOperator "*"
  let name ← if (← sees "(") || (← sees "<") then pure [] else pure [← identifier]
  let head ← signature rules
  let body ← block rules
  node (if generator then "generator_function" else "function_expression") start
    (name ++ head ++ [body])

/-- The body of an arrow function. -/
def arrowBody (rules : Rules) (g : Setting) : Parser SyntaxNode := do
  if ← sees "\x7b" then block rules else expression rules g

/-- The part of an arrow function in parentheses, with the arrow. -/
def arrowHead? (rules : Rules) (g : Setting) : Parser (Option (List SyntaxNode)) :=
  attempt do
    let generic ← typeParameters? rules
    let ps ← parameters rules
    let result ← if g.beforeColon then pure [] else resultAscription? rules false
    if !result.isEmpty then
      modify fun c => { c with typedArrows := c.typedArrows + 1 }
    want "=>"
    pure (generic ++ asRole "parameters" ps :: result)

/-! ## Members of classes and objects -/

/-- What follows a method's name. -/
def methodRest (rules : Rules) : Parser (List SyntaxNode) := do
  let head ← signature rules
  let body ← block rules
  pure (head ++ [body])

/-- A method's parameters come next, or its type parameters. -/
def seesParameters : Parser Bool := do
  if ← sees "(" then pure true
  else if ← isTyped then sees "<"
  else pure false

/-- The words in front of a member of a class. -/
def classModifiers (typed : Bool) : List String :=
  if typed then
    ["public", "private", "protected", "declare", "static", "override", "readonly", "abstract",
      "accessor", "async", "get", "set"]
  else ["static", "async", "get", "set"]

/-- A static block of a class. -/
def staticBlock? (rules : Rules) (start : Nat) : Parser (Option SyntaxNode) := do
  let head ← attempt do
    wantWord "static"
    if ← sees "\x7b" then pure () else fail
  match head with
  | none => pure none
  | some () => some <$> node "class_static_block" start [← block rules]

/-- The end of a member that has no body: a semicolon, a comma or a line end. -/
def memberEnd (inExpression : Bool) : Parser Unit := do
  if ← mayEnd inExpression then pure ()
  else if ← both isTyped (takes ",") then pure ()
  else semicolon inExpression

/-- A member of a class that has parameters; without a body it is a signature. -/
def classMethod (rules : Rules) (start : Nat) (before : List SyntaxNode) :
    Parser SyntaxNode := do
  let head ← signature rules
  if (← sees "\x7b") || !(← isTyped) then
    let body ← block rules
    node "method_definition" start (before ++ head ++ [body])
  else
    memberEnd false
    node "method_signature" start (before ++ head)

/-- A member of a class that has no parameters. -/
def classField (rules : Rules) (start : Nat) (before : List SyntaxNode) :
    Parser SyntaxNode := do
  let ascription ← ascription? rules true
  let value ← initializer? rules ⟨true, false, false⟩
  memberEnd value.isSome
  node "field_definition" start (before ++ ascription ++ value.toList)

/-- One member of a class. -/
def classMember (rules : Rules) : Parser SyntaxNode := do
  skip
  let start := (← get).pos
  let typed ← isTyped
  let marks ← decorators rules
  match ← staticBlock? rules start with
  | some n => pure n
  | none =>
    let _ ← modifiers (classModifiers typed) true
    let index ← if typed then indexSignature? rules true else pure none
    match index with
    | some n =>
      memberEnd false
      pure n
    | none =>
      let generator ← takesOperator "*"
      let name ← memberName rules
      if typed then
        let _ ← either (takesOperator "?") (takesOperator "!")
      if (← seesParameters) || generator then classMethod rules start (marks ++ [name])
      else classField rules start (marks ++ [name])

/-- The members of a class after the opening brace. -/
def classMembers (rules : Rules) : Parser (List SyntaxNode) := do
  let members ← many do
    if ← takes "\x7d" then pure none
    else if ← takes ";" then pure (some [])
    else some <$> ([·]) <$> classMember rules
  pure members.flatten

/-- What a class is made from, one name or several. -/
def extendsClause (rules : Rules) : Parser (List SyntaxNode) := do
  let first ← expression rules inner
  if ← isTyped then
    let others ← many do
      if ← takes "," then some <$> expression rules inner else pure none
    pure (first :: others)
  else pure [first]

/-- The types a class promises to be. -/
def implementsClause (rules : Rules) : Parser (List SyntaxNode) := do
  let first ← rules (.type false)
  let others ← many do
    if ← takes "," then some <$> rules (.type false) else pure none
  pure (first :: others)

/-- What a class is derived from. -/
def heritage (rules : Rules) : Parser (List SyntaxNode) := do
  let bases ← if ← takesWord "extends" then extendsClause rules else pure []
  let promises ← if ← both isTyped (takesWord "implements") then implementsClause rules
    else pure []
  pure (bases ++ promises)

/-- A class from its name on; the word `class` was taken. -/
def classRest (rules : Rules) (start : Nat) (marks : List SyntaxNode) : Parser SyntaxNode := do
  let anonymous := (← sees "\x7b") || (← sees "<") || (← seesWord "extends")
    || ((← isTyped) && (← seesWord "implements"))
  let name ← if anonymous then pure [] else pure [← identifier]
  let generic ← typeParameters? rules
  let bases ← heritage rules
  want "\x7b"
  let members ← classMembers rules
  node "class" start (marks ++ name ++ generic ++ bases ++ [← nodeFrom "class_body" members])

end ImportClosure.Grammar
