import ImportClosure.Syntax.Grammar.Expression
/-!
Declarations: variables, functions and classes, and in the typed grammar also types,
enumerations, namespaces and what is declared to exist elsewhere.

Most words that begin a declaration of the typed grammar are names as well. Such a word begins a
declaration only if a name follows it in the same line.
-/

namespace ImportClosure.Grammar

open ImportClosure.Grammar.Parser

/-! ## Variables -/

/-- One variable with its initial value. -/
def declarator (rules : Rules) (g : Setting) : Parser SyntaxNode := do
  let name ← rules .binding
  let _ ← if ← isTyped then takesOperator "!" else pure false
  let ascription ← ascription? rules g.endsAtLine
  let value ← initializer? rules g
  nodeFrom "variable_declarator" (name :: ascription ++ value.toList)

/-- Variables separated by commas. -/
def declarators (rules : Rules) (g : Setting) : Parser (List SyntaxNode) := do
  let first ← declarator rules g
  let others ← many do
    if ← takesOperator "," then some <$> declarator rules g else pure none
  pure (first :: others)

/-- The declarator ends in an initial value. -/
def endsInValue (n : SyntaxNode) : Bool := n.children.length > 1

/-- Variables up to the end of the statement. -/
def variableStatement (rules : Rules) (start : Nat) : Parser SyntaxNode := do
  let vs ← declarators rules ⟨true, false, false⟩
  semicolon ((vs.getLast?.map endsInValue).getD false)
  node "variable_declaration" start vs

/-! ## Words ahead -/

/-- The words that continue an expression. -/
def joiningWords (typed : Bool) : List String :=
  if typed then ["in", "instanceof", "as", "satisfies"] else ["in", "instanceof"]

/-- A name comes next, no word that continues an expression. -/
def seesName : Parser Bool := do
  match ← word? with
  | some w => pure !((joiningWords (← isTyped)).contains w)
  | none => pure false

/-- A name or the opening bracket of a pattern comes next. -/
def seesBinding : Parser Bool := either seesName (either (sees "[") (sees "\x7b"))

/-- The next word is followed by what `p` looks for, in the same line. -/
def aheadInLine (p : Parser Bool) : Parser Bool :=
  lookAhead do
    let _ ← anyWord
    if ← mayEnd true then pure false else p

/-- The word `function` and a name come next, a star possibly between them. -/
def aheadOfNamedFunction : Parser Bool :=
  lookAhead do
    if ← takesWord "function" then
      let _ ← takesOperator "*"
      pure (← word?).isSome
    else pure false

/-- The word `async` and a function with a name come next. -/
def aheadOfNamedAsync : Parser Bool := aheadInLine aheadOfNamedFunction

/-- The word `class` and a name come next. -/
def aheadOfNamedClass : Parser Bool :=
  lookAhead do
    if ← takesWord "class" then
      match ← word? with
      | none => pure false
      | some w => pure (w ≠ "extends" && !(w = "implements" && (← isTyped)))
    else pure false

/-! ## Functions and classes -/

/-- A function with a name; in the typed grammar its body may be missing. -/
def functionDeclaration (rules : Rules) (start : Nat) : Parser SyntaxNode := do
  wantWord "function"
  let _ ← takesOperator "*"
  let name ← identifier
  let head ← signature rules
  if ← sees "\x7b" then
    let body ← block rules
    node "function_declaration" start (name :: head ++ [body])
  else if ← isTyped then
    semicolon false
    node "function_signature" start (name :: head)
  else refuse

/-! ## Types, enumerations and namespaces -/

/-- A name for a type. -/
def typeAlias (rules : Rules) (start : Nat) : Parser SyntaxNode := do
  wantWord "type"
  let name ← nameAs "type_identifier"
  let generic ← typeParameters? rules
  want "="
  let value ← rules (.type true)
  semicolon false
  node "type_alias_declaration" start (name :: generic ++ [value])

/-- An interface. -/
def interfaceDeclaration (rules : Rules) (start : Nat) : Parser SyntaxNode := do
  wantWord "interface"
  let name ← nameAs "type_identifier"
  let generic ← typeParameters? rules
  let bases ← if ← takesWord "extends" then implementsClause rules else pure []
  let body ← objectType rules
  node "interface_declaration" start (name :: generic ++ bases ++ [body])

/-- One member of an enumeration. -/
def enumMember (rules : Rules) : Parser SyntaxNode := do
  let name ← memberName rules
  match ← initializer? rules inner with
  | none => pure name
  | some value => nodeFrom "enum_assignment" [name, value]

/-- An enumeration. -/
def enumDeclaration (rules : Rules) (start : Nat) : Parser SyntaxNode := do
  wantWord "enum"
  let name ← nameAs "identifier"
  want "\x7b"
  let members ← listUntil "\x7d" (enumMember rules)
  node "enum_declaration" start (name :: members)

/-- A namespace, the word in front of its name taken; its body may be missing. -/
def namespaceRest (rules : Rules) (start : Nat) : Parser SyntaxNode := do
  if ← seesQuote then
    let _ ← string
  else
    let _ ← nameAs "identifier"
    typePath (← source).size
  let body ← if ← sees "\x7b" then pure [← block rules] else pure []
  node "module" start body

/-- The word `module` or `namespace` begins a namespace. -/
def aheadOfNamespace : Parser Bool := aheadInLine (either seesQuote seesName)

/-- Another name for a member of a namespace. -/
def importAlias (start : Nat) : Parser SyntaxNode := do
  wantWord "import"
  let name ← nameAs "identifier"
  want "="
  let _ ← nameAs "identifier"
  typePath (← source).size
  semicolon false
  node "import_alias" start [name]

/-! ## Declarations by their first word -/

/-- A declaration of the typed grammar that the word `w` begins, if it does. -/
def typedDeclaration? (rules : Rules) (start : Nat) (w : String) :
    Parser (Option SyntaxNode) := do
  if w = "interface" then some <$> interfaceDeclaration rules start
  else if w = "enum" then some <$> enumDeclaration rules start
  else if w = "type" then
    if ← aheadInLine seesName then some <$> typeAlias rules start else pure none
  else if w = "module" || w = "namespace" then
    if ← aheadOfNamespace then
      let _ ← anyWord
      some <$> namespaceRest rules start
    else pure none
  else if w = "abstract" then
    let _ ← anyWord
    wantWord "class"
    some <$> classRest rules start []
  else pure none

/-- A declaration common to both grammars that the word `w` begins, if it does. -/
def commonDeclaration? (rules : Rules) (start : Nat) (w : String) :
    Parser (Option SyntaxNode) := do
  if w = "var" || w = "const" then
    let _ ← anyWord
    if w = "const" && (← isTyped) && (← seesWord "enum") then
      some <$> enumDeclaration rules start
    else some <$> variableStatement rules start
  else if w = "let" then
    if ← aheadInLine seesBinding then
      let _ ← anyWord
      some <$> variableStatement rules start
    else pure none
  else if w = "function" then
    if ← aheadOfNamedFunction then some <$> functionDeclaration rules start else pure none
  else if w = "async" then
    if ← aheadOfNamedAsync then
      let _ ← anyWord
      some <$> functionDeclaration rules start
    else pure none
  else if w = "class" then
    if ← aheadOfNamedClass then
      let _ ← anyWord
      some <$> classRest rules start []
    else pure none
  else pure none

/-- The declaration that comes next, if one does, the ambient ones apart. -/
def plainDeclaration? (rules : Rules) : Parser (Option SyntaxNode) := do
  match ← word? with
  | none => pure none
  | some w =>
    let start := (← get).pos
    match ← commonDeclaration? rules start w with
    | some n => pure (some n)
    | none => if ← isTyped then typedDeclaration? rules start w else pure none

/-- The words that may follow `declare`. -/
def ambientWords : List String :=
  ["var", "let", "const", "function", "async", "class", "interface", "enum", "type", "module",
    "namespace", "abstract", "global", "import"]

/-- What is declared to exist elsewhere; the word `declare` was taken. -/
def ambientRest (rules : Rules) (start : Nat) : Parser SyntaxNode := do
  if ← seesWord "global" then
    let _ ← anyWord
    node "ambient_declaration" start [← block rules]
  else if ← seesWord "import" then
    node "ambient_declaration" start [← importAlias (← get).pos]
  else
    let member ← attempt do
      wantWord "module"
      want "."
    match member with
    | some () =>
      let name ← nameAs "property_identifier"
      want ":"
      let value ← rules (.type true)
      semicolon false
      node "ambient_declaration" start [name, value]
    | none =>
      match ← plainDeclaration? rules with
      | some n => node "ambient_declaration" start [n]
      | none => refuse

/-- The word `declare` begins a declaration. -/
def aheadOfAmbient : Parser Bool :=
  aheadInLine do
    match ← word? with
    | some w => pure (ambientWords.contains w)
    | none => pure false

/-- The declaration that comes next, if one does. -/
def declaration? (rules : Rules) : Parser (Option SyntaxNode) := do
  match ← plainDeclaration? rules with
  | some n => pure (some n)
  | none =>
    if (← isTyped) && (← seesWord "declare") then
      let start := (← get).pos
      if ← aheadOfAmbient then
        let _ ← anyWord
        some <$> ambientRest rules start
      else pure none
    else pure none

end ImportClosure.Grammar
