import ImportClosure.Syntax.Grammar.Declaration
/-!
Imports and exports, which may stand wherever a statement may.
-/

namespace ImportClosure.Grammar

open ImportClosure.Grammar.Parser

/-! ## Lists of names -/

/-- The name a module gives to something it exports. -/
def exportedName : Parser SyntaxNode := do
  if ← seesQuote then string
  else if ← seesWord "default" then nameAs "identifier"
  else identifier

/-- A word in front of a name that is only about its type. -/
def takesTypeMark : Parser Unit := do
  if ← isTyped then
    let _ ← attempt do
      if ← takesWord "type" then pure () else wantWord "typeof"
      if ← seesQuote then pure ()
      else
        match ← word? with
        | none => fail
        | some w => if w = "as" || w = "from" then fail else pure ()

/-- One name of an import list. -/
def importSpecifier : Parser SyntaxNode := do
  takesTypeMark
  let needsAlias := (← seesQuote) || (!(← isTyped) && (← seesWord "default"))
  let name ← exportedName
  if needsAlias then
    wantWord "as"
    nodeFrom "import_specifier" [name, ← identifier]
  else if ← takesWord "as" then nodeFrom "import_specifier" [name, ← identifier]
  else nodeFrom "import_specifier" [name]

/-- One name of an export list. -/
def exportSpecifier : Parser SyntaxNode := do
  takesTypeMark
  let name ← exportedName
  if ← takesWord "as" then nodeFrom "export_specifier" [name, ← exportedName]
  else nodeFrom "export_specifier" [name]

/-- Names between braces; a comma alone is a list without names. -/
def specifiers (kind : String) (item : Parser SyntaxNode) : Parser SyntaxNode := do
  skip
  let start := (← get).pos
  want "\x7b"
  if ← takes "," then
    want "\x7d"
    node kind start []
  else node kind start (← listUntil "\x7d" item)

/-! ## Imports -/

/-- The module something comes from. -/
def sourceString : Parser SyntaxNode := asRole "source" <$> string

/-- The module after the word `from`. -/
def fromClause : Parser SyntaxNode := do
  wantWord "from"
  sourceString

/-- All of a module under one name. -/
def namespaceImport : Parser SyntaxNode := do
  want "*"
  wantWord "as"
  nodeFrom "namespace_import" [← identifier]

/-- A list of names, or all of a module. -/
def importList : Parser SyntaxNode := do
  if ← sees "*" then namespaceImport else specifiers "named_imports" importSpecifier

/-- What is imported. -/
def importClause : Parser (List SyntaxNode) := do
  if (← sees "*") || (← sees "\x7b") then pure [← importList]
  else
    let name ← identifier
    if ← takes "," then pure [name, ← importList] else pure [name]

/-- What is said about a module besides its name, and the end of the statement. -/
def importEnd (rules : Rules) : Parser (List SyntaxNode) := do
  let attributes ← if ← mayEnd false then pure []
    else if ← takesWord "with" then pure [← rules (.operand inner)]
    else pure []
  semicolon false
  pure attributes

/-- What `import` begins if a string or what is imported follows. -/
def importRest (rules : Rules) (start : Nat) : Parser SyntaxNode := do
  if ← seesQuote then
    let named ← sourceString
    node "import_statement" start (named :: (← importEnd rules))
  else
    let clause ← importClause
    let named ← fromClause
    node "import_statement" start (clause ++ named :: (← importEnd rules))

/-- A name for a module or for a member of a namespace: `import x = …`. -/
def importEquals (start : Nat) : Parser SyntaxNode := do
  let name ← nameAs "identifier"
  want "="
  let required ← attempt do
    wantWord "require"
    want "("
  match required with
  | some () =>
    let named ← sourceString
    want ")"
    semicolon false
    node "import_statement" start [← nodeFrom "import_require_clause" [name, named]]
  | none =>
    let _ ← nameAs "identifier"
    typePath (← source).size
    semicolon false
    node "import_alias" start [name]

/-- A name and an equals sign come next. -/
def aheadOfEquals : Parser Bool :=
  lookAhead do
    match ← word? with
    | none => pure false
    | some _ =>
      let _ ← anyWord
      seesOperator "="

/-- The word `type` or `typeof` comes next and is about the whole import, not the name of what is
imported. -/
def takesImportMark : Parser Unit := do
  let marked ← attempt do
    if ← takesWord "type" then pure () else wantWord "typeof"
    if (← seesOperator "=") || (← sees ",") then fail
    else
      let named ← lookAhead do
        if ← takesWord "from" then seesQuote else pure false
      if named then fail else pure ()
  pure (marked.getD ())

/-- An import statement; the word `import` was taken. -/
def importStatement (rules : Rules) (start : Nat) : Parser SyntaxNode := do
  if ← isTyped then
    takesImportMark
    if ← aheadOfEquals then importEquals start else importRest rules start
  else importRest rules start

/-- The word `import` begins an expression. -/
def aheadOfImportOperand : Parser Bool :=
  lookAhead do
    let _ ← anyWord
    if ← sees "(" then pure true else sees "."

/-! ## Exports -/

/-- What follows `export` and a star. -/
def exportAll (start : Nat) : Parser SyntaxNode := do
  want "*"
  let name ← if ← takesWord "as" then pure [← exportedName] else pure []
  let named ← fromClause
  semicolon false
  node "export_statement" start (name ++ [named])

/-- What follows `export` if it is a list of names. -/
def exportList (start : Nat) : Parser SyntaxNode := do
  let clause ← specifiers "export_clause" exportSpecifier
  let named ← if ← mayEnd false then pure []
    else if ← seesWord "from" then pure [← fromClause]
    else pure []
  semicolon false
  node "export_statement" start (clause :: named)

/-- What follows `export default`. -/
def exportDefault (rules : Rules) (start : Nat) (marks : List SyntaxNode) :
    Parser SyntaxNode := do
  match ← declaration? rules with
  | some n => node "export_statement" start (marks ++ [n])
  | none =>
    let value ← expression rules ⟨true, false, false⟩
    semicolon true
    node "export_statement" start (marks ++ [value])

/-- What follows `export` in the typed grammar only, if it does. -/
def typedExport? (rules : Rules) (start : Nat) : Parser (Option SyntaxNode) := do
  if ← seesWord "type" then
    let list ← lookAhead do
      let _ ← anyWord
      sees "\x7b"
    if list then
      let _ ← anyWord
      some <$> exportList start
    else pure none
  else if ← takesOperator "=" then
    let value ← expression rules ⟨true, false, false⟩
    semicolon true
    some <$> node "export_statement" start [value]
  else if ← takesWord "as" then
    wantWord "namespace"
    let name ← nameAs "identifier"
    semicolon false
    some <$> node "export_statement" start [name]
  else if ← seesWord "import" then
    some <$> node "export_statement" start [← importAlias (← get).pos]
  else pure none

/-- An export; the word `export` was taken. Without anything to export the word is a name, and
there is no result. -/
def exportStatement? (rules : Rules) (start : Nat) (marks : List SyntaxNode) :
    Parser (Option SyntaxNode) := do
  if marks.isEmpty && (← mayEnd true) then pure none
  else if ← sees "*" then some <$> exportAll start
  else if ← sees "\x7b" then some <$> exportList start
  else if ← takesWord "default" then some <$> exportDefault rules start marks
  else
    let typed ← if ← isTyped then typedExport? rules start else pure none
    match typed with
    | some n => pure (some n)
    | none =>
      let more ← decorators rules
      match ← declaration? rules with
      | some n => some <$> node "export_statement" start (marks ++ more ++ [n])
      | none => if marks.isEmpty && more.isEmpty then pure none else refuse

end ImportClosure.Grammar
