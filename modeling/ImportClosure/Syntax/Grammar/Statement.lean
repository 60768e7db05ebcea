import ImportClosure.Syntax.Grammar.Module
/-!
Statements.
-/

namespace ImportClosure.Grammar

open ImportClosure.Grammar.Parser

/-- An expression that a line end may end. -/
def outer : Setting := ⟨true, false, false⟩

/-! ## Statements with a condition or a body -/

/-- A condition between parentheses. -/
def condition (rules : Rules) : Parser SyntaxNode := do
  want "("
  let n ← rules (.expressions inner)
  let _ ← ascription? rules false
  want ")"
  pure n

/-- A choice between statements; the word `if` was taken. -/
def ifStatement (rules : Rules) (start : Nat) : Parser SyntaxNode := do
  let test ← condition rules
  let yes ← rules .statement
  if ← takesWord "else" then node "if_statement" start [test, yes, ← rules .statement]
  else node "if_statement" start [test, yes]

/-- A condition and the statement that depends on it. -/
def conditioned (rules : Rules) (kind : String) (start : Nat) : Parser SyntaxNode := do
  let test ← condition rules
  node kind start [test, ← rules .statement]

/-- A loop with its condition at the end; the word `do` was taken. -/
def doStatement (rules : Rules) (start : Nat) : Parser SyntaxNode := do
  let body ← rules .statement
  wantWord "while"
  let test ← condition rules
  let _ ← if ← mayEnd false then pure true else takes ";"
  node "do_statement" start [body, test]

/-- One case of a switch, or nothing at the closing brace. -/
def switchCase (rules : Rules) : Parser (Option SyntaxNode) := do
  if ← takes "\x7d" then pure none
  else
    let head ← if ← takesWord "case" then pure [← rules (.expressions inner)]
      else
        wantWord "default"
        pure []
    want ":"
    let body ← many do
      if (← sees "\x7d") || (← seesWord "case") || (← seesWord "default") then pure none
      else some <$> rules .statement
    some <$> nodeFrom "switch_case" (head ++ body)

/-- A choice by value; the word `switch` was taken. -/
def switchStatement (rules : Rules) (start : Nat) : Parser SyntaxNode := do
  let value ← condition rules
  want "\x7b"
  node "switch_statement" start (value :: (← many (switchCase rules)))

/-- What is done about an exception; the word `catch` was taken. -/
def catchClause (rules : Rules) : Parser SyntaxNode := do
  let caught ← if ← takes "(" then
      let name ← rules .binding
      let ascription ← ascription? rules false
      want ")"
      pure (name :: ascription)
    else pure []
  let body ← block rules
  nodeFrom "catch_clause" (caught ++ [body])

/-- A block whose exceptions are looked at; the word `try` was taken. -/
def tryStatement (rules : Rules) (start : Nat) : Parser SyntaxNode := do
  let body ← block rules
  let handler ← if ← takesWord "catch" then pure [← catchClause rules] else pure []
  let last ← if ← takesWord "finally" then pure [← block rules] else pure []
  node "try_statement" start (body :: handler ++ last)

/-! ## Loops over a header -/

/-- What a loop begins with, before it is known of which kind the loop is: an initial value or a
variable is not looked for behind the word `in`. -/
def header : Setting := ⟨false, true, false⟩

/-- The word between a variable and what it runs over. -/
def takesLoopWord : Parser Bool := either (takesWord "in") (takesWord "of")

/-- The rest of a loop over the members of something. -/
def loopOver (rules : Rules) (start : Nat) (left : SyntaxNode) : Parser SyntaxNode := do
  let right ← rules (.expressions inner)
  want ")"
  node "for_in_statement" start [left, right, ← rules .statement]

/-- The rest of a loop with a condition and a step, after its start. -/
def loopWhile (rules : Rules) (start : Nat) (first : List SyntaxNode) : Parser SyntaxNode := do
  let test ← if ← takes ";" then pure []
    else
      let n ← rules (.expressions inner)
      want ";"
      pure [n]
  let step ← if ← sees ")" then pure [] else pure [← rules (.expressions inner)]
  want ")"
  node "for_statement" start (first ++ test ++ step ++ [← rules .statement])

/-- A loop that begins with the declaration of variables; the word for them was taken. -/
def loopOfVariables (rules : Rules) (start : Nat) : Parser SyntaxNode := do
  let vs ← declarators rules header
  if ← both (pure (vs.length = 1)) takesLoopWord then
    loopOver rules start (vs.headD default)
  else
    semicolon false
    loopWhile rules start vs

/-- The expression can be given the members of something in turn. -/
def isLoopTarget (n : SyntaxNode) : Bool :=
  n.kind = "parenthesized_expression" || (n.kind ≠ "assignment_expression" && isTarget n)

/-- A loop that begins with an expression. -/
def loopOfExpression (rules : Rules) (start : Nat) : Parser SyntaxNode := do
  let first ← rules (.assignment header)
  if ← both (pure (isLoopTarget first)) takesLoopWord then loopOver rules start first
  else if isPatternOnly first then refuse
  else
    let others ← many do
      if ← takesOperator "," then some <$> expression rules inner else pure none
    want ";"
    loopWhile rules start (first :: others)

/-- A loop with a header; the word `for` was taken. -/
def forStatement (rules : Rules) (start : Nat) : Parser SyntaxNode := do
  let _ ← takesWord "await"
  want "("
  if ← takes ";" then loopWhile rules start []
  else if ← either (takesWord "var") (takesWord "const") then loopOfVariables rules start
  else if ← lookAhead (both (takesWord "let") seesBinding) then
    let _ ← anyWord
    loopOfVariables rules start
  else loopOfExpression rules start

/-! ## Jumps -/

/-- A jump that may name a label; its word was taken. -/
def jump (kind : String) (start : Nat) : Parser SyntaxNode := do
  if ← mayEnd false then node kind start []
  else if ← takes ";" then node kind start []
  else
    let label ← identifier
    semicolon false
    node kind start [label]

/-- The end of a function; the word `return` was taken. -/
def returnStatement (rules : Rules) (start : Nat) : Parser SyntaxNode := do
  if ← mayEnd false then node "return_statement" start []
  else if ← takes ";" then node "return_statement" start []
  else
    let n ← rules (.expressions outer)
    semicolon true
    node "return_statement" start [n]

/-- An exception; the word `throw` was taken. -/
def throwStatement (rules : Rules) (start : Nat) : Parser SyntaxNode := do
  let n ← rules (.expressions outer)
  semicolon true
  node "throw_statement" start [n]

/-! ## Expressions and labels as statements -/

/-- An expression as a statement. -/
def expressionStatement (rules : Rules) (start : Nat) : Parser SyntaxNode := do
  let n ← rules (.expressions outer)
  semicolon true
  node "expression_statement" start [n]

/-- A name and a colon come next. -/
def aheadOfLabel : Parser Bool :=
  lookAhead do
    match ← word? with
    | none => pure false
    | some w =>
      if !(← isTyped) && w ≠ "export" && reservedWords.contains w then pure false
      else
        let _ ← anyWord
        seesOperator ":"

/-- A statement with a label. -/
def labeledStatement (rules : Rules) (start : Nat) : Parser SyntaxNode := do
  let label ← nameAs "statement_identifier"
  want ":"
  node "labeled_statement" start [label, ← rules .statement]

/-- A brace and something that names a property come next. -/
def aheadOfProperties : Parser Bool :=
  lookAhead do
    want "\x7b"
    let isName ← attempt do
      if ← seesQuote then
        let _ ← string
      else
        let _ ← nameAs "property_identifier"
    match isName with
    | none => pure false
    | some () => sees ":"

/-- A block, or an object at the start of a statement if it cannot be a block. -/
def blockOrObject (rules : Rules) (start : Nat) : Parser SyntaxNode := do
  match ← attempt (block rules) with
  | some n => pure n
  | none => if ← aheadOfProperties then expressionStatement rules start else fail

/-! ## Statements by their first word -/

/-- A statement that a word of its own begins, if it does. -/
def keywordStatement? (rules : Rules) (start : Nat) (w : String) :
    Parser (Option SyntaxNode) := do
  let after (p : Parser SyntaxNode) : Parser (Option SyntaxNode) := do
    let _ ← anyWord
    some <$> p
  if w = "if" then after (ifStatement rules start)
  else if w = "for" then after (forStatement rules start)
  else if w = "while" then after (conditioned rules "while_statement" start)
  else if w = "with" then after (conditioned rules "with_statement" start)
  else if w = "do" then after (doStatement rules start)
  else if w = "switch" then after (switchStatement rules start)
  else if w = "try" then after (tryStatement rules start)
  else if w = "break" then after (jump "break_statement" start)
  else if w = "continue" then after (jump "continue_statement" start)
  else if w = "return" then after (returnStatement rules start)
  else if w = "throw" then after (throwStatement rules start)
  else if w = "debugger" then
    after do
      semicolon false
      node "debugger_statement" start []
  else if w = "import" then
    if ← aheadOfImportOperand then pure none else after (importStatement rules start)
  else pure none

/-- The export that comes next, if one does. -/
def export? (rules : Rules) (start : Nat) (marks : List SyntaxNode) :
    Parser (Option SyntaxNode) := do
  let before ← get
  let _ ← anyWord
  match ← exportStatement? rules start marks with
  | some n => pure (some n)
  | none =>
    modify fun c => { c with pos := before.pos, last := before.last }
    pure none

/-- A statement that decorators begin. -/
def decoratedStatement (rules : Rules) (start : Nat) : Parser SyntaxNode := do
  let marks ← decorators rules
  if ← seesWord "export" then
    match ← export? rules start marks with
    | some n => pure n
    | none => refuse
  else
    let _ ← both isTyped (takesWord "abstract")
    if ← aheadOfNamedClass then
      wantWord "class"
      classRest rules start marks
    else
      wantWord "class"
      let n ← classRest rules start marks
      semicolon true
      node "expression_statement" start [n]

/-- A statement that a word begins. -/
def wordStatement (rules : Rules) (start : Nat) (w : String) : Parser SyntaxNode := do
  match ← keywordStatement? rules start w with
  | some n => pure n
  | none =>
    if ← aheadOfLabel then labeledStatement rules start
    else
      let exported ← if w = "export" then export? rules start [] else pure none
      match exported with
      | some n => pure n
      | none =>
        match ← declaration? rules with
        | some n => pure n
        | none => expressionStatement rules start

/-- A statement. -/
def statement (rules : Rules) : Parser SyntaxNode := do
  let _ ← skipToOperand
  let start := (← get).pos
  match ← word? with
  | some w => wordStatement rules start w
  | none =>
    let c ← peek
    if c = '\x7b' then blockOrObject rules start
    else if c = ';' then
      want ";"
      node "empty_statement" start []
    else if c = '@' then decoratedStatement rules start
    else expressionStatement rules start

end ImportClosure.Grammar
