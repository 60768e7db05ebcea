import ImportClosure.Syntax.Grammar.Function
/-!
Expressions.

Operators do not need their precedences here: which operand binds tighter changes neither what is
accepted nor which calls there are. So an expression is a row of operands with operators between
them, possibly a choice after it, and an operand is a primary expression with what follows it:
members, indices, calls, and an assignment if it can be assigned to.
-/

namespace ImportClosure.Grammar

open ImportClosure.Grammar.Parser

/-! ## Lists of expressions -/

/-- Expressions separated by commas. -/
def expressions (rules : Rules) (g : Setting) : Parser SyntaxNode := do
  let first ← expression rules g
  let others ← many do
    if ← takesOperator "," then some <$> expression rules g else pure none
  match others with
  | [] => pure first
  | _ => nodeFrom "sequence_expression" (first :: others)

/-- Comments in the manner of markup at these places, as nodes. -/
def markupComments (places : List Nat) : Parser (List SyntaxNode) :=
  places.mapM fun i => node "html_comment" i []

/-- The arguments of a call, each possibly absent; comments in the manner of markup are parts of
the list. -/
def arguments (rules : Rules) : Parser SyntaxNode := do
  skip
  let start := (← get).pos
  want "("
  let items ← many do
    let remarks ← markupComments (← skipToOperand)
    if ← takes ")" then
      if remarks.isEmpty then pure none
      else
        -- the comments come first, the bracket is met again
        modify fun c => { c with pos := c.pos - 1, last := c.pos - 1 }
        pure (some remarks)
    else if ← takes "," then pure (some remarks)
    else
      let n ← if ← sees "..." then restOf "spread_element" (expression rules inner)
        else expression rules inner
      if (← sees ",") || (← sees ")") then pure (some (remarks ++ [n])) else refuse
  node "arguments" start items.flatten

/-! ## Arrays and objects -/

/-- One item of an array. -/
def arrayItem (rules : Rules) : Parser SyntaxNode := do
  if ← sees "..." then restOf "spread_element" (rules (.assignment inner))
  else rules (.assignment inner)

/-- An array; with an item that can only be a pattern it is one itself. -/
def array (rules : Rules) : Parser SyntaxNode := do
  skip
  let start := (← get).pos
  want "["
  let items ← itemsUntil "]" (arrayItem rules)
  node (if items.any isPatternOnly then "array_pattern" else "array") start items

/-- The words in front of a method of an object. -/
def objectModifiers (typed : Bool) : List String :=
  if typed then
    ["static", "async", "get", "set", "public", "private", "protected", "override", "readonly"]
  else ["static", "async", "get", "set"]

/-- A property of an object after its name. -/
def propertyRest (rules : Rules) (start : Nat) (name : SyntaxNode) : Parser SyntaxNode := do
  if ← takes ":" then
    let value ← rules (.assignment inner)
    node "pair" start [asRole "key" name, asRole "value" value]
  else if name.kind ≠ "property_identifier" then refuse
  else if !(← isTyped) && reservedWords.any (fun w => name.bytes = some w.toUTF8.toList)
      && name.bytes ≠ some "export".toUTF8.toList then refuse
  else
    match ← initializer? rules inner with
    | none => pure { name with kind := "shorthand_property_identifier" }
    | some value => node "object_assignment_pattern" start [name, value]

/-- One property of an object. -/
def property (rules : Rules) : Parser SyntaxNode := do
  skip
  let start := (← get).pos
  if ← sees "..." then restOf "spread_element" (rules (.assignment inner))
  else
    let marks ← decorators rules
    let words ← modifiers (objectModifiers (← isTyped)) false
    let generator ← takesOperator "*"
    let name ← memberName rules
    if ← isTyped then
      let _ ← attempt do
        want "?"
        if ← seesParameters then pure () else fail
    if (← seesParameters) || generator || !words.isEmpty || !marks.isEmpty then
      node "method_definition" start (marks ++ asRole "key" name :: (← methodRest rules))
    else propertyRest rules start name

/-- The property can only be part of a pattern. -/
def isPatternProperty (n : SyntaxNode) : Bool :=
  n.kind = "object_assignment_pattern"
    || ((n.kind = "pair" || n.kind = "spread_element") && n.children.any isPatternOnly)

/-- An object; with a property that gives a default it can only be a pattern. -/
def object (rules : Rules) : Parser SyntaxNode := do
  skip
  let start := (← get).pos
  want "\x7b"
  let items ← itemsUntil "\x7d" (property rules)
  node (if items.any isPatternProperty then "object_pattern" else "object") start items

/-! ## Primary expressions -/

/-- The arrow function whose head was read. -/
def arrowFunction (rules : Rules) (g : Setting) (start : Nat) (head : List SyntaxNode) :
    Parser SyntaxNode := do
  let body ← arrowBody rules g
  node "arrow_function" start (head ++ [body])

/-- Something in parentheses: the parameters of an arrow function, or expressions. -/
def parenthesized (rules : Rules) (g : Setting) : Parser SyntaxNode := do
  let start := (← get).pos
  match ← arrowHead? rules g with
  | some head => arrowFunction rules g start head
  | none =>
    want "("
    let n ← rules (.expressions inner)
    let ascription ← ascription? rules false
    want ")"
    node "parenthesized_expression" start (n :: ascription)

/-- A name, or the arrow function whose parameter it is. -/
def nameOrArrow (rules : Rules) (g : Setting) : Parser SyntaxNode := do
  let start := (← get).pos
  let name ← nameAs "identifier"
  if ← takesOperator "=>" then arrowFunction rules g start [name] else pure name

/-- What the word `async` begins, or the name it is. -/
def asyncOrName (rules : Rules) (g : Setting) : Parser SyntaxNode := do
  let start := (← get).pos
  let head ← attempt do
    wantWord "async"
    if g.endsAtLine && (← mayEnd true) then fail
    else if ← takesWord "function" then pure none
    else
      match ← arrowHead? rules g with
      | some head => pure (some head)
      | none =>
        let name ← nameAs "identifier"
        if ← takesOperator "=>" then pure (some [name]) else fail
  match head with
  | some none => functionRest rules start
  | some (some head) => arrowFunction rules g start head
  | none => nameOrArrow rules g

/-- A word that could not continue an expression comes next, or another beginning of an
operand. -/
def seesOperand : Parser Bool := do
  let _ ← skipToOperand
  let c ← peek
  match ← word? with
  | some w =>
    let joins := if ← isTyped then ["in", "instanceof", "as", "satisfies", "implements"]
      else ["in", "instanceof"]
    pure !(joins.contains w)
  | none =>
    pure ("'\"`([\x7b/@<#!~+-".toList.contains c
      || (numberEnd? (← source) (← get).pos).isSome)

/-- Type arguments after an expression that are not two comparisons: no operand follows them,
unless they belong to a call. -/
def callTypeArguments? (rules : Rules) (g : Setting) : Parser (Option SyntaxNode) :=
  attempt do
    let types ← typeArguments rules
    let c ← peek
    if c = '=' || c = '>' then fail
    else if (← sees "(") || (← sees "`") || (← sees "\x7b") then pure types
    else if g.endsAtLine && (← mayEnd true) then pure types
    else if ← seesOperand then fail
    else pure types

/-- The members of what `new` is applied to. -/
def constructedMembers (rules : Rules) : Nat → SyntaxNode → Parser SyntaxNode
  | 0, n => pure n
  | fuel + 1, n => do
    if ← takesOperator "." then
      let name ← if ← sees "#" then privateName else nameAs "property_identifier"
      constructedMembers rules fuel
        (← nodeFrom "member_expression" [asRole "object" n, asRole "property" name])
    else if ← takes "[" then
      let index ← rules (.expressions inner)
      want "]"
      constructedMembers rules fuel (← nodeFrom "subscript_expression" [n, index])
    else if ← sees "`" then
      let text ← template (rules (.expressions inner))
      constructedMembers rules fuel
        (← nodeFrom "call_expression" [asRole "function" n, asRole "arguments" text])
    else pure n

/-- What follows `new`, which was taken: what is constructed, and its arguments if any are
given. -/
def newRest (rules : Rules) (g : Setting) (start : Nat) : Parser SyntaxNode := do
  if ← takesOperator "." then
    wantWord "target"
    leaf "meta_property" start []
  else
    let made ← rules (.constructed g)
    let types ← if ← isTyped then callTypeArguments? rules g else pure none
    let given ← if ← sees "(" then pure [← arguments rules] else pure []
    node "new_expression" start
      (asRole "constructor" made :: types.toList ++ given.map (asRole "arguments"))

/-- What `new` begins; in the typed grammar it may be a name. -/
def newOrName (rules : Rules) (g : Setting) : Parser SyntaxNode := do
  let start := (← get).pos
  if ← isTyped then
    match ← attempt (do wantWord "new"; newRest rules g start) with
    | some n => pure n
    | none => nameOrArrow rules g
  else
    wantWord "new"
    newRest rules g start

/-- What `import` begins within an expression: a call, or what is known about the module. -/
def importOperand (rules : Rules) : Parser SyntaxNode := do
  let start := (← get).pos
  wantWord "import"
  if ← takesOperator "." then
    wantWord "meta"
    leaf "meta_property" start []
  else
    let callee ← leaf "import" start []
    if ← sees "(" then
      let given ← arguments rules
      node "call_expression" start [asRole "function" callee, asRole "arguments" given]
    else refuse

/-- The words that are values by themselves. -/
def valueWords : List String := ["this", "super", "null", "true", "false", "undefined"]

/-- A primary expression that a word begins. -/
def wordPrimary (rules : Rules) (g : Setting) (w : String) : Parser SyntaxNode := do
  let start := (← get).pos
  if valueWords.contains w then
    if w = "undefined" then nameOrArrow rules g else nameAs w
  else if w = "function" then
    let _ ← anyWord
    functionRest rules start
  else if w = "class" then
    let _ ← anyWord
    classRest rules start []
  else if w = "async" then asyncOrName rules g
  else if w = "new" then newOrName rules g
  else if w = "import" then importOperand rules
  else if !(← isTyped) && w ≠ "export" && reservedWords.contains w then refuse
  else nameOrArrow rules g

/-- What an angle bracket begins: an element in plain scripts; otherwise an arrow function with
type parameters, or an operand with its type in front. -/
def anglePrimary (rules : Rules) (g : Setting) : Parser SyntaxNode := do
  let start := (← get).pos
  if ← isTyped then
    match ← arrowHead? rules g with
    | some head => arrowFunction rules g start head
    | none =>
      let types ← typeArguments rules
      node "type_assertion" start [types, ← rules (.operand g)]
  else rules .element

/-- A primary expression. -/
def primary (rules : Rules) (g : Setting) : Parser SyntaxNode := do
  let _ ← skipToOperand
  let start := (← get).pos
  match ← word? with
  | some w => wordPrimary rules g w
  | none =>
    let c ← peek
    if c = '\'' || c = '"' then string
    else if c = '`' then template (rules (.expressions inner))
    else if c = '(' then parenthesized rules g
    else if c = '[' then array rules
    else if c = '\x7b' then object rules
    else if c = '/' then regex
    else if c = '<' then anglePrimary rules g
    else if c = '#' then
      let name ← privateName
      if ← seesWord "in" then pure name else refuse
    else if c = '@' then
      let marks ← decorators rules
      wantWord "class"
      classRest rules start marks
    else number

/-! ## What follows a primary expression -/

/-- What follows a question mark and a dot. -/
def optionalLink (rules : Rules) (g : Setting) (n : SyntaxNode) : Parser SyntaxNode := do
  let types ← if (← isTyped) && (← sees "<") then callTypeArguments? rules g else pure none
  if ← sees "(" then
    nodeFrom "call_expression"
      (asRole "function" n :: types.toList ++ [asRole "arguments" (← arguments rules)])
  else if ← takes "[" then
    let index ← rules (.expressions inner)
    want "]"
    nodeFrom "subscript_expression" [n, index]
  else
    let name ← if ← sees "#" then privateName else nameAs "property_identifier"
    nodeFrom "member_expression" [asRole "object" n, asRole "property" name]

/-- One thing that follows an expression and belongs to it. -/
def link? (rules : Rules) (g : Setting) (n : SyntaxNode) : Parser (Option SyntaxNode) := do
  skip
  if (← peek) = '`' then
    let text ← template (rules (.expressions inner))
    some <$> nodeFrom "call_expression" [asRole "function" n, asRole "arguments" text]
  else
    match ← operator? with
    | some "." =>
      let _ ← takes "."
      let name ← if ← sees "#" then privateName else nameAs "property_identifier"
      some <$> nodeFrom "member_expression" [asRole "object" n, asRole "property" name]
    | some "?." =>
      let _ ← takes "?."
      some <$> optionalLink rules g n
    | some "[" =>
      let _ ← takes "["
      let index ← rules (.expressions inner)
      want "]"
      some <$> nodeFrom "subscript_expression" [n, index]
    | some "(" =>
      let given ← arguments rules
      some <$> nodeFrom "call_expression" [asRole "function" n, asRole "arguments" given]
    | some "<" =>
      if ← isTyped then
        match ← callTypeArguments? rules g with
        | none => pure none
        | some types =>
          if ← sees "(" then
            let given ← arguments rules
            some <$> nodeFrom "call_expression"
              [asRole "function" n, types, asRole "arguments" given]
          else some <$> nodeFrom "instantiation_expression" [n, types]
      else pure none
    | some mark =>
      if mark = "++" || mark = "--" then
        if g.endsAtLine && (← mayEnd true) then pure none
        else
          let _ ← takes mark
          some <$> nodeFrom "update_expression" [n]
      else if mark = "!" && (← isTyped) then
        if g.endsAtLine && (← mayEnd true) then pure none
        else
          let _ ← takes mark
          some <$> nodeFrom "non_null_expression" [n]
      else pure none
    | none => pure none

/-- An expression with all that follows it and belongs to it. -/
def linked (rules : Rules) (g : Setting) : Nat → SyntaxNode → Parser SyntaxNode
  | 0, n => pure n
  | fuel + 1, n => do
    if isPatternOnly n || n.kind = "private_property_identifier" then pure n
    else
      match ← link? rules g n with
      | none => pure n
      | some n => linked rules g fuel n

/-- The operators that assign besides `=`. -/
def assigningOperators : List String :=
  ["+=", "-=", "*=", "/=", "%=", "^=", "&=", "|=", ">>=", ">>>=", "<<=", "**=", "&&=", "||=",
    "??="]

/-- The expression can stand left of an assigning operator that also reads it. -/
def isUpdatable (n : SyntaxNode) : Bool :=
  n.kind = "identifier" || n.kind = "member_expression" || n.kind = "subscript_expression"
    || n.kind = "parenthesized_expression" || n.kind = "non_null_expression"

/-- The expression, or the assignment to it. -/
def assigned (rules : Rules) (g : Setting) (left : SyntaxNode) : Parser SyntaxNode := do
  skip
  match ← operator? with
  | some "=" =>
    if left.kind = "parenthesized_expression"
        || (left.kind ≠ "assignment_expression" && isTarget left) then
      let _ ← takes "="
      nodeFrom "assignment_expression" [left, ← expression rules g]
    else pure left
  | some mark =>
    if assigningOperators.contains mark && isUpdatable left then
      let _ ← takes mark
      nodeFrom "augmented_assignment_expression" [left, ← expression rules g]
    else pure left
  | none => pure left

/-! ## Operands and operators -/

/-- What follows the word `yield`, which was taken. -/
def yieldRest (rules : Rules) (g : Setting) (start : Nat) : Parser SyntaxNode := do
  if g.endsAtLine && (← mayEnd true) then node "yield_expression" start []
  else if ← takesOperator "*" then node "yield_expression" start [← expression rules g]
  else if ← seesOperand then node "yield_expression" start [← expression rules g]
  else node "yield_expression" start []

/-- An operand that is no pattern. -/
def plainOperand (rules : Rules) (g : Setting) : Parser SyntaxNode := do
  let n ← rules (.operand g)
  if isPatternOnly n then refuse else pure n

/-- A primary expression with all that follows it. -/
def linkedPrimary (rules : Rules) (g : Setting) : Parser SyntaxNode := do
  let n ← linked rules g (← source).size (← primary rules g)
  assigned rules g n

/-- The operators in front of an operand. -/
def leadingOperators : List String := ["!", "+", "-", "++", "--"]

/-- The words in front of an operand. -/
def leadingWords : List String := ["typeof", "void", "delete"]

/-- An operand. -/
def operand (rules : Rules) (g : Setting) : Parser SyntaxNode := do
  let _ ← skipToOperand
  let start := (← get).pos
  match ← word? with
  | some w =>
    if leadingWords.contains w then
      let _ ← anyWord
      node "unary_expression" start [← plainOperand rules g]
    else if w = "yield" then
      let _ ← anyWord
      yieldRest rules g start
    else if w = "await" then
      let taken ← attempt do
        wantWord "await"
        if g.endsAtLine && (← mayEnd true) then fail
        else if ← seesOperand then pure () else fail
      match taken with
      | some () => node "await_expression" start [← plainOperand rules g]
      | none => linkedPrimary rules g
    else if w = "using" then
      let _ ← anyWord
      let n ← linkedPrimary rules g
      if n.kind = "assignment_expression" then pure n else refuse
    else linkedPrimary rules g
  | none =>
    if ← takes "~" then node "unary_expression" start [← plainOperand rules g]
    else
      match ← operator? with
      | some mark =>
        if leadingOperators.contains mark then
          let _ ← takes mark
          node "unary_expression" start [← plainOperand rules g]
        else linkedPrimary rules g
      | none => linkedPrimary rules g

/-- The operators between two operands. -/
def binaryOperators : List String :=
  ["&&", "||", "??", ">>", ">>>", "<<", "&", "^", "|", "+", "-", "*", "/", "%", "**", "<", "<=",
    "==", "===", "!=", "!==", ">=", ">"]

/-- The type after `as` or `satisfies`. -/
def assertedType (rules : Rules) (g : Setting) (w : String) : Parser SyntaxNode := do
  if w = "as" && (← seesWord "const") then nameAs "const" else rules (.type g.endsAtLine)

/-- An operator and what it joins to an expression, if one comes next. -/
def joined? (rules : Rules) (g : Setting) : Parser (Option SyntaxNode) := do
  match ← word? with
  | some w =>
    if w = "instanceof" || (w = "in" && !g.beforeIn) then
      let _ ← anyWord
      some <$> plainOperand rules g
    else if (← isTyped) && (w = "as" || w = "satisfies") then
      if g.endsAtLine && (← mayEnd true) then pure none
      else
        let _ ← anyWord
        some <$> assertedType rules g w
    else pure none
  | none =>
    match ← operator? with
    | some mark =>
      if binaryOperators.contains mark then
        let _ ← takes mark
        some <$> plainOperand rules g
      else pure none
    | none => pure none

/-- The first alternative of a choice and the colon after it. In the typed grammar a colon after
parentheses may begin the type of a result; if that reading fails, it is the colon of the
choice. -/
def firstChoice (rules : Rules) : Parser SyntaxNode := do
  let before := (← get).typedArrows
  let read (g : Setting) : Parser SyntaxNode := do
    let n ← expression rules g
    want ":"
    pure n
  match ← attempt (read inner) with
  | some n => pure n
  | none =>
    if (← get).typedArrows = before then fail
    else read { inner with beforeColon := true }

/-- An expression, or what could become a pattern. -/
def assignment (rules : Rules) (g : Setting) : Parser SyntaxNode := do
  let first ← rules (.operand g)
  if isPatternOnly first then pure first
  else
    let others ← many (joined? rules g)
    let n ← match others with
      | [] => pure first
      | _ => nodeFrom "binary_expression" (first :: others)
    if ← takesOperator "?" then
      let yes ← firstChoice rules
      let no ← expression rules g
      nodeFrom "ternary_expression" [n, yes, no]
    else pure n

/-- What is written after `new`. -/
def constructed (rules : Rules) (g : Setting) : Parser SyntaxNode := do
  let _ ← skipToOperand
  let start := (← get).pos
  if ← both (not <$> isTyped) (takesWord "new") then newRest rules g start
  else constructedMembers rules (← source).size (← primary rules g)

end ImportClosure.Grammar
