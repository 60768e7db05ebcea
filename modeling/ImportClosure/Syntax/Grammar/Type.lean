import ImportClosure.Syntax.Grammar.Signature
/-!
Types of the typed grammar.

A type is read as operands joined by `|` and `&`, a conditional choice possibly after them. Where
line ends matter, an opening square bracket or `extends` on a line of its own does not continue
the type.
-/

namespace ImportClosure.Grammar

open ImportClosure.Grammar.Parser

/-! ## Brackets -/

/-- Type arguments between angle brackets, at least one. -/
def typeArguments (rules : Rules) : Parser SyntaxNode := do
  skip
  let start := (← get).pos
  want "<"
  match ← listUntil ">" (rules (.type false)) with
  | [] => refuse
  | items => node "type_arguments" start items

/-- One item of a tuple type. -/
def tupleItem (rules : Rules) : Parser SyntaxNode := do
  let rest ← takes "..."
  let named ← attempt do
    let name ← identifier
    let _ ← takes "?"
    want ":"
    pure name
  let n ← rules (.type false)
  let _ ← if rest || named.isSome then pure false else takes "?"
  pure n

/-- The key of an index signature after the opening bracket, with the closing bracket. -/
def indexKey (rules : Rules) : Parser SyntaxNode := do
  let name ← nameAs "identifier"
  let range ← if ← takes ":" then rules (.type false)
    else
      wantWord "in"
      rules (.type false)
  if ← takesWord "as" then
    let _ ← rules (.type false)
  want "]"
  nodeFrom "index_signature" [name, range]

/-- An index signature: a key in brackets and the type of its values. -/
def indexSignature? (rules : Rules) (isOpen : Bool) : Parser (Option SyntaxNode) := do
  let head ← attempt do
    if ← either (takes "-") (takes "+") then wantWord "readonly"
    want "["
    indexKey rules
  match head with
  | none => pure none
  | some key =>
    let _ ← either (takes "-") (takes "+")
    let _ ← takes "?"
    want ":"
    let value ← rules (.type isOpen)
    some <$> nodeFrom "index_signature" [key, value]

/-- The words in front of a member of an object type. -/
def typeMemberModifiers : List String :=
  ["public", "private", "protected", "static", "override", "readonly", "async", "get", "set"]

/-- A member of an object type that has a name. -/
def namedTypeMember (rules : Rules) : Parser SyntaxNode := do
  let _ ← modifiers typeMemberModifiers true
  match ← indexSignature? rules true with
  | some n => pure n
  | none =>
    let _ ← takes "*"
    let name ← memberName rules
    let _ ← takes "?"
    if (← sees "(") || (← sees "<") then
      nodeFrom "method_signature" (name :: (← signature rules))
    else nodeFrom "property_signature" (name :: (← ascription? rules true))

/-- One member of an object type. -/
def typeMember (rules : Rules) : Parser SyntaxNode := do
  skip
  let start := (← get).pos
  if (← sees "(") || (← sees "<") then node "call_signature" start (← signature rules)
  else
    let constructs ← attempt do
      let _ ← takesWord "abstract"
      wantWord "new"
      if (← sees "(") || (← sees "<") then pure () else fail
    match constructs with
    | some () => node "construct_signature" start (← signature rules)
    | none => namedTypeMember rules

/-- The members of an object type after the opening brace. -/
def typeMembers (rules : Rules) : Parser (List SyntaxNode) := do
  let _ ← either (takes ",") (takes ";")
  many do
    if ← takes "\x7d" then pure none
    else
      let n ← typeMember rules
      if (← takes ",") || (← sees "\x7d") then pure (some n)
      else
        semicolon false
        pure (some n)

/-- An object type between braces. -/
def objectType (rules : Rules) : Parser SyntaxNode := do
  skip
  let start := (← get).pos
  want "\x7b"
  node "object_type" start (← typeMembers rules)

/-! ## Operands -/

/-- The members of what a type names. -/
def typePath : Nat → Parser Unit
  | 0 => pure ()
  | fuel + 1 => do
    if ← takesOperator "." then
      let _ ← nameAs "type_identifier"
      typePath fuel

/-- Type arguments, if any are given. -/
def typeArguments? (rules : Rules) : Parser (List SyntaxNode) := do
  if ← sees "<" then pure [← typeArguments rules] else pure []

/-- The type of a value: `typeof` and what it is asked of. -/
def typeQuery (rules : Rules) (start : Nat) : Parser SyntaxNode := do
  if ← takesWord "import" then
    want "("
    let _ ← string
    want ")"
  else
    let _ ← nameAs "identifier"
  let members ← many do
    if ← either (takesOperator ".") (takesOperator "?.") then
      if ← sees "#" then some <$> privateName else some <$> nameAs "property_identifier"
    else pure none
  node "type_query" start (members ++ (← typeArguments? rules))

/-- A template whose substitutions are types. -/
def templateType (rules : Rules) (start : Nat) : Parser SyntaxNode := do
  want "`"
  node "template_literal_type" start
    (← many (substitution? "template_type" false (rules (.type false))))

/-- The words that are types by themselves and have neither members nor arguments. -/
def plainTypeWords : List String :=
  ["any", "number", "boolean", "string", "symbol", "void", "unknown", "never", "object", "this",
    "true", "false", "null", "undefined"]

/-- A type that a word begins. -/
def wordType (rules : Rules) (isOpen : Bool) (start : Nat) (w : String) : Parser SyntaxNode := do
  let _ ← anyWord
  if w = "typeof" then typeQuery rules start
  else if w = "keyof" then node "index_type_query" start [← rules (.primaryType isOpen)]
  else if w = "unique" then
    wantWord "symbol"
    node "predefined_type" start []
  else if plainTypeWords.contains w then node "predefined_type" start []
  else if w = "import" then
    want "("
    let named ← string
    want ")"
    typePath (← source).size
    node "import_type" start (named :: (← typeArguments? rules))
  else
    typePath (← source).size
    node "type_identifier" start (← typeArguments? rules)

/-- A type that is no operator's result and has no brackets after it. -/
def typeAtom (rules : Rules) (isOpen : Bool) : Parser SyntaxNode := do
  skip
  let start := (← get).pos
  let c ← peek
  if c = '(' then
    want "("
    let n ← rules (.type false)
    want ")"
    node "parenthesized_type" start [n]
  else if c = '\x7b' then objectType rules
  else if c = '[' then
    want "["
    node "tuple_type" start (← listUntil "]" (tupleItem rules))
  else if c = '`' then templateType rules start
  else if c = '\'' || c = '"' then string
  else if c = '-' || c = '+' then
    advanceTo (start + 1)
    number
  else if c = '*' then
    advanceTo (start + 1)
    node "existential_type" start []
  else if c = '?' then
    advanceTo (start + 1)
    rules (.primaryType isOpen)
  else if Source.isDigit c || c = '.' then number
  else
    match ← word? with
    | none => refuse
    | some w => wordType rules isOpen start w

/-- The brackets after a type. -/
def typeSuffixes (rules : Rules) (isOpen : Bool) : Nat → SyntaxNode → Parser SyntaxNode
  | 0, n => pure n
  | fuel + 1, n => do
    if isOpen && (← mayEnd false) then pure n
    else if ← takes "[" then
      if ← takes "]" then
        typeSuffixes rules isOpen fuel (← nodeFrom "array_type" [n])
      else
        let key ← rules (.type false)
        want "]"
        typeSuffixes rules isOpen fuel (← nodeFrom "lookup_type" [n, key])
    else pure n

/-- A type without operators on its outside. -/
def primaryType (rules : Rules) (isOpen : Bool) : Parser SyntaxNode := do
  let n ← typeAtom rules isOpen
  typeSuffixes rules isOpen (← source).size n

/-! ## Operators -/

/-- The part of a function type before its result. -/
def functionTypeHead (rules : Rules) : Parser (List SyntaxNode) := do
  let generic ← typeParameters? rules
  let ps ← parameters rules
  want "=>"
  pure (generic ++ [ps])

/-- A type that may be joined to others by operators. -/
def typeOperand (rules : Rules) (isOpen : Bool) : Parser SyntaxNode := do
  skip
  let start := (← get).pos
  let c ← peek
  let function ← if c = '(' || c = '<' then attempt (functionTypeHead rules) else pure none
  match function with
  | some head => node "function_type" start (head ++ [← resultType rules isOpen])
  | none =>
    match ← word? with
    | some "new" =>
      let _ ← anyWord
      let head ← functionTypeHead rules
      node "constructor_type" start (head ++ [← rules (.type isOpen)])
    | some "abstract" =>
      let _ ← anyWord
      wantWord "new"
      let head ← functionTypeHead rules
      node "constructor_type" start (head ++ [← rules (.type isOpen)])
    | some "infer" =>
      let _ ← anyWord
      let name ← nameAs "type_identifier"
      let limit ← if ← takesWord "extends" then pure [← rules (.type isOpen)] else pure []
      node "infer_type" start (name :: limit)
    | some "readonly" =>
      let _ ← anyWord
      node "readonly_type" start [← rules (.type isOpen)]
    | _ => rules (.primaryType isOpen)

/-- Takes an operator that joins types, if one comes next. -/
def takesTypeOperator : Parser Bool := either (takesOperator "|") (takesOperator "&")

/-- Takes the operators that come next and join types. -/
def takesTypeOperators : Nat → Parser Unit
  | 0 => pure ()
  | fuel + 1 => do
    if ← takesTypeOperator then takesTypeOperators fuel

/-- Types joined by operators; each of them may follow further operators. -/
def joinedTypes (rules : Rules) (isOpen : Bool) : Parser SyntaxNode := do
  skip
  let start := (← get).pos
  let fuel := (← source).size
  takesTypeOperators fuel
  let first ← typeOperand rules isOpen
  let others ← many do
    if ← takesTypeOperator then
      takesTypeOperators fuel
      some <$> typeOperand rules isOpen
    else pure none
  match others with
  | [] => pure first
  | _ => node "union_type" start (first :: others)

/-- A type. -/
def typeOf (rules : Rules) (isOpen : Bool) : Parser SyntaxNode := do
  let n ← joinedTypes rules isOpen
  if isOpen && (← mayEnd false) then pure n
  else
    let right ← attempt do
      wantWord "extends"
      joinedTypes rules isOpen
    match right with
    | none => pure n
    | some right =>
      if ← takesOperator "?" then
        let yes ← rules (.type false)
        want ":"
        let no ← rules (.type isOpen)
        nodeFrom "conditional_type" [n, right, yes, no]
      else refuse

end ImportClosure.Grammar
