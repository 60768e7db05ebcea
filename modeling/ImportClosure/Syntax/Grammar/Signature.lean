import ImportClosure.Syntax.Grammar.Pattern
/-!
Parameters and what is said of their types.

Annotations, type parameters and modifiers belong to the typed grammar. In plain scripts a
signature is a list of patterns with defaults.
-/

namespace ImportClosure.Grammar

open ImportClosure.Grammar.Parser

/-! ## Decorators -/

/-- The members of what a decorator names. -/
def decoratorPath : Nat → SyntaxNode → Parser SyntaxNode
  | 0, object => pure object
  | fuel + 1, object => do
    if ← takesOperator "." then
      let property ← nameAs "property_identifier"
      decoratorPath fuel
        (← nodeFrom "member_expression" [asRole "object" object, asRole "property" property])
    else pure object

/-- What a decorator is called with, up to the closing bracket. -/
def decoratorArguments (rules : Rules) : Parser (List SyntaxNode) :=
  itemsUntil ")" do
    if ← sees "..." then restOf "spread_element" (expression rules inner)
    else expression rules inner

/-- A decorator. -/
def decorator (rules : Rules) : Parser SyntaxNode := do
  skip
  let start := (← get).pos
  want "@"
  if ← both isTyped (takes "(") then
    let n ← expression rules inner
    want ")"
    node "decorator" start [n]
  else
    let path ← decoratorPath ((← source).size) (← identifier)
    if ← takes "(" then
      let arguments ← nodeFrom "arguments" (← decoratorArguments rules)
      let call ← nodeFrom "call_expression"
        [asRole "function" path, asRole "arguments" arguments]
      node "decorator" start [call]
    else node "decorator" start [path]

/-- The decorators in front of something. -/
def decorators (rules : Rules) : Parser (List SyntaxNode) :=
  many do
    if ← sees "@" then some <$> decorator rules else pure none

/-! ## Annotations -/

/-- A type after a colon, if one is given. -/
def ascription? (rules : Rules) (isOpen : Bool) : Parser (List SyntaxNode) := do
  if !(← isTyped) then pure []
  else if ← takes ":" then pure [← rules (.type isOpen)]
  else pure []

/-- What a function tells about its argument: `x is T`. -/
def predicate? (rules : Rules) (isOpen : Bool) : Parser (Option SyntaxNode) := do
  let found ← attempt do
    let _ ← anyWord
    wantWord "is"
  match found with
  | none => pure none
  | some () => some <$> rules (.type isOpen)

/-- The type of a result, which may be a statement about an argument. -/
def resultType (rules : Rules) (isOpen : Bool) : Parser SyntaxNode := do
  let asserts ← attempt do
    wantWord "asserts"
    lookAhead do
      let _ ← anyWord
  match asserts with
  | some () =>
    match ← predicate? rules isOpen with
    | some n => pure n
    | none => nameAs "identifier"
  | none =>
    match ← predicate? rules isOpen with
    | some n => pure n
    | none => rules (.type isOpen)

/-- The type of a result after a colon, if one is given. -/
def resultAscription? (rules : Rules) (isOpen : Bool) : Parser (List SyntaxNode) := do
  if !(← isTyped) then pure []
  else if ← takes ":" then pure [← resultType rules isOpen]
  else pure []

/-- One type parameter. -/
def typeParameter (rules : Rules) : Parser SyntaxNode := do
  let name ← nameAs "type_identifier"
  -- a modifier in front of the name
  let _ ← if name.bytes = some "const".toUTF8.toList && (← word?).isSome
      && !(← seesWord "extends") then
    some <$> nameAs "type_identifier" else pure none
  let limit ← if ← either (takesWord "extends") (takes ":") then
    pure [← rules (.type false)] else pure []
  let standard ← if ← takes "=" then pure [← rules (.type false)] else pure []
  nodeFrom "type_parameter" (limit ++ standard)

/-- Type parameters between angle brackets, at least one. -/
def typeParameters (rules : Rules) : Parser SyntaxNode := do
  skip
  let start := (← get).pos
  want "<"
  match ← listUntil ">" (typeParameter rules) with
  | [] => refuse
  | items => node "type_parameters" start items

/-- Type parameters, if any are given. -/
def typeParameters? (rules : Rules) : Parser (List SyntaxNode) := do
  if (← isTyped) && (← sees "<") then pure [← typeParameters rules] else pure []

/-! ## Parameters -/

/-- The words that may stand in front of a parameter in the typed grammar. -/
def parameterModifiers : List String :=
  ["public", "private", "protected", "override", "readonly"]

/-- Takes a word in front of something that begins with a name or a bracket, if one of these
words stands there. -/
def parameterModifier? : Parser (Option Unit) := do
  match ← word? with
  | none => pure none
  | some w =>
    if parameterModifiers.contains w then
      attempt do
        let _ ← anyWord
        if (← word?).isSome || (← sees "[") || (← sees "\x7b") then pure () else fail
    else pure none

/-- One parameter. -/
def parameter (rules : Rules) : Parser SyntaxNode := do
  skip
  let start := (← get).pos
  if ← isTyped then
    let marks ← decorators rules
    let _ ← many parameterModifier?
    let name ← if ← sees "..." then restOf "rest_pattern" (rules .binding) else rules .binding
    let _ ← takesOperator "?"
    let ascription ← ascription? rules false
    let value ← initializer? rules inner
    node "required_parameter" start (marks ++ name :: (ascription ++ value.toList))
  else if ← sees "..." then restOf "rest_pattern" (rules .binding)
  else patternWithDefault rules

/-- Parameters between parentheses. -/
def parameters (rules : Rules) : Parser SyntaxNode := do
  skip
  let start := (← get).pos
  want "("
  node "formal_parameters" start (← listUntil ")" (parameter rules))

/-- The parameters of a function and the type of its result. -/
def signature (rules : Rules) : Parser (List SyntaxNode) := do
  let generic ← typeParameters? rules
  let ps ← parameters rules
  let result ← resultAscription? rules true
  pure (generic ++ asRole "parameters" ps :: result)

/-! ## Words in front of a member -/

/-- A member's name comes next, or the star of a generator. -/
def seesMemberName : Parser Bool := do
  skip
  let c ← peek
  pure ((← word?).isSome || c = '\'' || c = '"' || c = '[' || c = '#' || c = '*'
    || Source.isDigit c)

/-- Takes one of these words if the name of a member follows it; a line end after the word makes
it the member's name itself where line ends matter. -/
def modifier? (words : List String) (isOpen : Bool) : Parser (Option String) := do
  match ← word? with
  | none => pure none
  | some w =>
    if words.contains w then
      attempt do
        let _ ← anyWord
        if isOpen && (← mayEnd false) then fail
        else if ← seesMemberName then pure w
        else fail
    else pure none

/-- The words in front of a member. -/
def modifiers (words : List String) (isOpen : Bool) : Parser (List String) :=
  many (modifier? words isOpen)

end ImportClosure.Grammar
