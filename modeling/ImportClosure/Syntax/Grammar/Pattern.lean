import ImportClosure.Syntax.Grammar.Token
/-!
Patterns, parameters and the names of members.

A pattern binds names: it is a name, or brackets around patterns that may have defaults. What is
written on the left of an assignment is first read as an expression; `isTarget` tells which
expressions are patterns in disguise.
-/

namespace ImportClosure.Grammar

open ImportClosure.Grammar.Parser

/-- An expression inside brackets, which no line end ends. -/
def inner : Setting := ⟨false, false, false⟩

/-- The node can only be a pattern: it gives a default to a shorthand property. -/
def isPatternOnly (n : SyntaxNode) : Bool :=
  n.kind = "object_pattern" || n.kind = "array_pattern"

/-- An expression. -/
def expression (rules : Rules) (g : Setting) : Parser SyntaxNode := do
  let n ← rules (.assignment g)
  if isPatternOnly n then refuse else pure n

/-! ## Names of members -/

/-- The name of a member or property. -/
def memberName (rules : Rules) : Parser SyntaxNode := do
  skip
  let start := (← get).pos
  let c ← peek
  if c = '\'' || c = '"' then string
  else if c = '#' then privateName
  else if Source.isDigit c || c = '.' then number
  else if c = '[' then
    want "["
    let n ← expression rules inner
    want "]"
    node "computed_property_name" start [n]
  else nameAs "property_identifier"

/-! ## Patterns -/

/-- A default, if one is given. -/
def initializer? (rules : Rules) (g : Setting) : Parser (Option SyntaxNode) := do
  if ← takesOperator "=" then some <$> expression rules g else pure none

/-- A pattern with a default, if one is given. -/
def patternWithDefault (rules : Rules) : Parser SyntaxNode := do
  let left ← rules .binding
  match ← initializer? rules inner with
  | none => pure left
  | some value => nodeFrom "assignment_pattern" [left, value]

/-- The items between brackets, an item possibly absent, up to the closing bracket. -/
def itemsUntil (close : String) (item : Parser SyntaxNode) : Parser (List SyntaxNode) := do
  let items ← many do
    if ← takes close then pure none
    else if ← takes "," then pure (some [])
    else
      let n ← item
      if (← sees ",") || (← sees close) then pure (some [n]) else refuse
  pure items.flatten

/-- The items between brackets, none of them absent, up to the closing bracket. -/
def listUntil (close : String) (item : Parser SyntaxNode) : Parser (List SyntaxNode) := do
  many do
    if ← takes close then pure none
    else
      let n ← item
      if (← takes ",") || (← sees close) then pure (some n) else refuse

/-- What takes up the remaining items. -/
def restOf (kind : String) (item : Parser SyntaxNode) : Parser SyntaxNode := do
  skip
  let start := (← get).pos
  want "..."
  let n ← item
  node kind start [n]

/-- One property of an object pattern. -/
def propertyPattern (rules : Rules) : Parser SyntaxNode := do
  skip
  let start := (← get).pos
  if ← sees "..." then restOf "rest_pattern" (rules .binding)
  else
    let name ← memberName rules
    if ← takes ":" then
      let value ← patternWithDefault rules
      node "pair_pattern" start [name, value]
    else if name.kind ≠ "property_identifier" then refuse
    else if !(← isTyped) && reservedWords.any (fun w => name.bytes = some w.toUTF8.toList) then
      refuse
    else
      match ← initializer? rules inner with
      | none => pure { name with kind := "shorthand_property_identifier_pattern" }
      | some value => node "object_assignment_pattern" start [name, value]

/-- One item of an array pattern. -/
def itemPattern (rules : Rules) : Parser SyntaxNode := do
  if ← sees "..." then restOf "rest_pattern" (rules .binding) else patternWithDefault rules

/-- A name or a pattern in brackets. -/
def binding (rules : Rules) : Parser SyntaxNode := do
  skip
  let start := (← get).pos
  if ← takes "[" then
    node "array_pattern" start (← itemsUntil "]" (itemPattern rules))
  else if ← takes "\x7b" then
    node "object_pattern" start (← itemsUntil "\x7d" (propertyPattern rules))
  else identifier

mutual

/-- The expression can be assigned to. -/
def isTarget : SyntaxNode → Bool
  | ⟨kind, _, _, _, _, _, _, _, children⟩ =>
    kind = "identifier" || kind = "member_expression" || kind = "subscript_expression"
      || kind = "non_null_expression" || kind = "shorthand_property_identifier"
      || kind = "object_assignment_pattern" || kind = "property_identifier"
      || ((kind = "object" || kind = "object_pattern" || kind = "array"
            || kind = "array_pattern" || kind = "pair" || kind = "spread_element")
          && areTargets children)
      || (kind = "assignment_expression" && isFirstTarget children)

/-- All these expressions can be assigned to, or name what is. -/
def areTargets : List SyntaxNode → Bool
  | [] => true
  | n :: ns => (n.role = some "key" || isTarget n) && areTargets ns

/-- The first of these expressions can be assigned to. -/
def isFirstTarget : List SyntaxNode → Bool
  | [] => false
  | n :: _ => isTarget n

end

end ImportClosure.Grammar
