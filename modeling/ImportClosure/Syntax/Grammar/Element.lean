import ImportClosure.Syntax.Grammar.Pattern
/-!
Elements written as markup, which plain scripts may contain.

The name of a closing tag is not compared with that of its opening tag. Between tags stands text
without angle brackets and braces, in which an ampersand only begins a reference to a character.
-/

namespace ImportClosure.Grammar

open ImportClosure.Grammar.Parser

/-- A name of a tag or an attribute, in which hyphens may stand. -/
def tagWord : Parser SyntaxNode := do
  skip
  let s ← source
  let start := (← get).pos
  match nameEnd? s start with
  | none => refuse
  | some stop =>
    let plain (c : Char) : Bool := Source.isLetter c || Source.isDigit c || c = '_' || c = '$'
    let stop := if s.spanEnd plain start = stop then
      s.spanEnd (fun c => plain c || c = '-') stop else stop
    advanceTo stop
    leaf "identifier" start []

/-- The members of the name of a tag. -/
def tagPath : Nat → SyntaxNode → Parser SyntaxNode
  | 0, n => pure n
  | fuel + 1, n => do
    if ← takes "." then
      let property ← nameAs "property_identifier"
      tagPath fuel
        (← nodeFrom "member_expression" [asRole "object" n, asRole "property" property])
    else pure n

/-- The name of a tag. -/
def tagName : Parser SyntaxNode := do
  let first ← tagWord
  if ← takes ":" then nodeFrom "jsx_namespace_name" [first, ← tagWord]
  else tagPath (← source).size first

/-- An expression between braces; it may be missing. -/
def embedded (rules : Rules) : Parser SyntaxNode := do
  skip
  let start := (← get).pos
  want "\x7b"
  if ← takes "\x7d" then node "jsx_expression" start []
  else
    let n ← if ← sees "..." then restOf "spread_element" (expression rules inner)
      else rules (.expressions inner)
    want "\x7d"
    node "jsx_expression" start [n]

/-- The position after the reference to a character at `i`, if one stands there. -/
def referenceEnd? (s : Source) (i : Nat) : Option Nat :=
  let alphanumeric (c : Char) : Bool := Source.isLetter c || Source.isDigit c
  let closed (begins limit : Nat) (p : Char → Bool) : Option Nat :=
    let j := s.spanFrom p limit begins
    if j > begins && s.charAt j = ';' then some (j + 1) else none
  if s.charAt i = '&' then
    if s.charAt (i + 1) = '#' then
      if s.charAt (i + 2) = 'x' || s.charAt (i + 2) = 'X' then
        closed (i + 3) 6 Source.isHexDigit
      else closed (i + 2) 5 Source.isDigit
    else if Source.isLetter (s.charAt (i + 1)) then closed (i + 1) 30 alphanumeric
    else none
  else none

/-- The position after the text at `i` up to a character that may not stand in it. -/
def markupTextEnd (s : Source) (stop : Char → Bool) : Nat → Nat → Nat
  | 0, i => i
  | fuel + 1, i =>
    let c := s.charAt i
    if i ≥ s.size || c = '\x00' then i
    else if c = '&' then
      match referenceEnd? s i with
      | some j => markupTextEnd s stop fuel j
      | none => i
    else if stop c then i
    else markupTextEnd s stop fuel (i + 1)

/-- The value of an attribute between quotes, in which a backslash is nothing special. -/
def attributeText : Parser SyntaxNode := do
  skip
  let s ← source
  let start := (← get).pos
  let quote := s.charAt start
  if quote = '\'' || quote = '"' then
    let stop := markupTextEnd s (fun c => c = quote) (s.size - start) (start + 1)
    if s.charAt stop = quote then
      advanceTo (stop + 1)
      leaf "string" start []
    else refuseAt stop
  else refuse

/-- One attribute, or an expression in its place. -/
def tagAttribute (rules : Rules) : Parser SyntaxNode := do
  if ← sees "\x7b" then embedded rules
  else
    let first ← tagWord
    let name ← if ← takes ":" then nodeFrom "jsx_namespace_name" [first, ← tagWord]
      else pure first
    if ← takes "=" then
      let value ← if ← sees "\x7b" then embedded rules
        else if ← sees "<" then rules .element
        else attributeText
      nodeFrom "jsx_attribute" [name, value]
    else nodeFrom "jsx_attribute" [name]

/-- One piece of the inside of an element, or nothing at its closing tag. -/
def elementPart (rules : Rules) : Parser (Option (List SyntaxNode)) := do
  let s ← source
  let start := (← get).pos
  let stops (c : Char) : Bool := c = '<' || c = '>' || c = '\x7b' || c = '\x7d'
  let stop := markupTextEnd s stops (s.size - start) start
  advanceTo stop
  if s.charAt stop = '<' then
    let closes ← lookAhead do
      want "<"
      sees "/"
    if closes then pure none else some <$> ([·]) <$> rules .element
  else if s.charAt stop = '\x7b' then some <$> ([·]) <$> embedded rules
  else refuse

/-- The inside of an element and its closing tag. -/
def elementRest (rules : Rules) : Parser (List SyntaxNode) := do
  let parts ← many (elementPart rules)
  want "<"
  want "/"
  if ← takes ">" then pure parts.flatten
  else
    let name ← tagName
    want ">"
    pure (parts.flatten ++ [name])

/-- An element. -/
def element (rules : Rules) : Parser SyntaxNode := do
  skip
  let start := (← get).pos
  want "<"
  if ← takes ">" then node "jsx_element" start (← elementRest rules)
  else
    let name ← tagName
    let attributes ← many do
      if (← sees ">") || (← sees "/") then pure none else some <$> tagAttribute rules
    if ← takes "/" then
      want ">"
      node "jsx_self_closing_element" start (name :: attributes)
    else
      want ">"
      node "jsx_element" start (name :: attributes ++ (← elementRest rules))

end ImportClosure.Grammar
