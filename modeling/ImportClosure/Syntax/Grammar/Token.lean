import ImportClosure.Syntax.Grammar.Basic
/-!
Names and literals.

Which words are names depends on the grammar. Plain scripts reserve a list of words wherever a
name may stand. The typed grammar reserves none: a word is a keyword where a construct may begin
with it, and a name elsewhere.
-/

namespace ImportClosure.Grammar

open ImportClosure.Grammar.Parser

/-! ## Names -/

/-- The words that are never names in plain scripts. -/
def reservedWords : List String :=
  ["break", "case", "catch", "class", "const", "continue", "debugger", "default", "delete",
    "do", "else", "export", "extends", "false", "finally", "for", "function", "if", "import",
    "in", "instanceof", "new", "null", "return", "super", "switch", "this", "throw", "true",
    "try", "typeof", "var", "void", "while", "with"]

/-- A name of this kind, whichever word it is. -/
def nameAs (kind : String) : Parser SyntaxNode := do
  skip
  let start := (← get).pos
  let _ ← anyWord
  leaf kind start []

/-- A word that may be given to something as its name. -/
def identifier : Parser SyntaxNode := do
  match ← word? with
  | none => refuse
  | some w =>
    if !(← isTyped) && reservedWords.contains w then refuse
    else nameAs "identifier"

/-- A name that begins with a hash. -/
def privateName : Parser SyntaxNode := do
  skip
  let start := (← get).pos
  let s ← source
  if s.charAt start = '#' then
    match nameEnd? s (start + 1) with
    | none => refuse
    | some stop =>
      advanceTo stop
      leaf "private_property_identifier" start []
  else refuse

/-! ## Numbers -/

/-- The position after digits, single underscores between them allowed. -/
def digitsEndFrom (s : Source) (digit : Char → Bool) : Nat → Nat → Nat
  | 0, i => i
  | fuel + 1, i =>
    if digit (s.charAt i) then digitsEndFrom s digit fuel (i + 1)
    else if s.charAt i = '_' && digit (s.charAt (i + 1)) then digitsEndFrom s digit fuel (i + 2)
    else i

/-- The position after the digits at `i`, if there are any. -/
def digitsEnd? (s : Source) (digit : Char → Bool) (i : Nat) : Option Nat :=
  if digit (s.charAt i) then some (digitsEndFrom s digit (s.size - i) (i + 1)) else none

/-- The position after a mark for whole numbers of any size. -/
def afterSuffix (s : Source) (i : Nat) : Nat := if s.charAt i = 'n' then i + 1 else i

/-- The position after an exponent, if one stands at `i`. -/
def exponentEnd? (s : Source) (i : Nat) : Option Nat :=
  if s.charAt i = 'e' || s.charAt i = 'E' then
    let j := if s.charAt (i + 1) = '+' || s.charAt (i + 1) = '-' then i + 2 else i + 1
    digitsEnd? s Source.isDigit j
  else none

/-- The position after a number written to the base ten. -/
def decimalEnd? (s : Source) (i : Nat) : Option Nat :=
  let withExponent (j : Nat) : Nat := (exponentEnd? s j).getD j
  if s.charAt i = '.' then (digitsEnd? s Source.isDigit (i + 1)).map withExponent
  else
    (digitsEnd? s Source.isDigit i).map fun j =>
      -- more than one leading zero makes a number that has no fraction and no exponent
      if s.charAt i = '0' && (s.charAt (i + 1) = '0' || s.charAt (i + 1) = '_') then
        afterSuffix s j
      else if s.charAt j = '.' then
        withExponent ((digitsEnd? s Source.isDigit (j + 1)).getD (j + 1))
      else
        match exponentEnd? s j with
        | some k => k
        | none => afterSuffix s j

/-- The digits of the base that a letter names. -/
def digitOfBase? (letter : Char) : Option (Char → Bool) :=
  if letter = 'x' || letter = 'X' then some Source.isHexDigit
  else if letter = 'o' || letter = 'O' then some fun c => '0' ≤ c && c ≤ '7'
  else if letter = 'b' || letter = 'B' then some fun c => c = '0' || c = '1'
  else none

/-- The position after the number at `i`, if there is one. -/
def numberEnd? (s : Source) (i : Nat) : Option Nat :=
  if s.charAt i = '0' then
    match digitOfBase? (s.charAt (i + 1)) with
    | some digit =>
      match digitsEnd? s digit (i + 2) with
      | some j => some (afterSuffix s j)
      | none => decimalEnd? s i
    | none => decimalEnd? s i
  else decimalEnd? s i

/-- A number. -/
def number : Parser SyntaxNode := do
  skip
  let start := (← get).pos
  match numberEnd? (← source) start with
  | none => refuse
  | some stop =>
    advanceTo stop
    leaf "number" start []

/-! ## Strings -/

/-- The position after the escape whose backslash stands at `i`, if it is well-formed. -/
def escapeEnd? (s : Source) (i : Nat) : Option Nat :=
  let c := s.charAt (i + 1)
  if i + 1 ≥ s.size || c = '\x00' then none
  else if c = 'x' then
    if s.spanFrom Source.isHexDigit 2 (i + 2) = i + 4 then some (i + 4) else none
  else if c = 'u' then nameEscapeEnd? s i
  else if '0' ≤ c && c ≤ '7' then
    some (s.spanFrom (fun d => '0' ≤ d && d ≤ '7') 3 (i + 1))
  else if (c = '\r' || c = '?') && Source.isLineBreak (s.charAt (i + 2)) then some (i + 3)
  else some (i + 2)

/-- The position after the closing quote of a string, or where it goes wrong. -/
def stringEndFrom (s : Source) (quote : Char) : Nat → Nat → Except Nat Nat
  | 0, i => .error i
  | fuel + 1, i =>
    let c := s.charAt i
    if i ≥ s.size || c = '\n' || c = '\r' || c = '\x00' then .error i
    else if c = quote then .ok (i + 1)
    else if c = '\\' then
      match escapeEnd? s i with
      | some j => stringEndFrom s quote fuel j
      | none => .error i
    else stringEndFrom s quote fuel (i + 1)

/-- A quote comes next. -/
def seesQuote : Parser Bool := do
  skip
  let c ← peek
  pure (c = '\'' || c = '"')

/-- A string between single or double quotes. -/
def string : Parser SyntaxNode := do
  if ← seesQuote then
    let s ← source
    let start := (← get).pos
    match stringEndFrom s (s.charAt start) (s.size - start) (start + 1) with
    | .error i => refuseAt i
    | .ok stop =>
      advanceTo stop
      leaf "string" start []
  else refuse

/-! ## Templates -/

/-- The position of the end of a template's text: its closing quote, a substitution, or where it
goes wrong; escapes are only checked if `escapes` says so. -/
def templateTextFrom (s : Source) (escapes : Bool) : Nat → Nat → Nat
  | 0, i => i
  | fuel + 1, i =>
    let c := s.charAt i
    if i ≥ s.size || c = '\x00' || c = '`' then i
    else if c = '$' && s.charAt (i + 1) = '\x7b' then i
    else if c = '\\' && escapes then
      match escapeEnd? s i with
      | some j => templateTextFrom s escapes fuel j
      | none => i
    else templateTextFrom s escapes fuel (i + 1)

/-- One substitution of a template after the text in front of it, or the closing quote. -/
def substitution? (kind : String) (escapes : Bool) (inside : Parser SyntaxNode) :
    Parser (Option SyntaxNode) := do
  let s ← source
  let i := (← get).pos
  let j := templateTextFrom s escapes (s.size - i) i
  if s.charAt j = '`' then
    advanceTo (j + 1)
    pure none
  else if s.charAt j = '$' then
    advanceTo (j + 2)
    let n ← inside
    want "\x7d"
    some <$> node kind j [n]
  else refuseAt j

/-- A template with its substitutions. -/
def template (inside : Parser SyntaxNode) : Parser SyntaxNode := do
  want "`"
  let start := (← get).last - 1
  let parts ← many (substitution? "template_substitution" true inside)
  leaf "template_string" start parts

/-! ## Regular expressions -/

/-- The position after the class whose inside begins at `i`. -/
def classEndFrom (s : Source) : Nat → Nat → Option Nat
  | 0, _ => none
  | fuel + 1, i =>
    let c := s.charAt i
    if i ≥ s.size || c = '\n' || c = '\x00' then none
    else if c = ']' then some (i + 1)
    else if c = '\\' then
      if s.charAt (i + 1) = '\n' || s.charAt (i + 1) = '\x00' then none
      else classEndFrom s fuel (i + 2)
    else classEndFrom s fuel (i + 1)

/-- The position of the slash that ends a pattern. -/
def patternEndFrom (s : Source) : Nat → Nat → Option Nat
  | 0, _ => none
  | fuel + 1, i =>
    let c := s.charAt i
    if i ≥ s.size || c = '\n' || c = '\x00' then none
    else if c = '/' then some i
    else if c = '\\' then
      if s.charAt (i + 1) = '\n' || s.charAt (i + 1) = '\x00' then none
      else patternEndFrom s fuel (i + 2)
    else if c = '[' then
      match classEndFrom s (s.size - i) (i + 1) with
      | some j => patternEndFrom s fuel j
      | none => none
    else patternEndFrom s fuel (i + 1)

/-- A regular expression with its flags. -/
def regex : Parser SyntaxNode := do
  let s ← source
  let start := (← get).pos
  match patternEndFrom s (s.size - start) (start + 1) with
  | none => refuse
  | some stop =>
    if stop = start + 1 then refuse
    else
      advanceTo (s.spanEnd (fun c => 'a' ≤ c && c ≤ 'z') (stop + 1))
      leaf "regex" start []

end ImportClosure.Grammar
