import ImportClosure.Syntax.Node
import ImportClosure.Syntax.Source
/-!
Reading tokens of a source.

A `Parser` moves a `Cursor` over a source. Tokens are not cut beforehand: what a character
begins depends on what may stand there, so each rule of the grammar asks for the token it wants.
Where a token is refused the cursor remembers the furthest such place, which is where the text
stops making sense; and a cursor can carry one closing bracket that is supplied if it is asked
for at a given place, by which a missing bracket is told from other errors.
-/

namespace ImportClosure.Grammar

/-- Where a parser stands. -/
structure Cursor where
  /-- The next character. -/
  pos : Nat
  /-- The end of the last token. -/
  last : Nat
  /-- The furthest place at which a token was refused. -/
  far : Nat
  /-- The end of the token before that place. -/
  farLast : Nat
  /-- A bracket that is supplied after the token that ends here. -/
  supplied : Option (Nat × String)
  /-- The number of arrow functions with a return type read so far, given up or not. -/
  typedArrows : Nat

/-- A reader of tokens: it may fail, and then keeps what it learned about the furthest place. -/
abbrev Parser := ReaderT Source (EStateM Unit Cursor)

/-- What may follow an expression from the outside. -/
structure Setting where
  /-- A line end may end the expression. -/
  endsAtLine : Bool
  /-- The word `in` ends the expression. -/
  beforeIn : Bool := false
  /-- A colon after parameters ends the expression. -/
  beforeColon : Bool := false

/-- The constructs that contain each other. -/
inductive Category where
  /-- A statement. -/
  | statement
  /-- Expressions separated by commas. -/
  | expressions (g : Setting)
  /-- An expression, or what could become a pattern. -/
  | assignment (g : Setting)
  /-- An expression without binary operators on its outside. -/
  | operand (g : Setting)
  /-- What is written after `new`. -/
  | constructed (g : Setting)
  /-- A name or a pattern that binds names. -/
  | binding
  /-- An element written as markup. -/
  | element
  /-- A type; a line end may end it. -/
  | type (isOpen : Bool)
  /-- A type without operators on its outside. -/
  | primaryType (isOpen : Bool)

/-- How the constructs inside a construct are read. -/
abbrev Rules := Category → Parser SyntaxNode

namespace Parser

/-! ## Failing and trying -/

/-- The source. -/
def source : Parser Source := read

/-- Refuses what stands at `i`. -/
def refuseAt (i : Nat) {α : Type} : Parser α := do
  modify fun c => if c.far ≤ i then { c with far := i, farLast := c.last } else c
  throw ()

/-- Fails where something was refused before. -/
def fail {α : Type} : Parser α := throw ()

/-- Refuses what stands at the cursor. -/
def refuse {α : Type} : Parser α := do
  refuseAt (← get).pos

/-- The result of a parser, or nothing, the cursor then staying where it is. -/
def attempt {α : Type} (p : Parser α) : Parser (Option α) := fun s c =>
  match p s c with
  | .ok a c' => .ok (some a) c'
  | .error _ c' =>
    .ok none { c with far := c'.far, farLast := c'.farLast, typedArrows := c'.typedArrows }

/-- The result of a parser, the cursor staying where it is. -/
def lookAhead {α : Type} (p : Parser α) : Parser α := fun s c =>
  match p s c with
  | .ok a _ => .ok a c
  | .error e _ => .error e c

/-- The results of a parser until it gives none. -/
def untilNone {α : Type} (p : Parser (Option α)) : Nat → List α → Parser (List α)
  | 0, _ => refuse
  | fuel + 1, done => do
    match ← p with
    | none => pure done.reverse
    | some a => untilNone p fuel (a :: done)

/-- The results of a parser that gives none at the end; each other result takes something. -/
def many {α : Type} (p : Parser (Option α)) : Parser (List α) := do
  untilNone p ((← source).size + 2) []

/-- The first test, and only if it fails the second. -/
def either (p q : Parser Bool) : Parser Bool := do
  if ← p then pure true else q

/-- The first test, and only if it holds the second. -/
def both (p q : Parser Bool) : Parser Bool := do
  if ← p then q else pure false

/-! ## Gaps -/

/-- Goes to the next token, which is an operator if it begins like one. -/
def skip : Parser Unit := do
  let s ← source
  modify fun c => { c with pos := (s.gap false c.pos).stop }

/-- Goes to the next token, where an operand may stand, and gives the places of comments in the
manner of markup on the way, first first. -/
def skipToOperand : Parser (List Nat) := do
  let s ← source
  let g := s.gap true (← get).pos
  modify fun c => { c with pos := g.stop }
  pure g.markup.reverse

/-- The character at the cursor. -/
def peek : Parser Char := do
  pure ((← source).charAt (← get).pos)

/-- The text is at its end. -/
def atEnd : Parser Bool := do
  pure ((← get).pos ≥ (← source).size)

/-- Takes the characters up to `i` as a token. -/
def advanceTo (i : Nat) : Parser Unit :=
  modify fun c => { c with pos := i, last := i }

/-! ## Nodes -/

/-- A construct that begins at `start`. -/
def node (kind : String) (start : Nat) (children : List SyntaxNode) : Parser SyntaxNode := do
  let (row, column) := (← source).places.getD start (0, 0)
  pure ⟨kind, none, none, true, false, false, row, column, children⟩

/-- A construct that carries the bytes from `start` to the end of the last token. -/
def leaf (kind : String) (start : Nat) (children : List SyntaxNode) : Parser SyntaxNode := do
  let s ← source
  let n ← node kind start children
  pure { n with bytes := some (s.slice start (← get).last).toUTF8.toList }

/-- A construct that begins where the first of its parts does. -/
def nodeFrom (kind : String) (children : List SyntaxNode) : Parser SyntaxNode :=
  let (row, column) := match children with
    | [] => (0, 0)
    | n :: _ => (n.row, n.column)
  pure ⟨kind, none, none, true, false, false, row, column, children⟩

end Parser

/-- The node in a part it plays in its parent. -/
def asRole (role : String) (n : SyntaxNode) : SyntaxNode := { n with role := some role }

namespace Parser

/-! ## Punctuation -/

/-- The punctuation that is told apart by its longest form where an operator may stand. -/
def operators : List (List Char) :=
  [">>>=", "...", "===", "!==", "**=", "<<=", ">>=", ">>>", "&&=", "||=", "??=",
    "=>", "==", "!=", "<=", ">=", "&&", "||", "??", "?.", "++", "--", "+=", "-=", "*=", "/=",
    "%=", "&=", "|=", "^=", "<<", ">>", "**",
    "+", "-", "*", "/", "%", "<", ">", "&", "|", "^", "!", "=", "?", ":", ",", ";", ".", "(",
    ")", "[", "]", "\x7b", "\x7d"].map String.toList

/-- The operator at `i` in its longest form; a question mark in front of a decimal fraction stands
alone. -/
def operatorAt (s : Source) (i : Nat) : Option String :=
  if s.hasAt i ['?', '.'] && Source.isDigit (s.charAt (i + 2)) then some "?"
  else (operators.find? (s.hasAt i)).map String.ofList

/-- The operator at the cursor in its longest form. -/
def operator? : Parser (Option String) := do
  pure (operatorAt (← source) (← get).pos)

/-- These characters come next. -/
def sees (mark : String) : Parser Bool := do
  skip
  let s ← source
  let c ← get
  if s.hasAt c.pos mark.toList then pure true
  else
    match c.supplied with
    | some (place, bracket) => pure (place = c.last && bracket = mark)
    | none => pure false

/-- Takes these characters if they come next. -/
def takes (mark : String) : Parser Bool := do
  if ← sees mark then
    let s ← source
    let c ← get
    if s.hasAt c.pos mark.toList then advanceTo (c.pos + mark.length)
    else modify fun c => { c with supplied := none }
    pure true
  else pure false

/-- Takes these characters or fails. -/
def want (mark : String) : Parser Unit := do
  if ← takes mark then pure () else refuse

/-- The operator that comes next is this one, in its longest form. -/
def seesOperator (mark : String) : Parser Bool := do
  skip
  pure ((← operator?) = some mark)

/-- Takes an operator if it comes next, in its longest form. -/
def takesOperator (mark : String) : Parser Bool := do
  if ← seesOperator mark then
    advanceTo ((← get).pos + mark.length)
    pure true
  else pure false

/-! ## Words -/

/-- The position after the escape of a character in a name, of which the backslash stands at
`i`. -/
def nameEscapeEnd? (s : Source) (i : Nat) : Option Nat :=
  if s.hasAt i ['\\', 'u'] then
    if s.charAt (i + 2) = '\x7b' then
      let j := s.spanEnd Source.isHexDigit (i + 3)
      if j > i + 3 && s.charAt j = '\x7d' then some (j + 1) else none
    else if s.spanFrom Source.isHexDigit 4 (i + 2) = i + 6 then some (i + 6)
    else none
  else none

/-- The position after the parts of a name from `i` on. -/
def nameEndFrom (s : Source) : Nat → Nat → Nat
  | 0, i => i
  | fuel + 1, i =>
    if i < s.size && Source.isNamePart (s.charAt i) then nameEndFrom s fuel (i + 1)
    else
      match nameEscapeEnd? s i with
      | some j => nameEndFrom s fuel j
      | none => i

/-- The position after the name at `i`, if one begins there. -/
def nameEnd? (s : Source) (i : Nat) : Option Nat :=
  if i < s.size && Source.isNameStart (s.charAt i) then
    some (nameEndFrom s (s.size - i) (i + 1))
  else (nameEscapeEnd? s i).map (nameEndFrom s (s.size - i))

/-- The word that comes next, as it is written. -/
def word? : Parser (Option String) := do
  skip
  let s ← source
  let i := (← get).pos
  pure ((nameEnd? s i).map (s.slice i))

/-- This word comes next. -/
def seesWord (w : String) : Parser Bool := do
  pure ((← word?) = some w)

/-- Takes a word that comes next, whichever it is. -/
def anyWord : Parser String := do
  match ← word? with
  | none => refuse
  | some w =>
    advanceTo ((← get).pos + w.length)
    pure w

/-- Takes this word if it comes next. -/
def takesWord (w : String) : Parser Bool := do
  if ← seesWord w then
    advanceTo ((← get).pos + w.length)
    pure true
  else pure false

/-- Takes this word or fails. -/
def wantWord (w : String) : Parser Unit := do
  if ← takesWord w then pure () else refuse

/-! ## Ends of statements -/

/-- A line end may end the statement here. -/
def mayEnd (inExpression : Bool) : Parser Bool := do
  let s ← source
  pure (s.mayEnd inExpression false (← get).last)

/-- Takes the semicolon at the end of a statement, or a line end that stands for it. -/
def semicolon (inExpression : Bool) : Parser Unit := do
  if ← mayEnd inExpression then pure () else want ";"

/-- The source is written in the typed grammar. -/
def isTyped : Parser Bool := do
  pure !(← source).isPlain

end Parser

end ImportClosure.Grammar
