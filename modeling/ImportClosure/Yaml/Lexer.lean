import ImportClosure.Yaml.Lexeme
/-!
From a YAML text to its tokens.

Outside of brackets a possible key has to be closed by its colon in the same line; inside, and
everywhere else, within 1024 code points.
-/

namespace ImportClosure.Yaml

namespace Scanner

/-! ## Blanks between tokens -/

/-- Spaces, a comment and the end of the line, if it is not the line of the next token. -/
def emptyLine? : Scanner (Option Unit) := do
  spaces
  if (← peek 0) = CodePoint.ofChar '#' then
    let _ ← takeWhile (fun c => !isBreakOrEnd c)
  if isBreak (← peek 0) then
    let _ ← lineBreak
    modify fun s => if s.depth = 0 then { s with keyAllowed := true } else s
    pure (some ())
  else pure none

/-- Goes to the next token. -/
def toNextToken : Scanner Unit := do
  if (← get).index = 0 && (← peek 0).val = 0xFEFF then forward 1
  let _ ← many emptyLine?

/-! ## Possible keys -/

/-- A possible key is too far away. -/
def isStale (s : Scan) (k : PossibleKey) : Bool := k.line ≠ s.line || s.index > k.index + 1024

/-- Forgets the possible keys that are too far away. -/
def dropStale : Scanner Unit := do
  let s ← get
  if s.possible.any (fun e => isStale s e.2 && e.2.required) then malformed
  else set { s with possible := s.possible.filter fun e => !isStale s e.2 }

/-- Forgets the possible key at this depth of brackets. -/
def dropPossible : Scanner Unit := do
  let s ← get
  if s.possible.any (fun e => e.1 = s.depth && e.2.required) then malformed
  else set { s with possible := s.possible.filter (·.1 ≠ s.depth) }

/-- Remembers that a key may begin at the next token. -/
def savePossible : Scanner Unit := do
  let s ← get
  if s.keyAllowed then
    dropPossible
    let k : PossibleKey :=
      ⟨s.tokens.size, s.depth = 0 && s.indent = s.column, s.index, s.line, s.column⟩
    modify fun s => { s with possible := (s.depth, k) :: s.possible }

/-- Sets whether a key may begin at the next token. -/
def allowKey (b : Bool) : Scanner Unit := modify fun s => { s with keyAllowed := b }

/-! ## Indentation -/

/-- Closes the block collections that are deeper than a column. -/
def unwindTo (column : Int) : Nat → Scan → Scan
  | 0, s => s
  | fuel + 1, s =>
    if s.depth = 0 && column < s.indent then
      unwindTo column fuel
        { s with
          indent := s.outer.headD (-1), outer := s.outer.tail, tokens := s.tokens.push .blockEnd }
    else s

/-- Closes the block collections that are deeper than a column. -/
def unwind (column : Int) : Scanner Unit :=
  modify fun s => unwindTo column (s.outer.length + 1) s

/-- Opens a block collection at a column if it is deeper than the innermost one; the token for it
stands behind `place` other tokens. -/
def indentTo (column : Nat) (t : Token) (place : Nat) : Scanner Unit :=
  modify fun s =>
    if s.indent < (column : Int) then
      { s with
        indent := (column : Int)
        outer := s.indent :: s.outer
        tokens := s.tokens.insertIdxIfInBounds place t }
    else s

/-- Opens a block collection at the current column. -/
def indentHere (t : Token) : Scanner Unit := do
  let s ← get
  if s.depth = 0 then
    if s.keyAllowed then indentTo s.column t s.tokens.size else malformed

/-! ## Tokens -/

/-- Forgets what belongs to the document so far. -/
def closeDocument : Scanner Unit := do
  unwind (-1)
  dropPossible
  allowKey false

/-- A token of so many code points at the start or end of a document. -/
def marker (t : Token) : Scanner Unit := do
  closeDocument
  forward 3
  push t

/-- An opening bracket. -/
def openFlow (t : Token) : Scanner Unit := do
  savePossible
  modify fun s => { s with depth := s.depth + 1 }
  allowKey true
  forward 1
  push t

/-- A closing bracket. -/
def closeFlow (t : Token) : Scanner Unit := do
  dropPossible
  let s ← get
  if s.depth = 0 then malformed
  else
    set { s with depth := s.depth - 1 }
    allowKey false
    forward 1
    push t

/-- A comma. -/
def commaToken : Scanner Unit := do
  allowKey true
  dropPossible
  forward 1
  push .flowEntry

/-- A hyphen in front of an item. -/
def entryToken : Scanner Unit := do
  indentHere .blockSequence
  allowKey true
  dropPossible
  forward 1
  push .blockEntry

/-- A question mark in front of a key. -/
def keyToken : Scanner Unit := do
  indentHere .blockMapping
  allowKey ((← get).depth = 0)
  dropPossible
  forward 1
  push .key

/-- A colon in front of a value; if a key may have begun before, it did. -/
def valueToken : Scanner Unit := do
  let s ← get
  match s.possible.find? (·.1 = s.depth) with
  | some (_, k) =>
    set { s with
      possible := s.possible.filter (·.1 ≠ s.depth)
      tokens := s.tokens.insertIdxIfInBounds k.tokens .key }
    if s.depth = 0 then indentTo k.column .blockMapping k.tokens
    allowKey false
  | none =>
    indentHere .blockMapping
    allowKey (s.depth = 0)
    dropPossible
  forward 1
  push .value

/-- A token that may be a key or stand in front of one. -/
def keyLike (t : Scanner Token) : Scanner Unit := do
  savePossible
  allowKey false
  push (← t)

/-- A scalar by indentation. -/
def blockScalarToken (folded : Bool) : Scanner Unit := do
  allowKey true
  dropPossible
  push (← blockScalar folded)

/-- A plain scalar may begin here. -/
def seesPlain : Scanner Bool := do
  let s ← get
  let c := s.ahead 0
  pure ((!isBlankOrEnd c && !isOneOf "-?:,[]\x7b\x7d#&*!|>'\"%@`" c)
    || (!isBlankOrEnd (s.ahead 1) && (c = '-' || (s.depth = 0 && isOneOf "?:" c))))

/-- The next token, except at the end of the text. -/
def token? : Scanner (Option Unit) := do
  toNextToken
  dropStale
  unwind (← get).column
  let s ← get
  let c := s.ahead 0
  let inFlow := 0 < s.depth
  let spaced := isBlankOrEnd (s.ahead 1)
  if s.source.size ≤ s.index then
    closeDocument
    push .streamEnd
    pure none
  else
    if c = '%' && s.column = 0 then
      closeDocument
      push (← directive)
    else if s.column = 0 && (← seesMarker '-') then marker .documentStart
    else if s.column = 0 && (← seesMarker '.') then marker .documentEnd
    else if c = '[' then openFlow .flowSequence
    else if c = '\x7b' then openFlow .flowMapping
    else if c = ']' then closeFlow .flowSequenceEnd
    else if c = '\x7d' then closeFlow .flowMappingEnd
    else if c = ',' then commaToken
    else if c = '-' && spaced then entryToken
    else if c = '?' && (inFlow || spaced) then keyToken
    else if c = ':' && (inFlow || spaced) then valueToken
    else if c = '*' then keyLike (Token.alias <$> anchorName)
    else if c = '&' then keyLike (Token.anchor <$> anchorName)
    else if c = '!' then keyLike tagToken
    else if c = '|' && !inFlow then blockScalarToken false
    else if c = '>' && !inFlow then blockScalarToken true
    else if c = '\'' || c = '"' then keyLike (quotedScalar c)
    else if ← seesPlain then keyLike plainScalar
    else malformed
    pure (some ())

/-- The tokens that can be told by now: from a possible key on, the token for the key may still have
to be put in. -/
def settled (s : Scan) : List Token :=
  let undecided := s.possible.filterMap fun e => if isStale s e.2 then none else some e.2.tokens
  s.tokens.toList.take (undecided.foldl min s.tokens.size)

/-- The tokens up to the end of the text, or up to where the scan fails, and why it does. -/
def tokensFrom : Nat → Scan → List Token × Option Failure
  | 0, s => (settled s, some .malformed)
  | fuel + 1, s =>
    match token?.run s with
    | .ok (some (), s) => tokensFrom fuel s
    | .ok (none, s) => (s.tokens.toList, none)
    | .error why => (settled s, some why)

end Scanner

/-- The code points that may stand in a text. -/
def isPrintable (c : CodePoint) : Bool :=
  let n := c.val
  n = 9 || n = 10 || n = 13 || (0x20 ≤ n && n ≤ 0x7E) || n = 0x85 || (0xA0 ≤ n && n ≤ 0xD7FF)
    || (0xE000 ≤ n && n ≤ 0xFFFD) || 0x10000 ≤ n

/-- The tokens of a text, and why there are no more of them, if not for the end of the text. -/
def tokens (t : Text) : List Token × Option Failure :=
  if t.all isPrintable then Scanner.tokensFrom (2 * t.length + 8) (Scan.start t)
  else ([], some .malformed)

end ImportClosure.Yaml
