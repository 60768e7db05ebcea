import ImportClosure.Text.Basic
/-!
Tokens of YAML 1.1, and the state of a scan.

Indentation becomes tokens: a deeper column opens a block collection, a shallower one closes it.
That a text is the key of a mapping only shows at the colon after it, so the place of a possible
key is remembered, one for each depth of brackets, and the token for it is put in there later.
-/

namespace ImportClosure.Yaml

/-- Why a text cannot be loaded. -/
inductive Failure where
  /-- The text is not well-formed, or has a meaning that is not provided for. -/
  | malformed
  /-- A value that is well-formed cannot be made; the failure has a kind and a message of its
  own. -/
  | unmakeable (kind message : Text)

/-- A token. -/
inductive Token where
  /-- A directive that names the version. -/
  | version (major : Nat)
  /-- A directive that gives a meaning to a tag handle. -/
  | handle (name lead : Text)
  /-- Any other directive. -/
  | otherDirective
  /-- Three hyphens. -/
  | documentStart
  /-- Three dots. -/
  | documentEnd
  /-- The end of the text. -/
  | streamEnd
  /-- A sequence by indentation begins. -/
  | blockSequence
  /-- A mapping by indentation begins. -/
  | blockMapping
  /-- A collection by indentation ends. -/
  | blockEnd
  /-- A sequence in brackets begins. -/
  | flowSequence
  /-- A sequence in brackets ends. -/
  | flowSequenceEnd
  /-- A mapping in braces begins. -/
  | flowMapping
  /-- A mapping in braces ends. -/
  | flowMappingEnd
  /-- A hyphen in front of an item. -/
  | blockEntry
  /-- A comma. -/
  | flowEntry
  /-- A key follows. -/
  | key
  /-- A value follows. -/
  | value
  /-- A reference to a node with a name. -/
  | alias (name : Text)
  /-- A name for the next node. -/
  | anchor (name : Text)
  /-- The tag of the next node, its handle apart if it has one. -/
  | tag (handle : Option Text) (suffix : Text)
  /-- A scalar, written plainly or not. -/
  | scalar (value : Text) (isPlain : Bool)
deriving DecidableEq

/-- A place at which a key may have begun. -/
structure PossibleKey where
  /-- The number of tokens in front of it. -/
  tokens : Nat
  /-- It must be a key, since nothing else may stand there. -/
  required : Bool
  /-- The position. -/
  index : Nat
  /-- The line. -/
  line : Nat
  /-- The column. -/
  column : Nat

/-- The state of a scan. -/
structure Scan where
  /-- The text. -/
  source : Array CodePoint
  /-- The next position. -/
  index : Nat
  /-- Its line. -/
  line : Nat
  /-- Its column. -/
  column : Nat
  /-- The tokens so far. -/
  tokens : Array Token
  /-- The column of the innermost block collection; `-1` outside of all. -/
  indent : Int
  /-- The columns of the block collections around it. -/
  outer : List Int
  /-- The number of open brackets. -/
  depth : Nat
  /-- The possible key at each depth of brackets that has one. -/
  possible : List (Nat × PossibleKey)
  /-- A key may begin at the next token. -/
  keyAllowed : Bool

/-- A step of a scan. -/
abbrev Scanner := StateT Scan (Except Failure)

namespace Scan

/-- The scan of a text before its first token. -/
def start (t : Text) : Scan := ⟨t.toArray, 0, 0, 0, #[], -1, [], 0, [], true⟩

/-- The code point so far ahead; zero beyond the end. -/
def ahead (s : Scan) (n : Nat) : CodePoint := s.source.getD (s.index + n) (CodePoint.ofNat 0)

end Scan

/-! ## Classes -/

/-- The code points that end a line. -/
def isBreak (c : CodePoint) : Bool :=
  c = '\n' || c = '\r' || c.val = 0x85 || c.val = 0x2028 || c.val = 0x2029

/-- The end of the text or of a line. -/
def isBreakOrEnd (c : CodePoint) : Bool := c.val = 0 || isBreak c

/-- The end of the text or of a line, or a space. -/
def isSpaceOrEnd (c : CodePoint) : Bool := c = ' ' || isBreakOrEnd c

/-- The end of the text or of a line, a space or a tab. -/
def isBlankOrEnd (c : CodePoint) : Bool := c = '\t' || isSpaceOrEnd c

/-- One of these characters. -/
def isOneOf (chars : String) (c : CodePoint) : Bool :=
  chars.toList.any (fun d => c = CodePoint.ofChar d)

/-- A code point of a name. -/
def isNamePart (c : CodePoint) : Bool :=
  c.isDigit || c.isLetter || c = '-' || c = '_'

namespace Scanner

/-! ## Moving -/

/-- Fails. -/
def malformed {α : Type} : Scanner α := throw .malformed

/-- The code point so far ahead. -/
def peek (n : Nat) : Scanner CodePoint := do
  pure ((← get).ahead n)

/-- The scan one code point on. -/
def stepOn (s : Scan) : Scan :=
  let c := s.ahead 0
  if c = '\n' || c.val = 0x85 || c.val = 0x2028 || c.val = 0x2029
      || (c = '\r' && s.ahead 1 ≠ CodePoint.ofChar '\n') then
    { s with index := s.index + 1, line := s.line + 1, column := 0 }
  else if c.val = 0xFEFF then { s with index := s.index + 1 }
  else { s with index := s.index + 1, column := s.column + 1 }

/-- Goes on by so many code points. -/
def forward (n : Nat) : Scanner Unit :=
  modify fun s => n.fold (fun _ _ s => stepOn s) s

/-- The number of code points from `n` ahead on that satisfy `p`. -/
def countFrom (s : Scan) (p : CodePoint → Bool) : Nat → Nat → Nat
  | 0, n => n
  | fuel + 1, n =>
    if s.index + n < s.source.size && p (s.ahead n) then countFrom s p fuel (n + 1) else n

/-- The number of code points at the front that satisfy `p`. -/
def count (p : CodePoint → Bool) : Scanner Nat := do
  let s ← get
  pure (countFrom s p (s.source.size - s.index) 0)

/-- The next code points. -/
def taken (n : Nat) : Scanner Text := do
  let s ← get
  pure (s.source.extract s.index (s.index + n)).toList

/-- Takes the next code points. -/
def take (n : Nat) : Scanner Text := do
  let t ← taken n
  forward n
  pure t

/-- Takes the code points at the front that satisfy `p`. -/
def takeWhile (p : CodePoint → Bool) : Scanner Text := do
  take (← count p)

/-- Takes the end of a line, if it comes next; an ordinary one is a line feed, however it is
written. -/
def lineBreak : Scanner Text := do
  let c ← peek 0
  if c = '\r' && (← peek 1) = CodePoint.ofChar '\n' then
    forward 2
    pure ['\n']
  else if c = '\n' || c = '\r' || c.val = 0x85 then
    forward 1
    pure ['\n']
  else if c.val = 0x2028 || c.val = 0x2029 then
    forward 1
    pure [c]
  else pure []

/-- The results of a step until it gives none. -/
def untilNone {α : Type} (p : Scanner (Option α)) : Nat → List α → Scanner (List α)
  | 0, _ => malformed
  | fuel + 1, done => do
    match ← p with
    | none => pure done.reverse
    | some a => untilNone p fuel (a :: done)

/-- The results of a step that gives none at the end. -/
def many {α : Type} (p : Scanner (Option α)) : Scanner (List α) := do
  untilNone p (2 * (← get).source.size + 8) []

/-- Adds a token. -/
def push (t : Token) : Scanner Unit :=
  modify fun s => { s with tokens := s.tokens.push t }

/-- Three hyphens or dots that stand for the start or end of a document come next. -/
def seesMarker (c : CodePoint) : Scanner Bool := do
  pure ((← taken 3) = [c, c, c] && isBlankOrEnd (← peek 3))

/-- The start or the end of a document comes next. -/
def seesAnyMarker : Scanner Bool := do
  if ← seesMarker '-' then pure true else seesMarker '.'

end Scanner

end ImportClosure.Yaml
