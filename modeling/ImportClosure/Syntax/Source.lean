import ImportClosure.Text.Basic
import ImportClosure.Variant
/-!
Source text under the eye of a parser.

A `Source` gives its characters by position, and for each position the row and the byte column.
On top of that stand the facts about characters and about what lies between tokens: blanks,
comments, and the rule by which a line end stands for a semicolon. That rule looks at what
follows: a line that goes on with an operator continues the statement, one that begins with
anything else ends it.
-/

namespace ImportClosure

/-- A text to be parsed. -/
structure Source where
  /-- The characters. -/
  chars : Array Char
  /-- The grammar. -/
  variant : Variant
  /-- The row and the byte column of each position, the end included. -/
  places : Array (Nat × Nat)

namespace Source

/-- Row and byte column after a character. -/
def placeAfter (place : Nat × Nat) (c : Char) : Nat × Nat :=
  if c = '\n' then (place.1 + 1, 0) else (place.1, place.2 + c.utf8Size)

/-- The text as a source; a surrogate has no character and cannot be part of one. -/
def ofText (v : Variant) (t : Text) : Source :=
  let chars := (t.map fun c => c.toChar?.getD '\uFFFD').toArray
  let places := chars.foldl (fun (ps, p) c => (ps.push (placeAfter p c), placeAfter p c))
    (#[(0, 0)], ((0, 0) : Nat × Nat))
  ⟨chars, v, places.1⟩

/-- The number of characters. -/
def size (s : Source) : Nat := s.chars.size

/-- The character at a position; the character U+0000 beyond the end, which no token contains. -/
def charAt (s : Source) (i : Nat) : Char := s.chars.getD i '\x00'

/-- The text is JavaScript. -/
def isPlain (s : Source) : Bool := s.variant = .javascript

/-- The characters from `i` up to `j`. -/
def slice (s : Source) (i j : Nat) : String := String.ofList (s.chars.extract i j).toList

/-- The characters of `w` stand at `i`. -/
def hasAt (s : Source) (i : Nat) : List Char → Bool
  | [] => true
  | c :: cs => s.charAt i = c && hasAt s (i + 1) cs

/-- The first position from `i` on, up to `fuel` further, whose character fails `p`. -/
def spanFrom (s : Source) (p : Char → Bool) : Nat → Nat → Nat
  | 0, i => i
  | fuel + 1, i => if i < s.size && p (s.charAt i) then spanFrom s p fuel (i + 1) else i

/-- The first position from `i` on whose character fails `p`. -/
def spanEnd (s : Source) (p : Char → Bool) (i : Nat) : Nat := s.spanFrom p (s.size - i) i

/-! ## Characters -/

/-- The end of a line, for comments. -/
def isLineBreak (c : Char) : Bool := c = '\n' || c = '\u2028' || c = '\u2029'

/-- White space in the sense of Unicode. -/
def isWhite (c : Char) : Bool :=
  let n := c.toNat
  (9 ≤ n && n ≤ 13) || n = 32 || n = 0x85 || n = 0xA0 || n = 0x1680
    || (0x2000 ≤ n && n ≤ 0x200A) || n = 0x2028 || n = 0x2029 || n = 0x202F || n = 0x205F
    || n = 0x3000

/-- What separates tokens: white space, the byte order mark and two invisible marks. -/
def isBlank (c : Char) : Bool :=
  isWhite c || c = '\uFEFF' || c = '\u2060' || c = '\u200B'

/-- The white space at which a line may be broken, which is what the semicolon rule skips. -/
def isBreakable (c : Char) : Bool :=
  isWhite c && c ≠ '\u0085' && c ≠ '\u00A0' && c ≠ '\u2007' && c ≠ '\u202F'

/-- A decimal digit. -/
def isDigit (c : Char) : Bool := '0' ≤ c && c ≤ '9'

/-- A hexadecimal digit. -/
def isHexDigit (c : Char) : Bool :=
  isDigit c || ('a' ≤ c && c ≤ 'f') || ('A' ≤ c && c ≤ 'F')

/-- A letter of the ASCII range. -/
def isLetter (c : Char) : Bool := ('a' ≤ c && c ≤ 'z') || ('A' ≤ c && c ≤ 'Z')

/-- The characters that are or begin tokens of their own. -/
def isMark (c : Char) : Bool :=
  ":;`\"'@#.,|^&<=>+-*/\\%?!~()[]\x7b\x7d".toList.contains c

/-- A character within a name. -/
def isNamePart (c : Char) : Bool := c.toNat ≥ 0x20 && !isBlank c && !isMark c

/-- A character at the start of a name. -/
def isNameStart (c : Char) : Bool := isNamePart c && !isDigit c

/-! ## Comments -/

/-- The position after the `*/` that ends the comment whose inside begins at `i`. -/
def blockEndFrom (s : Source) : Nat → Nat → Option Nat
  | 0, _ => none
  | fuel + 1, i =>
    if i ≥ s.size || s.charAt i = '\x00' then none
    else if s.charAt i = '*' && s.charAt (i + 1) = '/' then some (i + 2)
    else blockEndFrom s fuel (i + 1)

/-- The position after the comment that begins at `i`, if one does. -/
def commentEnd? (s : Source) (i : Nat) : Option Nat :=
  if s.hasAt i ['/', '/'] then
    some (s.spanEnd (fun c => !isLineBreak c && c ≠ '\r' && c ≠ '\x00') (i + 2))
  else if s.hasAt i ['/', '*'] then s.blockEndFrom (s.size - i) (i + 2)
  else none

/-- The position after the comment in the manner of markup that begins at `i`, if one does. -/
def markupCommentEnd? (s : Source) (i : Nat) : Option Nat :=
  if s.hasAt i ['<', '!', '-', '-'] || s.hasAt i ['-', '-', '>'] then
    some (s.spanEnd (fun c => !isLineBreak c && c ≠ '\x00') i)
  else none

/-- What lies between two tokens. -/
structure Gap where
  /-- Where the next token begins. -/
  stop : Nat
  /-- Where comments in the manner of markup begin, last first. -/
  markup : List Nat

/-- The gap from `i` on; comments in the manner of markup only count where an operand may stand,
since elsewhere their first character is an operator. -/
def gapFrom (s : Source) (operand : Bool) : Nat → List Nat → Nat → Gap
  | 0, markup, i => ⟨i, markup⟩
  | fuel + 1, markup, i =>
    if i < s.size && isBlank (s.charAt i) then gapFrom s operand fuel markup (i + 1)
    else
      match s.commentEnd? i with
      | some j => gapFrom s operand fuel markup j
      | none =>
        if operand then
          match s.markupCommentEnd? i with
          | some j => gapFrom s operand fuel (i :: markup) j
          | none => ⟨i, markup⟩
        else ⟨i, markup⟩

/-- The gap from `i` on. -/
def gap (s : Source) (operand : Bool) (i : Nat) : Gap :=
  s.gapFrom operand (s.size + 1 - i) [] i

/-! ## Semicolons that a line end stands for -/

/-- What the rule finds in front of the next token. -/
inductive Ahead where
  /-- Something that begins like a comment and is none. -/
  | slash
  /-- A comment without a line break inside, after which something else follows. -/
  | sameLine (next : Nat)
  /-- Blanks and comments up to here. -/
  | clear (next : Nat)

/-- The position after a block comment's inside, or the end, and whether a line break was in it. -/
def blockInside (s : Source) : Nat → Bool → Nat → Nat × Bool
  | 0, broken, i => (i, broken)
  | fuel + 1, broken, i =>
    if i ≥ s.size then (i, broken)
    else if s.charAt i = '*' && s.charAt (i + 1) = '/' then (i + 2, broken)
    else blockInside s fuel (broken || isLineBreak (s.charAt i)) (i + 1)

/-- Blanks and comments from `i` on; unless `all` are to be skipped, a block comment without a
line break is the last one. -/
def aheadFrom (s : Source) (all : Bool) : Nat → Bool → Nat → Ahead
  | 0, _, i => .clear i
  | fuel + 1, broken, i =>
    let i := s.spanEnd isBreakable i
    if s.charAt i = '/' then
      if s.charAt (i + 1) = '/' then
        aheadFrom s all fuel broken (s.spanEnd (fun c => !isLineBreak c) (i + 2))
      else if s.charAt (i + 1) = '*' then
        let (j, broken) := s.blockInside (s.size - i) broken (i + 2)
        if s.charAt j ≠ '/' && !all then if broken then .clear j else .sameLine j
        else aheadFrom s all fuel broken j
      else .slash
    else .clear i

/-- Blanks and comments from `i` on. -/
def ahead (s : Source) (all : Bool) (i : Nat) : Ahead :=
  s.aheadFrom all (s.size + 1 - i) false i

/-- The word `in` or `instanceof` stands at `i`, or something that begins like it. -/
def isRelationWord (s : Source) (i : Nat) : Bool :=
  s.hasAt i ['i', 'n'] &&
    (!isLetter (s.charAt (i + 2))
      || (s.hasAt (i + 2) "stanceof".toList && !isLetter (s.charAt (i + 10))))

/-- A statement that could end before a line end goes on after it if the next line begins with
the token at `i`; `inExpression` tells that an operator could follow, `signature` that a body
could. -/
def continuesAt (s : Source) (inExpression signature : Bool) (i : Nat) : Bool :=
  let c := s.charAt i
  let d := s.charAt (i + 1)
  if "`,:;*%><=?^|&/".toList.contains c then true
  else if c = '[' || c = '(' then s.isPlain || inExpression
  else if c = '\x7b' then !s.isPlain && signature
  else if c = '.' then !(s.isPlain && isDigit d)
  else if c = '+' then d ≠ '+'
  else if c = '-' then d ≠ '-'
  else if c = '!' then d = '='
  else s.isRelationWord i

/-- A statement may end at `i`, directly after a token, comments not looked through. -/
def endsAt (s : Source) (inExpression signature : Bool) : Nat → Nat → Bool
  | 0, _ => false
  | fuel + 1, i =>
    if i ≥ s.size then true
    else
      let c := s.charAt i
      let stepOn (i : Nat) : Bool :=
        let c := s.charAt i
        if i ≥ s.size then true
        else if c = '\x7d' then
          if s.isPlain then true
          else s.charAt (s.spanEnd isBreakable (i + 1)) ≠ ':' || inExpression
        else if c = '\n' || (s.isPlain && isLineBreak c) then
          match s.ahead true (i + 1) with
          | .slash => false
          | .sameLine j => !s.continuesAt inExpression signature j
          | .clear j => !s.continuesAt inExpression signature j
        else if isBreakable c then endsAt s inExpression signature fuel (i + 1)
        else false
      if s.isPlain && c = '/' then
        match s.ahead false i with
        | .slash => false
        | .clear j =>
          if !inExpression && s.charAt j ≠ ',' && s.charAt j ≠ '=' then true
          else if j = i then false
          else stepOn j
        | .sameLine j => stepOn j
      else stepOn i

/-- A statement may end after the token before `i`, comments looked through one by one. -/
def mayEndFrom (s : Source) (inExpression signature : Bool) : Nat → Nat → Bool
  | 0, _ => false
  | fuel + 1, i =>
    s.endsAt inExpression signature (s.size + 1 - i) i
      || match s.commentEnd? (s.spanEnd isBlank i) with
        | some j => mayEndFrom s inExpression signature fuel j
        | none => false

/-- A statement may end after the token before `i` without a semicolon. -/
def mayEnd (s : Source) (inExpression signature : Bool) (i : Nat) : Bool :=
  s.mayEndFrom inExpression signature (s.size + 1 - i) i

end Source

end ImportClosure
