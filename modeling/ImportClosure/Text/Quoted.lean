import ImportClosure.Text.Printable
/-!
Quoted literals.

A text inside a longer message is shown between quotes, so that its ends and its unprintable
code points can be seen. Single quotes are used, unless the text holds a single quote and no
double quote. The quote in use and the backslash are preceded by a backslash; what is not
printable is written by its number in hexadecimal, in the shortest of the three forms `\x`,
`\u` and `\U`.
-/

namespace ImportClosure

namespace Text

/-- A code point within a literal quoted by `quote`. -/
def quotedCodePoint (quote c : CodePoint) : Text :=
  if c = quote ∨ c = '\\' then ['\\', c]
  else if c = '\n' then ['\\', 'n']
  else if c = '\r' then ['\\', 'r']
  else if c = '\t' then ['\\', 't']
  else if c.isPrintable then [c]
  else if c.val < 0x100 then '\\' :: 'x' :: hexDigits 2 c.val
  else if c.val < 0x10000 then '\\' :: 'u' :: hexDigits 4 c.val
  else '\\' :: 'U' :: hexDigits 8 c.val

/-- The quote a literal of this text is put between. -/
def quoteFor (t : Text) : CodePoint :=
  if t.contains '\'' && !t.contains '"' then '"' else '\''

/-- The text as a quoted literal. -/
def quoted (t : Text) : Text :=
  let quote := quoteFor t
  [quote] ++ t.flatMap (quotedCodePoint quote) ++ [quote]

/-- A byte within a literal quoted by `quote`. -/
def quotedByte (quote : CodePoint) (b : UInt8) : Text :=
  let c : CodePoint := CodePoint.ofNat b.toNat
  if c = quote ∨ c = '\\' then ['\\', c]
  else if c = '\n' then ['\\', 'n']
  else if c = '\r' then ['\\', 'r']
  else if c = '\t' then ['\\', 't']
  else if 0x20 ≤ c.val ∧ c.val < 0x7F then [c]
  else '\\' :: 'x' :: hexDigits 2 c.val

/-- Bytes as a quoted literal, marked by a `b` in front. -/
def quotedBytes (bs : List UInt8) : Text :=
  let quote : CodePoint := if bs.contains 39 && !bs.contains 34 then '"' else '\''
  'b' :: quote :: (bs.flatMap (quotedByte quote) ++ [quote])

end Text

end ImportClosure
