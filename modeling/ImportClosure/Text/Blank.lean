import ImportClosure.Text.Basic
/-!
Blanks and line ends.

`Text.strip` takes the blanks off both ends of a text, and `Text.firstLine` is what stands before
the first line end. Both classes are the ones Unicode gives the properties "white space" and "line
break (mandatory)", the four ASCII separators U+001C to U+001F counted with the blanks, the first
three of them with the line ends.
-/

namespace ImportClosure

/-- White space. -/
def CodePoint.isBlank (c : CodePoint) : Bool :=
  let n := c.val
  (9 ≤ n && n ≤ 13) || (28 ≤ n && n ≤ 32) || n == 0x85 || n == 0xA0 || n == 0x1680
    || (0x2000 ≤ n && n ≤ 0x200A) || n == 0x2028 || n == 0x2029 || n == 0x202F || n == 0x205F
    || n == 0x3000

/-- The end of a line; a carriage return and a line feed in a row are one end. -/
def CodePoint.isLineEnd (c : CodePoint) : Bool :=
  let n := c.val
  (10 ≤ n && n ≤ 13) || (28 ≤ n && n ≤ 30) || n == 0x85 || n == 0x2028 || n == 0x2029

namespace Text

/-- The text without the blanks at its two ends. -/
def strip (t : Text) : Text :=
  dropEndWhile CodePoint.isBlank (t.dropWhile CodePoint.isBlank)

/-- The part before the first line end. -/
def firstLine (t : Text) : Text :=
  t.takeWhile (fun c => !c.isLineEnd)

end Text

end ImportClosure
