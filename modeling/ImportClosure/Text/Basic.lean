/-!
Text as a sequence of code points.

Sources are read as Unicode, but an escape such as `\ud83d` in a string literal names a
surrogate, which no `Char` can hold, and two such escapes side by side stay two code points.
So a text here is a list of code points below `0x110000`, surrogates included; `Text.ofString`
embeds every `String`. Order is by code point, first difference first.
-/

namespace ImportClosure

/-- A Unicode code point, a surrogate included. -/
abbrev CodePoint := Fin 0x110000

instance : LawfulBEq CodePoint := instLawfulBEq

/-- A sequence of code points. -/
abbrev Text := List CodePoint

/-! ## Characters and code points -/

/-- The code point of a character. -/
def CodePoint.ofChar (c : Char) : CodePoint :=
  ⟨c.toNat, by
    have h := c.valid
    simp only [UInt32.isValidChar, Nat.isValidChar] at h
    show c.val.toNat < 0x110000
    omega⟩

instance : Coe Char CodePoint := ⟨CodePoint.ofChar⟩

/-- Half of a pair that only together names a character, so not encodable on its own. -/
def CodePoint.isSurrogate (c : CodePoint) : Bool :=
  0xD800 ≤ c.val && c.val ≤ 0xDFFF

/-- The first half of a surrogate pair. -/
def CodePoint.isHighSurrogate (c : CodePoint) : Bool :=
  0xD800 ≤ c.val && c.val ≤ 0xDBFF

/-- The second half of a surrogate pair. -/
def CodePoint.isLowSurrogate (c : CodePoint) : Bool :=
  0xDC00 ≤ c.val && c.val ≤ 0xDFFF

/-- The character of a code point, unless it is a surrogate. -/
def CodePoint.toChar? (c : CodePoint) : Option Char :=
  if c.isSurrogate then none else some (Char.ofNat c.val)

/-- The code point with number `n`, counted from the start again beyond the last one. -/
def CodePoint.ofNat (n : Nat) : CodePoint :=
  ⟨n % 0x110000, Nat.mod_lt n (by decide)⟩

/-- The code point with number `n`, if there is one. -/
def CodePoint.ofNat? (n : Nat) : Option CodePoint :=
  if h : n < 0x110000 then some ⟨n, h⟩ else none

/-- The value of a hexadecimal digit in either case. -/
def CodePoint.hexValue? (c : CodePoint) : Option Nat :=
  if 48 ≤ c.val ∧ c.val ≤ 57 then some (c.val - 48)
  else if 65 ≤ c.val ∧ c.val ≤ 70 then some (c.val - 55)
  else if 97 ≤ c.val ∧ c.val ≤ 102 then some (c.val - 87)
  else none

/-- A decimal digit of the ASCII range. -/
def CodePoint.isDigit (c : CodePoint) : Bool :=
  48 ≤ c.val && c.val ≤ 57

/-- A letter of the ASCII range. -/
def CodePoint.isLetter (c : CodePoint) : Bool :=
  (65 ≤ c.val && c.val ≤ 90) || (97 ≤ c.val && c.val ≤ 122)

/-! ## Digits -/

/-- The hexadecimal digit of a number below sixteen, in lower case. -/
def hexDigit (n : Nat) : CodePoint :=
  if n < 10 then CodePoint.ofNat (48 + n) else CodePoint.ofNat (87 + n)

/-- The last `width` hexadecimal digits of a number, in lower case. -/
def hexDigits : Nat → Nat → Text
  | 0, _ => []
  | width + 1, n => hexDigits width (n / 16) ++ [hexDigit (n % 16)]

namespace Text

/-! ## Strings and texts -/

/-- The code points of a string. -/
def ofString (s : String) : Text :=
  s.toList.map CodePoint.ofChar

instance : Coe String Text := ⟨ofString⟩

/-- The string with these code points, each surrogate replaced by what `mark` writes for it. -/
def toStringWith (mark : CodePoint → String) (t : Text) : String :=
  t.foldl (fun s c => match c.toChar? with
    | some ch => s.push ch
    | none => s ++ mark c) ""

/-- A number in decimal. -/
def ofNat (n : Nat) : Text := ofString (toString n)

/-- A number in decimal, with a sign only if it is negative. -/
def ofInt (i : Int) : Text := ofString (toString i)

/-! ## Pieces of a text -/

/-- The pieces between the occurrences of `sep`: one more than there are occurrences. -/
def splitOn (sep : CodePoint) : Text → List Text
  | [] => [[]]
  | c :: cs =>
    if c = sep then [] :: splitOn sep cs
    else match splitOn sep cs with
      | [] => [[c]]
      | w :: ws => (c :: w) :: ws

/-- The pieces, one after another, with `sep` between them. -/
def joinWith (sep : Text) (pieces : List Text) : Text :=
  sep.intercalate pieces

/-- The text without the code points at its end that satisfy `p`. -/
def dropEndWhile (p : CodePoint → Bool) (t : Text) : Text :=
  (t.reverse.dropWhile p).reverse

/-- `t` ends in `u`. -/
def endsWith (t u : Text) : Bool :=
  u.reverse.isPrefixOf t.reverse

end Text

end ImportClosure
