import ImportClosure.Text.Basic
/-!
The value of a string or template literal.

An escape is a backslash and what it applies to: a code point by its number (`\x` with two
hexadecimal digits, `\u` with four, `\u` with any number of them in braces), a line end, which
the backslash removes, one of seven letters for control characters, or any other single code
point, which stands for itself. A number in braces above `10FFFF` names no code point, and the
escape stays as it is written. A backslash at the very end stays too.
-/

namespace ImportClosure.Literal

/-- The backslash, which begins an escape. -/
def backslash : CodePoint := '\\'

/-- The number that hexadecimal digits spell. -/
def hexNumber? (digits : Text) : Option Nat :=
  digits.foldl (fun n d => do pure ((← n) * 16 + (← d.hexValue?))) (some 0)

/-- The code point an escape by number stands for. -/
def numbered (n : Nat) : Text := [CodePoint.ofNat n]

/-- An escape by number, without its backslash, and the text after it. -/
def readNumbered? : Text → Option (Text × Text)
  | [] => none
  | c :: rest =>
    if c = 'u' then
      let braced := match rest with
        | [] => none
        | brace :: rest' =>
          if brace = '{' then
            let digits := rest'.takeWhile (fun d => d.hexValue?.isSome)
            match digits, rest'.drop digits.length with
            | [], _ => none
            | _, [] => none
            | d :: ds, close :: after =>
              if close = '}' then
                let n := (hexNumber? (d :: ds)).getD 0
                if n ≤ 0x10FFFF then some (numbered n, after)
                else some (backslash :: 'u' :: '{' :: ((d :: ds) ++ (['}'] : Text)), after)
              else none
          else none
      match braced with
      | some found => some found
      | none =>
        if rest.length < 4 then none
        else (hexNumber? (rest.take 4)).map (fun n => (numbered n, rest.drop 4))
    else if c = 'x' then
      if rest.length < 2 then none
      else (hexNumber? (rest.take 2)).map (fun n => (numbered n, rest.drop 2))
    else none

/-- A code point that ends a line of source text. -/
def isLineTerminator (c : CodePoint) : Bool :=
  c = '\n' || c = '\r' || c.val = 0x2028 || c.val = 0x2029

/-- What a single code point after a backslash stands for. -/
def escaped (c : CodePoint) : Text :=
  if isLineTerminator c then []
  else if c = 'n' then ['\n']
  else if c = 'r' then ['\r']
  else if c = 't' then ['\t']
  else if c = 'b' then [CodePoint.ofNat 8]
  else if c = 'f' then [CodePoint.ofNat 12]
  else if c = 'v' then [CodePoint.ofNat 11]
  else if c = '0' then [CodePoint.ofNat 0]
  else [c]

/-- An escape without its backslash: what it stands for, and the text after it. -/
def readEscape : Text → Text × Text
  | [] => ([backslash], [])
  | c :: rest =>
    match readNumbered? (c :: rest) with
    | some found => found
    | none =>
      match rest with
      | d :: rest' =>
        if c = '\r' ∧ d = '\n' then ([], rest') else (escaped c, rest)
      | [] => (escaped c, rest)

/-- The value of a literal's text; each step reads at least one code point. -/
def unescapeFrom (fuel : Nat) (t : Text) : Text :=
  match fuel, t with
  | 0, _ => []
  | _, [] => []
  | fuel + 1, c :: rest =>
    if c = backslash then
      let (value, rest) := readEscape rest
      value ++ unescapeFrom fuel rest
    else c :: unescapeFrom fuel rest

/-- The text that a literal's raw text stands for. -/
def unescape (raw : Text) : Text := unescapeFrom raw.length raw

end ImportClosure.Literal
