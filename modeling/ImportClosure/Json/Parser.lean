import ImportClosure.Json.Basic
/-!
Reading JSON.

Each reader takes the text at hand and gives a value with the text after it. A pair of escapes
that spells the two halves of a surrogate pair is read as the one code point they stand for; a
half on its own stays a surrogate. Besides the numbers of the standard, `NaN`, `Infinity` and
`-Infinity` are read, since numbers without a decimal text are written that way.
-/

namespace ImportClosure.Json

/-- A blank between tokens. -/
def isSpace (c : CodePoint) : Bool := c = ' ' || c = '\n' || c = '\r' || c = '\t'

/-- The text after the blanks at its start. -/
def skipSpace (t : Text) : Text := t.dropWhile isSpace

/-! ## Texts -/

/-- The number that four hexadecimal digits at the start spell. -/
def readUnit? : Text → Option (Nat × Text)
  | a :: b :: c :: d :: rest => do
    let a ← a.hexValue?
    let b ← b.hexValue?
    let c ← c.hexValue?
    let d ← d.hexValue?
    pure (((a * 16 + b) * 16 + c) * 16 + d, rest)
  | _ => none

/-- The code point of a UTF-16 unit on its own. -/
def unitCodePoint (n : Nat) : CodePoint := CodePoint.ofNat n

/-- Adds a unit to a text read so far, last first, joining it with a high half before it. -/
def pushUnit (n : Nat) (joinable : Bool) (done : Text) : Text :=
  match done with
  | [] => [unitCodePoint n]
  | last :: before =>
    if joinable && last.isHighSurrogate && (unitCodePoint n).isLowSurrogate then
      CodePoint.ofNat (0x10000 + (last.val - 0xD800) * 0x400 + (n - 0xDC00)) :: before
    else unitCodePoint n :: done

/-- The code point a one-letter escape stands for. -/
def simpleEscape? (c : CodePoint) : Option CodePoint :=
  if c = '"' ∨ c = '\\' ∨ c = '/' then some c
  else if c = 'n' then some '\n'
  else if c = 'r' then some '\r'
  else if c = 't' then some '\t'
  else if c = 'b' then some (CodePoint.ofNat 8)
  else if c = 'f' then some (CodePoint.ofNat 12)
  else none

/-- The rest of a text after its opening quote, in front of which `done` was read, last first;
`joinable` tells that the last code point of `done` came from an escape. -/
def readTextFrom (fuel : Nat) (joinable : Bool) (done : Text) (t : Text) :
    Option (Text × Text) :=
  match fuel, t with
  | 0, _ => none
  | _, [] => none
  | fuel + 1, c :: rest =>
    if c = '"' then some (done.reverse, rest)
    else if c = '\\' then
      match rest with
      | [] => none
      | e :: rest =>
        if e = 'u' then
          match readUnit? rest with
          | none => none
          | some (n, rest) => readTextFrom fuel true (pushUnit n joinable done) rest
        else
          match simpleEscape? e with
          | none => none
          | some c => readTextFrom fuel false (c :: done) rest
    else if c.val < 0x20 then none
    else readTextFrom fuel false (c :: done) rest

/-- The rest of a text after its opening quote. -/
def readText (t : Text) : Option (Text × Text) := readTextFrom (t.length + 1) false [] t

/-! ## Numbers -/

/-- The digits at the start. -/
def spanDigits (t : Text) : Text × Text := t.span CodePoint.isDigit

/-- The number these digits spell. -/
def digitsValue (ds : Text) : Nat := ds.foldl (fun n d => n * 10 + (d.val - 48)) 0

/-- The exponent at the start, if there is a well-formed one. -/
def readExponent (t : Text) : Option (Int × Text) :=
  match t with
  | e :: rest =>
    if e = 'e' ∨ e = 'E' then
      let (negative, rest) := match rest with
        | s :: rest' => if s = '-' then (true, rest') else if s = '+' then (false, rest') else
            (false, rest)
        | [] => (false, rest)
      match spanDigits rest with
      | ([], _) => none
      | (ds, rest) =>
        let n : Int := digitsValue ds
        some (if negative then -n else n, rest)
    else none
  | [] => none

/-- The fraction digits at the start, if a point and at least one digit stand there. -/
def readFraction (t : Text) : Option (Text × Text) :=
  match t with
  | p :: rest =>
    if p = '.' then
      match spanDigits rest with
      | ([], _) => none
      | (ds, rest) => some (ds, rest)
    else none
  | [] => none

/-- A number without its sign. -/
def readMagnitude (negative : Bool) (t : Text) : Option (Json × Text) :=
  match spanDigits t with
  | ([], _) => none
  | (d :: ds, rest) =>
    -- a leading zero stands alone
    let (whole, rest) := if d = '0' ∧ ds ≠ [] then ([d], ds ++ rest) else (d :: ds, rest)
    match readFraction rest, readExponent rest with
    | some (fraction, rest), _ =>
      let (exponent, rest) := (readExponent rest).getD (0, rest)
      some (float (Binary64.ofDecimal negative (digitsValue (whole ++ fraction))
        (exponent - fraction.length)), rest)
    | none, some (exponent, rest) =>
      some (float (Binary64.ofDecimal negative (digitsValue whole) exponent), rest)
    | none, none =>
      let n : Int := digitsValue whole
      some (int (if negative then -n else n), rest)

/-- The text after `word`, if it starts with `word`. -/
def afterWord? (word : String) (t : Text) : Option Text :=
  let w := Text.ofString word
  if w.isPrefixOf t then some (t.drop w.length) else none

/-- The words that are values by themselves. -/
def words : List (String × Json) :=
  [("null", null), ("true", bool true), ("false", bool false),
    ("NaN", float .notANumber), ("Infinity", float .infinity),
    ("-Infinity", float .negativeInfinity)]

/-- A word or a number. -/
def readPlain (t : Text) : Option (Json × Text) :=
  match words.findSome? (fun w => (afterWord? w.1 t).map (fun rest => (w.2, rest))) with
  | some found => some found
  | none =>
    match t with
    | [] => none
    | c :: rest => if c = '-' then readMagnitude true rest else readMagnitude false t

/-! ## Values -/

mutual

/-- A value; each nested reader has less fuel. -/
def readValue : Nat → Text → Option (Json × Text)
  | 0, _ => none
  | fuel + 1, t =>
    match skipSpace t with
    | [] => none
    | c :: rest =>
      if c = '"' then (readText rest).map (fun (s, rest) => (text s, rest))
      else if c = '[' then
        match skipSpace rest with
        | [] => none
        | d :: rest' =>
          if d = ']' then some (list [], rest')
          else readItems fuel [] (d :: rest')
      else if c = '{' then
        match skipSpace rest with
        | [] => none
        | d :: rest' =>
          if d = '}' then some (object [], rest')
          else readFields fuel [] (d :: rest')
      else readPlain (c :: rest)

/-- The items of a list, in front of which `done` were read, last first. -/
def readItems : Nat → List Json → Text → Option (Json × Text)
  | 0, _, _ => none
  | fuel + 1, done, t =>
    match readValue fuel t with
    | none => none
    | some (item, rest) =>
      match skipSpace rest with
      | [] => none
      | d :: rest =>
        if d = ',' then readItems fuel (item :: done) rest
        else if d = ']' then some (list (item :: done).reverse, rest)
        else none

/-- The fields of an object, in front of which `done` were read, last first. -/
def readFields : Nat → List (Text × Json) → Text → Option (Json × Text)
  | 0, _, _ => none
  | fuel + 1, done, t =>
    match skipSpace t with
    | [] => none
    | q :: rest =>
      if q = '"' then
        match readText rest with
        | none => none
        | some (name, rest) =>
          match skipSpace rest with
          | [] => none
          | colon :: rest =>
            if colon = ':' then
              match readValue fuel rest with
              | none => none
              | some (value, rest) =>
                match skipSpace rest with
                | [] => none
                | d :: rest =>
                  if d = ',' then readFields fuel ((name, value) :: done) rest
                  else if d = '}' then some (object ((name, value) :: done).reverse, rest)
                  else none
            else none
      else none

end

/-- The value a text spells, with nothing but blanks around it. -/
def parse (t : Text) : Option Json :=
  match readValue (t.length + 1) t with
  | none => none
  | some (j, rest) => if skipSpace rest = [] then some j else none

end ImportClosure.Json
