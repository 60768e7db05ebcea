import ImportClosure.Yaml.Scalar
import ImportClosure.Text.Blank
import ImportClosure.Value.Printer
/-!
The values of scalars that are numbers, dates or byte strings.

A scalar may carry the tag of a number without being one, so each of these may fail, and the
failure says what the digits were.
-/

namespace ImportClosure.Yaml.Scalar

/-- A failure to read a value. -/
def invalid (message : Text) : Failure := .unmakeable "ValueError" message

/-- What is said of an empty scalar where a first digit is needed. -/
def noFirstDigit : Failure := .unmakeable "IndexError" "string index out of range"

/-! ## Whole numbers -/

/-- The number that digits of a base spell, if there are any and all are digits of the base. -/
def digitsValue? (base : Nat) (ds : Text) : Option Nat :=
  if ds = [] then none
  else ds.foldlM (fun n d => match d.hexValue? with
    | some v => if v < base then some (n * base + v) else none
    | none => none) 0

/-- What may stand in front of the digits of a base. -/
def baseMark (base : Nat) : Option Char :=
  if base = 2 then some 'b' else if base = 8 then some 'o' else if base = 16 then some 'x'
  else none

/-- The digits after the mark of their base, if it is there. -/
def withoutMark (base : Nat) (t : Text) : Text :=
  match t, baseMark base with
  | z :: m :: ds, some mark =>
    if z = '0' && lower m = CodePoint.ofChar mark then ds else t
  | _, _ => t

/-- A number of a base, with blanks around it, its sign and the mark of its base allowed. -/
def readNumber (base : Nat) (t : Text) : Except Failure Int :=
  let (negative, magnitude) := unsigned t.strip
  let digits := withoutMark base magnitude
  match digitsValue? base digits with
  | none =>
    .error (invalid ("invalid literal for int() with base " ++ Text.ofNat base ++ ": "
      ++ t.quoted))
  | some n =>
    if base = 10 ∧ Value.mostDigits < digits.length then
      .error (invalid ("Exceeds the limit (" ++ Text.ofNat Value.mostDigits
        ++ " digits) for integer string conversion: value has " ++ Text.ofNat digits.length
        ++ " digits; use sys.set_int_max_str_digits() to increase the limit"))
    else .ok (if negative then -(n : Int) else n)

/-- A whole number without underscores and sign: in base two, sixteen or eight by how it begins,
in units of sixty if it has colons, and else in base ten. -/
def readMagnitude (t : Text) : Except Failure Int :=
  match t with
  | [] => .error noFirstDigit
  | c :: _ =>
    if t = [CodePoint.ofChar '0'] then .ok 0
    else match after? "0b" t, after? "0x" t with
      | some ds, _ => readNumber 2 ds
      | none, some ds => readNumber 16 ds
      | none, none =>
        if c = '0' then readNumber 8 t
        else if t.contains ':' then do
          let parts ← (Text.splitOn ':' t).mapM (readNumber 10)
          pure (parts.foldl (fun n part => n * 60 + part) 0)
        else readNumber 10 t

/-- The text without underscores. -/
def withoutLines (t : Text) : Text := t.filter (· ≠ CodePoint.ofChar '_')

/-- The whole number that a scalar spells. -/
def readWhole (t : Text) : Except Failure Int :=
  match withoutLines t with
  | [] => .error noFirstDigit
  | u => do
    let (negative, magnitude) := unsigned u
    let n ← readMagnitude magnitude
    pure (if negative then -n else n)

/-! ## Floating-point numbers -/

/-- The exponent after a mantissa; none counts as zero. -/
def readExponent? (t : Text) : Option Int :=
  match t with
  | [] => some 0
  | e :: rest =>
    if e = 'e' then
      let (negative, ds) := unsigned rest
      (digitsValue? 10 ds).map fun n => if negative then -(n : Int) else n
    else none

/-- A decimal number in lower case without its sign. -/
def decimalMagnitude? (negative : Bool) (t : Text) : Option Binary64 :=
  let signed (x y : Binary64) := if negative then y else x
  if ["inf", "infinity"].any (fun w => t = Text.ofString w) then
    some (signed .infinity .negativeInfinity)
  else if t = Text.ofString "nan" then some .notANumber
  else do
    let (whole, rest) := t.span CodePoint.isDigit
    let (fraction, rest) := match rest with
      | c :: cs => if c = '.' then cs.span CodePoint.isDigit else ([], rest)
      | [] => ([], [])
    let mantissa ← digitsValue? 10 (whole ++ fraction)
    let exponent ← readExponent? rest
    pure (.ofDecimal negative mantissa (exponent - fraction.length))

/-- A decimal number in lower case, with blanks around it and its sign allowed. -/
def readDecimal (t : Text) : Except Failure Binary64 :=
  let (negative, magnitude) := unsigned t.strip
  match decimalMagnitude? negative magnitude with
  | some x => .ok x
  | none => .error (invalid ("could not convert string to float: " ++ t.quoted))

/-- A floating-point number in lower case without underscores and sign. -/
def readPointedMagnitude (t : Text) : Except Failure Binary64 :=
  if t = Text.ofString ".inf" then .ok .infinity
  else if t = Text.ofString ".nan" then .ok .notANumber
  else if t.contains ':' then do
    let parts ← (Text.splitOn ':' t).mapM readDecimal
    pure (.ofSixtieths parts)
  else readDecimal t

/-- The floating-point number that a scalar spells. -/
def readPointed (t : Text) : Except Failure Binary64 :=
  match (withoutLines t).map lower with
  | [] => .error noFirstDigit
  | u => do
    let (negative, magnitude) := unsigned u
    let x ← readPointedMagnitude magnitude
    pure (if negative then x.negated else x)

/-! ## Byte strings -/

/-- The six bits that a letter of a byte string stands for. -/
def sixBits? (c : CodePoint) : Option Nat :=
  let n := c.val
  if 65 ≤ n ∧ n ≤ 90 then some (n - 65)
  else if 97 ≤ n ∧ n ≤ 122 then some (n - 71)
  else if c.isDigit then some (n + 4)
  else if c = '+' then some 62
  else if c = '/' then some 63
  else none

/-- The bytes of letters of six bits each. Other letters are passed over; `place` counts the
letters of the current group of four, `left` holds the bits that wait for the next letter, and
`fillers` the equals signs that complete a group. Nothing is read after a complete group that
ends in them. -/
def readBytesFrom (place left fillers : Nat) (done : Bytes) : Text → Option Bytes
  | [] => if place = 0 then some done.reverse else none
  | c :: cs =>
    if c = '=' then
      if 2 ≤ place ∧ 4 ≤ place + (fillers + 1) then some done.reverse
      else readBytesFrom place left (if 2 ≤ place then fillers + 1 else fillers) done cs
    else match sixBits? c with
      | none => readBytesFrom place left fillers done cs
      | some v =>
        if place = 0 then readBytesFrom 1 v 0 done cs
        else
          -- a letter completes a byte, and its remaining bits wait
          let kept := 6 - 2 * place
          let byte := (left * powerOfTwo (2 * place) + v / powerOfTwo kept).toUInt8
          readBytesFrom ((place + 1) % 4) (v % powerOfTwo kept) 0 (byte :: done) cs

/-- The byte string that a scalar spells. -/
def readBytes (t : Text) : Except Failure Bytes :=
  if t.all (fun c => c.val < 128) then
    match readBytesFrom 0 0 0 [] t with
    | some bs => .ok bs
    | none => .error .malformed
  else .error .malformed

/-! ## Dates -/

/-- Whether there is such a day. -/
def checkDate (d : Date) : Except Failure Unit :=
  if d.year = 0 then .error (invalid "year 0 is out of range")
  else if d.month = 0 ∨ 12 < d.month then .error (invalid "month must be in 1..12")
  else if d.day = 0 ∨ Date.daysIn d.year d.month < d.day then
    .error (invalid "day is out of range for month")
  else .ok ()

/-- Whether there is such a time. -/
def checkTime (t : TimeOfDay) : Except Failure Unit :=
  if 23 < t.hour then .error (invalid "hour must be in 0..23")
  else if 59 < t.minute then .error (invalid "minute must be in 0..59")
  else if 59 < t.second then .error (invalid "second must be in 0..59")
  else .ok ()

/-- Whether a place can be so far ahead: by less than a day. -/
def checkAhead (ahead : Option Int) : Except Failure Unit :=
  match ahead with
  | none => .ok ()
  | some minutes =>
    if minutes.natAbs < 1440 then .ok ()
    else .error (invalid ("offset must be a timedelta strictly between -timedelta(hours=24) and "
      ++ "timedelta(hours=24), not " ++ Value.literalDistance minutes ++ "."))

/-- The date or point in time that a scalar spells. -/
def readTimestamp (t : Text) : Except Failure Value :=
  match timestamp? false (if t.endsWith ['\n'] then t.dropLast else t) with
  | none => .error (.unmakeable "AttributeError"
      "'NoneType' object has no attribute 'groupdict'")
  | some (date, none) => do
    checkDate date
    pure (.date date)
  | some (date, some time) => do
    checkAhead time.ahead
    checkDate date
    checkTime time
    pure (.moment date time)

/-! ## Truth values -/

/-- The truth value that a scalar spells in any case. -/
def readTruth (t : Text) : Except Failure Bool :=
  let word := t.map lower
  match truthWords.find? (fun w => word = Text.ofString w.1) with
  | some w => .ok w.2
  | none => .error (.unmakeable "KeyError" (Text.quoted word))

end ImportClosure.Yaml.Scalar
