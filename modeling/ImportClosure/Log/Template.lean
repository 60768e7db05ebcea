import ImportClosure.Decimal.Fixed
import ImportClosure.Value.Printer
/-!
Messages with places for arguments.

A percent sign begins a place. It may name a key of the mapping that is the only argument, ask
for an alignment, a sign, leading zeros, a least width and a precision, and ends in a letter that
says how the argument is written. Two percent signs are one.
-/

namespace ImportClosure

/-- Why a message cannot be made. -/
inductive TemplateFault where
  /-- There are more places than arguments. -/
  | tooFewArguments
  /-- There are more arguments than places. -/
  | tooManyArguments
  /-- A place names a key, but the argument is no mapping. -/
  | needsMapping
  /-- A place names a key that the mapping does not have. -/
  | unknownKey (key : Text)
  /-- The message ends within a place. -/
  | incomplete
  /-- The message ends within a key. -/
  | incompleteKey
  /-- A width is taken from an argument that is no whole number. -/
  | widthNotWhole
  /-- No place ends in this letter; the position is that of the letter. -/
  | unknownLetter (letter : CodePoint) (position : Nat)
  /-- The letter asks for a number. -/
  | notReal (letter : CodePoint) (found : Text)
  /-- The letter asks for a whole number. -/
  | notWhole (letter : CodePoint) (found : Text)
  /-- A floating-point number is needed. -/
  | notFloating (found : Text)
  /-- A number has no whole part, being infinite or "not a number". -/
  | noWholePart (isInfinite : Bool)
  /-- A number is too large for a floating-point number. -/
  | tooLarge
  /-- A code point is needed. -/
  | notCodePoint
  /-- There is no code point of this number. -/
  | codePointTooLarge

namespace TemplateFault

/-- The fault in words. -/
def message : TemplateFault → Text
  | tooFewArguments => "not enough arguments for format string"
  | tooManyArguments => "not all arguments converted during string formatting"
  | needsMapping => "format requires a mapping"
  | unknownKey key => key.quoted
  | incomplete => "incomplete format"
  | incompleteKey => "incomplete format key"
  | widthNotWhole => "* wants int"
  | unknownLetter letter position =>
    let shown : Text := if 31 ≤ letter.val ∧ letter.val ≤ 126 then [letter] else ['?']
    "unsupported format character '" ++ shown ++ "' (0x"
      ++ Text.ofString (String.ofList (Nat.toDigits 16 letter.val)) ++ ") at index "
      ++ Text.ofNat position
  | notReal letter found =>
    "%" ++ ([letter] : Text) ++ " format: a real number is required, not " ++ found
  | notWhole letter found =>
    "%" ++ ([letter] : Text) ++ " format: an integer is required, not " ++ found
  | notFloating found => "must be real number, not " ++ found
  | noWholePart isInfinite =>
    if isInfinite then "cannot convert float infinity to integer"
    else "cannot convert float NaN to integer"
  | tooLarge => "int too large to convert to float"
  | notCodePoint => "%c requires int or char"
  | codePointTooLarge => "%c arg not in range(0x110000)"

end TemplateFault

/-- A place for an argument, the key and the arguments for its widths apart. -/
structure Placeholder where
  /-- Blanks are added at the end. -/
  alignsLeft : Bool
  /-- A number that is not negative has a plus sign. -/
  showsPlus : Bool
  /-- A number that is not negative has a blank in place of a sign. -/
  showsBlank : Bool
  /-- The base of a number is shown, or the zeros at its end. -/
  isVerbose : Bool
  /-- A number is filled up with zeros. -/
  fillsZeros : Bool
  /-- The least width. -/
  width : Nat
  /-- The precision. -/
  precision : Option Nat

namespace Placeholder

/-- The place without any demands. -/
def bare : Placeholder := ⟨false, false, false, false, false, 0, none⟩

/-- A text put into a place: the sign and the mark of the base, both only of numbers, come before
zeros that fill it up, but after blanks. -/
def fill (p : Placeholder) (sign mark body : Text) (isNumber : Bool) : Text :=
  let missing := p.width - (sign.length + mark.length + body.length)
  let pad (c : Char) : Text := List.replicate missing (CodePoint.ofChar c)
  if p.alignsLeft then sign ++ mark ++ body ++ pad ' '
  else if p.fillsZeros && isNumber then sign ++ mark ++ pad '0' ++ body
  else pad ' ' ++ sign ++ mark ++ body

/-- The sign of a number. -/
def sign (p : Placeholder) (negative : Bool) : Text :=
  if negative then "-" else if p.showsPlus then "+" else if p.showsBlank then " " else []

/-- A text put into a place that may cut it off. -/
def ofText (p : Placeholder) (t : Text) : Text :=
  p.fill [] [] (match p.precision with
    | some n => t.take n
    | none => t) false

/-- A whole number in a base, put into a place. -/
def ofInt (p : Placeholder) (base : Nat) (mark : String) (isUpper : Bool) (i : Int) : Text :=
  let digits := Nat.toDigits base i.natAbs
  let zeros := List.replicate (p.precision.getD 0 - digits.length) '0'
  let cased (s : String) : Text := Text.ofString (if isUpper then s.toUpper else s)
  p.fill (p.sign (i < 0)) (if p.isVerbose then cased mark else [])
    (cased (String.ofList (zeros ++ digits))) true

/-- A floating-point number put into a place. -/
def ofFloat (p : Placeholder) (write : Binary64 → String) (isUpper : Bool) (x : Binary64) :
    Text :=
  let digits := if x.isNaN then "nan" else if x.isFinite then write x else "inf"
  p.fill (p.sign (x.isNegative && !x.isNaN)) []
    (Text.ofString (if isUpper then digits.toUpper else digits)) true

end Placeholder

namespace Value

/-- The value as it would be spelled, in ASCII. -/
def asciiLiteral (v : Value) : Text :=
  v.literal.flatMap fun c =>
    if c.val < 0x80 then [c]
    else if c.val < 0x100 then '\\' :: 'x' :: hexDigits 2 c.val
    else if c.val < 0x10000 then '\\' :: 'u' :: hexDigits 4 c.val
    else '\\' :: 'U' :: hexDigits 8 c.val

/-- The number in base ten that a value stands for, its fraction cut off. -/
def wholePart (letter : CodePoint) : Value → Except TemplateFault Int
  | int i => .ok i
  | bool b => .ok (if b then 1 else 0)
  | float x => if x.isFinite then .ok x.truncate else .error (.noWholePart (!x.isNaN))
  | v => .error (.notReal letter v.kindName)

/-- The whole number that a value is. -/
def whole (letter : CodePoint) : Value → Except TemplateFault Int
  | int i => .ok i
  | bool b => .ok (if b then 1 else 0)
  | v => .error (.notWhole letter v.kindName)

/-- The floating-point number nearest to a value. -/
def floating : Value → Except TemplateFault Binary64
  | float x => .ok x
  | int i =>
    let x := Binary64.ofDecimal (i < 0) i.natAbs 0
    if x.isFinite then .ok x else .error .tooLarge
  | bool b => .ok (Binary64.ofDecimal false (if b then 1 else 0) 0)
  | v => .error (.notFloating v.kindName)

/-- The code point that a value is or numbers. -/
def codePoint : Value → Except TemplateFault CodePoint
  | text [c] => .ok c
  | int i =>
    if 0 ≤ i then
      match CodePoint.ofNat? i.toNat with
      | some c => .ok c
      | none => .error .codePointTooLarge
    else .error .codePointTooLarge
  | bool b => .ok (CodePoint.ofNat (if b then 1 else 0))
  | _ => .error .notCodePoint

end Value

namespace Template

/-- What is left while a message is made: its text, the position there, and the arguments; the
mapping is there if it is the only one. -/
structure Pending where
  /-- The text to come. -/
  rest : Text
  /-- Its position. -/
  position : Nat
  /-- The arguments to come. -/
  arguments : List Value
  /-- The mapping that keys are looked up in. -/
  mapping : Option (List (Value × Value))

/-- A step of making a message. -/
abbrev Maker := StateT Pending (Except TemplateFault)

/-- The next code point. -/
def peek : Maker (Option CodePoint) := do
  pure (← get).rest.head?

/-- Goes on by one code point. -/
def drop : Maker Unit :=
  modify fun s => { s with rest := s.rest.tail, position := s.position + 1 }

/-- The next code point, which there has to be. -/
def demand : Maker CodePoint := do
  match ← peek with
  | some c => pure c
  | none => throw .incomplete

/-- Takes the next argument. -/
def argument : Maker Value := do
  let s ← get
  match s.arguments with
  | v :: vs =>
    set { s with arguments := vs }
    pure v
  | [] => throw .tooFewArguments

/-- The part of a text before the parenthesis that closes `depth` open ones; a text without it has
none. -/
def closing? : Nat → Text → Text → Option Text
  | _, _, [] => none
  | depth, done, c :: cs =>
    if c = ')' then
      match depth with
      | 0 => some done.reverse
      | depth + 1 => closing? depth (c :: done) cs
    else if c = '(' then closing? (depth + 1) (c :: done) cs
    else closing? depth (c :: done) cs

/-- The value of a key; it is the only argument from there on. -/
def key : Maker Unit := do
  if (← peek) = some (CodePoint.ofChar '(') then
    let s ← get
    match s.mapping with
    | none => throw .needsMapping
    | some entries =>
      match closing? 0 [] s.rest.tail with
      | none => throw .incompleteKey
      | some name =>
        match entries.find? (fun e => e.1.sameKey (.text name)) with
        | none => throw (.unknownKey name)
        | some e =>
          set { s with rest := s.rest.drop (name.length + 2),
                       position := s.position + name.length + 2, arguments := [e.2] }

/-- The demands on sign, alignment and the like. -/
def flags : Nat → Placeholder → Maker Placeholder
  | 0, p => pure p
  | fuel + 1, p => do
    let c := (← peek).getD (CodePoint.ofNat 0)
    let go (p : Placeholder) : Maker Placeholder := do
      drop
      flags fuel p
    if c = '-' then go { p with alignsLeft := true }
    else if c = '+' then go { p with showsPlus := true }
    else if c = ' ' then go { p with showsBlank := true }
    else if c = '#' then go { p with isVerbose := true }
    else if c = '0' then go { p with fillsZeros := true }
    else pure p

/-- The number at hand. -/
def number : Maker Nat := do
  let s ← get
  let digits := s.rest.takeWhile CodePoint.isDigit
  set { s with rest := s.rest.drop digits.length, position := s.position + digits.length }
  pure (digits.foldl (fun n d => n * 10 + (d.val - 48)) 0)

/-- A number, or a star that takes it from the arguments. -/
def size : Maker Int := do
  if (← peek) = some (CodePoint.ofChar '*') then
    drop
    match ← argument with
    | .int i => pure i
    | .bool b => pure (if b then 1 else 0)
    | _ => throw .widthNotWhole
  else number

/-- The demands of a place. -/
def placeholder : Maker Placeholder := do
  key
  let p ← flags (← get).rest.length .bare
  let width ← size
  let p := { p with width := width.natAbs, alignsLeft := p.alignsLeft || decide (width < 0) }
  let p ← if (← peek) = some (CodePoint.ofChar '.') then do
      drop
      pure { p with precision := some (← size).toNat }
    else pure p
  match ← peek with
  | some c => if c = 'h' ∨ c = 'l' ∨ c = 'L' then drop
  | none => pure ()
  pure p

/-- An argument written as a letter asks for. -/
def written (p : Placeholder) (letter : CodePoint) (position : Nat) (v : Value) :
    Except TemplateFault Text :=
  let places := p.precision.getD 6
  let is (chars : String) : Bool := chars.toList.any (fun c => letter = CodePoint.ofChar c)
  if is "s" then .ok (p.ofText v.plain)
  else if is "r" then .ok (p.ofText v.literal)
  else if is "a" then .ok (p.ofText v.asciiLiteral)
  else if is "diu" then (p.ofInt 10 "" false) <$> v.wholePart letter
  else if is "o" then (p.ofInt 8 "0o" false) <$> v.whole letter
  else if is "xX" then (p.ofInt 16 "0x" (is "X")) <$> v.whole letter
  else if is "eE" then (p.ofFloat (·.scientific places) (is "E")) <$> v.floating
  else if is "fF" then (p.ofFloat (·.positional places) (is "F")) <$> v.floating
  else if is "gG" then
    (p.ofFloat (·.general (max places 1) p.isVerbose) (is "G")) <$> v.floating
  else if is "c" then (fun c => p.fill [] [] [c] false) <$> v.codePoint
  else .error (.unknownLetter letter position)

/-- A place after its percent sign. -/
def place : Maker Text := do
  let p ← placeholder
  let letter ← demand
  if letter = '%' then
    drop
    pure ['%']
  else
    let v ← argument
    let t ← written p letter (← get).position v
    drop
    pure t

/-- A message to its end. -/
def message : Nat → Text → Maker Text
  | 0, done => pure done
  | fuel + 1, done => do
    match ← peek with
    | none => pure done
    | some c =>
      drop
      if c = '%' then message fuel (done ++ (← place)) else message fuel (done ++ [c])

end Template

/-- The message that a template makes with some arguments; without any it is the message itself.
If a mapping is the only argument, places may name its keys. -/
def Text.withArguments (t : Text) (arguments : List Value) : Except TemplateFault Text :=
  let mapping := match arguments with
    | [.mapping (e :: es)] => some (e :: es)
    | _ => none
  if arguments = [] then .ok t
  else
    match (Template.message (t.length + 1) []).run ⟨t, 0, arguments, mapping⟩ with
    | .error e => .error e
    | .ok (made, left) =>
      if left.arguments.isEmpty || mapping.isSome then .ok made else .error .tooManyArguments

end ImportClosure
