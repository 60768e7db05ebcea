import ImportClosure.Yaml.Token
import ImportClosure.Value.Basic
/-!
What plain scalars mean.

A plain scalar is a truth value, a number, a date, nothing at all, or else a text. Numbers may
be written in four bases and in units of sixty, with underscores anywhere.
-/

namespace ImportClosure.Yaml

/-- The tag of this name among the standard ones. -/
def standardTag (name : String) : Text := "tag:yaml.org,2002:" ++ Text.ofString name

namespace Scalar

/-! ## Shapes -/

/-- The text without a sign in front, and whether it was a minus. -/
def unsigned (t : Text) : Bool × Text :=
  match t with
  | [] => (false, [])
  | c :: cs => if c = '-' then (true, cs) else if c = '+' then (false, cs) else (false, t)

/-- The text after these characters, if it begins with them. -/
def after? (lead : String) (t : Text) : Option Text :=
  let l := Text.ofString lead
  if l.isPrefixOf t then some (t.drop l.length) else none

/-- A decimal digit or an underscore. -/
def isDigitOrLine (c : CodePoint) : Bool := c.isDigit || c = '_'

/-- Two digits below sixty, or one. -/
def isSixtieth (t : Text) : Bool :=
  match t with
  | [a] => a.isDigit
  | [a, b] => a.isDigit && b.isDigit && a.val < 54
  | _ => false

/-- The text is not empty and all of it satisfies `p`. -/
def isAll (p : CodePoint → Bool) (t : Text) : Bool := !t.isEmpty && t.all p

/-- A whole number, its sign apart. -/
def isWholeMagnitude (t : Text) : Bool :=
  match t with
  | [] => false
  | c :: cs =>
    if c = '0' then
      match cs with
      | [] => true
      | d :: ds =>
        (d = 'b' && isAll (fun c => c = '0' || c = '1' || c = '_') ds)
          || (d = 'x' && isAll (fun c => c.hexValue?.isSome || c = '_') ds)
          || cs.all (fun c => (48 ≤ c.val && c.val ≤ 55) || c = '_')
    else if c.isDigit then
      match Text.splitOn ':' (c :: cs) with
      | [] => false
      | first :: others => first.all isDigitOrLine && others.all isSixtieth
    else false

/-- A whole number. -/
def isWhole (t : Text) : Bool := isWholeMagnitude (unsigned t).2

/-- An exponent with its sign, or nothing. -/
def isExponent (t : Text) : Bool :=
  match t with
  | [] => true
  | e :: s :: ds => (e = 'e' || e = 'E') && (s = '+' || s = '-') && isAll CodePoint.isDigit ds
  | _ => false

/-- A fraction after its point, and possibly an exponent. -/
def isFraction (t : Text) : Bool := isExponent (t.dropWhile isDigitOrLine)

/-- A number with a point, its sign apart; `isSigned` tells that it has one. -/
def isPointedMagnitude (isSigned : Bool) (t : Text) : Bool :=
  match t with
  | [] => false
  | c :: cs =>
    if c = '.' then
      -- without digits in front no sign may stand there
      (!isSigned && cs.head?.any CodePoint.isDigit && isFraction cs)
        || [".inf", ".Inf", ".INF"].any (fun w => t = Text.ofString w)
    else if c.isDigit then
      let whole := t.takeWhile (· ≠ CodePoint.ofChar '.')
      match t.drop whole.length with
      | [] => false
      | _ :: fraction =>
        if whole.contains ':' then
          match Text.splitOn ':' whole with
          | [] => false
          | first :: others =>
            first.all isDigitOrLine && others.all isSixtieth && fraction.all isDigitOrLine
        else whole.all isDigitOrLine && isFraction fraction
    else false

/-- A floating-point number. -/
def isPointed (t : Text) : Bool :=
  [".nan", ".NaN", ".NAN"].any (fun w => t = Text.ofString w)
    || isPointedMagnitude ((unsigned t).2.length < t.length) (unsigned t).2

/-- The words for truth values in lower case. -/
def truthWords : List (String × Bool) :=
  [("yes", true), ("no", false), ("true", true), ("false", false), ("on", true), ("off", false)]

/-- An ASCII letter in lower case. -/
def lower (c : CodePoint) : CodePoint :=
  if 65 ≤ c.val ∧ c.val ≤ 90 then CodePoint.ofNat (c.val + 32) else c

/-- An ASCII letter in upper case. -/
def upper (c : CodePoint) : CodePoint :=
  if 97 ≤ c.val ∧ c.val ≤ 122 then CodePoint.ofNat (c.val - 32) else c

/-- A word in lower case, in upper case or with a capital. -/
def isSpelling (word : String) (t : Text) : Bool :=
  let w := Text.ofString word
  t = w || t = w.map upper || t = (w.take 1).map upper ++ w.drop 1

/-- The truth value a plain scalar spells. -/
def truth? (t : Text) : Option Bool :=
  (truthWords.find? (fun w => isSpelling w.1 t)).map Prod.snd

/-- A plain scalar that stands for nothing. -/
def isNothing (t : Text) : Bool :=
  t = [] || t = [CodePoint.ofChar '~'] || isSpelling "null" t

/-! ## Dates -/

/-- The number of so many digits at the front, with what follows. -/
def digits? (least most : Nat) (t : Text) : Option (Nat × Text) :=
  let ds := (t.take most).takeWhile CodePoint.isDigit
  if ds.length < least then none
  else some (ds.foldl (fun n d => n * 10 + (d.val - 48)) 0, t.drop ds.length)

/-- The text after a mark. -/
def mark? (c : CodePoint) (t : Text) : Option Text :=
  match t with
  | d :: ds => if d = c then some ds else none
  | [] => none

/-- A space or a tab. -/
def isBlank (c : CodePoint) : Bool := c = ' ' || c = '\t'

/-- The distance from the zero meridian in minutes; a time without one has none. -/
def ahead? (t : Text) : Option (Option Int) :=
  match t with
  | [] => some none
  | _ =>
    match t.dropWhile isBlank with
    | [] => none
    | c :: cs =>
      if c = 'Z' then if cs = [] then some (some 0) else none
      else if c = '+' ∨ c = '-' then do
        let (hours, rest) ← digits? 1 2 cs
        let minutes ← match rest with
          | [] => some 0
          | _ => do
            let rest ← mark? ':' rest
            let (minutes, rest) ← digits? 2 2 rest
            if rest = [] then some minutes else none
        let total : Int := (hours * 60 + minutes : Nat)
        some (some (if c = '-' then -total else total))
      else none

/-- The millionths of a second that the digits of a fraction spell. -/
def microseconds (ds : Text) : Nat :=
  let six := ds.take 6
  (six ++ List.replicate (6 - six.length) (CodePoint.ofChar '0')).foldl
    (fun n d => n * 10 + (d.val - 48)) 0

/-- A time of a day. -/
def time? (t : Text) : Option TimeOfDay := do
  let (hour, t) ← digits? 1 2 t
  let t ← mark? ':' t
  let (minute, t) ← digits? 2 2 t
  let t ← mark? ':' t
  let (second, t) ← digits? 2 2 t
  let (fraction, t) := match t with
    | c :: cs => if c = '.' then cs.span CodePoint.isDigit else ([], t)
    | [] => ([], [])
  let ahead ← ahead? t
  pure ⟨hour, minute, second, microseconds fraction, ahead⟩

/-- A date, with a time of the day if there is one. With `isStrict`, the month and the day of a date
alone have two digits each. -/
def timestamp? (isStrict : Bool) (t : Text) : Option (Date × Option TimeOfDay) := do
  let (year, t) ← digits? 4 4 t
  let t ← mark? '-' t
  let (month, t1) ← digits? 1 2 t
  let t2 ← mark? '-' t1
  let (day, t3) ← digits? 1 2 t2
  let date : Date := ⟨year, month, day⟩
  match t3 with
  | [] =>
    if isStrict && !((digits? 2 2 t).isSome && t2.length = 2) then none
    else some (date, none)
  | c :: cs =>
    if c = 'T' ∨ c = 't' then do pure (date, some (← time? cs))
    else if isBlank c then do pure (date, some (← time? (cs.dropWhile isBlank)))
    else none

/-! ## Kinds of plain scalars -/

/-- The tag of a plain scalar. -/
def plainTag (t : Text) : Text :=
  if (truth? t).isSome then standardTag "bool"
  else if isPointed t then standardTag "float"
  else if isWhole t then standardTag "int"
  else if t = Text.ofString "<<" then standardTag "merge"
  else if isNothing t then standardTag "null"
  else if (timestamp? true t).isSome then standardTag "timestamp"
  else if t = Text.ofString "=" then standardTag "value"
  else standardTag "str"

end Scalar

end ImportClosure.Yaml
