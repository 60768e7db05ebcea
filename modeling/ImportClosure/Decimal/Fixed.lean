import ImportClosure.Decimal.Binary64
/-!
Double-precision numbers with a given number of digits.

All of these round the exact value of the number, a half going to the even neighbour. A positional
number has a given number of digits after the point, a scientific one a given number after its
first digit; the general form is one of the two, by the size of the number.
-/

namespace ImportClosure

/-- The quotient rounded to the nearest natural number, a half going to the even one. -/
def roundHalfEven (num den : Nat) : Nat :=
  let below := num / den
  let rest := num % den
  if 2 * rest < den then below
  else if den < 2 * rest then below + 1
  else below + below % 2

namespace Binary64

/-- The absolute value of a finite number as a fraction. -/
def fraction (x : Binary64) : Nat × Nat :=
  let (m, q) := x.decompose
  if 1075 ≤ q then (m * powerOfTwo (q - 1075), 1) else (m, powerOfTwo (1075 - q))

/-- The whole part of a finite number. -/
def truncate (x : Binary64) : Int :=
  let n : Int := x.fraction.1 / x.fraction.2
  if x.isNegative then -n else n

/-- The number times a power of ten as a fraction. -/
def scaled (x : Binary64) (power : Int) : Nat × Nat :=
  let (num, den) := x.fraction
  if power < 0 then (num, den * powerOfTen power.natAbs) else (num * powerOfTen power.natAbs, den)

/-- Digits with a point so many places before their end. -/
def withPoint (digits places : Nat) : String :=
  let ds := (toString digits).toList
  let padded := List.replicate (places + 1 - ds.length) '0' ++ ds
  let whole := padded.take (padded.length - places)
  if places = 0 then String.ofList whole
  else String.ofList (whole ++ '.' :: padded.drop (padded.length - places))

/-- The absolute value of a finite number with so many digits after the point. -/
def positional (x : Binary64) (places : Nat) : String :=
  let (num, den) := x.scaled places
  withPoint (roundHalfEven num den) places

/-- The digits of a finite number with so many after the first one, and the power of ten of the
first. -/
def scientificDigits (x : Binary64) (places : Nat) : Nat × Int :=
  if x.fraction.1 = 0 then (0, 0)
  else
    let (up, down) := decimalPoint x.fraction.1 x.fraction.2
    let power : Int := (up : Int) - down - 1
    let (num, den) := x.scaled (places - power)
    let digits := roundHalfEven num den
    -- rounding up may add a digit
    if powerOfTen (places + 1) ≤ digits then (digits / 10, power + 1) else (digits, power)

/-- An exponent with its sign and at least two digits. -/
def exponentText (power : Int) : String :=
  let digits := toString power.natAbs
  (if power < 0 then "e-" else "e+") ++ (if digits.length < 2 then "0" ++ digits else digits)

/-- The absolute value of a finite number with so many digits after its first one. -/
def scientific (x : Binary64) (places : Nat) : String :=
  let (digits, power) := x.scientificDigits places
  withPoint digits places ++ exponentText power

/-- The text without zeros at the end of its fraction. -/
def withoutTrailingZeros (s : String) : String :=
  if s.toList.contains '.' then
    let shorter := s.toList.reverse.dropWhile (· = '0')
    String.ofList (if shorter.head? = some '.' then shorter.tail else shorter).reverse
  else s

/-- The absolute value of a finite number with so many digits in all, positional if it is neither
too small nor too large; zeros at its end are kept only if asked. -/
def general (x : Binary64) (count : Nat) (keepZeros : Bool) : String :=
  let places := count - 1
  let (digits, power) := x.scientificDigits places
  let trim (s : String) : String := if keepZeros then s else withoutTrailingZeros s
  if -4 ≤ power ∧ power < (places + 1 : Nat) then
    trim (x.positional ((places : Int) - power).toNat)
  else trim (withPoint digits places) ++ exponentText power

end Binary64

end ImportClosure
