import ImportClosure.Text.Basic
/-!
Double-precision numbers and their decimal text.

A number is kept as its 64 bits. `Binary64.shortest` finds the fewest decimal digits that read
back as the same number, and among those the nearest ones: with the number written as `m · 2^q`,
the reals that round to it form an interval, and for each count of digits the two neighbours of
the number on that decimal grid are tried in exact arithmetic.

`Binary64.render` writes the digits positionally from `1e-4` up to below `1e16`, always with a
fractional part, and otherwise with an exponent of at least two digits and its sign.
-/

namespace ImportClosure

/-- A power of two. -/
def powerOfTwo (n : Nat) : Nat := Nat.pow 2 n

/-- A power of ten. -/
def powerOfTen (n : Nat) : Nat := Nat.pow 10 n

/-- A double-precision number. -/
structure Binary64 where
  /-- Sign, exponent and fraction. -/
  bits : UInt64
deriving DecidableEq, Repr

namespace Binary64

/-- The number nearest to `mantissa · 10^exponent`, negated if asked. -/
def ofDecimal (negative : Bool) (mantissa : Nat) (exponent : Int) : Binary64 :=
  let x : Float :=
    if exponent < 0 then Float.ofScientific mantissa true exponent.natAbs
    else Float.ofScientific mantissa false exponent.natAbs
  ⟨if negative then x.toBits ||| 0x8000000000000000 else x.toBits⟩

/-- The sign bit is set. -/
def isNegative (x : Binary64) : Bool := x.bits ≥ 0x8000000000000000

/-- The biased exponent. -/
def exponentField (x : Binary64) : Nat := (x.bits.toNat / powerOfTwo 52) % 2048

/-- The fraction. -/
def fractionField (x : Binary64) : Nat := x.bits.toNat % powerOfTwo 52

/-- Neither an infinity nor "not a number". -/
def isFinite (x : Binary64) : Bool := x.exponentField ≠ 2047

/-- "Not a number". -/
def isNaN (x : Binary64) : Bool := x.exponentField = 2047 && x.fractionField ≠ 0

/-- Positive infinity. -/
def infinity : Binary64 := ⟨0x7FF0000000000000⟩

/-- Negative infinity. -/
def negativeInfinity : Binary64 := ⟨0xFFF0000000000000⟩

/-- The usual "not a number". -/
def notANumber : Binary64 := ⟨0x7FF8000000000000⟩

/-- The number with the other sign. -/
def negated (x : Binary64) : Binary64 := ⟨x.bits ^^^ 0x8000000000000000⟩

/-- The number whose digits in base sixty these are, the last first added. -/
def ofSixtieths (digits : List Binary64) : Binary64 :=
  let step (sum : Float × Float) (digit : Binary64) : Float × Float :=
    (sum.1 + Float.ofBits digit.bits * sum.2, sum.2 * 60)
  ⟨(digits.reverse.foldl step (0, 1)).1.toBits⟩

/-- The absolute value of a finite number is `m · 2^(q - 1075)` for this pair `(m, q)`. -/
def decompose (x : Binary64) : Nat × Nat :=
  if x.exponentField = 0 then (x.fractionField, 1)
  else (powerOfTwo 52 + x.fractionField, x.exponentField)

/-- The least `k` up to `bound`, counted from `start`, with `p k`. -/
def leastFrom (p : Nat → Bool) : Nat → Nat → Nat
  | 0, start => start
  | bound + 1, start => if p start then start else leastFrom p bound (start + 1)

/-- The decimal point's place: the least `e` with `num / den < 10^e`, as a difference of two
naturals `(up, down)`. -/
def decimalPoint (num den : Nat) : Nat × Nat :=
  if den ≤ num then (leastFrom (fun k => num < den * powerOfTen k) 400 0, 0)
  else (0, leastFrom (fun k => den ≤ num * powerOfTen (k + 1)) 400 0)

/-- The nearer, if any, of the two neighbours of the number on the grid of `count` digits that
rounds to the number. All quantities are scaled by one factor: `unit` is the grid's step, `value`
the number, `low` and `high` the ends of the interval, which belong to it if `closed`. -/
def gridHit (unit value low high : Nat) (closed : Bool) : Option Nat :=
  let below := value / unit
  let above := below + 1
  let inside (c : Nat) : Bool :=
    if closed then low ≤ c * unit && c * unit ≤ high else low < c * unit && c * unit < high
  let gapBelow := value - below * unit
  let gapAbove := above * unit - value
  match inside below, inside above with
  | false, false => none
  | true, false => some below
  | false, true => some above
  | true, true =>
    if gapBelow < gapAbove then some below
    else if gapAbove < gapBelow then some above
    else if below % 2 = 0 then some below else some above

/-- Tries the counts of digits from `count` on. -/
def shortestFrom (m q up down : Nat) (boundary : Bool) : Nat → Nat → Nat × Int
  | 0, _ => (m, 0)
  | fuel + 1, count =>
    -- the grid's step is `10^scale`
    let scale : Int := (up : Int) - down - count
    let tens := powerOfTen scale.natAbs
    -- the number is `4 m · 2^(q - 1077)`
    let num := if q ≥ 1077 then powerOfTwo (q - 1077) else 1
    let den := if q ≥ 1077 then 1 else powerOfTwo (1077 - q)
    let factor := if scale < 0 then tens else 1
    let unit := if scale < 0 then den else den * tens
    let value := 4 * m * num * factor
    let low := (4 * m - (if boundary then 1 else 2)) * num * factor
    let high := (4 * m + 2) * num * factor
    match gridHit unit value low high (m % 2 = 0) with
    | some c => (c, scale)
    | none => shortestFrom m q up down boundary fuel (count + 1)

/-- The fewest digits, as a natural number, and the power of ten they count, of a finite number
other than zero. -/
def shortest (x : Binary64) : Nat × Int :=
  let (m, q) := x.decompose
  let (up, down) :=
    decimalPoint (m * (if q ≥ 1075 then powerOfTwo (q - 1075) else 1))
      (if q ≥ 1075 then 1 else powerOfTwo (1075 - q))
  shortestFrom m q up down (x.fractionField = 0 && 1 < q) 17 1

/-- The digits without zeros at the end, and the place of the decimal point after the first. -/
def trimmedDigits (x : Binary64) : List Char × Int :=
  let (c, scale) := x.shortest
  let digits := (toString c).toList
  ((digits.reverse.dropWhile (· = '0')).reverse, scale + digits.length)

/-- The decimal text of the absolute value of a finite number. -/
def renderMagnitude (x : Binary64) : String :=
  if x.decompose.1 = 0 then "0.0"
  else
    let (digits, point) := x.trimmedDigits
    let zeros (n : Int) : List Char := List.replicate n.toNat '0'
    if -4 < point ∧ point ≤ 16 then
      if point ≤ 0 then String.ofList ('0' :: '.' :: zeros (-point) ++ digits)
      else if (digits.length : Int) ≤ point then
        String.ofList (digits ++ zeros (point - digits.length)) ++ ".0"
      else String.ofList (digits.take point.toNat ++ '.' :: digits.drop point.toNat)
    else
      let exponent := point - 1
      let power := toString exponent.natAbs
      let sign := if exponent < 0 then "e-" else "e+"
      let fraction := match digits.tail with
        | [] => ""
        | rest => "." ++ String.ofList rest
      String.ofList (digits.take 1) ++ fraction ++ sign
        ++ (if power.length < 2 then "0" ++ power else power)

/-- The decimal text of a number; `infinite` and `nan` stand for what has none. -/
def renderWith (infinite nan : String) (x : Binary64) : Text :=
  if x.isNaN then nan
  else
    let magnitude := if x.isFinite then x.renderMagnitude else infinite
    if x.isNegative then "-" ++ magnitude else magnitude

end Binary64

end ImportClosure
