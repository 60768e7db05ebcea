import ImportClosure.Value.Basic
import ImportClosure.Text.Quoted
/-!
Values in messages.

`Value.literal` writes a value the way it would be spelled in a program; `Value.plain` leaves the
quotes off a text and the constructor off a date when they stand alone. Both are meant for values
that can be written out: a whole number of too many decimal digits cannot (`Value.isWritable`).
-/

namespace ImportClosure.Value

/-- Numbers separated by commas, in parentheses after a name. -/
def call (name : Text) (arguments : List Text) : Text :=
  name ++ "(" ++ Text.joinWith ", " arguments ++ ")"

/-! ## Dates and times -/

/-- The numbers of a date. -/
def dateArguments (d : Date) : List Text :=
  [Text.ofNat d.year, Text.ofNat d.month, Text.ofNat d.day]

/-- A distance in time, in days and seconds. -/
def literalDistance (minutes : Int) : Text :=
  let days := Int.fdiv minutes 1440
  let seconds := Int.fmod minutes 1440 * 60
  call "datetime.timedelta"
    ((if days = 0 then [] else ["days=" ++ Text.ofInt days])
      ++ (if seconds = 0 then [] else ["seconds=" ++ Text.ofInt seconds]))

/-- The distance from the zero meridian as an argument. -/
def literalAhead (minutes : Int) : Text :=
  if minutes = 0 then "tzinfo=datetime.timezone.utc"
  else "tzinfo=" ++ call "datetime.timezone" [literalDistance minutes]

/-- The numbers of a time of a day; the hour and the minute always, the others from the last one
that is not zero on left out. -/
def timeArguments (t : TimeOfDay) : List Text :=
  [Text.ofNat t.hour, Text.ofNat t.minute]
    ++ (if t.second = 0 ∧ t.microsecond = 0 then [] else [Text.ofNat t.second])
    ++ (if t.microsecond = 0 then [] else [Text.ofNat t.microsecond])
    ++ (t.ahead.map literalAhead).toList

/-! ## Values -/

/-- A fixed row; a comma tells a single value from a value in parentheses. -/
def rowOf : List Text → Text
  | [item] => "(" ++ item ++ ",)"
  | items => "(" ++ Text.joinWith ", " items ++ ")"

/-- A set; the empty braces are those of a mapping. -/
def setOf : List Text → Text
  | [] => "set()"
  | members => "\x7b" ++ Text.joinWith ", " members ++ "\x7d"

mutual

/-- A value as it would be spelled. -/
def literal : Value → Text
  | null => "None"
  | bool b => if b then "True" else "False"
  | int i => Text.ofInt i
  | float x => x.renderWith "inf" "nan"
  | text t => t.quoted
  | bytes bs => Text.quotedBytes bs
  | date d => call "datetime.date" (dateArguments d)
  | moment d t => call "datetime.datetime" (dateArguments d ++ timeArguments t)
  | list items => "[" ++ Text.joinWith ", " (literals items) ++ "]"
  | row items => rowOf (literals items)
  | set members => setOf (literals members)
  | mapping entries => "\x7b" ++ Text.joinWith ", " (literalEntries entries) ++ "\x7d"
  | again isList => if isList then "[...]" else "\x7b...\x7d"

/-- Values as they would be spelled. -/
def literals : List Value → List Text
  | [] => []
  | v :: vs => literal v :: literals vs

/-- Entries as they would be spelled. -/
def literalEntries : List (Value × Value) → List Text
  | [] => []
  | (k, v) :: es => (literal k ++ ": " ++ literal v) :: literalEntries es

end

/-- A value that stands alone. -/
def plain : Value → Text
  | text t => t
  | date d => d.joined "-"
  | moment d t => d.joined "-" ++ " " ++ t.precise
  | v => v.literal

/-! ## What can be written out -/

/-- The most decimal digits of a number that is read or written out. -/
def mostDigits : Nat := 4300

mutual

/-- No number in the value has too many digits to be written out. -/
def isWritable : Value → Bool
  | int i => i.natAbs < Nat.pow 10 mostDigits
  | list items => areWritable items
  | row items => areWritable items
  | set members => areWritable members
  | mapping entries => areEntriesWritable entries
  | _ => true

/-- The values can be written out. -/
def areWritable : List Value → Bool
  | [] => true
  | v :: vs => isWritable v && areWritable vs

/-- The keys and values of the entries can be written out. -/
def areEntriesWritable : List (Value × Value) → Bool
  | [] => true
  | (k, v) :: es => isWritable k && isWritable v && areEntriesWritable es

end

/-- What is said of a number that cannot be written out. -/
def tooManyDigits : Text :=
  "Exceeds the limit (" ++ Text.ofNat mostDigits
    ++ " digits) for integer string conversion; use sys.set_int_max_str_digits() to increase the"
    ++ " limit"

end ImportClosure.Value
