import ImportClosure.Calendar
import ImportClosure.Json.Basic
import ImportClosure.Text.Utf8
/-!
Values as a configuration may hold them.

A configuration file can spell more than a configuration needs: besides texts, numbers and lists
there are dates, byte strings, sets and pairs. They only matter for what is said about them when
they are refused, which is their printed form.
-/

namespace ImportClosure

/-- A value. -/
inductive Value where
  /-- No value. -/
  | null
  /-- A truth value. -/
  | bool (b : Bool)
  /-- A whole number. -/
  | int (i : Int)
  /-- A floating-point number. -/
  | float (x : Binary64)
  /-- A text. -/
  | text (t : Text)
  /-- A byte string. -/
  | bytes (bs : Bytes)
  /-- A date. -/
  | date (d : Date)
  /-- A point in time. -/
  | moment (d : Date) (t : TimeOfDay)
  /-- A list. -/
  | list (items : List Value)
  /-- A fixed row of values. -/
  | row (items : List Value)
  /-- A set, in the order in which its members were given. -/
  | set (members : List Value)
  /-- A mapping, its keys in first-insertion order. -/
  | mapping (entries : List (Value × Value))
  /-- A value within itself: a list, or else a mapping. -/
  | again (isList : Bool)
deriving Inhabited

namespace Value

/-- The name of the kind of value. -/
def kindName : Value → Text
  | null => "NoneType"
  | bool _ => "bool"
  | int _ => "int"
  | float _ => "float"
  | text _ => "str"
  | bytes _ => "bytes"
  | date _ => "datetime.date"
  | moment _ _ => "datetime.datetime"
  | list _ => "list"
  | row _ => "tuple"
  | set _ => "set"
  | mapping _ => "dict"
  | again isList => if isList then "list" else "dict"

/-- The kind of value, as messages show it. -/
def typeName (v : Value) : Text := "<class '" ++ v.kindName ++ "'>"

/-! ## Keys -/

/-- The whole number that a finite floating-point number is, if it is one. -/
def wholeOf? (x : Binary64) : Option Int :=
  if x.isFinite then
    let (m, q) := x.decompose
    let magnitude : Option Nat :=
      if 1075 ≤ q then some (m * powerOfTwo (q - 1075))
      else if m % powerOfTwo (1075 - q) = 0 then some (m / powerOfTwo (1075 - q))
      else Option.none
    magnitude.map fun n => if x.isNegative then -(n : Int) else n
  else Option.none

/-- The number behind a value, if it is a whole one; a truth value counts as zero or one. -/
def number? : Value → Option Int
  | bool b => some (if b then 1 else 0)
  | int i => some i
  | float x => wholeOf? x
  | _ => Option.none

mutual

/-- The two values are the same key: equal, numbers of different kinds compared by what they
are. -/
def sameKey : Value → Value → Bool
  | null, null => true
  | text t, text u => t = u
  | bytes a, bytes b => a = b
  | date a, date b => a = b
  | moment a s, moment b t => a = b && s = t
  | row xs, row ys => sameKeys xs ys
  | float x, float y => x = y || ((wholeOf? x).isSome && wholeOf? x = wholeOf? y)
  | a, b => (number? a).isSome && number? a = number? b

/-- The values are the same keys one by one. -/
def sameKeys : List Value → List Value → Bool
  | [], [] => true
  | x :: xs, y :: ys => sameKey x y && sameKeys xs ys
  | _, _ => false

end

/-- A value that can be a key or a member of a set. -/
def isKey : Value → Bool
  | list _ => false
  | set _ => false
  | mapping _ => false
  | again _ => false
  | row items => items.all fun v => match v with
    | list _ | set _ | mapping _ | again _ => false
    | _ => true
  | _ => true

/-- Gives a key a value, in place or at the end. -/
def insertEntry (k v : Value) : List (Value × Value) → List (Value × Value)
  | [] => [(k, v)]
  | e :: es => if sameKey e.1 k then (e.1, v) :: es else e :: insertEntry k v es

/-! ## From JSON -/

mutual

/-- A JSON value as a value; of fields of one name the last counts. -/
def ofJson : Json → Value
  | .null => null
  | .bool b => bool b
  | .int i => int i
  | .float x => float x
  | .text t => text t
  | .list items => list (ofJsonItems items)
  | .object fields => mapping (ofJsonFields [] fields)

/-- JSON values as values. -/
def ofJsonItems : List Json → List Value
  | [] => []
  | j :: js => ofJson j :: ofJsonItems js

/-- JSON fields as entries, after others. -/
def ofJsonFields (entries : List (Value × Value)) : List (Text × Json) → List (Value × Value)
  | [] => entries
  | (name, j) :: fields => ofJsonFields (insertEntry (text name) (ofJson j) entries) fields

end

end Value

end ImportClosure
