import ImportClosure.Text.Basic
import ImportClosure.Decimal.Binary64
/-!
JSON values.

Objects keep their fields in order. Whole numbers are of any size and apart from
floating-point numbers, so that an integer is written and read back without loss.
-/

namespace ImportClosure

/-- A JSON value. -/
inductive Json where
  /-- No value. -/
  | null
  /-- A truth value. -/
  | bool (b : Bool)
  /-- A whole number. -/
  | int (i : Int)
  /-- A floating-point number. -/
  | float (x : Binary64)
  /-- A text. -/
  | text (t : Text)
  /-- A list. -/
  | list (items : List Json)
  /-- An object with its fields in order. -/
  | object (fields : List (Text × Json))
deriving Inhabited

namespace Json

/-- A list of texts. -/
def texts (ts : List Text) : Json := list (ts.map text)

/-- The value of the last field of this name. -/
def field? (name : Text) : Json → Option Json
  | object fields => (fields.reverse.find? (·.1 = name)).map Prod.snd
  | _ => none

end Json

end ImportClosure
