import ImportClosure.Json.Basic
import ImportClosure.Text.Quoted
/-!
Writing JSON in ASCII.

Everything outside U+0020 to U+007E is escaped, an astral code point as the pair of escapes of
its UTF-16 form, so the written text is plain ASCII whatever the value holds. A `Layout` either
keeps a value on one line, with a blank after each comma, or gives each item a line of its own,
indented by its depth; empty lists and objects stay closed up in both.
-/

namespace ImportClosure.Json

/-- How a value is spread over lines: on one, or with this indentation per level. -/
abbrev Layout := Option Nat

/-! ## Texts -/

/-- The escape of a UTF-16 code unit by its number. -/
def escapeUnit (n : Nat) : Text := '\\' :: 'u' :: hexDigits 4 n

/-- A code point within a JSON text. -/
def escapeCodePoint (c : CodePoint) : Text :=
  if c = '"' ∨ c = '\\' then ['\\', c]
  else if c = '\n' then ['\\', 'n']
  else if c = '\r' then ['\\', 'r']
  else if c = '\t' then ['\\', 't']
  else if c.val = 8 then ['\\', 'b']
  else if c.val = 12 then ['\\', 'f']
  else if 0x20 ≤ c.val ∧ c.val < 0x7F then [c]
  else if c.val < 0x10000 then escapeUnit c.val
  else
    escapeUnit (0xD800 + (c.val - 0x10000) / 0x400)
      ++ escapeUnit (0xDC00 + (c.val - 0x10000) % 0x400)

/-- A text between double quotes. -/
def printText (t : Text) : Text :=
  '"' :: (t.flatMap escapeCodePoint ++ (['"'] : Text))

/-! ## Values -/

/-- What stands between a bracket and the items at this depth. -/
def lineBreak (layout : Layout) (depth : Nat) : Text :=
  match layout with
  | none => []
  | some width => '\n' :: List.replicate (width * depth) ' '

/-- What stands between two items at this depth. -/
def separator (layout : Layout) (depth : Nat) : Text :=
  match layout with
  | none => [',', ' ']
  | some _ => ',' :: lineBreak layout depth

mutual

/-- A value whose items stand at depth `depth + 1`. -/
def printAt (layout : Layout) (depth : Nat) : Json → Text
  | null => "null"
  | bool true => "true"
  | bool false => "false"
  | int i => Text.ofInt i
  | float x => x.renderWith "Infinity" "NaN"
  | text t => printText t
  | list [] => ['[', ']']
  | list (item :: items) =>
    '[' :: (lineBreak layout (depth + 1) ++ printAt layout (depth + 1) item
      ++ printItems layout (depth + 1) items ++ lineBreak layout depth ++ ([']'] : Text))
  | object [] => ['{', '}']
  | object (field :: fields) =>
    '{' :: (lineBreak layout (depth + 1) ++ printText field.1 ++ ([':', ' '] : Text)
      ++ printAt layout (depth + 1) field.2 ++ printFields layout (depth + 1) fields
      ++ lineBreak layout depth ++ (['}'] : Text))

/-- Further items of a list, each after a separator. -/
def printItems (layout : Layout) (depth : Nat) : List Json → Text
  | [] => []
  | item :: items =>
    separator layout depth ++ printAt layout depth item ++ printItems layout depth items

/-- Further fields of an object, each after a separator. -/
def printFields (layout : Layout) (depth : Nat) : List (Text × Json) → Text
  | [] => []
  | field :: fields =>
    separator layout depth ++ printText field.1 ++ ([':', ' '] : Text)
      ++ printAt layout depth field.2 ++ printFields layout depth fields

end

/-- The JSON text of a value. -/
def print (layout : Layout) (j : Json) : Text := printAt layout 0 j

end ImportClosure.Json
