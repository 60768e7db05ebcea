import ImportClosure.Calendar
import ImportClosure.Json.Printer
import ImportClosure.Log.Record
import ImportClosure.OrderedMap
import ImportClosure.Value.Printer
/-!
Log records as lines.

In a log file a record is a JSON object on a line of its own. Its own fields come first; a further
field that has the name of one of them takes its place. On a console the moment, the name of the
part, the level and the message stand side by side, and an exception follows on the next line.
-/

namespace ImportClosure

/-- What is said of an exception: its kind, and what it was made with. One thing is shown by
itself, several are shown as a row; a key that was not found is shown quoted. -/
def exceptionText (kind : Text) (arguments : List Value) : Text :=
  let what : Text := match arguments with
    | [] => []
    | [v] => if kind = Text.ofString "KeyError" then v.literal else v.plain
    | vs => (Value.row vs).literal
  if what = [] then kind else kind ++ ": " ++ what

namespace LogRecord

/-- The moment of a record in a log file, at the zero meridian. -/
def timestamp (now : Moment) : Text :=
  now.date.joined "-" ++ "T" ++ ({ now.time with ahead := some 0 } : TimeOfDay).precise

/-- The fields of a record by their names. -/
def fields (now : Moment) (r : LogRecord) : OrderedMap Text Json :=
  let own : List (String × Text) :=
    [("timestamp", timestamp now), ("level", LogLevel.name r.level), ("logger", r.source),
      ("message", r.message)] ++ (r.exception.map fun e => ("exception", e)).toList
  .ofList (own.map (fun f => (Text.ofString f.1, Json.text f.2)) ++ r.extra)

/-- A record as it stands in a log file, its line end apart. -/
def fileLine (now : Moment) (r : LogRecord) : Text :=
  (Json.object (r.fields now).entries).print none

/-- The text with that of an exception on the next line. -/
def withException (r : LogRecord) (t : Text) : Text :=
  match r.exception with
  | none => t
  | some e => t ++ (if t.getLast? = some (CodePoint.ofChar '\n') then [] else "\n") ++ e

/-- A record as it stands on a console, its line end apart. -/
def consoleLine (now : Moment) (r : LogRecord) : Text :=
  r.withException (Text.joinWith " - "
    [now.date.joined "-" ++ " " ++ now.time.clock, r.source, LogLevel.name r.level, r.message])

/-- A record where no log is set up. -/
def bareLine (r : LogRecord) : Text := r.withException r.message

end LogRecord

end ImportClosure
