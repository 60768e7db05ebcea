import ImportClosure.Extractor.Basic
import ImportClosure.OrderedMap
/-!
The extractors in use, by the name of the grammar they are for.

Registering a second extractor for a grammar replaces the first. A grammar without an extractor
is no failure of the program: its sources are refused with a reason, like sources that do not
parse.
-/

namespace ImportClosure

/-- Extractors by grammar, and the grammars that were loaded so far. -/
structure Registry where
  /-- The extractor of each grammar. -/
  extractors : OrderedMap Text Extractor
  /-- The grammars whose extractors were used since they were registered. -/
  loaded : List Text

namespace Registry

/-- No extractors. -/
def empty : Registry := ⟨∅, []⟩

/-- The extractor of a grammar. -/
def get? (g : Registry) (variant : Text) : Option Extractor := g.extractors.get? variant

/-- The registry with one more extractor, or another one for its grammar. -/
def register (g : Registry) (x : Extractor) : Registry :=
  ⟨g.extractors.insert x.variant x, g.loaded.filter (· ≠ x.variant)⟩

/-- What is reported when an extractor is registered. -/
def registerLog (g : Registry) (x : Extractor) : List LogRecord :=
  (if g.extractors.contains x.variant then
    [⟨.debug, LogSource.registry,
      "Replacing extractor for '" ++ x.variant ++ "' with '" ++ x.name ++ "'", none, []⟩]
  else [])
    ++ [⟨.debug, LogSource.registry,
      "Registered extractor '" ++ x.name ++ "' for variant '" ++ x.variant ++ "'", none, []⟩]

/-- The registry with these extractors, registered in turn. -/
def ofList (xs : List Extractor) : Registry := xs.foldl register empty

/-- What is reported when these extractors are registered in turn. -/
def registerAllLog (g : Registry) : List Extractor → List LogRecord
  | [] => []
  | x :: xs => g.registerLog x ++ registerAllLog (g.register x) xs

/-- What is said of a value of some type that is offered as an extractor and is none. -/
def notAnExtractor (typeName : Text) : Text :=
  "Extractor must be a SpecifierExtractor instance, got " ++ typeName

/-- The grammars with an extractor, ascending. -/
def variants (g : Registry) : List Text := (TextSet.ofList g.extractors.keys).toList

/-- The number of grammars with an extractor. -/
def count (g : Registry) : Nat := g.extractors.size

/-- The specifiers of a text in a grammar of this name. -/
def extract (g : Registry) (content variant : Text) : Except Text.Unencodable Extraction :=
  match g.get? variant with
  | none => .ok (.refused ("Unsupported source variant: " ++ variant))
  | some x => x.extract content

/-- What is reported when the extractor of a grammar is used. -/
def useLog (g : Registry) (variant : Text) : List LogRecord :=
  match g.get? variant with
  | none => []
  | some x => if g.loaded.contains variant then [] else x.loading

/-- The registry after the extractor of a grammar was used. -/
def use (g : Registry) (variant : Text) : Registry :=
  if g.loaded.contains variant ∨ g.get? variant = none then g
  else { g with loaded := variant :: g.loaded }

end Registry

end ImportClosure
