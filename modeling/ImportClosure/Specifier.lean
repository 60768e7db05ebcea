import ImportClosure.Text.Set
import ImportClosure.Path
/-!
Module specifiers and what is found in one source file.

A specifier is *local* if it begins like a path: with `/`, `./` or `../`. Every other one names
a package, a mapped prefix such as `@services/x` included. The empty specifier names nothing
and is never recorded.
-/

namespace ImportClosure

/-- The specifier names a file rather than a package. -/
def Text.isLocalSpecifier (s : Text) : Bool :=
  [Path.slash].isPrefixOf s || [Path.dot, Path.slash].isPrefixOf s
    || [Path.dot, Path.dot, Path.slash].isPrefixOf s

/-- The specifiers of one source file. -/
structure Specifiers where
  /-- Those that name files. -/
  files : TextSet
  /-- Those that name packages. -/
  packages : TextSet

namespace Specifiers

/-- No specifiers. -/
def none : Specifiers := ⟨∅, ∅⟩

instance : EmptyCollection Specifiers := ⟨none⟩
instance : Inhabited Specifiers := ⟨∅⟩

/-- Records a specifier on its side; an absent or empty one is no specifier. -/
def register (m : Specifiers) : Option Text → Specifiers
  | Option.none => m
  | some s =>
    if s = [] then m
    else if s.isLocalSpecifier then { m with files := m.files.insert s }
    else { m with packages := m.packages.insert s }

/-- Records specifiers one after another. -/
def registerAll (m : Specifiers) (found : List (Option Text)) : Specifiers :=
  found.foldl register m

end Specifiers

/-- What reading one source text gives: its specifiers, or the reason it cannot be read. -/
structure Extraction where
  /-- The specifiers found. -/
  specifiers : Specifiers
  /-- The reason the text is not accepted. -/
  fault : Option Text

namespace Extraction

/-- The text was read. -/
def found (m : Specifiers) : Extraction := ⟨m, none⟩

/-- The text was refused. -/
def refused (reason : Text) : Extraction := ⟨∅, some reason⟩

end Extraction

end ImportClosure
