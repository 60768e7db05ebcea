import ImportClosure.Path
/-!
The two grammars a source file can be written in.

A file's grammar is told by the extension of its path. A specifier without an extension is
tried with the suffixes of the grammar of the file it stands in: TypeScript files may pull in
plain scripts, plain scripts never pick up TypeScript files.
-/

namespace ImportClosure

/-- A source grammar. -/
inductive Variant where
  /-- Plain scripts. -/
  | javascript
  /-- The typed superset. -/
  | typescript
deriving DecidableEq, Repr

namespace Variant

/-- The name a grammar goes by. -/
def name : Variant → Text
  | javascript => "javascript"
  | typescript => "typescript"

/-- The grammar of this name. -/
def ofName? (t : Text) : Option Variant :=
  if t = javascript.name then some javascript
  else if t = typescript.name then some typescript
  else none

/-- The extension of the files written in a grammar. -/
def suffix : Variant → Text
  | javascript => [Path.dot, 'j', 's']
  | typescript => [Path.dot, 't', 's']

/-- The suffixes tried, in order, for a specifier without an extension. -/
def fallbacks : Variant → List Text
  | javascript => [javascript.suffix]
  | typescript => [typescript.suffix, javascript.suffix]

/-- The grammar a path's extension tells, if it tells one. -/
def ofPath? (p : Text) : Option Variant :=
  let ext := Path.extension p
  if ext = javascript.suffix then some javascript
  else if ext = typescript.suffix then some typescript
  else none

end Variant

end ImportClosure
