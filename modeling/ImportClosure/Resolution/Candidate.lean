import ImportClosure.Storage.Reader
import ImportClosure.Variant
/-!
From a local specifier to a file.

A specifier is joined onto the directory of the file it stands in, leading slashes dropped, so
that it never leaves the tree of that file by being absolute. The candidate found in this way is
asked for as it is if it has an extension, and otherwise with the suffixes of the referring
file's grammar, the first readable one being taken.
-/

namespace ImportClosure

/-- A file that can be read, and the grammar its path tells. -/
structure SourceFile where
  /-- The normalized path. -/
  path : Text
  /-- The text. -/
  content : Text
  /-- The grammar, if the extension tells one. -/
  variant : Option Variant
deriving DecidableEq

namespace Candidate

/-- The candidate path of a specifier in a file of this directory. -/
def ofSpecifier (directory specifier : Text) : Text :=
  Path.normalize (Path.join directory (specifier.dropWhile (· = Path.slash)))

/-- The paths asked for in turn. -/
def attempts (referrer : Variant) (candidate : Text) : List Text :=
  if Path.extension candidate = [] then referrer.fallbacks.map (candidate ++ ·) else [candidate]

/-- The file at a path, if it can be read. -/
def readable? (r : Reader) (path : Text) : Option SourceFile :=
  match r.read path with
  | .ok content => some ⟨path, content, Variant.ofPath? path⟩
  | .error _ => none

/-- The file a candidate leads to. -/
def find? (r : Reader) (referrer : Variant) (candidate : Text) : Option SourceFile :=
  (attempts referrer candidate).findSome? (readable? r)

end Candidate

end ImportClosure
