import ImportClosure.Text.Basic
/-!
Paths as texts with slashes.

`Path.normalize` removes empty and `.` components and lets `..` cancel the component before it.
One or two leading slashes are kept as they are, three or more count as one; above a root there
is nothing, so a leading `..` stays only in a relative path. The empty path is `.`.

Nothing here looks at a disk: a path is normalized by its spelling alone.
-/

namespace ImportClosure.Path

/-- The separator of components. -/
def slash : CodePoint := '/'

/-- The dot, which marks an extension. -/
def dot : CodePoint := '.'

/-! ## Normal forms -/

/-- The number of leading slashes a normalized path keeps: none, one or two. -/
def rootSlashes (p : Text) : Nat :=
  let n := (p.takeWhile (· = slash)).length
  if n = 2 then 2 else min n 1

/-- Extends a list of components, last first, by one component. -/
def pushComponent (rooted : Bool) (done : List Text) (component : Text) : List Text :=
  if component = [] ∨ component = [dot] then done
  else if component = [dot, dot] then
    match done with
    | [] => if rooted then [] else [component]
    | last :: before => if last = [dot, dot] then component :: done else before
  else component :: done

/-- The components left of a list of components. -/
def collapse (rooted : Bool) (components : List Text) : List Text :=
  (components.foldl (pushComponent rooted) []).reverse

/-- The path with `slashes` leading slashes and these components. -/
def render (slashes : Nat) (components : List Text) : Text :=
  match List.replicate slashes slash ++ Text.joinWith [slash] components with
  | [] => [dot]
  | p => p

/-- The normal form of a path. -/
def normalize (p : Text) : Text :=
  render (rootSlashes p) (collapse (0 < rootSlashes p) (p.splitOn slash))

/-- The path without empty components and dots; unlike in the normal form, `..` cancels
nothing. -/
def clean (p : Text) : Text :=
  render (rootSlashes p) ((p.splitOn slash).filter (fun c => c ≠ [] && c ≠ [dot]))

/-! ## Parts of a path -/

/-- The part after the last slash. -/
def lastComponent (p : Text) : Text :=
  (p.reverse.takeWhile (· ≠ slash)).reverse

/-- The part up to the last slash, without slashes at its end unless there is nothing else. -/
def directory (p : Text) : Text :=
  let head := (p.reverse.dropWhile (· ≠ slash)).reverse
  if head.all (· = slash) then head else Text.dropEndWhile (· = slash) head

/-- The part of the last component from its last dot on, provided that something else than dots
stands before that dot. -/
def extension (p : Text) : Text :=
  let name := lastComponent p
  let stem := (name.reverse.dropWhile (· ≠ dot)).tail.reverse
  if stem.all (· = dot) then [] else name.drop stem.length

/-- The path `p` seen from the directory `d`. -/
def join (d p : Text) : Text :=
  if p.head? = some slash then p
  else if d = [] ∨ d.getLast? = some slash then d ++ p
  else d ++ slash :: p

end ImportClosure.Path
