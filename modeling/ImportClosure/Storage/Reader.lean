import ImportClosure.Log.Record
import ImportClosure.Text.Quoted
/-!
Access to source text by path.

The walk needs one thing of a storage: the text at a path, or the reason why there is none.
`Reader.paths` lists candidates for the normalized paths that can be read; a reader is finite if
the list is complete, and the walk takes its bound from the list's length.
-/

namespace ImportClosure

/-- Why a path cannot be read. -/
inductive ReadFailure where
  /-- There is no regular file. -/
  | noSuchFile (path : Text)
  /-- The file is larger than it may be. -/
  | tooLarge (path : Text) (size : Nat) (limit : Int)
  /-- The path, or one of its components, is longer than any name on a disk. -/
  | nameTooLong (path : Text)
deriving DecidableEq

namespace ReadFailure

/-- The failure in words. -/
def message : ReadFailure → Text
  | noSuchFile path => "No such file: " ++ path
  | tooLarge path size limit =>
    path ++ " is " ++ Text.ofNat size ++ " bytes, larger than " ++ Text.ofInt limit
  | nameTooLong path => "[Errno 36] File name too long: " ++ path.quoted

end ReadFailure

/-- A storage, as the walk sees it. -/
structure Reader where
  /-- The text at a path. -/
  read : Text → Except ReadFailure Text
  /-- Candidates for the normalized paths with a text. -/
  paths : List Text
  /-- What is reported when a path is asked for. -/
  notes : Text → List LogRecord

end ImportClosure
