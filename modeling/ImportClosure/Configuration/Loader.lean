import ImportClosure.Value.Basic
/-!
Loaders.

How a text spells a value is not the matter of a configuration. A configuration is given a loader
and takes from it what the text of its file comes to: a value, or why there is none. A loader
refuses a text in words of its own; whatever else it breaks off with is no refusal, such as a day
that no month has.

A loader takes a long file piece by piece, and a piece is made a text when it is taken. So it may
have found a fault in the text before it comes to bytes that are none (`Loader.early?`).
-/

namespace ImportClosure

/-- Why a text has no value. -/
inductive LoadFailure where
  /-- The loader refuses the text and says why. -/
  | refused (why : Text)
  /-- A value cannot be made; the failure has a kind and a message of its own. -/
  | unmakeable (kind message : Text)

/-- What becomes of the content of files. What a loader says may name the path of the file. -/
structure Loader where
  /-- The value that the text of a file spells. -/
  load (path t : Text) : Except LoadFailure Value
  /-- How the loader fails, for a file whose bytes are no text, before it comes to the bytes that
  are none; if it does not fail before. -/
  early? (path : Text) (content : Bytes) : Option LoadFailure

end ImportClosure
