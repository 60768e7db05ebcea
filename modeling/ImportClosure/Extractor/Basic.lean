import ImportClosure.Log.Record
import ImportClosure.Syntax.Parser
import ImportClosure.Syntax.Specifiers
import ImportClosure.Text.Utf8
/-!
Extractors: from a source text to its specifiers.

An extractor goes by the name of the grammar it stands for and by a name of its own. The ones
made from a parser hand it the bytes of the text, which do not exist for a text with a
surrogate, and read the specifiers off the tree.
-/

namespace ImportClosure

/-- A way to find the specifiers of a source text. -/
structure Extractor where
  /-- The grammar it is for. -/
  variant : Text
  /-- What it is called. -/
  name : Text
  /-- The specifiers of a text. -/
  extract : Text → Except Text.Unencodable Extraction
  /-- It has a grammar, which is loaded when it is first used. -/
  hasGrammar : Bool

namespace Extractor

/-- The name of the extractor of a grammar. -/
def grammarName : Variant → Text
  | .javascript => "JavaScriptExtractor"
  | .typescript => "TypeScriptExtractor"

/-- The extractor that reads the specifiers off the tree a parser gives. -/
def ofParser (v : Variant) (parse : Text → SyntaxNode) : Extractor where
  variant := v.name
  name := grammarName v
  extract := fun content => do
    let _ ← Utf8.encode content
    pure ((parse content).extract v)
  hasGrammar := true

/-- The extractor of a grammar. -/
def grammar (v : Variant) : Extractor := ofParser v (SyntaxNode.ofText v)

/-- The package that provides a grammar. -/
def grammarPackage (v : Variant) : Text := "tree-sitter-" ++ v.name

/-- The extractor of a grammar that is not installed, for this reason. -/
def withoutGrammar (v : Variant) (why : Text) : Extractor where
  variant := v.name
  name := grammarName v
  extract := fun _ => .ok (.refused ("Please install " ++ grammarPackage v ++ " to use "
    ++ v.name ++ " in check files (" ++ why ++ ")"))
  hasGrammar := false

/-- What is reported when the grammar is loaded. -/
def loading (x : Extractor) : List LogRecord :=
  if x.hasGrammar then
    [⟨.debug, LogSource.grammar, "Loaded " ++ x.variant ++ " grammar for " ++ x.name, none, []⟩]
  else []

end Extractor

end ImportClosure
